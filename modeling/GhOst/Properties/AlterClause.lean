import Mathlib.Data.List.TakeWhile
import GhOst.Infra.RegexpMatches
import GhOst.Sql.Parser

/-!
# Clauses `ALTER TABLE name options`

`ParseAlterStatement` looks for a clause in six forms, anywhere in the text: first the four with a
schema, then the two without. A clause of a form is described here without reference to the
expressions, and a form stands in a text if its clause is somewhere in it, up to the text's end.
-/

namespace GhOst.Sql.AlterPrefix

open Infra Infra.Regexp

/-! ## Clauses -/

inductive Spelling where
  | quoted
  | plain
deriving DecidableEq, Repr

def Spelling.regexp (i : Nat) : Spelling → Regexp
  | .quoted => backquoted i
  | .plain => .group i (plus nonSpace)

/-- The name that the expression reads from a text. -/
def Spelling.Reads : Spelling → (text name : List Char) → Prop
  | .quoted, text, name => text = '\x60' :: (name ++ ['\x60']) ∧ name ≠ [] ∧ '\x60' ∉ name
  | .plain, text, name => text = name ∧ name ≠ [] ∧ ∀ c ∈ name, isSpace c = false

/-- How the schema, if there is one, and the table are spelled. -/
structure Form where
  schema : Option Spelling
  table : Spelling
deriving DecidableEq, Repr

def Form.regexp : Form → Regexp
  | ⟨some a, b⟩ =>
    alterTable <| .seq (a.regexp 1) <| .seq (literal ['.']) <| .seq (b.regexp 2) (options 3)
  | ⟨none, b⟩ => alterTable <| .seq (b.regexp 1) (options 2)

/-- The forms with a schema, in the order in which they are tried. -/
def schemaForms : List Form :=
  [⟨some .quoted, .quoted⟩, ⟨some .quoted, .plain⟩, ⟨some .plain, .quoted⟩, ⟨some .plain, .plain⟩]

def tableForms : List Form := [⟨none, .quoted⟩, ⟨none, .plain⟩]

theorem tableRegexps_eq : alterTableExplicitTableRegexps = tableForms.map Form.regexp := rfl

def Spaces (w : List Char) : Prop := w ≠ [] ∧ ∀ c ∈ w, isSpace c = true

/-- `alter table`, in any case and with any spaces, up to the name. -/
def Head (head : List Char) : Prop :=
  ∃ alter sp table sp', head = alter ++ (sp ++ (table ++ sp')) ∧ Spelled "alter".toList alter ∧
    Spaces sp ∧ Spelled "table".toList table ∧ Spaces sp'

def Form.Reads : Form → (text schema table : List Char) → Prop
  | ⟨some a, b⟩, text, schema, table =>
    ∃ s t, text = s ++ '.' :: t ∧ a.Reads s schema ∧ b.Reads t table
  | ⟨none, b⟩, text, schema, table => schema = [] ∧ b.Reads text table

/-- What follows `alter table`: a name, spaces, and the options on one line. -/
def Form.Tail (form : Form) (text schema table opts : List Char) : Prop :=
  ∃ name sp, text = name ++ (sp ++ opts) ∧ form.Reads name schema table ∧ Spaces sp ∧ '\n' ∉ opts

/-- **A clause of the form stands in the text.** -/
def Form.Stands (form : Form) (text : List Char) : Prop :=
  ∃ a head tail schema table opts, text = a ++ (head ++ tail) ∧ a.getLast?.any isWord = false ∧
    Head head ∧ form.Tail tail schema table opts

def Form.groups (form : Form) (schema table opts : List Char) : List (Nat × List Char) :=
  match form.schema with
  | some _ => [(1, schema), (2, table), (3, opts)]
  | none => [(1, table), (2, opts)]

/-! ## Runs of characters -/

section Runs

variable {p : Char → Bool} {a a' b b' : List Char}

theorem takeWhile_stops (ha : ∀ c ∈ a, p c = true) (hb : ∀ c, b.head? = some c → p c = false) :
    (a ++ b).takeWhile p = a := by
  rw [List.takeWhile_append_of_pos ha]
  cases b with
  | nil => rw [List.takeWhile_nil, List.append_nil]
  | cons c b =>
    rw [List.takeWhile_cons_of_neg (by rw [hb c rfl]; exact Bool.false_ne_true), List.append_nil]

theorem run_cancel (h : a ++ b = a' ++ b') (ha : ∀ c ∈ a, p c = true) (ha' : ∀ c ∈ a', p c = true)
    (hb : ∀ c, b.head? = some c → p c = false) (hb' : ∀ c, b'.head? = some c → p c = false) :
    a = a' ∧ b = b' := by
  have hrun : a = a' := by rw [← takeWhile_stops ha hb, h, takeWhile_stops ha' hb']
  subst hrun
  exact ⟨rfl, List.append_cancel_left h⟩

theorem append_cons_cases {a a' b b' : List Char} {c c' : Char} (h : a ++ c :: b = a' ++ c' :: b') :
    (a = a' ∧ c = c' ∧ b = b') ∨ (∃ x, a = a' ++ c' :: x ∧ b' = x ++ c :: b) ∨
      ∃ x, a' = a ++ c :: x ∧ b = x ++ c' :: b' := by
  rcases List.append_eq_append_iff.mp h with ⟨x, hx, hrest⟩ | ⟨x, hx, hrest⟩
  · cases x with
    | nil =>
      rw [List.append_nil] at hx
      obtain ⟨rfl, rfl⟩ := List.cons.inj hrest
      exact .inl ⟨hx.symm, rfl, rfl⟩
    | cons d x =>
      obtain ⟨rfl, rfl⟩ := List.cons.inj hrest
      exact .inr (.inr ⟨x, hx, rfl⟩)
  · cases x with
    | nil =>
      rw [List.append_nil] at hx
      obtain ⟨rfl, rfl⟩ := List.cons.inj hrest
      exact .inl ⟨hx, rfl, rfl⟩
    | cons d x =>
      obtain ⟨rfl, rfl⟩ := List.cons.inj hrest
      exact .inr (.inl ⟨x, hx, rfl⟩)

theorem Spaces.head {sp rest : List Char} (h : Spaces sp) :
    ∀ c, (sp ++ rest).head? = some c → isSpace c = true := by
  intro c hc
  cases sp with
  | nil => exact absurd rfl h.1
  | cons d sp => exact h.2 c (Option.some.inj hc ▸ List.mem_cons_self)

theorem isSpace_of_isWord {c : Char} (h : isWord c = true) : isSpace c = false := by
  by_contra hspace
  rw [Bool.not_eq_false] at hspace
  have hcases : c = ' ' ∨ c = '\t' ∨ c = '\n' ∨ c = '\x0c' ∨ c = '\r' := by
    simpa [isSpace, or_assoc] using hspace
  rcases hcases with rfl | rfl | rfl | rfl | rfl <;> exact absurd h (by decide)

theorem Head.cancel {head head' : List Char} (hhead : Head head) (hhead' : Head head')
    (h : head ++ b = head' ++ b') (hb : ∀ c, b.head? = some c → isSpace c = false)
    (hb' : ∀ c, b'.head? = some c → isSpace c = false) : head = head' ∧ b = b' := by
  have hword {w kw rest : List Char} (hw : ∀ c ∈ w, isWord c = true ∧ c ≠ 's' ∧ c ≠ 'k')
      (hne : w ≠ []) (hkw : Spelled w kw) :
      ∀ c, (kw ++ rest).head? = some c → isSpace c = false := by
    intro c hc
    cases hkw with
    | nil => exact absurd rfl hne
    | cons hd htl =>
      obtain rfl := Option.some.inj hc
      exact isSpace_of_isWord (isWord_of_spelled (.cons hd htl) hw _ List.mem_cons_self)
  obtain ⟨al, sp, tb, sp', rfl, hal, hsp, htb, hsp'⟩ := hhead
  obtain ⟨al₀, sp₀, tb₀, sp₀', rfl, hal₀, hsp₀, htb₀, hsp₀'⟩ := hhead'
  simp only [List.append_assoc] at h
  obtain ⟨rfl, h₁⟩ := List.append_inj h (hal.length_eq.symm.trans hal₀.length_eq)
  obtain ⟨rfl, h₂⟩ := run_cancel h₁ hsp.2 hsp₀.2 (hword (forall_mem_of_all (by decide))
    (by decide) htb)
    (hword (forall_mem_of_all (by decide)) (by decide) htb₀)
  obtain ⟨rfl, h₃⟩ := List.append_inj h₂ (htb.length_eq.symm.trans htb₀.length_eq)
  obtain ⟨rfl, h₄⟩ := run_cancel h₃ hsp'.2 hsp₀'.2 hb hb'
  exact ⟨rfl, h₄⟩

end Runs

/-! ## What the expressions match -/

section Expressions

variable {prev : Option Char} {s : List Char} {m : Match}
variable {i : Nat} {opts : List Char} {form : Form}

theorem mem_run_spelling {a : Spelling} : m ∈ (a.regexp i).run prev s ↔
    ∃ text name rest, s = text ++ rest ∧ a.Reads text name ∧
      m = { taken := text, rest, groups := [(i, name)] } := by
  cases a with
  | plain =>
    rw [Spelling.regexp, mem_run_group]
    constructor
    · rintro ⟨m', hm', rfl⟩
      obtain ⟨w, rest, rfl, hne, hw, rfl⟩ := mem_run_plus.mp hm'
      refine ⟨w, w, rest, rfl, ⟨rfl, hne, fun c hc => ?_⟩, rfl⟩
      have hc' := hw c hc
      rwa [nonSpace, Bool.not_eq_true'] at hc'
    · rintro ⟨text, name, rest, rfl, ⟨rfl, hne, hw⟩, rfl⟩
      refine ⟨{ taken := text, rest }, mem_run_plus.mpr ⟨text, rest, rfl, hne, ?_, rfl⟩, rfl⟩
      intro c hc
      rw [nonSpace, hw c hc]
      rfl
  | quoted =>
    rw [Spelling.regexp, backquoted, mem_run_seq]
    constructor
    · rintro ⟨m₁, hm₁, m₂, hm₂, rfl⟩
      obtain ⟨rest₁, rfl, rfl⟩ := mem_run_literal.mp hm₁
      obtain ⟨m₃, hm₃, m₄, hm₄, rfl⟩ := mem_run_seq.mp hm₂
      obtain ⟨m₅, hm₅, rfl⟩ := mem_run_group.mp hm₃
      obtain ⟨w, rest₂, hrest₁, hne, hw, rfl⟩ := mem_run_plus.mp hm₅
      obtain ⟨rest, hrest₂, rfl⟩ := mem_run_literal.mp hm₄
      dsimp only at hrest₁ hrest₂
      subst hrest₁ hrest₂
      refine ⟨'\x60' :: (w ++ ['\x60']), w, rest, by simp, ⟨rfl, hne, fun hmem => ?_⟩, by
        simp [Match.append]⟩
      exact absurd (hw _ hmem) (by decide)
    · rintro ⟨text, name, rest, rfl, ⟨rfl, hne, hmem⟩, rfl⟩
      refine ⟨_, mem_run_literal.mpr ⟨name ++ '\x60' :: rest, by simp, rfl⟩,
        { taken := name ++ ['\x60'], rest, groups := [(i, name)] }, ?_, by simp [Match.append]⟩
      refine mem_run_seq.mpr ⟨{ taken := name, rest := '\x60' :: rest, groups := [(i, name)] },
        mem_run_group.mpr ⟨{ taken := name, rest := '\x60' :: rest },
          mem_run_plus.mpr ⟨name, '\x60' :: rest, rfl, hne, fun c hc => ?_, rfl⟩, rfl⟩,
        { taken := ['\x60'], rest }, mem_run_literal.mpr ⟨rest, rfl, rfl⟩, by simp [Match.append]⟩
      exact decide_eq_true fun h => hmem (h ▸ hc)

theorem mem_run_line :
    m ∈ (group i (.seq (.many (· ≠ '\n')) .endOfText)).run prev s ↔
      '\n' ∉ s ∧ m = { taken := s, rest := [], groups := [(i, s)] } := by
  rw [mem_run_group]
  constructor
  · rintro ⟨m', hm', rfl⟩
    obtain ⟨m₁, hm₁, m₂, hm₂, rfl⟩ := mem_run_seq.mp hm'
    obtain ⟨w, rest, rfl, hw, rfl⟩ := mem_runMany.mp hm₁
    obtain ⟨hnil, rfl⟩ := mem_run_endOfText.mp hm₂
    dsimp only at hnil
    subst hnil
    refine ⟨fun hmem => ?_, by simp [Match.append]⟩
    rw [List.append_nil] at hmem
    exact absurd (hw _ hmem) (by decide)
  · rintro ⟨hline, rfl⟩
    refine ⟨{ taken := s, rest := [] }, mem_run_seq.mpr ⟨{ taken := s, rest := [] },
      mem_runMany.mpr ⟨s, [], (List.append_nil s).symm, fun c hc => ?_, rfl⟩,
      { taken := [], rest := [] }, mem_run_endOfText.mpr ⟨rfl, rfl⟩, by simp [Match.append]⟩, rfl⟩
    exact decide_eq_true fun h => hline (h ▸ hc)

theorem run_options_ne_nil {sp : List Char} (hsp : Spaces sp) (hline : '\n' ∉ opts) :
    (options i).run prev (sp ++ opts) ≠ [] := by
  refine List.ne_nil_of_mem
    (mem_run_seq.mpr ⟨_, mem_run_plus.mpr ⟨sp, opts, rfl, hsp.1, hsp.2, rfl⟩,
    _, mem_run_line.mpr ⟨hline, rfl⟩, rfl⟩)

theorem first_options (h : (options i).first prev s = some m) :
    ∃ sp opts, s = sp ++ opts ∧ Spaces sp ∧ '\n' ∉ opts ∧
      (∀ c, opts.head? = some c → isSpace c = false) ∧
      m = { taken := s, rest := [], groups := [(i, opts)] } := by
  obtain ⟨m₁, hm₁, m₂, hm₂, -⟩ := mem_run_seq.mp (mem_of_first h)
  obtain ⟨sp, opts, rfl, hne, hsp, rfl⟩ := mem_run_plus.mp hm₁
  have hline := (mem_run_line.mp hm₂).1
  dsimp only at hline
  -- the spaces that the options begin with belong to the run before them
  have hsplit : sp ++ opts = (sp ++ opts.takeWhile isSpace) ++ opts.dropWhile isSpace := by
    rw [List.append_assoc, List.takeWhile_append_dropWhile]
  have hspaces : Spaces (sp ++ opts.takeWhile isSpace) := by
    refine ⟨List.append_ne_nil_of_left_ne_nil hne _, fun c hc => ?_⟩
    rcases List.mem_append.mp hc with hc | hc
    · exact hsp c hc
    · exact List.mem_takeWhile_imp hc
  have hline' : '\n' ∉ opts.dropWhile isSpace :=
    fun hmem => hline ((List.dropWhile_sublist _).mem hmem)
  have hstop : ∀ c, (opts.dropWhile isSpace).head? = some c → isSpace c = false := by
    intro c hc
    have hnot := List.head?_dropWhile_not isSpace opts
    rw [hc] at hnot
    simpa using hnot
  have hfirst : (options i).first prev ((sp ++ opts.takeWhile isSpace) ++ opts.dropWhile isSpace) =
      some { taken := sp ++ opts, rest := [], groups := [(i, opts.dropWhile isSpace)] } := by
    refine (first_seq (first_plus hspaces.1 hspaces.2 hstop) (first_eq_of_unique
      (mem_run_line.mpr ⟨hline', rfl⟩) fun m' hm' => (mem_run_line.mp hm').2)).trans ?_
    rw [hsplit]
    rfl
  rw [hsplit, hfirst] at h
  exact ⟨_, _, hsplit, hspaces, hline', hstop, (Option.some.inj h).symm⟩

theorem first_alterTable {t : Regexp} (h : (alterTable t).first prev s = some m) :
    prev.any isWord = false ∧ ∃ head rest q m', Head head ∧ s = head ++ rest ∧
      t.first q rest = some m' ∧
      m = { taken := head ++ m'.taken, rest := m'.rest, groups := m'.groups } := by
  obtain ⟨m₀, hm₀, m₁', h₁, rfl⟩ := first_seq_cases h
  obtain ⟨hboundary, rfl⟩ := mem_run_wordBoundary.mp hm₀
  obtain ⟨m₁, hm₁, m₂', h₂, rfl⟩ := first_seq_cases h₁
  obtain ⟨al, rest₁, hs, hal, rfl⟩ := mem_run_caseless.mp hm₁
  obtain ⟨m₂, hm₂, m₃', h₃, rfl⟩ := first_seq_cases h₂
  obtain ⟨sp, rest₂, rfl, hne, hsp, rfl⟩ := mem_run_plus.mp hm₂
  obtain ⟨m₃, hm₃, m₄', h₄, rfl⟩ := first_seq_cases h₃
  obtain ⟨tb, rest₃, rfl, htb, rfl⟩ := mem_run_caseless.mp hm₃
  obtain ⟨m₄, hm₄, m', h₅, rfl⟩ := first_seq_cases h₄
  obtain ⟨sp', rest, rfl, hne', hsp', rfl⟩ := mem_run_plus.mp hm₄
  dsimp only at hs
  subst hs
  refine ⟨?_, al ++ (sp ++ (tb ++ sp')), rest, _, m',
    ⟨al, sp, tb, sp', rfl, hal, ⟨hne, hsp⟩, htb, ⟨hne', hsp'⟩⟩, by simp only [List.append_assoc],
    h₅,
    by simp [Match.append]⟩
  cases hal with
  | cons hd htl =>
    have hword := isWord_of_spelled (.cons hd htl) (forall_mem_of_all (by decide)) _
      List.mem_cons_self
    rw [List.cons_append, List.head?_cons, Option.any_some, hword] at hboundary
    exact eq_false_of_ne_true hboundary

theorem run_alterTable_ne_nil {t : Regexp} {head rest : List Char} (hprev : prev.any isWord = false)
    (hhead : Head head) (ht : ∀ q, t.run q rest ≠ []) :
    (alterTable t).run prev (head ++ rest) ≠ [] := by
  obtain ⟨al, sp, tb, sp', rfl, hal, hsp, htb, hsp'⟩ := hhead
  simp only [List.append_assoc]
  refine run_seq_ne_nil.mpr ⟨_, mem_run_wordBoundary.mpr ⟨?_, rfl⟩, ?_⟩
  · cases hal with
    | cons hd htl =>
      have hword := isWord_of_spelled (.cons hd htl) (forall_mem_of_all (by decide)) _
        List.mem_cons_self
      rw [hprev, List.cons_append, List.head?_cons, Option.any_some, hword]
      exact Bool.false_ne_true
  refine run_seq_ne_nil.mpr ⟨_, mem_run_caseless.mpr ⟨al, _, rfl, hal, rfl⟩, ?_⟩
  refine run_seq_ne_nil.mpr ⟨_, mem_run_plus.mpr ⟨sp, _, rfl, hsp.1, hsp.2, rfl⟩, ?_⟩
  refine run_seq_ne_nil.mpr ⟨_, mem_run_caseless.mpr ⟨tb, _, rfl, htb, rfl⟩, ?_⟩
  exact run_seq_ne_nil.mpr ⟨_, mem_run_plus.mpr ⟨sp', _, rfl, hsp'.1, hsp'.2, rfl⟩, ht _⟩

theorem first_form (h : form.regexp.first prev s = some m) :
    prev.any isWord = false ∧ ∃ head name sp schema table opts,
      s = head ++ (name ++ (sp ++ opts)) ∧ Head head ∧ form.Reads name schema table ∧ Spaces sp ∧
      '\n' ∉ opts ∧ (∀ c, opts.head? = some c → isSpace c = false) ∧
      m.groups = form.groups schema table opts := by
  match form, h with
  | ⟨some a, b⟩, h =>
    obtain ⟨hprev, head, rest, q, m', hhead, rfl, h₁, rfl⟩ := first_alterTable h
    obtain ⟨m₁, hm₁, m₂', h₂, rfl⟩ := first_seq_cases h₁
    obtain ⟨st, schema, rest₁, rfl, hschema, rfl⟩ := mem_run_spelling.mp hm₁
    obtain ⟨m₂, hm₂, m₃', h₃, rfl⟩ := first_seq_cases h₂
    obtain ⟨rest₂, rfl, rfl⟩ := mem_run_literal.mp hm₂
    obtain ⟨m₃, hm₃, m₄', h₄, rfl⟩ := first_seq_cases h₃
    obtain ⟨tt, table, rest₃, rfl, htable, rfl⟩ := mem_run_spelling.mp hm₃
    obtain ⟨sp, opts, rfl, hsp, hline, hstop, rfl⟩ := first_options h₄
    exact ⟨hprev, head, st ++ '.' :: tt, sp, schema, table, opts, by simp, hhead,
      ⟨st, tt, rfl, hschema, htable⟩, hsp, hline, hstop, rfl⟩
  | ⟨none, b⟩, h =>
    obtain ⟨hprev, head, rest, q, m', hhead, rfl, h₁, rfl⟩ := first_alterTable h
    obtain ⟨m₁, hm₁, m₂', h₂, rfl⟩ := first_seq_cases h₁
    obtain ⟨text, table, rest₁, rfl, htable, rfl⟩ := mem_run_spelling.mp hm₁
    obtain ⟨sp, opts, rfl, hsp, hline, hstop, rfl⟩ := first_options h₂
    exact ⟨hprev, head, text, sp, [], table, opts, rfl, hhead, ⟨rfl, htable⟩, hsp, hline,
      hstop, rfl⟩

theorem run_form_ne_nil {head tail schema table : List Char} (hprev : prev.any isWord = false)
    (hhead : Head head) (htail : form.Tail tail schema table opts) :
    form.regexp.run prev (head ++ tail) ≠ [] := by
  obtain ⟨name, sp, rfl, hname, hsp, hline⟩ := htail
  match form, hname with
  | ⟨some a, b⟩, ⟨st, tt, hst, hschema, htable⟩ =>
    subst hst
    refine run_alterTable_ne_nil hprev hhead fun q => ?_
    simp only [List.append_assoc, List.cons_append]
    refine run_seq_ne_nil.mpr ⟨_, mem_run_spelling.mpr ⟨st, schema, _, rfl, hschema, rfl⟩, ?_⟩
    refine run_literal_seq_ne_nil.mpr ⟨tt ++ (sp ++ opts), rfl, ?_⟩
    refine run_seq_ne_nil.mpr ⟨_, mem_run_spelling.mpr ⟨tt, table, _, rfl, htable, rfl⟩, ?_⟩
    exact run_options_ne_nil hsp hline
  | ⟨none, b⟩, ⟨_, htable⟩ =>
    refine run_alterTable_ne_nil hprev hhead fun q => ?_
    refine run_seq_ne_nil.mpr ⟨_, mem_run_spelling.mpr ⟨name, table, _, rfl, htable, rfl⟩, ?_⟩
    exact run_options_ne_nil hsp hline

/-- **A search for a form finds something exactly if the form stands in the text.** -/
theorem find_eq_none_iff_stands {text : List Char} :
    form.regexp.find none text = none ↔ ¬ form.Stands text := by
  rw [find_eq_none_iff]
  constructor
  · rintro h ⟨a, head, tail, schema, table, opts, rfl, hprev, hhead, htail⟩
    have hnil := h a (head ++ tail) rfl
    rw [Option.or_none] at hnil
    exact run_form_ne_nil hprev hhead htail hnil
  · intro h a b hab
    by_contra hne
    rw [Option.or_none] at hne
    obtain ⟨m, ms, hm⟩ := List.exists_cons_of_ne_nil hne
    have hfirst : form.regexp.first a.getLast? b = some m := by rw [first, hm, List.head?_cons]
    obtain ⟨hprev, head, name, sp, schema, table, opts, rfl, hhead, hname, hsp, hline, -⟩ :=
      first_form hfirst
    exact h ⟨a, head, _, schema, table, opts, hab, hprev, hhead, name, sp, rfl, hname, hsp, hline⟩

theorem first_form_longest {b : Spelling} {head tail schema table : List Char}
    (h : (Form.mk (some .plain) b).regexp.first prev (head ++ tail) = some m) (hhead : Head head)
    (hstart : ∀ c, tail.head? = some c → isSpace c = false)
    (htail : (Form.mk (some .plain) b).Tail tail schema table opts) :
    schema.length ≤ (m.submatch 1).length := by
  obtain ⟨-, head', rest, q, m', hhead', hs, h₁, rfl⟩ := first_alterTable h
  obtain ⟨w, rest', m₂, rfl, hne, hw, -, rfl, hlongest⟩ := first_group_plus_cases h₁
  have hstart' : ∀ c, (w ++ rest').head? = some c → isSpace c = false := by
    intro c hc
    obtain ⟨d, w, rfl⟩ := List.exists_cons_of_ne_nil hne
    obtain rfl := Option.some.inj hc
    have hd := hw d List.mem_cons_self
    rwa [nonSpace, Bool.not_eq_true'] at hd
  obtain ⟨-, rfl⟩ := hhead.cancel hhead' hs hstart hstart'
  obtain ⟨name, sp, hname, ⟨st, tt, rfl, ⟨rfl, hne', hst⟩, htt⟩, hsp, hline⟩ := htail
  refine hlongest st ('.' :: (tt ++ (sp ++ opts))) (by simpa using hname) hne' (fun c hc => ?_) ?_
  · rw [nonSpace, hst c hc]
    rfl
  · refine run_literal_seq_ne_nil.mpr ⟨tt ++ (sp ++ opts), rfl, ?_⟩
    refine run_seq_ne_nil.mpr ⟨_, mem_run_spelling.mpr ⟨tt, table, _, rfl, htt, rfl⟩, ?_⟩
    exact run_options_ne_nil hsp hline

theorem findStringSubmatch_cases {text : List Char}
    (h : form.regexp.findStringSubmatch text = some m) :
    ∃ a head name sp schema table opts, text = a ++ (head ++ (name ++ (sp ++ opts))) ∧ Head head ∧
      form.Reads name schema table ∧ Spaces sp ∧ '\n' ∉ opts ∧
      (∀ c, opts.head? = some c → isSpace c = false) ∧
        m.groups = form.groups schema table opts := by
  obtain ⟨⟨a, m'⟩, hfind, rfl⟩ := Option.map_eq_some_iff.mp h
  obtain ⟨b, rfl, hfirst⟩ := find_cases hfind
  obtain ⟨-, head, name, sp, schema, table, opts, rfl, hrest⟩ := first_form hfirst
  exact ⟨a, head, name, sp, schema, table, opts, rfl, hrest⟩

end Expressions

/-! ## The forms in turn -/

section Forms

variable {forms : List Form} {text : List Char} {m : Match}

theorem firstSubmatch_eq_none : AlterTableParser.firstSubmatch (forms.map Form.regexp) text = none ↔
    ∀ form ∈ forms, ¬ form.Stands text := by
  rw [AlterTableParser.firstSubmatch, List.findSome?_eq_none_iff]
  simp only [List.mem_map, forall_exists_index, and_imp, forall_apply_eq_imp_iff₂,
    findStringSubmatch, Option.map_eq_none_iff, find_eq_none_iff_stands]

theorem firstSubmatch_cases
    (h : AlterTableParser.firstSubmatch (forms.map Form.regexp) text = some m) :
    ∃ form ∈ forms, (∀ f ∈ forms.takeWhile (· ≠ form), ¬ f.Stands text) ∧
      form.regexp.findStringSubmatch text = some m := by
  induction forms with
  | nil => cases h
  | cons f forms ih =>
    rw [List.map_cons, AlterTableParser.firstSubmatch, List.findSome?_cons] at h
    split at h
    · next m' hm' =>
      obtain rfl := Option.some.inj h
      refine ⟨f, List.mem_cons_self, ?_, hm'⟩
      rw [List.takeWhile_cons_of_neg (by simp)]
      exact nofun
    · next hnone =>
      obtain ⟨form, hform, hbefore, hm⟩ := ih h
      refine ⟨form, List.mem_cons_of_mem _ hform, fun g hg => ?_, hm⟩
      rw [List.takeWhile_cons] at hg
      split at hg
      · rcases List.mem_cons.mp hg with rfl | hg
        · exact find_eq_none_iff_stands.mp (Option.map_eq_none_iff.mp hnone)
        · exact hbefore g hg
      · cases hg

theorem firstSubmatch_of_before {form : Form} (hform : form ∈ forms)
    (hbefore : ∀ f ∈ forms.takeWhile (· ≠ form), ¬ f.Stands text)
    (hm : form.regexp.findStringSubmatch text = some m) :
    AlterTableParser.firstSubmatch (forms.map Form.regexp) text = some m := by
  induction forms with
  | nil => cases hform
  | cons f forms ih =>
    rw [List.map_cons, AlterTableParser.firstSubmatch, List.findSome?_cons]
    by_cases hf : f = form
    · rw [hf, hm]
    · rw [List.takeWhile_cons_of_pos (by simpa using hf)] at hbefore
      obtain ⟨hnot, hbefore⟩ := List.forall_mem_cons.mp hbefore
      have hnone : f.regexp.findStringSubmatch text = none := by
        rw [findStringSubmatch, find_eq_none_iff_stands.mpr hnot, Option.map_none]
      rw [hnone]
      exact ih ((List.mem_cons.mp hform).resolve_left (Ne.symm hf)) hbefore

end Forms

end GhOst.Sql.AlterPrefix
