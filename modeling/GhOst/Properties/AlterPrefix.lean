import GhOst.Mysql.Identifiers
import GhOst.Properties.AlterClause

/-!
# The prefix `ALTER TABLE name` of a statement

A statement begins with `alter table` and a name in one of the spellings of MySQL. The names and the
options are read off it as they are exactly if the clause at its front is what the two passes of
`ParseAlterStatement` find, and is read in one way.
-/

namespace GhOst.Sql.AlterPrefix

open Infra Infra.Regexp GhOst.Mysql

/-! ## Names in a statement -/

/-- A name and how the statement spells it: as a bare word, or between backticks. -/
structure Ident where
  spelling : Spelling
  name : List Char
  name_ne_nil : name ≠ []
  bare : spelling = .plain → name.all isIdentChar = true

/-- Between backticks, a backtick is written twice. -/
def escape (name : List Char) : List Char :=
  name.flatMap fun c => if c = '\x60' then ['\x60', '\x60'] else [c]

namespace Ident

variable {i : Ident}
variable {c : Char}

def text (i : Ident) : List Char :=
  match i.spelling with
  | .quoted => '\x60' :: (escape i.name ++ ['\x60'])
  | .plain => i.name

/-- A name between backticks has none in it. -/
def Clean (i : Ident) : Prop := i.spelling = .quoted → '\x60' ∉ i.name

theorem text_quoted (h : i.spelling = .quoted) :
    i.text = '\x60' :: (escape i.name ++ ['\x60']) := by rw [text, h]

theorem text_plain (h : i.spelling = .plain) : i.text = i.name := by rw [text, h]

theorem escape_eq {name : List Char} (h : '\x60' ∉ name) : escape name = name := by
  unfold escape
  refine (List.flatMap_congr fun c hc => ?_).trans (List.flatMap_singleton' name)
  exact if_neg fun heq : c = '\x60' => h (heq ▸ hc)

theorem bare_char (h : i.spelling = .plain) (hc : c ∈ i.name) :
    isSpace c = false ∧ c ≠ '.' ∧ c ≠ '\x60' := by
  have hident := List.all_eq_true.mp (i.bare h) c hc
  refine ⟨?_, ?_, ?_⟩
  · by_contra hspace
    rw [Bool.not_eq_false] at hspace
    have hcases : c = ' ' ∨ c = '\t' ∨ c = '\n' ∨ c = '\x0c' ∨ c = '\r' := by
      simpa [isSpace, or_assoc] using hspace
    rcases hcases with rfl | rfl | rfl | rfl | rfl <;> exact absurd hident (by decide)
  · rintro rfl
    exact absurd hident (by decide)
  · rintro rfl
    exact absurd hident (by decide)

theorem reads (h : i.Clean) : i.spelling.Reads i.text i.name := by
  cases hs : i.spelling with
  | plain =>
    rw [text_plain hs]
    exact ⟨rfl, i.name_ne_nil, fun c hc => (bare_char hs hc).1⟩
  | quoted =>
    rw [text_quoted hs, escape_eq (h hs)]
    exact ⟨rfl, i.name_ne_nil, h hs⟩

theorem length_le_escape (name : List Char) : name.length ≤ (escape name).length := by
  induction name with
  | nil => exact Nat.le_refl _
  | cons c name ih =>
    rw [escape, List.flatMap_cons, List.length_append, List.length_cons, Nat.add_comm]
    refine Nat.add_le_add ?_ ih
    split <;> simp

/-! ### How a text ends -/

def trailing (l : List Char) : Nat := (l.reverse.takeWhile (· = '\x60')).length

theorem trailing_concat (l : List Char) : trailing (l ++ ['\x60']) = trailing l + 1 := by
  simp [trailing]

theorem trailing_append_cons (hc : c ≠ '\x60') (l name : List Char) :
    trailing (l ++ c :: name) = trailing name := by
  unfold trailing
  rw [List.reverse_append, List.reverse_cons, List.append_assoc, List.takeWhile_append]
  split
  · next h =>
    rw [List.singleton_append, List.takeWhile_cons_of_neg (by simpa using hc), List.append_nil]
    exact h.symm ▸ rfl
  · rfl

theorem trailing_le_cons (c : Char) (l : List Char) : trailing l ≤ trailing (c :: l) := by
  unfold trailing
  rw [List.reverse_cons, List.takeWhile_append]
  split
  · next h => rw [List.length_append, h]; exact Nat.le_add_right _ _
  · exact Nat.le_refl _

theorem trailing_le_escape (name : List Char) : trailing name ≤ trailing (escape name) := by
  induction name using List.reverseRecOn with
  | nil => exact Nat.le_refl _
  | append_singleton name c ih =>
    have hescape : escape (name ++ [c]) =
        escape name ++ if c = '\x60' then ['\x60', '\x60'] else [c] := by
      rw [escape, List.flatMap_append, List.flatMap_singleton]
      rfl
    rw [hescape]
    by_cases hc : c = '\x60'
    · rw [hc, if_pos rfl, trailing_concat, List.append_cons, trailing_concat, trailing_concat]
      omega
    · rw [trailing_append_cons hc]
      exact Nat.zero_le _

theorem quoted_ne_append (name l : List Char) (hc : c ≠ '\x60') :
    '\x60' :: (escape name ++ ['\x60']) ≠ l ++ c :: name := by
  intro h
  have hcount := congrArg trailing h
  have hquoted := trailing_le_cons '\x60' (escape name ++ ['\x60'])
  have hescape := trailing_le_escape name
  rw [trailing_concat] at hquoted
  rw [trailing_append_cons hc] at hcount
  omega

theorem getLast_text (i : Ident) : ∃ c, i.text.getLast? = some c ∧ isSpace c = false ∧
    (i.spelling = .plain → c ≠ '\x60') := by
  cases hs : i.spelling with
  | plain =>
    rw [text_plain hs]
    refine ⟨_, List.getLast?_eq_some_getLast i.name_ne_nil, ?_⟩
    have hchar := bare_char hs (List.getLast_mem i.name_ne_nil)
    exact ⟨hchar.1, fun _ => hchar.2.2⟩
  | quoted =>
    rw [text_quoted hs]
    exact ⟨'\x60', by rw [← List.cons_append, List.getLast?_concat], by decide, nofun⟩

theorem text_unique {b : Spelling} {before before' read : List Char} (hread : b.Reads read i.name)
    (h : before' ++ read = before ++ i.text) (hbefore : before'.getLast? = some c)
    (hc : c ≠ '\x60') : before' = before ∧ b = i.spelling ∧ i.Clean := by
  obtain ⟨l, hl, -, hplain⟩ := i.getLast_text
  have hlast := congrArg List.getLast? h
  cases hs : i.spelling with
  | plain =>
    cases b with
    | plain =>
      rw [hread.1, text_plain hs] at h
      exact ⟨List.append_cancel_right h, rfl, fun hq => absurd (hs.symm.trans hq) nofun⟩
    | quoted =>
      -- the last character read is a backtick
      rw [hread.1, ← List.cons_append, ← List.append_assoc, List.getLast?_concat,
        List.getLast?_append, hl, Option.some_or] at hlast
      exact absurd (Option.some.inj hlast).symm (hplain hs)
  | quoted =>
    cases b with
    | quoted =>
      obtain ⟨rfl, -, hclean⟩ := hread
      rw [text_quoted hs, escape_eq hclean] at h
      exact ⟨List.append_cancel_right h, rfl, fun _ => hclean⟩
    | plain =>
      rw [hread.1, text_quoted hs] at h
      have hlength := length_le_escape i.name
      rcases List.append_eq_append_iff.mp h with ⟨x, -, hname⟩ | ⟨y, rfl, hquoted⟩
      · have hcount := congrArg List.length hname
        simp only [List.length_append, List.length_cons] at hcount
        omega
      · cases y using List.reverseRecOn with
        | nil =>
          have hcount := congrArg List.length hquoted
          simp only [List.length_append, List.length_cons, List.length_nil] at hcount
          omega
        | append_singleton y d =>
          rw [← List.append_assoc, List.getLast?_concat] at hbefore
          obtain rfl := Option.some.inj hbefore
          rw [List.append_assoc, List.singleton_append] at hquoted
          exact absurd hquoted (quoted_ne_append _ _ hc)

theorem text_cancel {name read rest rest' : List Char} (hclean : i.Clean)
    (hread : i.spelling.Reads read name) (h : read ++ rest = i.text ++ rest')
    (hrest : i.spelling = .plain → ∀ c, rest.head? = some c → isSpace c = true)
    (hrest' : i.spelling = .plain → ∀ c, rest'.head? = some c → isSpace c = true) :
    name = i.name ∧ rest = rest' := by
  have hself := i.reads hclean
  cases hs : i.spelling with
  | plain =>
    rw [hs] at hread hself
    obtain ⟨rfl, -, hname⟩ := hread
    rw [hself.1] at h
    have hflip {l : List Char} (hl : ∀ c, l.head? = some c → isSpace c = true) :
        ∀ c, l.head? = some c → nonSpace c = false := fun c hc => by rw [nonSpace, hl c hc]; rfl
    refine run_cancel (p := nonSpace) h (fun c hc => ?_) (fun c hc => ?_) (hflip (hrest hs))
      (hflip (hrest' hs))
    · rw [nonSpace, hname c hc]
      rfl
    · rw [nonSpace, hself.2.2 c hc]
      rfl
  | quoted =>
    rw [hs] at hread hself
    obtain ⟨rfl, -, hname⟩ := hread
    rw [hself.1] at h
    simp only [List.cons_append, List.append_assoc, List.nil_append, List.cons.injEq,
      true_and] at h
    have hnot {l : List Char} (hl : '\x60' ∉ l) : ∀ c ∈ l, decide (c ≠ '\x60') = true :=
      fun c hc => decide_eq_true fun heq => hl (heq ▸ hc)
    have hstop {l : List Char} :
        ∀ c, ('\x60' :: l).head? = some c → decide (c ≠ '\x60') = false := by
      rintro c hc
      cases hc
      decide
    obtain ⟨hname', hrest⟩ := run_cancel h (hnot hname) (hnot hself.2.2) hstop hstop
    exact ⟨hname', (List.cons.inj hrest).2⟩

end Ident

/-- The name of a table in a statement, with or without a schema. -/
structure TableName where
  schema : Option Ident
  table : Ident

namespace TableName

variable {nm : TableName}

def form (nm : TableName) : Form := ⟨nm.schema.map Ident.spelling, nm.table.spelling⟩

def text (nm : TableName) : List Char :=
  match nm.schema with
  | some schema => schema.text ++ '.' :: nm.table.text
  | none => nm.table.text

def schemaName (nm : TableName) : List Char := (nm.schema.map Ident.name).getD []

def Clean (nm : TableName) : Prop := (∀ schema ∈ nm.schema, schema.Clean) ∧ nm.table.Clean

/-- The statement can be read with a longer schema: the table's name ends with a dot, and the next
backtick is followed by a space. -/
def Ambiguous (nm : TableName) (opts : List Char) : Prop :=
  nm.form = ⟨some .plain, .quoted⟩ ∧ nm.table.name.getLast? = some '.' ∧
    (∀ c ∈ nm.table.name, isSpace c = false) ∧
    ∃ a c b, opts = a ++ '\x60' :: c :: b ∧ '\x60' ∉ a ∧ isSpace c = true

theorem reads (h : nm.Clean) : nm.form.Reads nm.text nm.schemaName nm.table.name := by
  obtain ⟨schema, table⟩ := nm
  cases schema with
  | none => exact ⟨rfl, table.reads h.2⟩
  | some schema => exact ⟨_, _, rfl, schema.reads (h.1 schema rfl), table.reads h.2⟩

theorem getLast_text (nm : TableName) : ∃ c, nm.text.getLast? = some c ∧ isSpace c = false := by
  obtain ⟨c, hc, hspace, -⟩ := nm.table.getLast_text
  refine ⟨c, ?_, hspace⟩
  obtain ⟨schema, table⟩ := nm
  cases schema with
  | none => exact hc
  | some schema =>
    rw [text]
    dsimp only
    rw [List.append_cons, List.getLast?_append, hc, Option.some_or]

/-- **The names in a statement are read from the end of their text in one way.** -/
theorem text_unique {form : Form} {before before' read : List Char} {c : Char}
    (hread : form.Reads read nm.schemaName nm.table.name)
    (hschema : form.schema.isSome = nm.schema.isSome)
    (h : before' ++ read = before ++ nm.text) (hbefore : before'.getLast? = some c)
    (hc : c ≠ '\x60') : before' = before ∧ form = nm.form ∧ nm.Clean := by
  obtain ⟨schema, table⟩ := nm
  obtain ⟨a, b⟩ := form
  cases schema with
  | none =>
    cases a with
    | some a => cases hschema
    | none =>
      obtain ⟨hsame, rfl, hclean⟩ := Ident.text_unique hread.2 h hbefore hc
      exact ⟨hsame, rfl, nofun, hclean⟩
  | some schema =>
    cases a with
    | none => cases hschema
    | some a =>
      obtain ⟨s, t, rfl, hs, ht⟩ := hread
      have h' : (before' ++ s ++ ['.']) ++ t = (before ++ schema.text ++ ['.']) ++ table.text := by
        simpa [text] using h
      obtain ⟨hsame, rfl, htable⟩ := Ident.text_unique ht h' List.getLast?_concat (by decide)
      obtain ⟨hsame', rfl, hclean⟩ :=
        Ident.text_unique hs (List.append_cancel_right hsame) hbefore hc
      refine ⟨hsame', rfl, fun x hx => ?_, htable⟩
      obtain rfl := Option.some.inj hx
      exact hclean

section Cancel

variable {sp sp' opts opts' : List Char}
variable {s t : Ident} {schema table : List Char}

theorem bare_cancel (hs : s.spelling = .plain) (ht : t.spelling = .plain)
    (h : schema ++ '.' :: table = s.name ++ '.' :: t.name) : schema = s.name ∧ table = t.name := by
  rcases append_cons_cases h with ⟨rfl, -, rfl⟩ | ⟨x, -, hx⟩ | ⟨x, hx, -⟩
  · exact ⟨rfl, rfl⟩
  · exact absurd rfl (Ident.bare_char ht (hx ▸ List.mem_append_right _ List.mem_cons_self)).2.1
  · exact absurd rfl (Ident.bare_char hs (hx ▸ List.mem_append_right _ List.mem_cons_self)).2.1

theorem plain_quoted_cancel (hs : s.spelling = .plain) (ht : '\x60' ∉ t.name) (hsp' : Spaces sp')
    {rest : List Char} (hschema : ∀ c ∈ schema, isSpace c = false)
    (h : schema ++ '.' :: '\x60' :: (table ++ '\x60' :: rest) =
      s.name ++ '.' :: '\x60' :: (t.name ++ '\x60' :: (sp' ++ opts'))) :
    (schema = s.name ∧ table ++ '\x60' :: rest = t.name ++ '\x60' :: (sp' ++ opts')) ∨
      ∃ x, schema = s.name ++ '.' :: '\x60' :: x ∧ t.name = x ++ ['.'] ∧
        table ++ '\x60' :: rest = sp' ++ opts' := by
  rcases append_cons_cases h with ⟨rfl, -, heq⟩ | ⟨x, rfl, hx⟩ | ⟨x, hx, -⟩
  · exact .inl ⟨rfl, (List.cons.inj heq).2⟩
  · right
    cases x with
    | nil => exact absurd (List.cons.inj hx).1 (by decide)
    | cons d x =>
      obtain ⟨rfl, hx'⟩ := List.cons.inj hx
      rcases append_cons_cases hx' with ⟨-, hfalse, -⟩ | ⟨y, hy, hrest⟩ | ⟨y, rfl, hy⟩
      · exact absurd hfalse (by decide)
      · cases y with
        | nil => exact ⟨x, rfl, hy, (List.cons.inj hrest).2⟩
        | cons e y =>
          obtain ⟨rfl, -⟩ := List.cons.inj hrest
          refine absurd ?_ ht
          rw [hy]
          exact List.mem_append_right _ (List.mem_cons_of_mem _ List.mem_cons_self)
      · -- the schema would have a space in it
        have hhead : ∀ c, (sp' ++ opts').head? = some c → isSpace c = true := Spaces.head hsp'
        cases y with
        | nil =>
          rw [hy] at hhead
          exact absurd (hhead '.' rfl) (by decide)
        | cons e y =>
          rw [hy] at hhead
          have hspace := hhead e rfl
          rw [hschema e (by simp)] at hspace
          cases hspace
  · exact absurd rfl (Ident.bare_char hs (hx ▸ List.mem_append_right _ List.mem_cons_self)).2.1

theorem ambiguous_of_longer (hs : s.spelling = .plain) (ht : t.spelling = .quoted) (hsp : Spaces sp)
    (hsp' : Spaces sp') {x : List Char} (hschema : ∀ c ∈ schema, isSpace c = false)
    (hx : schema = s.name ++ '.' :: '\x60' :: x) (hname : t.name = x ++ ['.'])
    (htable : '\x60' ∉ table) (h : table ++ '\x60' :: (sp ++ opts) = sp' ++ opts') :
    Ambiguous ⟨some s, t⟩ opts' := by
  refine ⟨by rw [form, Option.map_some, hs, ht], by rw [hname, List.getLast?_concat], ?_, ?_⟩
  · intro c hc
    rw [hname] at hc
    rcases List.mem_append.mp hc with hc | hc
    · exact hschema c (by rw [hx]; simp [hc])
    · rw [List.mem_singleton.mp hc]
      decide
  · obtain ⟨c, sp₁, rfl⟩ := List.exists_cons_of_ne_nil hsp.1
    have hc := hsp.2 c List.mem_cons_self
    rcases List.append_eq_append_iff.mp h with ⟨z, hz, hrest⟩ | ⟨z, rfl, rfl⟩
    · cases z with
      | nil => exact ⟨[], c, sp₁ ++ opts, hrest.symm, List.not_mem_nil, hc⟩
      | cons d z =>
        obtain ⟨rfl, -⟩ := List.cons.inj hrest
        have hspace := hsp'.2 '\x60' (hz ▸ List.mem_append_right _ List.mem_cons_self)
        exact absurd hspace (by decide)
    · exact ⟨z, c, sp₁ ++ opts, rfl, fun hmem => htable (List.mem_append_right _ hmem), hc⟩

/-- **The names are read from the front of the statement in one way**, unless it is ambiguous. -/
theorem text_cancel (hclean : nm.Clean) {read : List Char} (hread : nm.form.Reads read schema table)
    (hsp : Spaces sp) (hsp' : Spaces sp') (h : read ++ (sp ++ opts) = nm.text ++ (sp' ++ opts'))
    (hopts : ∀ c, opts.head? = some c → isSpace c = false)
    (hopts' : ∀ c, opts'.head? = some c → isSpace c = false) (hamb : ¬ nm.Ambiguous opts') :
    schema = nm.schemaName ∧ table = nm.table.name ∧ opts = opts' := by
  have hspaces (h : sp ++ opts = sp' ++ opts') : opts = opts' :=
    (run_cancel h hsp.2 hsp'.2 hopts hopts').2
  obtain ⟨schema₀, t⟩ := nm
  have htable {read : List Char} (hread : t.spelling.Reads read table)
      (h : read ++ (sp ++ opts) = t.text ++ (sp' ++ opts')) : table = t.name ∧ opts = opts' := by
    obtain ⟨hname, hrest⟩ := Ident.text_cancel hclean.2 hread h (fun _ => Spaces.head hsp)
      (fun _ => Spaces.head hsp')
    exact ⟨hname, hspaces hrest⟩
  cases schema₀ with
  | none =>
    obtain ⟨rfl, hread⟩ := hread
    exact ⟨rfl, htable hread h⟩
  | some s =>
    obtain ⟨st, tt, rfl, hst, htt⟩ := hread
    have h' : st ++ '.' :: (tt ++ (sp ++ opts)) = s.text ++ '.' :: (t.text ++ (sp' ++ opts')) := by
      simpa [text] using h
    cases hs : s.spelling with
    | quoted =>
      obtain ⟨hname, hrest⟩ := Ident.text_cancel (hclean.1 s rfl) hst h'
        (fun hp => absurd (hs.symm.trans hp) nofun) (fun hp => absurd (hs.symm.trans hp) nofun)
      exact ⟨hname, htable htt (List.cons.inj hrest).2⟩
    | plain =>
      have hst' : s.spelling.Reads st schema := hst
      rw [hs] at hst'
      obtain ⟨rfl, -, hschema⟩ := hst'
      rw [Ident.text_plain hs] at h'
      cases ht : t.spelling with
      | plain =>
        have htt' : t.spelling.Reads tt table := htt
        rw [ht] at htt'
        obtain ⟨rfl, -, hname⟩ := htt'
        rw [Ident.text_plain ht] at h'
        have hrun {a b : List Char} (ha : ∀ c ∈ a, isSpace c = false)
            (hb : ∀ c ∈ b, isSpace c = false) : ∀ c ∈ a ++ '.' :: b, nonSpace c = true := by
          intro c hc
          rw [List.mem_append, List.mem_cons] at hc
          rcases hc with hc | rfl | hc
          · rw [nonSpace, ha c hc]
            rfl
          · decide
          · rw [nonSpace, hb c hc]
            rfl
        have hstop {a b : List Char} (ha : Spaces a) :
            ∀ c, (a ++ b).head? = some c → nonSpace c = false := by
          intro c hc
          rw [nonSpace, Spaces.head ha c hc]
          rfl
        have h'' : (st ++ '.' :: tt) ++ (sp ++ opts) =
            (s.name ++ '.' :: t.name) ++ (sp' ++ opts') := by simpa using h'
        obtain ⟨hnames, hrest⟩ := run_cancel h'' (hrun hschema hname)
          (hrun (fun c hc => (Ident.bare_char hs hc).1) fun c hc => (Ident.bare_char ht hc).1)
          (hstop hsp) (hstop hsp')
        obtain ⟨hschema', htable'⟩ := bare_cancel hs ht hnames
        exact ⟨hschema', htable', hspaces hrest⟩
      | quoted =>
        have htt' : t.spelling.Reads tt table := htt
        rw [ht] at htt'
        have hfree : '\x60' ∉ t.name := hclean.2 ht
        have h'' : st ++ '.' :: '\x60' :: (table ++ '\x60' :: (sp ++ opts)) =
            s.name ++ '.' :: '\x60' :: (t.name ++ '\x60' :: (sp' ++ opts')) := by
          rw [htt'.1, Ident.text_quoted ht, Ident.escape_eq hfree] at h'
          simpa using h'
        rcases plain_quoted_cancel hs hfree hsp' hschema h'' with ⟨rfl, hrest⟩ |
          ⟨x, hx, hname, hrest⟩
        · refine ⟨rfl, htable htt ?_⟩
          rw [htt'.1, Ident.text_quoted ht, Ident.escape_eq hfree]
          simpa using hrest
        · exact absurd (ambiguous_of_longer hs ht hsp hsp' hschema hx hname htt'.2.2 hrest) hamb

end Cancel

end TableName

/-! ## The statement -/

section Statement

variable {statement schema table opts : List Char}

/-- What `ParseAlterStatement` of a new parser reads off a statement. -/
structure Parsed (statement schema table opts : List Char) : Prop where
  schema : (({} : AlterTableParser).parseAlterStatement statement).explicitSchema =
    String.ofList schema
  table : (({} : AlterTableParser).parseAlterStatement statement).explicitTable =
    String.ofList table
  options : (({} : AlterTableParser).parseAlterStatement statement).alterStatementOptions =
    String.ofList opts

theorem foldl_parseToken (tokens : List (List Char)) (atp : AlterTableParser) :
    (tokens.foldl AlterTableParser.parseToken atp).explicitSchema = atp.explicitSchema ∧
    (tokens.foldl AlterTableParser.parseToken atp).explicitTable = atp.explicitTable ∧
    (tokens.foldl AlterTableParser.parseToken atp).alterStatementOptions =
      atp.alterStatementOptions := by
  induction tokens generalizing atp with
  | nil => exact ⟨rfl, rfl, rfl⟩
  | cons token tokens ih => exact ih (atp.parseToken token)

theorem parsed_iff {atp : AlterTableParser} {opts' : List Char}
    (h : ({} : AlterTableParser).parseExplicit statement = (atp, opts')) :
    Parsed statement schema table opts ↔ atp.explicitSchema = String.ofList schema ∧
      atp.explicitTable = String.ofList table ∧ opts' = opts := by
  obtain ⟨hschema, htable, hoptions⟩ := foldl_parseToken (tokenizeAlterStatement opts')
    { atp with alterStatementOptions := String.ofList opts' }
  have hparse : ({} : AlterTableParser).parseAlterStatement statement =
      (tokenizeAlterStatement opts').foldl AlterTableParser.parseToken
        { atp with alterStatementOptions := String.ofList opts' } := by
    rw [AlterTableParser.parseAlterStatement, h]
  constructor
  · rintro ⟨h₁, h₂, h₃⟩
    rw [hparse, hschema] at h₁
    rw [hparse, htable] at h₂
    rw [hparse, hoptions] at h₃
    exact ⟨h₁, h₂, String.ofList_injective h₃⟩
  · rintro ⟨h₁, h₂, rfl⟩
    exact ⟨by rw [hparse, hschema, h₁], by rw [hparse, htable, h₂], by rw [hparse, hoptions]⟩

theorem empty_eq_iff {l : List Char} : "" = String.ofList l ↔ l = [] := by
  rw [show "" = String.ofList [] from rfl, String.ofList_inj]
  exact eq_comm

theorem parsed_of_none (h : ∀ form ∈ schemaForms, ¬ form.Stands statement) :
    Parsed statement schema table opts ↔ schema = [] ∧
      match AlterTableParser.firstSubmatch (tableForms.map Form.regexp) statement with
      | none => table = [] ∧ statement = opts
      | some m => m.submatch 1 = table ∧ m.submatch 2 = opts := by
  have hnone : AlterTableParser.firstSubmatch alterTableExplicitSchemaTableRegexps statement =
      none :=
    firstSubmatch_eq_none.mpr h
  cases hsecond : AlterTableParser.firstSubmatch (tableForms.map Form.regexp) statement with
  | none =>
    have hexplicit : ({} : AlterTableParser).parseExplicit statement = ({}, statement) := by
      rw [AlterTableParser.parseExplicit, hnone]
      dsimp only
      rw [tableRegexps_eq, hsecond]
    rw [parsed_iff hexplicit, empty_eq_iff, empty_eq_iff]
  | some m =>
    have hexplicit : ({} : AlterTableParser).parseExplicit statement =
        ({ explicitTable := String.ofList (m.submatch 1) }, m.submatch 2) := by
      rw [AlterTableParser.parseExplicit, hnone]
      dsimp only
      rw [tableRegexps_eq, hsecond]
    rw [parsed_iff hexplicit, empty_eq_iff, String.ofList_inj]

theorem parsed_of_some {m : Match}
    (h : AlterTableParser.firstSubmatch (schemaForms.map Form.regexp) statement = some m) :
    Parsed statement schema table opts ↔ m.submatch 1 = schema ∧
      match AlterTableParser.firstSubmatch (tableForms.map Form.regexp) (m.submatch 3) with
      | none => m.submatch 2 = table ∧ m.submatch 3 = opts
      | some m' => m'.submatch 1 = table ∧ m'.submatch 2 = opts := by
  have hsome : AlterTableParser.firstSubmatch alterTableExplicitSchemaTableRegexps statement =
      some m :=
    h
  cases hsecond : AlterTableParser.firstSubmatch (tableForms.map Form.regexp) (m.submatch 3) with
  | none =>
    have hexplicit : ({} : AlterTableParser).parseExplicit statement =
        ({ explicitSchema := String.ofList (m.submatch 1)
           explicitTable := String.ofList (m.submatch 2) }, m.submatch 3) := by
      rw [AlterTableParser.parseExplicit, hsome]
      dsimp only
      rw [tableRegexps_eq, hsecond]
    rw [parsed_iff hexplicit, String.ofList_inj, String.ofList_inj]
  | some m' =>
    have hexplicit : ({} : AlterTableParser).parseExplicit statement =
        ({ explicitSchema := String.ofList (m.submatch 1)
           explicitTable := String.ofList (m'.submatch 1) }, m'.submatch 2) := by
      rw [AlterTableParser.parseExplicit, hsome]
      dsimp only
      rw [tableRegexps_eq, hsecond]
    rw [parsed_iff hexplicit, String.ofList_inj, String.ofList_inj]

end Statement

/-! ## The prefix -/

section Prefix

variable {head sp opts : List Char} {nm : TableName}
variable {read schema table sp' a head' : List Char} {m : Match}

/-- What the statement has to be for its prefix to be read off exactly. -/
structure Accepted (nm : TableName) (statement opts : List Char) : Prop where
  line : '\n' ∉ opts
  start : ∀ c, opts.head? = some c → isSpace c = false
  clean : nm.Clean
  /-- no clause of a form that is tried before stands in the statement -/
  earlier : ∀ form ∈ (schemaForms ++ tableForms).takeWhile (· ≠ nm.form), ¬ form.Stands statement
  /-- after a schema, the second pass finds nothing in the options -/
  later : nm.schema.isSome = true → ∀ form ∈ tableForms, ¬ form.Stands opts
  unambiguous : ¬ nm.Ambiguous opts

theorem Spelling.Reads.ends {b : Spelling} {name : List Char} (h : b.Reads read name) :
    (∀ rest c, (read ++ rest).head? = some c → isSpace c = false) ∧
      ∃ c, read.getLast? = some c ∧ isSpace c = false := by
  cases b with
  | quoted =>
    obtain ⟨rfl, -⟩ := h
    refine ⟨fun rest c hc => ?_, '\x60', ?_, by decide⟩
    · cases hc
      decide
    · rw [← List.cons_append, List.getLast?_concat]
  | plain =>
    obtain ⟨rfl, hne, hname⟩ := h
    refine ⟨fun rest c hc => ?_, _, List.getLast?_eq_some_getLast hne,
      hname _ (List.getLast_mem hne)⟩
    obtain ⟨d, read, rfl⟩ := List.exists_cons_of_ne_nil hne
    exact hname c (Option.some.inj hc ▸ List.mem_cons_self)

theorem Form.Reads.ends {form : Form} (h : form.Reads read schema table) :
    (∀ rest c, (read ++ rest).head? = some c → isSpace c = false) ∧
      ∃ c, read.getLast? = some c ∧ isSpace c = false := by
  match form, h with
  | ⟨none, b⟩, ⟨_, h⟩ => exact Spelling.Reads.ends h
  | ⟨some a, b⟩, ⟨s, t, hread, hs, ht⟩ =>
    subst hread
    obtain ⟨c, hc, hspace⟩ := (Spelling.Reads.ends ht).2
    refine ⟨fun rest d hd => ?_, c, ?_, hspace⟩
    · rw [List.append_assoc] at hd
      exact (Spelling.Reads.ends hs).1 _ d hd
    · rw [List.append_cons, List.getLast?_append, hc, Option.some_or]

theorem Form.Reads.schema_eq_nil_iff {form : Form} (h : form.Reads read schema table) :
    schema = [] ↔ form.schema = none := by
  match form, h with
  | ⟨none, b⟩, h => exact iff_of_true h.1 rfl
  | ⟨some .quoted, b⟩, ⟨_, _, _, hs, _⟩ => exact iff_of_false hs.2.1 nofun
  | ⟨some .plain, b⟩, ⟨_, _, _, hs, _⟩ => exact iff_of_false hs.2.1 nofun

theorem Form.Reads.table_ne_nil {form : Form} (h : form.Reads read schema table) : table ≠ [] := by
  have hread {b : Spelling} {read : List Char} (h : b.Reads read table) : table ≠ [] := by
    cases b with
    | quoted => exact h.2.1
    | plain => exact h.2.1
  match form, h with
  | ⟨none, b⟩, h => exact hread h.2
  | ⟨some a, b⟩, ⟨_, _, _, _, ht⟩ => exact hread ht

theorem spaces_cancel_right {l l' : List Char} (h : l ++ sp = l' ++ sp') (hsp : Spaces sp)
    (hsp' : Spaces sp') (hl : ∃ c, l.getLast? = some c ∧ isSpace c = false)
    (hl' : ∃ c, l'.getLast? = some c ∧ isSpace c = false) : l = l' := by
  have hreverse : sp.reverse ++ l.reverse = sp'.reverse ++ l'.reverse := by
    rw [← List.reverse_append, h, List.reverse_append]
  have hmem {w : List Char} (hw : Spaces w) : ∀ c ∈ w.reverse, isSpace c = true :=
    fun c hc => hw.2 c (List.mem_reverse.mp hc)
  have hhead {w : List Char} (hw : ∃ c, w.getLast? = some c ∧ isSpace c = false) :
      ∀ c, w.reverse.head? = some c → isSpace c = false := by
    obtain ⟨d, hd, hspace⟩ := hw
    intro c hc
    rw [List.head?_reverse, hd] at hc
    exact Option.some.inj hc ▸ hspace
  have hcancel := run_cancel hreverse (hmem hsp) (hmem hsp') (hhead hl) (hhead hl')
  exact List.reverse_injective hcancel.2

theorem Head.getLast (h : Head head) : ∃ c, head.getLast? = some c ∧ isSpace c = true := by
  obtain ⟨al, sp, tb, sp', rfl, -, -, -, hsp'⟩ := h
  refine ⟨_, ?_, hsp'.2 _ (List.getLast_mem hsp'.1)⟩
  rw [← List.append_assoc, ← List.append_assoc, List.getLast?_append,
    List.getLast?_eq_some_getLast hsp'.1, Option.some_or]

theorem prefix_cancel {form : Form} (hsp : Spaces sp) (hhead' : Head head')
    (hread : form.Reads read schema table) (hsp' : Spaces sp')
    (h : a ++ (head' ++ (read ++ (sp' ++ opts))) = head ++ (nm.text ++ (sp ++ opts))) :
    (a ++ head') ++ read = head ++ nm.text ∧
      ∃ c, (a ++ head').getLast? = some c ∧ isSpace c = true := by
  obtain ⟨c, hc, hspace⟩ := hhead'.getLast
  obtain ⟨d, hd, hend⟩ := hread.ends.2
  obtain ⟨e, he, hend'⟩ := nm.getLast_text
  have hopts : (a ++ head' ++ read) ++ sp' = (head ++ nm.text) ++ sp := by
    have h' : (a ++ head' ++ read) ++ sp' ++ opts = (head ++ nm.text) ++ sp ++ opts := by
      simpa using h
    exact List.append_cancel_right h'
  refine ⟨spaces_cancel_right hopts hsp' hsp ⟨d, ?_, hend⟩ ⟨e, ?_, hend'⟩, c, ?_, hspace⟩
  · rw [List.getLast?_append, hd, Option.some_or]
  · rw [List.getLast?_append, he, Option.some_or]
  · rw [List.getLast?_append, hc, Option.some_or]

theorem ne_of_isSpace {c d : Char} (hc : isSpace c = true) (hd : isSpace d = false) : c ≠ d := by
  rintro rfl
  rw [hc] at hd
  cases hd

/-- **A clause that gives the names and the options of the statement is its prefix.** -/
theorem own_form {form : Form} (hsp : Spaces sp) (hhead' : Head head')
    (hread : form.Reads read nm.schemaName nm.table.name) (hsp' : Spaces sp')
    (hsome : form.schema.isSome = nm.schema.isSome)
    (h : a ++ (head' ++ (read ++ (sp' ++ opts))) = head ++ (nm.text ++ (sp ++ opts))) :
    form = nm.form ∧ nm.Clean := by
  obtain ⟨hnames, c, hc, hspace⟩ := prefix_cancel hsp hhead' hread hsp' h
  exact (TableName.text_unique hread hsome hnames hc (ne_of_isSpace hspace (by decide))).2

theorem no_second {form : Form} (hsp : Spaces sp) (hhead' : Head head') (hnone : form.schema = none)
    (hread : form.Reads read [] nm.table.name) (hsp' : Spaces sp') (hsome : nm.schema.isSome = true)
    (h : a ++ (head' ++ (read ++ (sp' ++ opts))) = head ++ (nm.text ++ (sp ++ opts))) : False := by
  obtain ⟨hnames, c, hc, hspace⟩ := prefix_cancel hsp hhead' hread hsp' h
  obtain ⟨schema, t⟩ := nm
  obtain ⟨s, rfl⟩ := Option.isSome_iff_exists.mp hsome
  obtain ⟨a', b⟩ := form
  obtain rfl : a' = none := hnone
  have hnames' : (a ++ head') ++ read = (head ++ s.text ++ ['.']) ++ t.text := by
    simpa [TableName.text] using hnames
  obtain ⟨hbefore, -⟩ :=
    Ident.text_unique hread.2 hnames' hc (ne_of_isSpace hspace (by decide))
  rw [hbefore, List.getLast?_concat] at hc
  exact absurd (Option.some.inj hc).symm (ne_of_isSpace hspace (by decide))

theorem first_own (hhead : Head head) (hsp : Spaces sp) (hline : '\n' ∉ opts) (hclean : nm.Clean) :
    ∃ m, nm.form.regexp.first none (head ++ (nm.text ++ (sp ++ opts))) = some m ∧
      nm.form.regexp.findStringSubmatch (head ++ (nm.text ++ (sp ++ opts))) = some m := by
  have hne : nm.form.regexp.run none (head ++ (nm.text ++ (sp ++ opts))) ≠ [] :=
    run_form_ne_nil rfl hhead ⟨nm.text, sp, rfl, nm.reads hclean, hsp, hline⟩
  obtain ⟨m, ms, hm⟩ := List.exists_cons_of_ne_nil hne
  have hfirst : nm.form.regexp.first none (head ++ (nm.text ++ (sp ++ opts))) = some m := by
    rw [first, hm, List.head?_cons]
  exact ⟨m, hfirst, by rw [findStringSubmatch, find_of_first hfirst, Option.map_some]⟩

theorem groups_own (hhead : Head head) (hsp : Spaces sp) (hclean : nm.Clean)
    (hstart : ∀ c, opts.head? = some c → isSpace c = false) (hamb : ¬ nm.Ambiguous opts)
    (h : nm.form.regexp.first none (head ++ (nm.text ++ (sp ++ opts))) = some m) :
    m.groups = nm.form.groups nm.schemaName nm.table.name opts := by
  obtain ⟨-, head', read, sp', schema, table, opts', hs, hhead', hread, hsp', -, hstop, hgroups⟩ :=
    first_form h
  obtain ⟨-, htail⟩ := hhead.cancel hhead' hs ((nm.reads hclean).ends.1 _) (hread.ends.1 _)
  obtain ⟨rfl, rfl, rfl⟩ :=
    TableName.text_cancel hclean hread hsp' hsp htail.symm hstop hstart hamb
  exact hgroups

theorem longer_of_ambiguous (hsp : Spaces sp) (hline : '\n' ∉ opts) (hclean : nm.Clean)
    (hamb : nm.Ambiguous opts) : ∃ schema table opts',
      nm.form.Tail (nm.text ++ (sp ++ opts)) schema table opts' ∧
        nm.schemaName.length < schema.length := by
  obtain ⟨hform, hdot, hname, a, c, b, rfl, ha, hc⟩ := hamb
  obtain ⟨schema, t⟩ := nm
  cases schema with
  | none => cases hform
  | some s =>
    obtain ⟨hs, ht⟩ : s.spelling = .plain ∧ t.spelling = .quoted := by
      rw [TableName.form, Form.mk.injEq, Option.map_some, Option.some.injEq] at hform
      exact hform
    obtain ⟨x, hx⟩ := List.getLast?_eq_some_iff.mp hdot
    dsimp only at hx
    have hfree : '\x60' ∉ sp ++ a := by
      intro hmem
      rcases List.mem_append.mp hmem with hmem | hmem
      · exact absurd (hsp.2 _ hmem) (by decide)
      · exact ha hmem
    have hlonger : ∀ d ∈ s.name ++ '.' :: '\x60' :: x, isSpace d = false := by
      intro d hd
      simp only [List.mem_append, List.mem_cons] at hd
      rcases hd with hd | rfl | rfl | hd
      · exact (Ident.bare_char hs hd).1
      · decide
      · decide
      · exact hname d (by rw [hx]; exact List.mem_append_left _ hd)
    refine ⟨s.name ++ '.' :: '\x60' :: x, sp ++ a, b,
      ⟨(s.name ++ '.' :: '\x60' :: x) ++ '.' :: ('\x60' :: ((sp ++ a) ++ ['\x60'])), [c], ?_, ?_,
        ⟨List.cons_ne_nil _ _, by simpa using hc⟩, fun hmem => hline (by simp [hmem])⟩, ?_⟩
    · have htext : t.text = '\x60' :: (x ++ ['.'] ++ ['\x60']) := by
        rw [Ident.text_quoted ht, Ident.escape_eq (hclean.2 ht), ← hx]
      rw [TableName.text]
      dsimp only
      rw [Ident.text_plain hs, htext]
      simp
    · rw [hform]
      exact ⟨_, _, rfl, ⟨rfl, by simp, hlonger⟩, rfl, by simp [hsp.1], hfree⟩
    · simp [TableName.schemaName]

theorem submatch_of_groups {form : Form} {opts : List Char}
    (h : m.groups = form.groups schema table opts) :
    (form.schema.isSome = true →
      m.submatch 1 = schema ∧ m.submatch 2 = table ∧ m.submatch 3 = opts) ∧
    (form.schema = none → m.submatch 1 = table ∧ m.submatch 2 = opts) := by
  obtain ⟨a, b⟩ := form
  unfold Match.submatch
  rw [h]
  cases a with
  | none => exact ⟨nofun, fun _ => ⟨rfl, rfl⟩⟩
  | some a => exact ⟨fun _ => ⟨rfl, rfl, rfl⟩, nofun⟩

theorem isSome_of_mem_schemaForms : ∀ form ∈ schemaForms, form.schema.isSome = true := by decide

theorem schema_of_mem_tableForms : ∀ form ∈ tableForms, form.schema = none := by decide

theorem TableName.schemaName_eq_nil_iff : nm.schemaName = [] ↔ nm.schema = none := by
  obtain ⟨schema, t⟩ := nm
  cases schema with
  | none => exact iff_of_true rfl rfl
  | some s => exact iff_of_false s.name_ne_nil nofun

theorem takeWhile_forms (nm : TableName) :
    (nm.schema.isSome = true → nm.form ∈ schemaForms ∧
      (schemaForms ++ tableForms).takeWhile (· ≠ nm.form) =
        schemaForms.takeWhile (· ≠ nm.form)) ∧
    (nm.schema = none → nm.form ∈ tableForms ∧
      (schemaForms ++ tableForms).takeWhile (· ≠ nm.form) =
        schemaForms ++ tableForms.takeWhile (· ≠ nm.form)) := by
  obtain ⟨schema, t⟩ := nm
  cases schema with
  | none =>
    refine ⟨nofun, fun _ => ?_⟩
    rw [TableName.form, Option.map_none]
    cases t.spelling <;> decide
  | some s =>
    refine ⟨fun _ => ?_, nofun⟩
    rw [TableName.form, Option.map_some]
    cases s.spelling <;> cases t.spelling <;> decide

theorem parsed_of_accepted (hhead : Head head) (hsp : Spaces sp)
    (h : Accepted nm (head ++ (nm.text ++ (sp ++ opts))) opts) :
    Parsed (head ++ (nm.text ++ (sp ++ opts))) nm.schemaName nm.table.name opts := by
  obtain ⟨m, hfirst, hm⟩ := first_own hhead hsp h.line h.clean
  have hsubmatch := submatch_of_groups (groups_own hhead hsp h.clean h.start h.unambiguous hfirst)
  have hearlier := h.earlier
  cases hschema : nm.schema with
  | some s =>
    have hsome : nm.schema.isSome = true := by rw [hschema]; rfl
    have hform : nm.form.schema.isSome = true := by rw [TableName.form, hschema]; rfl
    obtain ⟨hmem, htake⟩ := (takeWhile_forms nm).1 hsome
    rw [htake] at hearlier
    obtain ⟨h₁, h₂, h₃⟩ := hsubmatch.1 hform
    rw [parsed_of_some (firstSubmatch_of_before hmem hearlier hm), h₃,
      firstSubmatch_eq_none.mpr (h.later hsome)]
    exact ⟨h₁, h₂, rfl⟩
  | none =>
    have hform : nm.form.schema = none := by rw [TableName.form, hschema]; rfl
    obtain ⟨hmem, htake⟩ := (takeWhile_forms nm).2 hschema
    rw [htake, List.forall_mem_append] at hearlier
    rw [parsed_of_none hearlier.1, firstSubmatch_of_before hmem hearlier.2 hm]
    exact ⟨TableName.schemaName_eq_nil_iff.mpr hschema, hsubmatch.2 hform⟩

theorem accepted_of_own (hhead : Head head) (hsp : Spaces sp) (hline : '\n' ∉ opts)
    (hstart : ∀ c, opts.head? = some c → isSpace c = false) (hclean : nm.Clean)
    (hm : nm.form.regexp.findStringSubmatch (head ++ (nm.text ++ (sp ++ opts))) = some m)
    (hgroups : m.groups = nm.form.groups nm.schemaName nm.table.name opts)
    (hearlier : ∀ form ∈ (schemaForms ++ tableForms).takeWhile (· ≠ nm.form),
      ¬ form.Stands (head ++ (nm.text ++ (sp ++ opts))))
    (hlater : nm.schema.isSome = true → ∀ form ∈ tableForms, ¬ form.Stands opts) :
    Accepted nm (head ++ (nm.text ++ (sp ++ opts))) opts := by
  refine ⟨hline, hstart, hclean, hearlier, hlater, fun hamb => ?_⟩
  obtain ⟨m', hfirst, hm'⟩ := first_own hhead hsp hline hclean
  obtain rfl := Option.some.inj (hm.symm.trans hm')
  obtain ⟨schema, table, opts', htail, hlonger⟩ := longer_of_ambiguous hsp hline hclean hamb
  have hform := hamb.1
  rw [hform] at hfirst htail hgroups
  have hlongest := first_form_longest hfirst hhead ((nm.reads hclean).ends.1 _) htail
  rw [((submatch_of_groups hgroups).1 rfl).1] at hlongest
  omega

theorem accepted_of_parsed (hhead : Head head) (hsp : Spaces sp)
    (h : Parsed (head ++ (nm.text ++ (sp ++ opts))) nm.schemaName nm.table.name opts) :
    Accepted nm (head ++ (nm.text ++ (sp ++ opts))) opts := by
  cases hpass : AlterTableParser.firstSubmatch (schemaForms.map Form.regexp)
      (head ++ (nm.text ++ (sp ++ opts))) with
  | none =>
    have hnone := firstSubmatch_eq_none.mp hpass
    rw [parsed_of_none hnone, TableName.schemaName_eq_nil_iff] at h
    obtain ⟨hschema, h⟩ := h
    cases hsecond : AlterTableParser.firstSubmatch (tableForms.map Form.regexp)
        (head ++ (nm.text ++ (sp ++ opts))) with
    | none =>
      rw [hsecond] at h
      -- the prefix is not empty
      have hlength := congrArg List.length h.2
      have hpos := List.length_pos_iff.mpr hsp.1
      simp only [List.length_append] at hlength
      omega
    | some m =>
      rw [hsecond] at h
      obtain ⟨form, hform, hbefore, hm⟩ := firstSubmatch_cases hsecond
      have hformNone := schema_of_mem_tableForms form hform
      obtain ⟨a, head', read, sp', schema, table, opts', hs, hhead', hread, hsp', hline, hstop,
        hgroups⟩ := findStringSubmatch_cases hm
      obtain ⟨h₁, h₂⟩ := (submatch_of_groups hgroups).2 hformNone
      obtain rfl : opts' = opts := h₂.symm.trans h.2
      obtain rfl : table = nm.table.name := h₁.symm.trans h.1
      obtain rfl : schema = nm.schemaName := by
        rw [hread.schema_eq_nil_iff.mpr hformNone, TableName.schemaName_eq_nil_iff.mpr hschema]
      obtain ⟨rfl, hclean⟩ :=
        own_form hsp hhead' hread hsp' (by rw [hformNone, hschema]; rfl) hs.symm
      refine accepted_of_own hhead hsp hline hstop hclean hm hgroups ?_ fun hsome => ?_
      · rw [((takeWhile_forms nm).2 hschema).2, List.forall_mem_append]
        exact ⟨hnone, hbefore⟩
      · rw [hschema] at hsome
        cases hsome
  | some m =>
    rw [parsed_of_some hpass] at h
    obtain ⟨hname, h⟩ := h
    obtain ⟨form, hform, hbefore, hm⟩ := firstSubmatch_cases hpass
    have hformSome := isSome_of_mem_schemaForms form hform
    obtain ⟨a, head', read, sp', schema, table, opts', hs, hhead', hread, hsp', hline, hstop,
      hgroups⟩ := findStringSubmatch_cases hm
    obtain ⟨h₁, h₂, h₃⟩ := (submatch_of_groups hgroups).1 hformSome
    obtain rfl : schema = nm.schemaName := h₁.symm.trans hname
    have hsome : nm.schema.isSome = true := by
      rw [Option.isSome_iff_ne_none, ne_eq, ← TableName.schemaName_eq_nil_iff,
        hread.schema_eq_nil_iff, ← ne_eq, ← Option.isSome_iff_ne_none]
      exact hformSome
    cases hsecond : AlterTableParser.firstSubmatch (tableForms.map Form.regexp) (m.submatch 3) with
    | none =>
      rw [hsecond] at h
      obtain rfl : opts' = opts := h₃.symm.trans h.2
      obtain rfl : table = nm.table.name := h₂.symm.trans h.1
      obtain ⟨rfl, hclean⟩ :=
        own_form hsp hhead' hread hsp' (by rw [hformSome, hsome]) hs.symm
      refine accepted_of_own hhead hsp hline hstop hclean hm hgroups ?_ fun _ => ?_
      · rw [((takeWhile_forms nm).1 hsome).2]
        exact hbefore
      · rw [h₃] at hsecond
        exact firstSubmatch_eq_none.mp hsecond
    | some m' =>
      rw [hsecond] at h
      obtain ⟨form', hform', -, hm'⟩ := firstSubmatch_cases hsecond
      have hformNone := schema_of_mem_tableForms form' hform'
      obtain ⟨a', head'', read', sp'', schema', table', opts'', hs', hhead'', hread', hsp'', -, -,
        hgroups'⟩ := findStringSubmatch_cases hm'
      obtain ⟨h₁', h₂'⟩ := (submatch_of_groups hgroups').2 hformNone
      obtain rfl : opts'' = opts := h₂'.symm.trans h.2
      obtain rfl : table' = nm.table.name := h₁'.symm.trans h.1
      obtain rfl : schema' = [] := hread'.schema_eq_nil_iff.mpr hformNone
      rw [h₃] at hs'
      have hwhole : (a ++ (head' ++ (read ++ (sp' ++ a')))) ++
          (head'' ++ (read' ++ (sp'' ++ opts''))) = head ++ (nm.text ++ (sp ++ opts'')) := by
        rw [hs, hs']
        simp
      exact (no_second hsp hhead'' hformNone hread' hsp'' hsome hwhole).elim

theorem parsed_nothing_iff {text : List Char} :
    Parsed text [] [] text ↔ ∀ form ∈ schemaForms ++ tableForms, ¬ form.Stands text := by
  rw [List.forall_mem_append]
  constructor
  · intro h
    cases hpass : AlterTableParser.firstSubmatch (schemaForms.map Form.regexp) text with
    | some m =>
      rw [parsed_of_some hpass] at h
      obtain ⟨form, hform, -, hm⟩ := firstSubmatch_cases hpass
      have hsome := isSome_of_mem_schemaForms form hform
      obtain ⟨a, head, read, sp, schema, table, opts, -, -, hread, -, -, -, hgroups⟩ :=
        findStringSubmatch_cases hm
      have hnil := ((submatch_of_groups hgroups).1 hsome).1.symm.trans h.1
      rw [hread.schema_eq_nil_iff.mp hnil] at hsome
      cases hsome
    | none =>
      have hnone := firstSubmatch_eq_none.mp hpass
      rw [parsed_of_none hnone] at h
      refine ⟨hnone, firstSubmatch_eq_none.mp ?_⟩
      cases hsecond : AlterTableParser.firstSubmatch (tableForms.map Form.regexp) text with
      | none => rfl
      | some m =>
        rw [hsecond] at h
        obtain ⟨form, hform, -, hm⟩ := firstSubmatch_cases hsecond
        obtain ⟨a, head, read, sp, schema, table, opts, -, -, hread, -, -, -, hgroups⟩ :=
          findStringSubmatch_cases hm
        have hnil := ((submatch_of_groups hgroups).2 (schema_of_mem_tableForms form hform)).1
        exact absurd (hnil.symm.trans h.2.1) hread.table_ne_nil
  · rintro ⟨hschema, htable⟩
    rw [parsed_of_none hschema, firstSubmatch_eq_none.mpr htable]
    exact ⟨rfl, rfl, rfl⟩

/-- **The prefix `ALTER TABLE name` is read off, with the options as they are, exactly if the
statement is `Accepted`; a text gives no names and is left as it is exactly if no clause stands in
it.** -/
theorem alter_prefix_iff (head sp opts : List Char) (nm : TableName) (hhead : Head head)
    (hsp : Spaces sp) :
    (Parsed (head ++ (nm.text ++ (sp ++ opts))) nm.schemaName nm.table.name opts ↔
      Accepted nm (head ++ (nm.text ++ (sp ++ opts))) opts) ∧
    ∀ text, Parsed text [] [] text ↔ ∀ form ∈ schemaForms ++ tableForms, ¬ form.Stands text :=
  ⟨⟨accepted_of_parsed hhead hsp, parsed_of_accepted hhead hsp⟩, fun _ => parsed_nothing_iff⟩

/-- A schema between backticks, and a bare word. -/
def smallName : TableName :=
  { schema := some { spelling := .quoted, name := "a b".toList, name_ne_nil := by decide
                     bare := nofun }
    table := { spelling := .plain, name := ['t'], name_ne_nil := by decide, bare := by decide } }

theorem alter_prefix_iff_small :
    Accepted smallName "ALTER TABLE \x60a b\x60.t drop column b".toList "drop column b".toList := by
  have hhead : Head "ALTER TABLE ".toList :=
    ⟨"ALTER".toList, [' '], "TABLE".toList, [' '], by decide, by simp [Spelled, foldsTo],
      by simp [Spaces, isSpace], by simp [Spelled, foldsTo], by simp [Spaces, isSpace]⟩
  have hiff := (alter_prefix_iff "ALTER TABLE ".toList [' '] "drop column b".toList smallName hhead
    ⟨by decide, forall_mem_of_all (by decide)⟩).1
  exact hiff.mp ⟨by decide +kernel, by decide +kernel, by decide +kernel⟩

/-- Options of two lines, a quoted name with a dot, and `alter table` in a literal. -/
theorem alter_prefix_misread :
    ((newParserFromAlterStatement "alter table t add\nc int").explicitTable = "" ∧
      (newParserFromAlterStatement "alter table t add\nc int").alterStatementOptions =
        "alter table t add\nc int") ∧
    ((newParserFromAlterStatement "alter table \x60a.b\x60 drop c").explicitSchema = "\x60a" ∧
      (newParserFromAlterStatement "alter table \x60a.b\x60 drop c").explicitTable = "b\x60") ∧
    ((newParserFromAlterStatement "alter table s.t comment 'alter table x y'").explicitTable = "x" ∧
      (newParserFromAlterStatement
        "alter table s.t comment 'alter table x y'").alterStatementOptions = "y'") ∧
    ((newParserFromAlterStatement "comment 'alter table x y'").explicitTable = "x" ∧
      (newParserFromAlterStatement "comment 'alter table x y'").alterStatementOptions = "y'") := by
  decide +kernel

end Prefix

end GhOst.Sql.AlterPrefix
