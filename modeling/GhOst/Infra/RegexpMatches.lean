import Mathlib.Data.List.Forall2
import GhOst.Infra.Regexp

/-!
# What the matches of a regular expression are

For each form of expression, the members of `run` in terms of the text; and of the match that a
search finds, which of them it is: the first at its place, which for a repeated class is the longest
that leaves a match to what follows.
-/

namespace Infra

namespace Regexp

variable {r t : Regexp} {prev : Option Char} {s : List Char} {m : Match} {p : Char → Bool}

/-! ## Members -/

theorem mem_run_seq : m ∈ (seq r t).run prev s ↔
    ∃ m₁ ∈ r.run prev s, ∃ m₂ ∈ t.run (m₁.before prev) m₁.rest, m = m₁.append m₂ := by
  rw [run_seq, List.mem_flatMap]
  constructor
  · rintro ⟨m₁, hm₁, h⟩
    obtain ⟨m₂, hm₂, rfl⟩ := List.mem_map.mp h
    exact ⟨m₁, hm₁, m₂, hm₂, rfl⟩
  · rintro ⟨m₁, hm₁, m₂, hm₂, rfl⟩
    exact ⟨m₁, hm₁, List.mem_map_of_mem hm₂⟩

theorem mem_run_group {i : Nat} : m ∈ (group i r).run prev s ↔
    ∃ m' ∈ r.run prev s, m = { m' with groups := (i, m'.taken) :: m'.groups } := by
  rw [run_group, List.mem_map]
  exact exists_congr fun m' => and_congr_right fun _ => eq_comm

theorem mem_runMany : m ∈ runMany p s ↔
    ∃ w rest, s = w ++ rest ∧ (∀ c ∈ w, p c = true) ∧ m = { taken := w, rest } := by
  induction s generalizing m with
  | nil =>
    rw [runMany, List.mem_singleton]
    constructor
    · rintro rfl
      exact ⟨[], [], rfl, List.forall_mem_nil _, rfl⟩
    · rintro ⟨w, rest, h, -, rfl⟩
      obtain ⟨rfl, rfl⟩ := List.append_eq_nil_iff.mp h.symm
      rfl
  | cons c s ih =>
    rw [runMany]
    by_cases hc : p c = true
    · rw [if_pos hc, List.mem_append, List.mem_map, List.mem_singleton]
      constructor
      · rintro (⟨m', hm', rfl⟩ | rfl)
        · obtain ⟨w, rest, rfl, hw, rfl⟩ := ih.mp hm'
          exact ⟨c :: w, rest, rfl, List.forall_mem_cons.mpr ⟨hc, hw⟩, rfl⟩
        · exact ⟨[], c :: s, rfl, List.forall_mem_nil _, rfl⟩
      · rintro ⟨w, rest, h, hw, rfl⟩
        cases w with
        | nil => exact .inr (by rw [h, List.nil_append])
        | cons d w =>
          obtain ⟨rfl, rfl⟩ := List.cons.inj h
          exact .inl ⟨{ taken := w, rest },
            ih.mpr ⟨w, rest, rfl, (List.forall_mem_cons.mp hw).2, rfl⟩, rfl⟩
    · rw [if_neg hc, List.mem_singleton]
      constructor
      · rintro rfl
        exact ⟨[], c :: s, rfl, List.forall_mem_nil _, rfl⟩
      · rintro ⟨w, rest, h, hw, rfl⟩
        cases w with
        | nil => rw [h, List.nil_append]
        | cons d w =>
          obtain ⟨rfl, -⟩ := List.cons.inj h
          exact absurd (hw c List.mem_cons_self) hc

theorem mem_run_plus : m ∈ (plus p).run prev s ↔
    ∃ w rest, s = w ++ rest ∧ w ≠ [] ∧ (∀ c ∈ w, p c = true) ∧ m = { taken := w, rest } := by
  rw [plus, mem_run_seq]
  cases s with
  | nil =>
    constructor
    · rintro ⟨m₁, hm₁, -⟩
      cases hm₁
    · rintro ⟨w, rest, h, hne, -⟩
      exact absurd (List.append_eq_nil_iff.mp h.symm).1 hne
  | cons c s =>
    rw [run_one_cons]
    constructor
    · rintro ⟨m₁, hm₁, m₂, hm₂, rfl⟩
      split at hm₁
      · next hc =>
        obtain rfl := List.mem_singleton.mp hm₁
        rw [run_many] at hm₂
        obtain ⟨w, rest, hs, hw, rfl⟩ := mem_runMany.mp hm₂
        refine ⟨c :: w, rest, ?_, List.cons_ne_nil _ _, List.forall_mem_cons.mpr ⟨hc, hw⟩, rfl⟩
        rw [List.cons_append, ← hs]
      · cases hm₁
    · rintro ⟨w, rest, h, hne, hw, rfl⟩
      cases w with
      | nil => exact absurd rfl hne
      | cons d w =>
        obtain ⟨rfl, rfl⟩ := List.cons.inj h
        obtain ⟨hc, hw⟩ := List.forall_mem_cons.mp hw
        refine ⟨{ taken := [c], rest := w ++ rest }, ?_, { taken := w, rest }, ?_, rfl⟩
        · rw [if_pos hc]
          exact List.mem_singleton.mpr rfl
        · rw [run_many]
          exact mem_runMany.mpr ⟨w, rest, rfl, hw, rfl⟩

/-- A word, each letter of which folds to that of the expression. -/
def Spelled (w kw : List Char) : Prop := List.Forall₂ (fun c d => foldsTo c d = true) w kw

theorem starts_iff_spelled {w : List Char} :
    starts (w.map foldsTo) s = true ↔ ∃ kw rest, s = kw ++ rest ∧ Spelled w kw := by
  induction w generalizing s with
  | nil => exact iff_of_true rfl ⟨[], s, rfl, .nil⟩
  | cons c w ih =>
    cases s with
    | nil =>
      refine iff_of_false Bool.false_ne_true ?_
      rintro ⟨kw, rest, h, hkw⟩
      obtain ⟨rfl, -⟩ := List.append_eq_nil_iff.mp h.symm
      cases hkw
    | cons d s =>
      rw [List.map_cons, starts, Bool.and_eq_true, ih]
      constructor
      · rintro ⟨hd, kw, rest, rfl, hkw⟩
        exact ⟨d :: kw, rest, rfl, .cons hd hkw⟩
      · rintro ⟨kw, rest, h, hkw⟩
        cases hkw with
        | cons hd hkw =>
          obtain ⟨rfl, rfl⟩ := List.cons.inj h
          exact ⟨hd, _, _, rfl, hkw⟩

theorem mem_run_caseless {w : List Char} : m ∈ (caseless w).run prev s ↔
    ∃ kw rest, s = kw ++ rest ∧ Spelled w kw ∧ m = { taken := kw, rest } := by
  unfold caseless
  rw [run_classes]
  constructor
  · intro h
    split at h
    · next hs =>
      obtain ⟨kw, rest, rfl, hkw⟩ := starts_iff_spelled.mp hs
      rw [List.length_map, hkw.length_eq, List.take_left, List.drop_left] at h
      exact ⟨kw, rest, rfl, hkw, List.mem_singleton.mp h⟩
    · cases h
  · rintro ⟨kw, rest, rfl, hkw, rfl⟩
    rw [if_pos (starts_iff_spelled.mpr ⟨kw, rest, rfl, hkw⟩), List.length_map, hkw.length_eq,
      List.take_left, List.drop_left]
    exact List.mem_singleton.mpr rfl

theorem isWord_of_toLower {c d : Char} (h : c.toLower = d) (hd : isWord d = true) :
    isWord c = true := by
  by_cases hc : c.isUpper = true
  · show (((c.isUpper || c.isLower) || c.isDigit) || decide (c = '_')) = true
    rw [hc]
    rfl
  · have hsame : c.toLower = c := dif_neg fun hup => hc (decide_eq_true hup)
    rw [← hsame, h]
    exact hd

/-- A word without the two letters that have a third form. -/
theorem isWord_of_spelled {w kw : List Char} (h : Spelled w kw)
    (hw : ∀ c ∈ w, isWord c = true ∧ c ≠ 's' ∧ c ≠ 'k') : ∀ d ∈ kw, isWord d = true := by
  induction h with
  | nil => exact nofun
  | cons hd _ ih =>
    obtain ⟨⟨hc, hs, hk⟩, hw⟩ := List.forall_mem_cons.mp hw
    refine List.forall_mem_cons.mpr ⟨?_, ih hw⟩
    rw [foldsTo, decide_eq_false hs, decide_eq_false hk, Bool.false_and, Bool.false_and,
      Bool.or_false, Bool.or_false, decide_eq_true_iff] at hd
    exact isWord_of_toLower hd hc

theorem mem_run_endOfText :
    m ∈ endOfText.run prev s ↔ s = [] ∧ m = { taken := [], rest := [] } := by
  rw [run_endOfText]
  by_cases h : s = []
  · rw [if_pos h, List.mem_singleton]
    exact (and_iff_right h).symm
  · rw [if_neg h]
    exact iff_of_false List.not_mem_nil fun h' => h h'.1

theorem mem_run_wordBoundary : m ∈ wordBoundary.run prev s ↔
    prev.any isWord ≠ s.head?.any isWord ∧ m = { taken := [], rest := s } := by
  rw [run_wordBoundary]
  by_cases h : prev.any isWord ≠ s.head?.any isWord
  · rw [if_pos h, List.mem_singleton]
    exact (and_iff_right h).symm
  · rw [if_neg h]
    exact iff_of_false List.not_mem_nil fun h' => h h'.1

theorem mem_run_group_plus_seq {i : Nat} : m ∈ (seq (group i (plus p)) t).run prev s ↔
    ∃ w rest, s = w ++ rest ∧ w ≠ [] ∧ (∀ c ∈ w, p c = true) ∧
      ∃ m' ∈ t.run (w.getLast?.or prev) rest,
        m = { taken := w ++ m'.taken, rest := m'.rest, groups := (i, w) :: m'.groups } := by
  rw [mem_run_seq]
  constructor
  · rintro ⟨m₁, hm₁, m', hm', rfl⟩
    obtain ⟨m₂, hm₂, rfl⟩ := mem_run_group.mp hm₁
    obtain ⟨w, rest, hs, hne, hw, rfl⟩ := mem_run_plus.mp hm₂
    exact ⟨w, rest, hs, hne, hw, m', hm', rfl⟩
  · rintro ⟨w, rest, hs, hne, hw, m', hm', rfl⟩
    exact ⟨_, mem_run_group.mpr ⟨_, mem_run_plus.mpr ⟨w, rest, hs, hne, hw, rfl⟩, rfl⟩, m',
      hm', rfl⟩

theorem mem_run_literal_seq {w : List Char} : m ∈ (seq (literal w) t).run prev s ↔
    ∃ rest, s = w ++ rest ∧ ∃ m' ∈ t.run (w.getLast?.or prev) rest,
      m = { taken := w ++ m'.taken, rest := m'.rest, groups := m'.groups } := by
  rw [mem_run_seq]
  constructor
  · rintro ⟨m₁, hm₁, m', hm', rfl⟩
    obtain ⟨rest, hs, rfl⟩ := mem_run_literal.mp hm₁
    exact ⟨rest, hs, m', hm', rfl⟩
  · rintro ⟨rest, hs, m', hm', rfl⟩
    exact ⟨_, mem_run_literal.mpr ⟨rest, hs, rfl⟩, m', hm', rfl⟩

theorem taken_of_mem_run_upTo {n : Nat} (h : m ∈ (upTo p n).run prev s) :
    s = m.taken ++ m.rest ∧ m.taken ≠ [] ∧ (∀ c ∈ m.taken, p c = true) ∧ m.groups = [] := by
  have hone : ∀ {prev s m}, m ∈ (one p).run prev s →
      ∃ c, p c = true ∧ s = c :: m.rest ∧ m = { taken := [c], rest := m.rest } := by
    intro prev s m hm
    cases s with
    | nil => cases hm
    | cons c s =>
      rw [run_one_cons] at hm
      split at hm
      · next hc => exact ⟨c, hc, by rw [List.mem_singleton.mp hm], List.mem_singleton.mp hm ▸ rfl⟩
      · cases hm
  induction n generalizing prev s m with
  | zero =>
    obtain ⟨c, hc, hs, hm⟩ := hone h
    rw [hm]
    exact ⟨hs, List.cons_ne_nil _ _, fun d hd => List.mem_singleton.mp hd ▸ hc, rfl⟩
  | succ n ih =>
    obtain ⟨m₁, hm₁, m₂, hm₂, rfl⟩ := mem_run_seq.mp h
    obtain ⟨c, hc, rfl, hm⟩ := hone hm₁
    rw [run_alt, List.mem_append, run_empty, List.mem_singleton] at hm₂
    rw [hm]
    rcases hm₂ with hm₂ | rfl
    · obtain ⟨hrest, -, hall, hgroups⟩ := ih hm₂
      refine ⟨congrArg (List.cons c) hrest, List.cons_ne_nil _ _, ?_, hgroups⟩
      intro d hd
      rcases List.mem_cons.mp hd with rfl | hd
      · exact hc
      · exact hall d hd
    · exact ⟨rfl, List.cons_ne_nil _ _, fun d hd => List.mem_singleton.mp hd ▸ hc, rfl⟩

/-! ## The texts of an expression -/

/-- A text of `A`, and then one of `B`. -/
def Then (A B : List Char → Prop) (s : List Char) : Prop := ∃ a b, s = a ++ b ∧ A a ∧ B b

/-- A run of a class. -/
def RunOf (p : Char → Bool) (w : List Char) : Prop := w ≠ [] ∧ ∀ c ∈ w, p c = true

/-- The expression takes the texts of `A`, wherever they stand. -/
def Takes (r : Regexp) (A : List Char → Prop) : Prop :=
  ∀ prev s a b, (∃ m ∈ r.run prev s, m.taken = a ∧ m.rest = b) ↔ s = a ++ b ∧ A a

/-- The expression matches at the front of the texts of `P`, whatever stands before. -/
def Accepts (r : Regexp) (P : List Char → Prop) : Prop := ∀ prev s, r.run prev s ≠ [] ↔ P s

theorem takes_empty : Takes empty (· = []) := by
  intro prev s a b
  rw [run_empty]
  constructor
  · rintro ⟨m, hm, rfl, rfl⟩
    rw [List.mem_singleton.mp hm]
    exact ⟨rfl, rfl⟩
  · rintro ⟨rfl, rfl⟩
    exact ⟨_, List.mem_singleton.mpr rfl, rfl, rfl⟩

theorem takes_many : Takes (many p) (fun w => ∀ c ∈ w, p c = true) := by
  intro prev s a b
  rw [run_many]
  constructor
  · rintro ⟨m, hm, rfl, rfl⟩
    obtain ⟨w, rest, hs, hw, rfl⟩ := mem_runMany.mp hm
    exact ⟨hs, hw⟩
  · rintro ⟨rfl, hw⟩
    exact ⟨_, mem_runMany.mpr ⟨a, b, rfl, hw, rfl⟩, rfl, rfl⟩

theorem takes_plus : Takes (plus p) (RunOf p) := by
  intro prev s a b
  constructor
  · rintro ⟨m, hm, rfl, rfl⟩
    obtain ⟨w, rest, hs, hne, hw, rfl⟩ := mem_run_plus.mp hm
    exact ⟨hs, hne, hw⟩
  · rintro ⟨rfl, hne, hw⟩
    exact ⟨_, mem_run_plus.mpr ⟨a, b, rfl, hne, hw, rfl⟩, rfl, rfl⟩

theorem takes_literal (w : List Char) : Takes (literal w) (· = w) := by
  intro prev s a b
  constructor
  · rintro ⟨m, hm, rfl, rfl⟩
    obtain ⟨rest, hs, rfl⟩ := mem_run_literal.mp hm
    exact ⟨hs, rfl⟩
  · rintro ⟨rfl, rfl⟩
    exact ⟨_, mem_run_literal.mpr ⟨b, rfl, rfl⟩, rfl, rfl⟩

theorem takes_caseless (w : List Char) : Takes (caseless w) (Spelled w) := by
  intro prev s a b
  constructor
  · rintro ⟨m, hm, rfl, rfl⟩
    obtain ⟨kw, rest, hs, hkw, rfl⟩ := mem_run_caseless.mp hm
    exact ⟨hs, hkw⟩
  · rintro ⟨rfl, hkw⟩
    exact ⟨_, mem_run_caseless.mpr ⟨a, b, rfl, hkw, rfl⟩, rfl, rfl⟩

section

variable {A B P Q : List Char → Prop}

theorem Takes.group {i : Nat} (h : Takes r A) : Takes (group i r) A := by
  intro prev s a b
  rw [← h prev s a b]
  constructor
  · rintro ⟨m, hm, rfl, rfl⟩
    obtain ⟨m', hm', rfl⟩ := mem_run_group.mp hm
    exact ⟨m', hm', rfl, rfl⟩
  · rintro ⟨m, hm, rfl, rfl⟩
    exact ⟨_, mem_run_group.mpr ⟨m, hm, rfl⟩, rfl, rfl⟩

theorem Takes.alt (hr : Takes r A) (ht : Takes t B) : Takes (alt r t) (fun w => A w ∨ B w) := by
  intro prev s a b
  rw [and_or_left, ← hr prev s a b, ← ht prev s a b, run_alt]
  constructor
  · rintro ⟨m, hm, h⟩
    rcases List.mem_append.mp hm with hm | hm
    · exact .inl ⟨m, hm, h⟩
    · exact .inr ⟨m, hm, h⟩
  · rintro (⟨m, hm, h⟩ | ⟨m, hm, h⟩)
    · exact ⟨m, List.mem_append_left _ hm, h⟩
    · exact ⟨m, List.mem_append_right _ hm, h⟩

theorem Takes.seq (hr : Takes r A) (ht : Takes t B) : Takes (seq r t) (Then A B) := by
  intro prev s a b
  constructor
  · rintro ⟨m, hm, rfl, rfl⟩
    obtain ⟨m₁, hm₁, m₂, hm₂, rfl⟩ := mem_run_seq.mp hm
    obtain ⟨hs, hA⟩ := (hr prev s _ _).mp ⟨m₁, hm₁, rfl, rfl⟩
    obtain ⟨hrest, hB⟩ := (ht _ _ _ _).mp ⟨m₂, hm₂, rfl, rfl⟩
    refine ⟨?_, m₁.taken, m₂.taken, rfl, hA, hB⟩
    rw [hs, hrest]
    exact (List.append_assoc _ _ _).symm
  · rintro ⟨rfl, a₁, a₂, rfl, hA, hB⟩
    obtain ⟨m₁, hm₁, rfl, hrest₁⟩ :=
      (hr prev (a₁ ++ a₂ ++ b) a₁ (a₂ ++ b)).mpr ⟨List.append_assoc _ _ _, hA⟩
    obtain ⟨m₂, hm₂, rfl, rfl⟩ := (ht (m₁.before prev) m₁.rest a₂ b).mpr ⟨hrest₁, hB⟩
    exact ⟨_, mem_run_seq.mpr ⟨m₁, hm₁, m₂, hm₂, rfl⟩, rfl, rfl⟩

theorem Takes.before (hr : Takes r A) (ht : Accepts t P) : Accepts (.seq r t) (Then A P) := by
  intro prev s
  rw [run_seq_ne_nil]
  constructor
  · rintro ⟨m, hm, hrest⟩
    obtain ⟨hs, hA⟩ := (hr prev s _ _).mp ⟨m, hm, rfl, rfl⟩
    exact ⟨m.taken, m.rest, hs, hA, (ht _ _).mp hrest⟩
  · rintro ⟨a, b, hs, hA, hP⟩
    obtain ⟨m, hm, -, rfl⟩ := (hr prev s a b).mpr ⟨hs, hA⟩
    exact ⟨m, hm, (ht _ _).mpr hP⟩

theorem Takes.accepts (hr : Takes r A) : Accepts r (Then A fun _ => True) := by
  intro prev s
  constructor
  · intro hne
    obtain ⟨m, hm⟩ := List.exists_mem_of_ne_nil _ hne
    obtain ⟨hs, hA⟩ := (hr prev s _ _).mp ⟨m, hm, rfl, rfl⟩
    exact ⟨_, _, hs, hA, trivial⟩
  · rintro ⟨a, b, hs, hA, -⟩ hnil
    obtain ⟨m, hm, -⟩ := (hr prev s a b).mpr ⟨hs, hA⟩
    rw [hnil] at hm
    cases hm

end

theorem accepts_endOfText : Accepts endOfText (· = []) := by
  intro prev s
  rw [run_endOfText]
  by_cases h : s = []
  · rw [if_pos h]
    exact iff_of_true (List.cons_ne_nil _ _) h
  · rw [if_neg h]
    exact iff_of_false (fun hne => hne rfl) h

/-- A text of `P` begins at the beginning of a word. -/
def Stands (P : List Char → Prop) (s : List Char) : Prop :=
  ∃ a b, s = a ++ b ∧ a.getLast?.any isWord = false ∧ P b

/-- **A search for `\b` and an expression finds something exactly if one of its texts stands
there.** -/
theorem find_boundary_eq_none_iff {P : List Char → Prop} (hr : Accepts r P)
    (hP : ∀ s, P s → s.head?.any isWord = true) (hprev : prev.any isWord = false) :
    (seq wordBoundary r).find prev s = none ↔ ¬ Stands P s := by
  have hrun : ∀ q b, (seq wordBoundary r).run q b ≠ [] ↔ q.any isWord = false ∧ P b := by
    intro q b
    rw [run_seq_ne_nil]
    constructor
    · rintro ⟨m, hm, hne⟩
      obtain ⟨hboundary, rfl⟩ := mem_run_wordBoundary.mp hm
      have hb := (hr _ _).mp hne
      rw [hP b hb] at hboundary
      exact ⟨eq_false_of_ne_true hboundary, hb⟩
    · rintro ⟨hq, hb⟩
      refine ⟨_, mem_run_wordBoundary.mpr ⟨?_, rfl⟩, (hr _ _).mpr hb⟩
      rw [hq, hP b hb]
      exact Bool.false_ne_true
  have hbefore : ∀ a : List Char, (a.getLast?.or prev).any isWord = a.getLast?.any isWord := by
    intro a
    cases a.getLast? with
    | none => exact hprev
    | some c => rfl
  rw [find_eq_none_iff]
  constructor
  · rintro h ⟨a, b, hs, ha, hb⟩
    exact (hrun _ b).mpr ⟨(hbefore a).trans ha, hb⟩ (h a b hs)
  · intro h a b hs
    by_contra hne
    obtain ⟨ha, hb⟩ := (hrun _ b).mp hne
    exact h ⟨a, b, hs, (hbefore a).symm.trans ha, hb⟩

/-! ## The first match -/

theorem mem_of_first (h : r.first prev s = some m) : m ∈ r.run prev s := List.mem_of_head? h

theorem first_eq_of_unique (hm : m ∈ r.run prev s) (h : ∀ m' ∈ r.run prev s, m' = m) :
    r.first prev s = some m := by
  unfold first
  cases hrun : r.run prev s with
  | nil =>
    rw [hrun] at hm
    cases hm
  | cons m' ms =>
    rw [List.head?_cons, h m' (by rw [hrun]; exact List.mem_cons_self)]

theorem head?_flatMap_cases {α β : Type} {R : α → α → Prop} {f : α → List β} {l : List α} {b : β}
    (hl : l.Pairwise R) (h : (l.flatMap f).head? = some b) :
    ∃ a ∈ l, (f a).head? = some b ∧ ∀ a' ∈ l, f a' ≠ [] → a' = a ∨ R a a' := by
  induction l with
  | nil => cases h
  | cons x l ih =>
    obtain ⟨hx, hl⟩ := List.pairwise_cons.mp hl
    rw [List.flatMap_cons, List.head?_append] at h
    cases hfx : f x with
    | nil =>
      rw [hfx, List.head?_nil, Option.none_or] at h
      obtain ⟨a, ha, hhead, hothers⟩ := ih hl h
      refine ⟨a, List.mem_cons_of_mem _ ha, hhead, fun a' ha' hne => ?_⟩
      rcases List.mem_cons.mp ha' with rfl | ha'
      · exact absurd hfx hne
      · exact hothers a' ha' hne
    | cons y ys =>
      rw [hfx, List.head?_cons, Option.some_or] at h
      refine ⟨x, List.mem_cons_self, by rw [hfx, List.head?_cons, h], fun a' ha' _ => ?_⟩
      rcases List.mem_cons.mp ha' with rfl | ha'
      · exact .inl rfl
      · exact .inr (hx a' ha')

theorem first_seq_cases (h : (seq r t).first prev s = some m) :
    ∃ m₁ ∈ r.run prev s, ∃ m₂, t.first (m₁.before prev) m₁.rest = some m₂ ∧ m = m₁.append m₂ := by
  unfold first at h ⊢
  rw [run_seq] at h
  have hall : (r.run prev s).Pairwise fun _ _ => True := List.pairwise_of_forall fun _ _ => trivial
  obtain ⟨m₁, hm₁, hhead, -⟩ := head?_flatMap_cases hall h
  rw [List.head?_map, Option.map_eq_some_iff] at hhead
  obtain ⟨m₂, hm₂, rfl⟩ := hhead
  exact ⟨m₁, hm₁, m₂, hm₂, rfl⟩

theorem find_cases {a : List Char} (h : r.find prev s = some (a, m)) :
    ∃ b, s = a ++ b ∧ r.first (a.getLast?.or prev) b = some m := by
  induction s generalizing prev a with
  | nil =>
    rw [find, Option.map_eq_some_iff] at h
    obtain ⟨m', hm', heq⟩ := h
    obtain ⟨rfl, rfl⟩ := Prod.mk.inj heq
    exact ⟨[], rfl, hm'⟩
  | cons c s ih =>
    rw [find] at h
    split at h
    · next m' hfirst =>
      obtain ⟨rfl, rfl⟩ := Prod.mk.inj (Option.some.inj h)
      exact ⟨c :: s, rfl, hfirst⟩
    · obtain ⟨⟨a', m'⟩, hfound, heq⟩ := Option.map_eq_some_iff.mp h
      obtain ⟨rfl, rfl⟩ := Prod.mk.inj heq
      obtain ⟨b, rfl, hfirst⟩ := ih hfound
      exact ⟨b, rfl, by rw [getLast?_cons_or]; exact hfirst⟩

theorem findAllStringSubmatch_eq_nil (h : r.find none s = none) :
    r.findAllStringSubmatch s = [] := by
  rw [findAllStringSubmatch, findAll, h]

theorem findAllStringSubmatch_eq_singleton (hne : s ≠ []) (h : r.first none s = some m)
    (hrest : r.find (m.before none) m.rest = none) : r.findAllStringSubmatch s = [m] := by
  obtain ⟨c, s, rfl⟩ := List.exists_cons_of_ne_nil hne
  rw [findAllStringSubmatch, findAll, find_of_first h]
  dsimp only
  rw [List.length_cons, findAll, List.getLast?_nil, Option.none_or, hrest]

/-! ## The longest match of a class -/

/-- The matches of `p*` get shorter. -/
theorem pairwise_runMany (p : Char → Bool) (s : List Char) :
    (runMany p s).Pairwise fun m m' => m'.taken.length ≤ m.taken.length := by
  induction s with
  | nil => exact List.pairwise_singleton _ _
  | cons c s ih =>
    rw [runMany]
    split
    · rw [List.pairwise_append]
      refine ⟨?_, List.pairwise_singleton _ _, fun m _ m' hm' => ?_⟩
      · rw [List.pairwise_map]
        exact ih.imp fun h => Nat.succ_le_succ h
      · rw [List.mem_singleton.mp hm']
        exact Nat.zero_le _
    · exact List.pairwise_singleton _ _

theorem pairwise_run_plus (p : Char → Bool) :
    ((plus p).run prev s).Pairwise fun m m' => m'.taken.length ≤ m.taken.length := by
  cases s with
  | nil => exact List.Pairwise.nil
  | cons c s =>
    rw [plus, run_seq, run_one_cons]
    split
    · rw [List.flatMap_singleton, List.pairwise_map, run_many]
      exact (pairwise_runMany p s).imp fun h => Nat.succ_le_succ h
    · exact List.Pairwise.nil

/-- Of the matches of a repeated class that leave one to what follows, the longest is taken. -/
theorem first_group_plus_cases {i : Nat} (h : (seq (group i (plus p)) t).first prev s = some m) :
    ∃ w rest m', s = w ++ rest ∧ w ≠ [] ∧ (∀ c ∈ w, p c = true) ∧
      t.first (w.getLast?.or prev) rest = some m' ∧
      m = { taken := w ++ m'.taken, rest := m'.rest, groups := (i, w) :: m'.groups } ∧
      ∀ w' rest', s = w' ++ rest' → w' ≠ [] → (∀ c ∈ w', p c = true) →
        t.run (w'.getLast?.or prev) rest' ≠ [] → w'.length ≤ w.length := by
  unfold first at h
  rw [run_seq, run_group, List.flatMap_map] at h
  obtain ⟨m₁, hm₁, hhead, hothers⟩ := head?_flatMap_cases (pairwise_run_plus p) h
  obtain ⟨w, rest, hs, hne, hw, rfl⟩ := mem_run_plus.mp hm₁
  rw [List.head?_map, Option.map_eq_some_iff] at hhead
  obtain ⟨m', hm', rfl⟩ := hhead
  refine ⟨w, rest, m', hs, hne, hw, hm', rfl, fun w' rest' hs' hne' hw' hrun => ?_⟩
  have hmem : ({ taken := w', rest := rest' } : Match) ∈ (plus p).run prev s :=
    mem_run_plus.mpr ⟨w', rest', hs', hne', hw', rfl⟩
  rcases hothers _ hmem fun hnil => hrun (List.map_eq_nil_iff.mp hnil) with heq | hle
  · rw [(Match.mk.inj heq).1]
  · exact hle

end Regexp

end Infra
