import Mathlib.Data.List.Infix

/-!
# Regular expressions

Matching as Perl and the `regexp` package of Go do it: of the matches that begin leftmost, the one
that a backtracking search finds first. `run` lists all matches at a place in the order of that
search. Only classes of characters are repeated, and greedily.

`prev` is the character before the place, which `\b` looks at.
-/

namespace Infra

inductive Regexp where
  | empty
  | one (p : Char → Bool)
  /-- `p*` -/
  | many (p : Char → Bool)
  | seq (r t : Regexp)
  /-- `r|t` -/
  | alt (r t : Regexp)
  /-- a submatch that is kept under its number -/
  | group (i : Nat) (r : Regexp)
  /-- `\b` -/
  | wordBoundary
  /-- `$` -/
  | endOfText

namespace Regexp

structure Match where
  taken : List Char
  rest : List Char
  groups : List (Nat × List Char) := []
deriving DecidableEq, Repr

namespace Match

/-- The character before what is left. -/
def before (prev : Option Char) (m : Match) : Option Char := m.taken.getLast?.or prev

/-- A match, and one of what it leaves. -/
def append (m m' : Match) : Match :=
  { taken := m.taken ++ m'.taken, rest := m'.rest, groups := m.groups ++ m'.groups }

/-- `submatch[i]`. -/
def submatch (m : Match) (i : Nat) : List Char := (m.groups.lookup i).getD []

end Match

/-- `\w`. -/
def isWord (c : Char) : Bool := c.isAlphanum || c = '_'

/-- `\s`. -/
def isSpace (c : Char) : Bool := c = ' ' || c = '\t' || c = '\n' || c = '\x0c' || c = '\r'

/-- The matches of `p*`, the longest first. -/
def runMany (p : Char → Bool) : List Char → List Match
  | [] => [{ taken := [], rest := [] }]
  | c :: s =>
    if p c then
      (runMany p s).map (fun m => { m with taken := c :: m.taken }) ++
        [{ taken := [], rest := c :: s }]
    else [{ taken := [], rest := c :: s }]

def run : Regexp → Option Char → List Char → List Match
  | empty, _, s => [{ taken := [], rest := s }]
  | one _, _, [] => []
  | one p, _, c :: s => if p c then [{ taken := [c], rest := s }] else []
  | many p, _, s => runMany p s
  | seq r t, prev, s =>
    (r.run prev s).flatMap fun m => (t.run (m.before prev) m.rest).map m.append
  | alt r t, prev, s => r.run prev s ++ t.run prev s
  | group i r, prev, s => (r.run prev s).map fun m => { m with groups := (i, m.taken) :: m.groups }
  | wordBoundary, prev, s =>
    if prev.any isWord ≠ s.head?.any isWord then [{ taken := [], rest := s }] else []
  | endOfText, _, s => if s = [] then [{ taken := [], rest := [] }] else []

section

variable (r t : Regexp) (p : Char → Bool) (prev : Option Char) (c : Char) (s : List Char)

theorem run_empty : empty.run prev s = [{ taken := [], rest := s }] := rfl

theorem run_one_cons : (one p).run prev (c :: s) =
    if p c then [{ taken := [c], rest := s }] else [] := rfl

theorem run_many : (many p).run prev s = runMany p s := rfl

theorem run_seq : (seq r t).run prev s =
    (r.run prev s).flatMap fun m => (t.run (m.before prev) m.rest).map m.append := rfl

theorem run_alt : (alt r t).run prev s = r.run prev s ++ t.run prev s := rfl

theorem run_group (i : Nat) : (group i r).run prev s =
    (r.run prev s).map fun m => { m with groups := (i, m.taken) :: m.groups } := rfl

theorem run_wordBoundary : wordBoundary.run prev s =
    if prev.any isWord ≠ s.head?.any isWord then [{ taken := [], rest := s }] else [] := rfl

theorem run_endOfText : endOfText.run prev s =
    if s = [] then [{ taken := [], rest := [] }] else [] := rfl

end

/-- The first match at a place. -/
def first (r : Regexp) (prev : Option Char) (s : List Char) : Option Match := (r.run prev s).head?

/-- The leftmost match, with the text before it. -/
def find (r : Regexp) : Option Char → List Char → Option (List Char × Match)
  | prev, [] => (r.first prev []).map fun m => ([], m)
  | prev, c :: s =>
    match r.first prev (c :: s) with
    | some m => some ([], m)
    | none => (r.find (some c) s).map fun found => (c :: found.1, found.2)

def matchString (r : Regexp) (s : List Char) : Bool := (r.find none s).isSome

def findStringSubmatch (r : Regexp) (s : List Char) : Option Match := (r.find none s).map Prod.snd

/-- `FindStringSubmatch`, of an expression that begins with `^`. -/
def findAtStart (r : Regexp) (s : List Char) : Option Match := r.first none s

/-- The successive matches, of an expression that does not match the empty text. -/
def findAll (r : Regexp) : (fuel : Nat) → Option Char → List Char → List Match
  | 0, _, _ => []
  | fuel + 1, prev, s =>
    match r.find prev s with
    | none => []
    | some (skipped, m) => m :: r.findAll fuel (m.before (skipped.getLast?.or prev)) m.rest

/-- `FindAllStringSubmatch(s, -1)`. -/
def findAllStringSubmatch (r : Regexp) (s : List Char) : List Match :=
  r.findAll (s.length + 1) none s

/-- The text with each of the successive matches replaced. -/
def replaceAll (r : Regexp) (repl : List Char) : (fuel : Nat) → Option Char → List Char → List Char
  | 0, _, s => s
  | fuel + 1, prev, s =>
    match r.find prev s with
    | none => s
    | some (skipped, m) =>
      skipped ++ repl ++ r.replaceAll repl fuel (m.before (skipped.getLast?.or prev)) m.rest

/-- `ReplaceAllString`, for a text without `$`. -/
def replaceAllString (r : Regexp) (repl s : List Char) : List Char :=
  r.replaceAll repl (s.length + 1) none s

/-! ## Derived forms -/

/-- One character of each class in turn. -/
def classes : List (Char → Bool) → Regexp
  | [] => empty
  | p :: ps => seq (one p) (classes ps)

/-- A text that stands for itself; `regexp.QuoteMeta` gives such an expression. -/
def literal (w : List Char) : Regexp := classes (w.map fun c d => d = c)

/-- The characters that simple case folding makes equal to a lower-case letter of ASCII. -/
def foldsTo (c d : Char) : Bool :=
  d.toLower = c || (c = 's' && d = '\u017f') || (c = 'k' && d = '\u212a')

/-- A text in lower case, under `(?i)`. -/
def caseless (w : List Char) : Regexp := classes (w.map foldsTo)

/-- `p+`. -/
def plus (p : Char → Bool) : Regexp := seq (one p) (many p)

/-- `p{1,n + 1}`. -/
def upTo (p : Char → Bool) : (n : Nat) → Regexp
  | 0 => one p
  | n + 1 => seq (one p) (alt (upTo p n) empty)

/-! ## Where an expression matches -/

variable {r t : Regexp} {prev : Option Char} {s : List Char}
variable {w : List Char}

theorem first_eq_none : r.first prev s = none ↔ r.run prev s = [] := List.head?_eq_none_iff

theorem getLast?_cons_or (c : Char) (a : List Char) :
    (c :: a).getLast?.or prev = a.getLast?.or (some c) := by
  rw [List.getLast?_cons]
  cases a.getLast? <;> rfl

/-- **Nothing is found exactly when no place matches.** -/
theorem find_eq_none_iff :
    r.find prev s = none ↔ ∀ a b, s = a ++ b → r.run (a.getLast?.or prev) b = [] := by
  induction s generalizing prev with
  | nil =>
    rw [find, Option.map_eq_none_iff, first_eq_none]
    constructor
    · intro h a b hab
      obtain ⟨rfl, rfl⟩ := List.append_eq_nil_iff.mp hab.symm
      exact h
    · intro h
      exact h [] [] rfl
  | cons c s ih =>
    rw [find]
    constructor
    · intro h a b hab
      split at h
      · cases h
      · next hnone =>
        rw [Option.map_eq_none_iff, ih] at h
        cases a with
        | nil =>
          rw [List.nil_append] at hab
          rw [← hab]
          exact first_eq_none.mp hnone
        | cons d a =>
          obtain ⟨rfl, rfl⟩ := List.cons.inj hab
          rw [getLast?_cons_or]
          exact h a b rfl
    · intro h
      have hhere : r.run prev (c :: s) = [] := h [] (c :: s) rfl
      rw [first_eq_none.mpr hhere]
      dsimp only
      rw [Option.map_eq_none_iff, ih]
      intro a b hab
      rw [← getLast?_cons_or]
      exact h (c :: a) b (by rw [hab, List.cons_append])

theorem matchString_iff :
    r.matchString s = true ↔ ∃ a b, s = a ++ b ∧ r.run a.getLast? b ≠ [] := by
  unfold matchString
  rw [Option.isSome_iff_ne_none, ne_eq, find_eq_none_iff]
  constructor
  · intro h
    by_contra hno
    refine h fun a b hab => ?_
    by_contra hne
    rw [Option.or_none] at hne
    exact hno ⟨a, b, hab, hne⟩
  · rintro ⟨a, b, hab, hne⟩ h
    have hnil := h a b hab
    rw [Option.or_none] at hnil
    exact hne hnil

/-! ## Texts -/

/-- The text begins with a character of each class in turn. -/
def starts : List (Char → Bool) → List Char → Bool
  | [], _ => true
  | _ :: _, [] => false
  | p :: ps, c :: s => p c && starts ps s

theorem run_classes (ps : List (Char → Bool)) :
    (classes ps).run prev s =
      if starts ps s then [{ taken := s.take ps.length, rest := s.drop ps.length }] else [] := by
  induction ps generalizing prev s with
  | nil => rfl
  | cons p ps ih =>
    cases s with
    | nil => rfl
    | cons c s =>
      rw [classes, run_seq, run_one_cons, starts]
      cases hp : p c with
      | false => rfl
      | true =>
        simp only [if_true, List.flatMap_singleton, Bool.true_and, ih]
        split
        · rfl
        · rfl

theorem starts_literal : starts (w.map fun c d => decide (d = c)) s = true ↔ w <+: s := by
  induction w generalizing s with
  | nil => simp [starts]
  | cons c w ih =>
    cases s with
    | nil => simp [starts]
    | cons d s =>
      rw [List.map_cons, starts, Bool.and_eq_true, decide_eq_true_iff, ih, List.cons_prefix_cons]
      exact and_congr_left fun _ => eq_comm

theorem run_literal (w : List Char) : (literal w).run prev s =
    if w <+: s then [{ taken := w, rest := s.drop w.length }] else [] := by
  unfold literal
  rw [run_classes]
  by_cases h : w <+: s
  · rw [if_pos (starts_literal.mpr h), if_pos h, List.length_map,
      ← List.prefix_iff_eq_take.mp h]
  · rw [if_neg (fun hs => h (starts_literal.mp hs)), if_neg h]

theorem mem_run_literal {m : Match} : m ∈ (literal w).run prev s ↔
    ∃ rest, s = w ++ rest ∧ m = { taken := w, rest } := by
  rw [run_literal]
  constructor
  · intro h
    split at h
    · next hw =>
      obtain ⟨rest, rfl⟩ := hw
      rw [List.drop_left] at h
      exact ⟨rest, rfl, List.mem_singleton.mp h⟩
    · cases h
  · rintro ⟨rest, rfl, rfl⟩
    rw [if_pos (List.prefix_append w rest), List.drop_left]
    exact List.mem_singleton.mpr rfl

theorem run_seq_ne_nil : (seq r t).run prev s ≠ [] ↔
    ∃ m ∈ r.run prev s, t.run (m.before prev) m.rest ≠ [] := by
  rw [run_seq, ne_eq, List.flatMap_eq_nil_iff]
  constructor
  · intro h
    by_contra hno
    refine h fun m hm => ?_
    by_contra hne
    exact hno ⟨m, hm, fun hnil => hne (by rw [hnil, List.map_nil])⟩
  · rintro ⟨m, hm, hne⟩ h
    exact hne (List.map_eq_nil_iff.mp (h m hm))

theorem before_append (m m' : Match) : (m.append m').before prev = m'.before (m.before prev) := by
  unfold Match.before Match.append
  rw [List.getLast?_append, Option.or_assoc]

theorem run_literal_ne_nil : (literal w).run prev s ≠ [] ↔ w <+: s := by
  rw [run_literal]
  by_cases h : w <+: s
  · rw [if_pos h]
    exact iff_of_true (List.cons_ne_nil _ _) h
  · rw [if_neg h]
    exact iff_of_false (fun hne => hne rfl) h

theorem run_literal_seq_ne_nil : (seq (literal w) t).run prev s ≠ [] ↔
    ∃ rest, s = w ++ rest ∧ t.run (w.getLast?.or prev) rest ≠ [] := by
  rw [run_seq_ne_nil]
  constructor
  · rintro ⟨m, hm, h⟩
    obtain ⟨rest, hs, rfl⟩ := mem_run_literal.mp hm
    exact ⟨rest, hs, h⟩
  · rintro ⟨rest, hs, h⟩
    exact ⟨_, mem_run_literal.mpr ⟨rest, hs, rfl⟩, h⟩

theorem run_seq_assoc_ne_nil {u : Regexp} :
    (seq (seq r u) t).run prev s ≠ [] ↔ (seq r (seq u t)).run prev s ≠ [] := by
  rw [run_seq_ne_nil, run_seq_ne_nil]
  constructor
  · rintro ⟨m, hm, h⟩
    rw [run_seq, List.mem_flatMap] at hm
    obtain ⟨m₁, hm₁, hm⟩ := hm
    obtain ⟨m₂, hm₂, rfl⟩ := List.mem_map.mp hm
    rw [before_append] at h
    exact ⟨m₁, hm₁, run_seq_ne_nil.mpr ⟨m₂, hm₂, h⟩⟩
  · rintro ⟨m₁, hm₁, h⟩
    obtain ⟨m₂, hm₂, h⟩ := run_seq_ne_nil.mp h
    refine ⟨m₁.append m₂, ?_, by rw [before_append]; exact h⟩
    rw [run_seq, List.mem_flatMap]
    exact ⟨m₁, hm₁, List.mem_map_of_mem hm₂⟩

/-- An expression that may be absent, before another. -/
theorem run_optional_ne_nil {i : Nat} : (seq (alt (group i r) empty) t).run prev s ≠ [] ↔
    (seq r t).run prev s ≠ [] ∨ t.run prev s ≠ [] := by
  rw [run_seq_ne_nil, run_seq_ne_nil, run_alt, run_group, run_empty]
  constructor
  · rintro ⟨m, hm, h⟩
    rcases List.mem_append.mp hm with hm | hm
    · obtain ⟨m', hm', rfl⟩ := List.mem_map.mp hm
      exact .inl ⟨m', hm', h⟩
    · rw [List.mem_singleton.mp hm] at h
      exact .inr h
  · rintro (⟨m, hm, h⟩ | h)
    · exact ⟨_, List.mem_append_left _ (List.mem_map_of_mem hm), h⟩
    · exact ⟨_, List.mem_append_right _ (List.mem_singleton.mpr rfl), h⟩

/-! ## The first match -/

variable {m m' : Match} {p : Char → Bool}

theorem first_seq (h : r.first prev s = some m) (h' : t.first (m.before prev) m.rest = some m') :
    (seq r t).first prev s = some (m.append m') := by
  unfold first at h h' ⊢
  obtain ⟨ms, hr⟩ := List.head?_eq_some_iff.mp h
  obtain ⟨ms', ht⟩ := List.head?_eq_some_iff.mp h'
  rw [run_seq, hr, List.flatMap_cons, ht, List.map_cons, List.cons_append, List.head?_cons]

theorem first_group {i : Nat} (h : r.first prev s = some m) :
    (group i r).first prev s = some { m with groups := (i, m.taken) :: m.groups } := by
  unfold first at h ⊢
  rw [run_group, List.head?_map, h, Option.map_some]

theorem first_alt_left (h : r.first prev s = some m) : (alt r t).first prev s = some m := by
  unfold first at h ⊢
  rw [run_alt, List.head?_append, h, Option.some_or]

theorem first_alt_right (h : r.run prev s = []) : (alt r t).first prev s = t.first prev s := by
  unfold first
  rw [run_alt, h, List.nil_append]

theorem first_many (p : Char → Bool) (s : List Char) :
    (many p).first prev s = some { taken := s.takeWhile p, rest := s.dropWhile p } := by
  unfold first
  rw [run_many]
  induction s with
  | nil => rfl
  | cons c s ih =>
    rw [runMany]
    by_cases hp : p c = true
    · rw [if_pos hp, List.head?_append, List.head?_map, ih, Option.map_some, Option.some_or,
        List.takeWhile_cons_of_pos hp, List.dropWhile_cons_of_pos hp]
    · rw [if_neg hp, List.head?_cons, List.takeWhile_cons_of_neg hp, List.dropWhile_cons_of_neg hp]

theorem first_plus (hne : w ≠ []) (hw : ∀ c ∈ w, p c = true)
    (hs : ∀ c, s.head? = some c → p c = false) :
    (plus p).first prev (w ++ s) = some { taken := w, rest := s } := by
  obtain ⟨c, w, rfl⟩ := List.exists_cons_of_ne_nil hne
  have hone : (one p).first prev (c :: (w ++ s)) = some { taken := [c], rest := w ++ s } := by
    unfold first
    rw [run_one_cons, if_pos (hw c List.mem_cons_self), List.head?_cons]
  have hw' : ∀ d ∈ w, p d = true := fun d hd => hw d (List.mem_cons_of_mem _ hd)
  have hstop : s.takeWhile p = [] ∧ s.dropWhile p = s := by
    cases s with
    | nil => exact ⟨rfl, rfl⟩
    | cons d s =>
      have hd : ¬ p d = true := by rw [hs d rfl]; exact Bool.false_ne_true
      exact ⟨List.takeWhile_cons_of_neg hd, List.dropWhile_cons_of_neg hd⟩
  have hmany := @first_many (({ taken := [c], rest := w ++ s } : Match).before prev) p (w ++ s)
  rw [List.takeWhile_append_of_pos hw', List.dropWhile_append_of_pos hw', hstop.1, hstop.2,
    List.append_nil] at hmany
  exact first_seq hone hmany

theorem starts_of_spelled {kw : List Char} (h : kw.map Char.toLower = w) :
    starts (w.map foldsTo) (kw ++ s) = true := by
  induction kw generalizing w with
  | nil =>
    rw [← h]
    rfl
  | cons c kw ih =>
    rw [← h, List.map_cons, List.map_cons, List.cons_append, starts, Bool.and_eq_true]
    exact ⟨by simp [foldsTo], ih rfl⟩

theorem first_caseless {kw : List Char} (h : kw.map Char.toLower = w) :
    (caseless w).first prev (kw ++ s) = some { taken := kw, rest := s } := by
  have hlen : (w.map foldsTo).length = kw.length := by rw [← h, List.length_map, List.length_map]
  unfold first caseless
  rw [run_classes, if_pos (starts_of_spelled h), hlen, List.take_left, List.drop_left,
    List.head?_cons]

theorem first_literal (w : List Char) :
    (literal w).first prev (w ++ s) = some { taken := w, rest := s } := by
  unfold first
  rw [run_literal, if_pos (List.prefix_append w s), List.drop_left, List.head?_cons]

theorem first_wordBoundary {c : Char} (hc : isWord c = true) (hprev : prev.any isWord = false) :
    wordBoundary.first prev (c :: s) = some { taken := [], rest := c :: s } := by
  unfold first
  rw [run_wordBoundary, List.head?_cons, Option.any_some, hprev, hc, if_pos Bool.false_ne_true,
    List.head?_cons]

theorem find_of_first (h : r.first prev s = some m) : r.find prev s = some ([], m) := by
  cases s with
  | nil => rw [find, h, Option.map_some]
  | cons c s => rw [find, h]

end Regexp

end Infra
