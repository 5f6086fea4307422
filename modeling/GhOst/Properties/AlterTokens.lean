import GhOst.Sql.Parser

/-!
# The tokens of an `ALTER` statement

How the splitter, the sanitiser and the expressions of the parser treat texts whose parts are known.
The splitter counts a single quote or an opening parenthesis, whichever comes first, up to the next
single quote or closing parenthesis: it does not nest, and sees no quote within parentheses.
-/

namespace GhOst.Sql

open Infra Infra.Regexp

/-! ## Texts with string literals -/

/-- A part of a text: plain characters, or a string literal. -/
inductive Part where
  | text (t : List Char)
  | literal (q : List Char)
deriving DecidableEq, Repr

namespace Part

def chars : Part → List Char
  | text t => t
  | literal q => '\x27' :: q ++ ['\x27']

/-- The part without the content of the literal. -/
def blanked : Part → List Char
  | text t => t
  | literal _ => ['\x27', '\x27']

def content : Part → List Char
  | text t => t
  | literal q => q

end Part

def partChars (parts : List Part) : List Char := parts.flatMap Part.chars

def partsBlanked (parts : List Part) : List Char := parts.flatMap Part.blanked

theorem partChars_cons (part : Part) (parts : List Part) :
    partChars (part :: parts) = part.chars ++ partChars parts := List.flatMap_cons

theorem partsBlanked_cons (part : Part) (parts : List Part) :
    partsBlanked (part :: parts) = part.blanked ++ partsBlanked parts := List.flatMap_cons

/-! ### Sanitising -/

theorem run_sanitizeQuotes_of_ne {prev : Option Char} {c : Char} {s : List Char} (h : c ≠ '\x27') :
    sanitizeQuotesRegexp.run prev (c :: s) = [] := by
  have hquote : (literal ['\x27']).run prev (c :: s) = [] := by
    rw [run_literal, if_neg]
    intro hprefix
    exact h (List.cons_prefix_cons.mp hprefix).1.symm
  rw [sanitizeQuotesRegexp, run_group, run_seq, hquote]
  rfl

theorem first_sanitizeQuotes {prev : Option Char} {q s : List Char} (h : '\x27' ∉ q) :
    sanitizeQuotesRegexp.first prev ('\x27' :: q ++ '\x27' :: s) =
      some { taken := '\x27' :: q ++ ['\x27'], rest := s,
             groups := [(1, '\x27' :: q ++ ['\x27'])] } := by
  have hquote : ∀ {prev : Option Char} {s : List Char},
      (literal ['\x27']).first prev ('\x27' :: s) = some { taken := ['\x27'], rest := s } :=
    first_literal _
  have hq : ∀ c ∈ q, decide (c ≠ '\x27') = true := by
    intro c hc
    exact decide_eq_true fun heq => h (heq ▸ hc)
  have hmany := @first_many (some '\x27') (fun c => decide (c ≠ '\x27')) (q ++ '\x27' :: s)
  rw [List.takeWhile_append_of_pos hq, List.dropWhile_append_of_pos hq,
    List.takeWhile_cons_of_neg (by simp), List.dropWhile_cons_of_neg (by simp),
    List.append_nil] at hmany
  exact first_group (first_seq hquote (first_seq hmany hquote))

theorem find_sanitizeQuotes_append {prev : Option Char} {t s : List Char} (h : '\x27' ∉ t) :
    sanitizeQuotesRegexp.find prev (t ++ s) =
      (sanitizeQuotesRegexp.find (t.getLast?.or prev) s).map fun found =>
        (t ++ found.1, found.2) := by
  induction t generalizing prev with
  | nil => simp
  | cons c t ih =>
    obtain ⟨hc, ht⟩ := List.ne_and_not_mem_of_not_mem_cons h
    rw [List.cons_append, find, first_eq_none.mpr (run_sanitizeQuotes_of_ne hc.symm)]
    dsimp only
    rw [ih ht, getLast?_cons_or, Option.map_map]
    rfl

/-- **Sanitising blanks the literals.** -/
theorem replaceAll_parts {parts : List Part} (h : ∀ part ∈ parts, '\x27' ∉ part.content)
    {fuel : Nat} (hfuel : (partChars parts).length < fuel) (prev : Option Char) :
    sanitizeQuotesRegexp.replaceAll ['\x27', '\x27'] fuel prev (partChars parts) =
      partsBlanked parts := by
  induction parts generalizing fuel prev with
  | nil =>
    cases fuel with
    | zero => exact absurd hfuel (Nat.not_lt_zero _)
    | succ fuel => rfl
  | cons part parts ih =>
    have ih' := @ih fun p hp => h p (List.mem_cons_of_mem _ hp)
    have hcontent := h part List.mem_cons_self
    rw [partChars_cons, List.length_append] at hfuel
    rw [partChars_cons, partsBlanked_cons]
    obtain ⟨fuel, rfl⟩ : ∃ n, fuel = n + 1 := Nat.exists_eq_succ_of_ne_zero (by omega)
    cases part with
    | text t =>
      have hrest := ih' (Nat.lt_of_le_of_lt (Nat.le_add_left _ _) hfuel) (t.getLast?.or prev)
      have ht : '\x27' ∉ t := hcontent
      rw [← hrest, Part.chars, Part.blanked, replaceAll, replaceAll, find_sanitizeQuotes_append ht]
      cases sanitizeQuotesRegexp.find (t.getLast?.or prev) (partChars parts) with
      | none => rfl
      | some found =>
        dsimp only [Option.map_some]
        rw [List.getLast?_append, Option.or_assoc, List.append_assoc, List.append_assoc,
          List.append_assoc]
    | literal q =>
      have hlen : (partChars parts).length < fuel := by
        rw [Part.chars] at hfuel
        simp only [List.length_append, List.length_cons, List.length_nil] at hfuel
        omega
      have hfirst := find_of_first (@first_sanitizeQuotes prev q (partChars parts) hcontent)
      rw [Part.chars, Part.blanked, List.append_assoc, List.singleton_append, replaceAll, hfirst]
      dsimp only
      rw [ih' hlen, List.nil_append]

theorem sanitize_parts {parts : List Part} (h : ∀ part ∈ parts, '\x27' ∉ part.content) :
    sanitizeQuotesFromAlterStatement (partChars parts) = partsBlanked parts :=
  replaceAll_parts h (Nat.lt_succ_self _) none

/-! ### Splitting -/

/-- A text that the splitter does not split, and after which nothing is open for it. -/
def Whole (s : List Char) : Prop := scan splitsAt none s = some none

instance (s : List Char) : Decidable (Whole s) := inferInstanceAs (Decidable (_ = _))

theorem Whole.append {a b : List Char} (ha : Whole a) (hb : Whole b) : Whole (a ++ b) :=
  (scan_append ha).trans hb

theorem scan_until {q : Char} {s : List Char} (h : q ∉ s) :
    scan splitsAt (some q) (s ++ [q]) = some none := by
  induction s with
  | nil =>
    have hsplit : splitsAt (some q) q = (none, false) := by simp [splitsAt]
    rw [List.nil_append, scan, hsplit]
    rfl
  | cons c s ih =>
    obtain ⟨hc, hs⟩ := List.ne_and_not_mem_of_not_mem_cons h
    have hsplit : splitsAt (some q) c = (some q, false) := by simp [splitsAt, hc.symm]
    rw [List.cons_append, scan, hsplit, if_neg Bool.false_ne_true]
    exact ih hs

theorem whole_literal {q : List Char} (h : '\x27' ∉ q) : Whole ('\x27' :: q ++ ['\x27']) := by
  have hsplit : splitsAt none '\x27' = (some '\x27', false) := rfl
  unfold Whole
  rw [List.cons_append, scan, hsplit, if_neg Bool.false_ne_true]
  exact scan_until h

theorem whole_paren {s : List Char} (h : ')' ∉ s) : Whole ('(' :: s ++ [')']) := by
  have hsplit : splitsAt none '(' = (some ')', false) := rfl
  unfold Whole
  rw [List.cons_append, scan, hsplit, if_neg Bool.false_ne_true]
  exact scan_until h

end GhOst.Sql
