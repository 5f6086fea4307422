import Mathlib.Data.List.Basic

/-!
# Identifiers in the text of a statement

How the server reads the name of a column: between backticks, where two of them stand for one, or as
a bare word. A bare word has letters, digits, `$`, `_` and characters from U+0080 to U+FFFF; it is
not a number, and it does not begin with one in scientific form (`1e5`), which the lexer takes for
itself. The reserved words are left out: none ends in `_min` or `_max` or begins with `gh_ost`.
-/

namespace GhOst.Mysql

/-- A character that needs no quotes. -/
def isIdentChar (c : Char) : Bool :=
  c.isAlphanum || c == '$' || c == '_' || (0x80 ≤ c.toNat && c.toNat ≤ 0xFFFF)

/-- After digits, if `seen`, and maybe more of them: an exponent. -/
def exponentFollows : (seen : Bool) → List Char → Bool
  | _, [] => false
  | seen, c :: rest =>
    if c.isDigit then exponentFollows true rest
    else seen && (c == 'e' || c == 'E') && rest.head?.any Char.isDigit

def isBareWord (word : List Char) : Bool := word.all isIdentChar && !exponentFollows false word

/-- The identifier whose opening backtick has been read, to the end of the text. -/
def readQuoted : List Char → Option (List Char)
  | [] => none
  | c :: text =>
    if c = '\x60' then
      match text with
      | [] => some []
      | d :: text => if d = '\x60' then (readQuoted text).map ('\x60' :: ·) else none
    else (readQuoted text).map (c :: ·)

/-- The identifier that a text is. -/
def readIdentifier (text : List Char) : Option (List Char) :=
  match text with
  | [] => none
  | c :: rest =>
    if c = '\x60' then (readQuoted rest).filter (· ≠ [])
    else if isBareWord text ∧ ¬ text.all Char.isDigit then some text
    else none

/-! ## Quoted names -/

theorem readQuoted_closed {name : List Char} (h : '\x60' ∉ name) :
    readQuoted (name ++ ['\x60']) = some name := by
  induction name with
  | nil => rfl
  | cons c name ih =>
    rw [List.mem_cons, not_or] at h
    rw [List.cons_append, readQuoted.eq_def]
    dsimp only
    rw [if_neg (Ne.symm h.1), ih h.2]
    rfl

theorem readIdentifier_quoted {name : List Char} (h : '\x60' ∉ name) (hne : name ≠ []) :
    readIdentifier ('\x60' :: (name ++ ['\x60'])) = some name := by
  rw [readIdentifier, if_pos rfl, readQuoted_closed h]
  simpa using hne

theorem getLast_of_readQuoted {text name : List Char} (h : readQuoted text = some name) :
    text.getLast? = some '\x60' := by
  fun_induction readQuoted text generalizing name with
  | case1 => cases h
  | case2 => rfl
  | case3 text ih =>
    obtain ⟨rest, hrest, -⟩ := Option.map_eq_some_iff.mp h
    rw [List.getLast?_cons_cons, List.getLast?_cons, ih hrest]
    rfl
  | case4 => cases h
  | case5 c text _ ih =>
    obtain ⟨rest, hrest, -⟩ := Option.map_eq_some_iff.mp h
    rw [List.getLast?_cons, ih hrest]
    rfl

/-! ## Bare words with a tail -/

/-- What follows a `_` has no part in a number at the front. -/
theorem exponentFollows_append (seen : Bool) (word tail : List Char) :
    exponentFollows seen (word ++ '_' :: tail) = exponentFollows seen word := by
  have hunderscore : '_'.isDigit = false := rfl
  induction word generalizing seen with
  | nil => simp [exponentFollows, hunderscore]
  | cons c word ih =>
    rw [List.cons_append, exponentFollows, exponentFollows, ih]
    rcases word with _ | ⟨d, word⟩
    · simp [hunderscore]
    · rfl

theorem isBareWord_append (word : List Char) {tail : List Char}
    (ht : tail.all isIdentChar = true) :
    isBareWord (word ++ '_' :: tail) = isBareWord word := by
  have hunderscore : isIdentChar '_' = true := by decide
  unfold isBareWord
  rw [exponentFollows_append, List.all_append, List.all_cons, hunderscore, ht, Bool.and_true,
    Bool.and_true]

theorem isIdentChar_backtick : isIdentChar '\x60' = false := by decide

theorem backtick_notMem {word : List Char} (h : isBareWord word = true) : '\x60' ∉ word := by
  intro hmem
  rw [isBareWord, Bool.and_eq_true] at h
  have hchar := List.all_eq_true.mp h.1 _ hmem
  rw [isIdentChar_backtick] at hchar
  cases hchar

/-- **A name with a tail is read without quotes exactly if it is a bare word**, and then as itself.
-/
theorem readIdentifier_append_iff {word tail name : List Char} (ht : tail.all isIdentChar = true) :
    readIdentifier (word ++ '_' :: tail) = some name ↔
      isBareWord word = true ∧ name = word ++ '_' :: tail := by
  have hbare := isBareWord_append word ht
  have hdigit : (word ++ '_' :: tail).all Char.isDigit = false := by
    rw [List.all_append, List.all_cons]
    exact Bool.and_false _
  have hlast : (word ++ '_' :: tail).getLast? ≠ some '\x60' := by
    intro h
    rw [List.getLast?_append_cons] at h
    rcases List.mem_cons.mp (List.mem_of_getLast? h) with heq | hmem
    · exact absurd heq (by decide)
    · have hchar := List.all_eq_true.mp ht _ hmem
      rw [isIdentChar_backtick] at hchar
      cases hchar
  rcases htext : word ++ '_' :: tail with _ | ⟨c, rest⟩
  · simp at htext
  rw [htext] at hbare hdigit hlast
  rw [readIdentifier]
  by_cases hc : c = '\x60'
  · -- an opening quote, but the last character closes nothing
    subst hc
    rw [if_pos rfl]
    constructor
    · intro h
      rw [Option.filter_eq_some_iff] at h
      rw [List.getLast?_cons, getLast_of_readQuoted h.1] at hlast
      exact absurd rfl hlast
    · rintro ⟨h, -⟩
      exact absurd List.mem_cons_self (backtick_notMem (hbare.trans h))
  · rw [if_neg hc, hdigit, hbare]
    by_cases h : isBareWord word = true
    · rw [if_pos ⟨h, Bool.false_ne_true⟩, Option.some.injEq]
      exact ⟨fun heq => ⟨h, heq.symm⟩, fun heq => heq.2.symm⟩
    · rw [if_neg fun h' => h h'.1]
      exact ⟨nofun, fun h' => absurd h'.1 h⟩

end GhOst.Mysql
