import GhOst.Properties.AlterClause

/-!
# The phrases that are looked for in a token

What the four expressions of `parseAlterToken` find in a token, described without them: two words
after `CHANGE`, a word after `DROP` that ends the token, `RENAME TO` or `RENAME AS`, and
`AUTO_INCREMENT` with a number. A phrase stands in a token wherever its first word begins.
-/

namespace GhOst.Sql.AlterRead

open Infra Infra.Regexp GhOst.Sql.AlterPrefix

inductive Phrase where
  | change
  | drop
  | renameTable
  | autoIncrement
deriving DecidableEq, Repr

namespace Phrase

/-- A run of characters that are no spaces. -/
abbrev Run : List Char → Prop := RunOf nonSpace

/-- `COLUMN`, or nothing. -/
def OptionalColumn (w : List Char) : Prop := Then (Spelled "column".toList) Spaces w ∨ w = []

def ToOrAs (w : List Char) : Prop := Spelled "to".toList w ∨ Spelled "as".toList w

def AnySpaces (w : List Char) : Prop := ∀ c ∈ w, isSpace c = true

def Anything (_ : List Char) : Prop := True

def word : Phrase → String
  | change => "change"
  | drop => "drop"
  | renameTable => "rename"
  | autoIncrement => "auto_increment"

/-- What follows the first word. -/
def After : Phrase → List Char → Prop
  | change => Then Spaces <| Then OptionalColumn <| Then Run <| Then Spaces <| Then Run <|
      Then Spaces Anything
  | drop => Then Spaces <| Then OptionalColumn <| Then Run (· = [])
  | renameTable => Then Spaces <| Then ToOrAs <| Then Spaces Anything
  | autoIncrement => Then AnySpaces <| Then (· = ['=']) <| Then AnySpaces <|
      Then (RunOf Char.isDigit) Anything

def Begins (ph : Phrase) : List Char → Prop := Then (Spelled ph.word.toList) ph.After

def regexp : Phrase → Regexp
  | change => renameColumnRegexp
  | drop => dropColumnRegexp
  | renameTable => renameTableRegexp
  | autoIncrement => autoIncrementRegexp

variable {ph : Phrase} {s : List Char}

theorem takes_optionalColumn : Takes optionalColumn OptionalColumn :=
  Takes.group (Takes.alt (Takes.seq (takes_caseless _) takes_plus) takes_empty)

theorem head_of_begins (h : ph.Begins s) : s.head?.any isWord = true := by
  obtain ⟨kw, rest, rfl, hkw, -⟩ := h
  have hword : ∀ c ∈ ph.word.toList, isWord c = true ∧ c ≠ 's' ∧ c ≠ 'k' := by
    cases ph <;> exact forall_mem_of_all (by decide)
  have hne : ph.word.toList ≠ [] := by cases ph <;> decide
  cases hkw' : kw with
  | nil =>
    rw [hkw'] at hkw
    exact absurd (List.forall₂_nil_right_iff.mp hkw) hne
  | cons c kw' =>
    exact isWord_of_spelled hkw hword c (hkw' ▸ List.mem_cons_self)

/-- **Nothing is found in a token exactly if the phrase does not stand in it.** -/
theorem find_eq_none_iff {prev : Option Char} (hprev : prev.any isWord = false) :
    ph.regexp.find prev s = none ↔ ¬ Stands ph.Begins s := by
  cases ph with
  | change =>
    refine find_boundary_eq_none_iff ?_ (fun s => @head_of_begins change s) hprev
    exact (takes_caseless _).before <| takes_plus.before <| takes_optionalColumn.before <|
      (Takes.group takes_plus).before <| takes_plus.before <| (Takes.group takes_plus).before <|
        takes_plus.accepts
  | drop =>
    refine find_boundary_eq_none_iff ?_ (fun s => @head_of_begins drop s) hprev
    exact (takes_caseless _).before <| takes_plus.before <| takes_optionalColumn.before <|
      (Takes.group takes_plus).before accepts_endOfText
  | renameTable =>
    refine find_boundary_eq_none_iff ?_ (fun s => @head_of_begins renameTable s) hprev
    exact (takes_caseless _).before <| takes_plus.before <|
      (Takes.group ((takes_caseless _).alt (takes_caseless _))).before takes_plus.accepts
  | autoIncrement =>
    refine find_boundary_eq_none_iff ?_ (fun s => @head_of_begins autoIncrement s) hprev
    exact (takes_caseless _).before <| takes_many.before <| (takes_literal _).before <|
      takes_many.before (Takes.group takes_plus).accepts

theorem matchString_iff : ph.regexp.matchString s = true ↔ Stands ph.Begins s := by
  rw [matchString, Option.isSome_iff_ne_none, ne_eq, find_eq_none_iff rfl, not_not]

end Phrase

end GhOst.Sql.AlterRead
