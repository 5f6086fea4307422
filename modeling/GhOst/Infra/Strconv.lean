import Mathlib.Data.List.Basic

/-!
# `strconv.Unquote`

The literal forms of the Go language: raw strings between backticks, interpreted strings, and
characters. Texts are lists of characters; an escape for a byte that is no character on its own is
not represented, and counts as an error. The quotes are written as escapes: `\x60` is the backtick,
`\x22` the double quote, `\x27` the single one and `\x5c` the backslash.
-/

namespace Infra

/-- The value of a digit in a base up to 16. -/
def digitValue (base : Nat) (c : Char) : Option Nat :=
  let value :=
    if '0' ≤ c ∧ c ≤ '9' then some (c.toNat - '0'.toNat)
    else if 'a' ≤ c ∧ c ≤ 'f' then some (c.toNat - 'a'.toNat + 10)
    else if 'A' ≤ c ∧ c ≤ 'F' then some (c.toNat - 'A'.toNat + 10)
    else none
  value.filter (· < base)

/-- A number of exactly `n` digits. -/
def readDigits (base : Nat) : (n value : Nat) → List Char → Option (Nat × List Char)
  | 0, value, text => some (value, text)
  | _ + 1, _, [] => none
  | n + 1, value, c :: text =>
    (digitValue base c).bind fun digit => readDigits base n (value * base + digit) text

/-- A number that is the code of a character below `bound`. -/
def readCode (base n bound : Nat) (text : List Char) : Option (Char × List Char) :=
  (readDigits base n 0 text).bind fun (value, rest) =>
    if value < bound ∧ value.isValidChar then some (Char.ofNat value, rest) else none

def unquoteChar (quote : Char) : List Char → Option (Char × List Char)
  | [] => none
  | '\x5c' :: escape :: text =>
    match escape with
    | 'a' => some ('\x07', text)
    | 'b' => some ('\x08', text)
    | 'f' => some ('\x0c', text)
    | 'n' => some ('\n', text)
    | 'r' => some ('\r', text)
    | 't' => some ('\t', text)
    | 'v' => some ('\x0b', text)
    | 'x' => readCode 16 2 128 text
    | 'u' => readCode 16 4 0x110000 text
    | 'U' => readCode 16 8 0x110000 text
    | '\x5c' => some ('\x5c', text)
    | '\x27' => if quote = '\x27' then some ('\x27', text) else none
    | '\x22' => if quote = '\x22' then some ('\x22', text) else none
    | _ => if '0' ≤ escape ∧ escape ≤ '7' then readCode 8 3 128 (escape :: text) else none
  | c :: text => if c = quote ∨ c = '\x5c' then none else some (c, text)

/-- The rest of an interpreted string, up to the quote that ends it. -/
def unquoteString : (fuel : Nat) → List Char → Option (List Char)
  | 0, _ => none
  | _ + 1, [] => none
  | fuel + 1, c :: text =>
    if c = '\x22' then if text = [] then some [] else none
    else if c = '\n' then none
    else
      (unquoteChar '\x22' (c :: text)).bind fun (r, rest) => (unquoteString fuel rest).map (r :: ·)

def unquote : List Char → Option (List Char)
  | '\x60' :: text =>
    let body := text.takeWhile (· ≠ '\x60')
    if text = body ++ ['\x60'] then some (body.filter (· ≠ '\r')) else none
  | '\x22' :: text => unquoteString text.length text
  | '\x27' :: text =>
    if text = ['\x27'] then some []
    else
      (unquoteChar '\x27' text).bind fun (r, rest) =>
        if text.head? ≠ some '\n' ∧ rest = ['\x27'] then some [r] else none
  | _ => none

theorem unquote_raw {body : List Char} (h : '\x60' ∉ body) :
    unquote ('\x60' :: body ++ ['\x60']) = some (body.filter (· ≠ '\r')) := by
  have htake : (body ++ ['\x60']).takeWhile (· ≠ '\x60') = body := by
    rw [List.takeWhile_append_of_pos fun c hc => by simpa using fun he : c = '\x60' => h (he ▸ hc)]
    simp
  simp only [List.cons_append, unquote, htake, if_true]

theorem unquote_eq_none {text : List Char}
    (h : ∀ c, text.head? = some c → c ≠ '\x60' ∧ c ≠ '\x22' ∧ c ≠ '\x27') :
    unquote text = none := by
  cases text with
  | nil => rfl
  | cons c text =>
    obtain ⟨h1, h2, h3⟩ := h c rfl
    unfold unquote
    split
    · next heq => exact absurd (List.cons.inj heq).1 h1
    · next heq => exact absurd (List.cons.inj heq).1 h2
    · next heq => exact absurd (List.cons.inj heq).1 h3
    · rfl

end Infra
