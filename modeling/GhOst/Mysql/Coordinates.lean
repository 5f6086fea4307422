import Mathlib.Algebra.Ring.Int.Defs
import Mathlib.Algebra.Ring.Nat
import Mathlib.Data.Finset.Basic
import Mathlib.Data.List.Pairwise
import Mathlib.Data.List.TakeWhile
import Mathlib.Data.String.Basic

/-!
# Binary log coordinates (`go/mysql/binlog_file.go`, `go/mysql/binlog_gtid.go`)

A coordinate is a file and a position, or a GTID set (of the MySQL flavor: a set of transaction
identifiers). A comparison between the two kinds is false, as the type assertion fails.
-/

namespace GhOst.Mysql

/-! ## File coordinates -/

structure FileBinlogCoordinates where
  logFile : String
  logPos : Int
  eventSize : Int := 0
deriving DecidableEq, Repr

/-- The value of decimal digits; `none` when there is another character. -/
def digitsValue : Nat → List Char → Option Nat
  | n, [] => some n
  | n, c :: cs => if c.isDigit then digitsValue (10 * n + (c.toNat - '0'.toNat)) cs else none

/-- `strconv.Atoi`: an optional sign, at least one digit, and a value that fits 64 bits. -/
def atoi (s : List Char) : Option Int :=
  let signed (negative : Bool) (digits : List Char) : Option Int :=
    match digits with
    | [] => none
    | _ =>
      match digitsValue 0 digits with
      | none => none
      | some n =>
        let value : Int := if negative then -n else n
        if -(2 ^ 63) ≤ value ∧ value < 2 ^ 63 then some value else none
  match s with
  | '-' :: digits => signed true digits
  | '+' :: digits => signed false digits
  | digits => signed false digits

theorem digitsValue_eq {cs : List Char} (h : ∀ c ∈ cs, c.isDigit = true) (n : Nat) :
    digitsValue n cs = some (Nat.ofDigitChars 10 cs n) := by
  induction cs generalizing n with
  | nil => rfl
  | cons c cs ih =>
    rw [digitsValue, if_pos (h c List.mem_cons_self), Nat.ofDigitChars_cons]
    exact ih (fun d hd => h d (List.mem_cons_of_mem _ hd)) _

theorem isDigit_of_mem_digits {n : Nat} {c : Char} (h : c ∈ Nat.toDigits 10 n) :
    c.isDigit = true := Nat.isDigit_of_mem_toDigits (by omega) (by omega) h

theorem digitsValue_toDigits (n : Nat) : digitsValue 0 (Nat.toDigits 10 n) = some n := by
  rw [digitsValue_eq fun c hc => isDigit_of_mem_digits hc, Nat.ofDigitChars_ten_toDigits]

theorem toList_toString_ofNat (n : Nat) : (toString (Int.ofNat n)).toList = Nat.toDigits 10 n := by
  rw [Int.toString_eq_repr, Int.repr, Nat.repr, String.toList_ofList]

theorem toList_toString_negSucc (n : Nat) :
    (toString (Int.negSucc n)).toList = '-' :: Nat.toDigits 10 (n + 1) := by
  rw [Int.toString_eq_repr, Int.repr, Nat.repr, String.toList_append, String.toList_ofList,
    String.toList_ofList]
  rfl

/-- **A number of 64 bits is read back from its decimal form.** -/
theorem atoi_toString {n : Int} (hl : -(2 ^ 63) ≤ n) (hg : n < 2 ^ 63) :
    atoi (toString n).toList = some n := by
  have hpos (m : Nat) : ∃ c cs, Nat.toDigits 10 m = c :: cs ∧ c.isDigit = true := by
    rcases hm : Nat.toDigits 10 m with _ | ⟨c, cs⟩
    · exact absurd hm Nat.toDigits_ne_nil
    · exact ⟨c, cs, rfl, isDigit_of_mem_digits (hm ▸ List.mem_cons_self)⟩
  cases n with
  | ofNat m =>
    obtain ⟨c, cs, hm, hc⟩ := hpos m
    have hvalue := digitsValue_toDigits m
    rw [toList_toString_ofNat, hm]
    rw [hm] at hvalue
    unfold atoi
    split
    · next heq => rw [(List.cons.inj heq).1] at hc; exact absurd hc (by decide)
    · next heq => rw [(List.cons.inj heq).1] at hc; exact absurd hc (by decide)
    · simp only [hvalue, Bool.false_eq_true, if_false]
      exact if_pos ⟨hl, hg⟩
  | negSucc m =>
    obtain ⟨c, cs, hm, hc⟩ := hpos (m + 1)
    have hvalue := digitsValue_toDigits (m + 1)
    rw [toList_toString_negSucc, hm]
    rw [hm] at hvalue
    unfold atoi
    simp only [hvalue, if_true]
    exact if_pos ⟨hl, hg⟩

theorem atoi_range {s : List Char} {n : Int} (h : atoi s = some n) :
    -(2 ^ 63) ≤ n ∧ n < 2 ^ 63 := by
  have hfits (value : Int)
      (h : (if -(2 ^ 63) ≤ value ∧ value < 2 ^ 63 then some value else none) = some n) :
      -(2 ^ 63) ≤ n ∧ n < 2 ^ 63 := by
    by_cases hrange : -(2 ^ 63) ≤ value ∧ value < 2 ^ 63
    · rw [if_pos hrange] at h
      exact Option.some.inj h ▸ hrange
    · rw [if_neg hrange] at h
      cases h
  unfold atoi at h
  dsimp only at h
  split at h <;>
  · split at h
    · cases h
    · split at h
      · cases h
      · exact hfits _ h

namespace FileBinlogCoordinates

/-- The number of `FileNumber`: the part after the last dot, or 0 if it is not a number. -/
def fileNumber (c : FileBinlogCoordinates) : Int :=
  (atoi ((c.logFile.toList.splitOn '.').getLastD [])).getD 0

def fileNumberDistance (c other : FileBinlogCoordinates) : Int :=
  other.fileNumber - c.fileNumber

def equals (c other : FileBinlogCoordinates) : Bool :=
  c.logFile == other.logFile && c.logPos == other.logPos

def smallerThan (c other : FileBinlogCoordinates) : Bool :=
  let dist := c.fileNumberDistance other
  if dist = 0 then c.logPos < other.logPos else dist > 0

def smallerThanOrEquals (c other : FileBinlogCoordinates) : Bool :=
  c.smallerThan other || (c.logFile == other.logFile && c.logPos == other.logPos)

def isLogPosOverflowBeyond4Bytes (c preCoordinate : FileBinlogCoordinates) : Bool :=
  preCoordinate.logFile != "" && c.logFile == preCoordinate.logFile &&
    decide (preCoordinate.logPos + c.eventSize ≥ 2 ^ 32)

theorem smallerThan_eq_false {c d : FileBinlogCoordinates} :
    d.smallerThan c = false ↔
      c.fileNumber < d.fileNumber ∨ c.fileNumber = d.fileNumber ∧ c.logPos ≤ d.logPos := by
  unfold smallerThan fileNumberDistance
  dsimp only
  split
  · rw [decide_eq_false_iff_not]
    omega
  · rw [decide_eq_false_iff_not]
    omega

/-! ### Texts -/

/-- `DisplayString`, and `String`. -/
def displayString (c : FileBinlogCoordinates) : String := c.logFile ++ ":" ++ toString c.logPos

/-- `ParseFileBinlogCoordinates`; `strconv.ParseInt` in base 10 reads what `Atoi` reads. -/
def parseFileBinlogCoordinates (logFileLogPos : String) : Except String FileBinlogCoordinates :=
  match logFileLogPos.toList.dropWhile (· ≠ ':') with
  | [] =>
    .error ("ParseFileBinlogCoordinates: Cannot parse BinlogCoordinates from " ++ logFileLogPos ++
      ". Expected format is file:pos")
  | _ :: pos =>
    match atoi pos with
    | none => .error ("ParseFileBinlogCoordinates: invalid pos: " ++ String.ofList pos)
    | some logPos =>
      .ok { logFile := String.ofList (logFileLogPos.toList.takeWhile (· ≠ ':')), logPos }

theorem toList_displayString (c : FileBinlogCoordinates) :
    c.displayString.toList = c.logFile.toList ++ ':' :: (toString c.logPos).toList := by
  unfold displayString
  rw [String.toList_append, String.toList_append, List.append_assoc]
  rfl

theorem parse_displayString {c : FileBinlogCoordinates} (h : ':' ∉ c.logFile.toList)
    (hl : -(2 ^ 63) ≤ c.logPos) (hg : c.logPos < 2 ^ 63) :
    parseFileBinlogCoordinates c.displayString =
      .ok { logFile := c.logFile, logPos := c.logPos } := by
  have hfile : ∀ d ∈ c.logFile.toList, decide (d ≠ ':') = true := by
    intro d hd
    exact decide_eq_true fun heq => h (heq ▸ hd)
  unfold parseFileBinlogCoordinates
  rw [toList_displayString, List.dropWhile_append_of_pos hfile,
    List.takeWhile_append_of_pos hfile, List.dropWhile_cons_of_neg (by simp),
    List.takeWhile_cons_of_neg (by simp), List.append_nil, String.ofList_toList]
  dsimp only
  rw [atoi_toString hl hg]

/-- **The text of coordinates is read back exactly if the file's name has no colon.** -/
theorem parse_displayString_iff {c : FileBinlogCoordinates}
    (hl : -(2 ^ 63) ≤ c.logPos) (hg : c.logPos < 2 ^ 63) :
    (∃ parsed, parseFileBinlogCoordinates c.displayString = .ok parsed ∧ parsed.equals c = true) ↔
      ':' ∉ c.logFile.toList := by
  constructor
  · rintro ⟨parsed, hparsed, hequals⟩ hmem
    have hname : parsed.logFile.toList = c.displayString.toList.takeWhile (· ≠ ':') := by
      unfold parseFileBinlogCoordinates at hparsed
      split at hparsed
      · cases hparsed
      · split at hparsed
        · cases hparsed
        · rw [← Except.ok.inj hparsed, String.toList_ofList]
    rw [equals, Bool.and_eq_true, beq_iff_eq] at hequals
    rw [hequals.1] at hname
    rw [hname] at hmem
    have hne := List.mem_takeWhile_imp hmem
    simp at hne
  · intro h
    refine ⟨_, parse_displayString h hl hg, ?_⟩
    simp [equals]

end FileBinlogCoordinates

/-! ## GTID sets -/

/-- A transaction identifier: the server and the transaction's number on it. -/
abbrev GTID := String × Nat

inductive BinlogCoordinates where
  | file (c : FileBinlogCoordinates)
  /-- `none` is a nil set -/
  | gtid (set : Option (Finset GTID))
deriving DecidableEq

namespace BinlogCoordinates

def isEmpty : BinlogCoordinates → Bool
  | .file c => c.logFile == ""
  | .gtid set => set.isNone

def equals : BinlogCoordinates → BinlogCoordinates → Bool
  | .file c, .file other => c.equals other
  | .gtid (some set), .gtid (some other) => set = other
  | _, _ => false

/-- For GTID sets: the set does not contain the other one. -/
def smallerThan : BinlogCoordinates → BinlogCoordinates → Bool
  | .file c, .file other => c.smallerThan other
  | .gtid (some set), .gtid (some other) => ¬ other ⊆ set
  | _, _ => false

def smallerThanOrEquals : BinlogCoordinates → BinlogCoordinates → Bool
  | .file c, .file other => c.smallerThanOrEquals other
  | .gtid set, .gtid other =>
    equals (.gtid set) (.gtid other) || smallerThan (.gtid set) (.gtid other)
  | _, _ => false

/-! ## The order of the log

`smallerThan` is not an order on GTID sets: of two sets, neither of which contains the other, each
is smaller than the other. A position never goes back when it moves along `NotAfter`. -/

/-- Everything before the first coordinates is before the second ones. -/
def NotAfter : BinlogCoordinates → BinlogCoordinates → Prop
  | .file c, .file other => other.smallerThan c = false
  | .gtid set, .gtid other => set.getD ∅ ⊆ other.getD ∅
  | _, _ => False

instance : DecidableRel NotAfter
  | .file c, .file other => inferInstanceAs (Decidable (other.smallerThan c = false))
  | .gtid set, .gtid other => inferInstanceAs (Decidable (set.getD ∅ ⊆ other.getD ∅))
  | .file _, .gtid _ => isFalse id
  | .gtid _, .file _ => isFalse id

theorem NotAfter.refl (a : BinlogCoordinates) : NotAfter a a := by
  cases a with
  | file c => exact FileBinlogCoordinates.smallerThan_eq_false.2 (.inr ⟨rfl, le_refl _⟩)
  | gtid set => exact Finset.Subset.refl _

theorem NotAfter.trans {a b c : BinlogCoordinates} (h : NotAfter a b) (h' : NotAfter b c) :
    NotAfter a c := by
  cases a with
  | file fa =>
    cases b with
    | gtid _ => exact h.elim
    | file fb =>
      cases c with
      | gtid _ => exact h'.elim
      | file fc =>
        rcases FileBinlogCoordinates.smallerThan_eq_false.1 h with h | h <;>
        rcases FileBinlogCoordinates.smallerThan_eq_false.1 h' with h' | h' <;>
        exact FileBinlogCoordinates.smallerThan_eq_false.2 (by omega)
  | gtid sa =>
    cases b with
    | file _ => exact h.elim
    | gtid sb =>
      cases c with
      | file _ => exact h'.elim
      | gtid sc => exact Finset.Subset.trans h h'

theorem NotAfter.of_smallerThanOrEquals {a b : BinlogCoordinates}
    (h : a.smallerThanOrEquals b = true) (hcomparable : NotAfter a b ∨ NotAfter b a) :
    NotAfter a b := by
  rcases hcomparable with hab | hba
  · exact hab
  · cases a with
    | file c =>
      cases b with
      | gtid _ => exact hba.elim
      | file d =>
        -- `d` is not after `c`, so `c` is smaller only if they are equal
        have hnot : c.smallerThan d = false := hba
        simp only [smallerThanOrEquals, FileBinlogCoordinates.smallerThanOrEquals, hnot,
          Bool.false_or, Bool.and_eq_true, beq_iff_eq] at h
        refine FileBinlogCoordinates.smallerThan_eq_false.2 (.inr ⟨?_, le_of_eq h.2⟩)
        unfold FileBinlogCoordinates.fileNumber
        rw [h.1]
    | gtid s =>
      cases b with
      | file _ => exact hba.elim
      | gtid t =>
        cases s with
        | none => exact Finset.empty_subset _
        | some s =>
          cases t with
          | none => simp [smallerThanOrEquals, equals, smallerThan] at h
          | some t =>
            have hts : t ⊆ s := hba
            simp only [smallerThanOrEquals, equals, smallerThan, hts, not_true, decide_false,
              Bool.or_false, decide_eq_true_eq] at h
            rw [h]
            exact NotAfter.refl _

theorem NotAfter.total_of_pairwise {l : List BinlogCoordinates} (h : l.Pairwise NotAfter)
    {a b : BinlogCoordinates} (ha : a ∈ l) (hb : b ∈ l) : NotAfter a b ∨ NotAfter b a := by
  have hsymm : Std.Symm fun a b : BinlogCoordinates => NotAfter a b ∨ NotAfter b a :=
    ⟨fun _ _ hab => hab.symm⟩
  have hpair : l.Pairwise fun a b => NotAfter a b ∨ NotAfter b a := h.imp fun hab => .inl hab
  exact hpair.forall_of_forall (fun x _ => .inl (NotAfter.refl x)) ha hb

instance : IsTrans BinlogCoordinates NotAfter := ⟨fun _ _ _ => NotAfter.trans⟩

end BinlogCoordinates

end GhOst.Mysql
