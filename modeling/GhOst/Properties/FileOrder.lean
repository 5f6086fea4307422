import Mathlib.Data.Prod.Lex
import GhOst.Mysql.Coordinates

/-!
# The order of file coordinates

`SmallerThan` compares the numbers that file names end in, `Equals` the names themselves. The two
agree on the names that a server gives to its binary logs, because no two numbers are written alike,
whatever their width.
-/

namespace GhOst.Mysql

/-- The number of a binary log as the server writes it: padded with zeros to six digits. -/
def padded (number : Nat) : List Char := (Nat.toDigits 10 number).leftpad 6 '0'

/-- The name of a binary log: the base name, which may have dots too, and the number. -/
def logFileName (base : String) (number : Nat) : String :=
  base ++ String.ofList ('.' :: padded number)

structure ServerPosition where
  number : Nat
  logPos : Int
  eventSize : Int := 0
  /-- an `int` holds the number; the numbers of a server end at `2 ^ 31 - 1` -/
  number_lt : number < 2 ^ 63

namespace ServerPosition

variable (base : String) (p q r : ServerPosition)

def coordinates : FileBinlogCoordinates :=
  { logFile := logFileName base p.number, logPos := p.logPos, eventSize := p.eventSize }

/-- The file number and the position, which are compared in this order. -/
def place : Nat ×ₗ Int := toLex (p.number, p.logPos)

end ServerPosition

/-! ## Padded numbers -/

theorem isDigit_of_mem_padded {number : Nat} {c : Char} (h : c ∈ padded number) :
    c.isDigit = true := by
  unfold padded List.leftpad at h
  rw [List.mem_append, List.mem_replicate] at h
  rcases h with ⟨-, rfl⟩ | h
  · decide
  · exact isDigit_of_mem_digits h

theorem digitsValue_replicate_zero (k : Nat) (cs : List Char) :
    digitsValue 0 (List.replicate k '0' ++ cs) = digitsValue 0 cs := by
  induction k with
  | zero => rfl
  | succ k ih =>
    rw [List.replicate_succ, List.cons_append, digitsValue, if_pos (by decide)]
    exact ih

theorem atoi_padded {number : Nat} (h : number < 2 ^ 63) :
    atoi (padded number) = some (number : Int) := by
  have hvalue : digitsValue 0 (padded number) = some number := by
    unfold padded List.leftpad
    rw [digitsValue_replicate_zero, digitsValue_toDigits]
  cases hpadded : padded number with
  | nil =>
    have hlen : (padded number).length = 0 := by rw [hpadded]; rfl
    unfold padded at hlen
    rw [List.length_leftpad] at hlen
    omega
  | cons c cs =>
    have hc : c.isDigit = true := isDigit_of_mem_padded (hpadded ▸ List.mem_cons_self)
    rw [hpadded] at hvalue
    unfold atoi
    split
    · next heq => rw [(List.cons.inj heq).1] at hc; exact absurd hc (by decide)
    · next heq => rw [(List.cons.inj heq).1] at hc; exact absurd hc (by decide)
    · simp only [hvalue, Bool.false_eq_true, if_false]
      exact if_pos (by omega)

namespace ServerPosition

variable {base : String} {p q r : ServerPosition}

theorem fileNumber_coordinates : (p.coordinates base).fileNumber = p.number := by
  have hdot : '.' ∉ padded p.number := by
    intro hmem
    exact absurd (isDigit_of_mem_padded hmem) (by decide)
  unfold FileBinlogCoordinates.fileNumber coordinates logFileName
  rw [String.toList_append, String.toList_ofList, List.splitOn_append_cons_self,
    List.splitOn_eq_singleton hdot, List.getLastD_concat, atoi_padded p.number_lt]
  rfl

/-! ## The comparisons -/

theorem smallerThan_iff :
    (p.coordinates base).smallerThan (q.coordinates base) = true ↔ p.place < q.place := by
  unfold FileBinlogCoordinates.smallerThan FileBinlogCoordinates.fileNumberDistance place
  rw [fileNumber_coordinates, fileNumber_coordinates, Prod.Lex.toLex_lt_toLex]
  dsimp only
  split
  · next hdist =>
    rw [decide_eq_true_iff]
    show p.logPos < q.logPos ↔ _
    omega
  · next hdist =>
    rw [decide_eq_true_iff]
    omega

theorem equals_iff :
    (p.coordinates base).equals (q.coordinates base) = true ↔ p.place = q.place := by
  unfold FileBinlogCoordinates.equals place
  rw [Bool.and_eq_true, beq_iff_eq, beq_iff_eq, toLex_inj, Prod.mk_inj]
  refine and_congr ⟨fun hname => ?_, fun hnumber => ?_⟩ Iff.rfl
  · have hnumbers : (p.coordinates base).fileNumber = (q.coordinates base).fileNumber := by
      unfold FileBinlogCoordinates.fileNumber
      rw [hname]
    rw [fileNumber_coordinates, fileNumber_coordinates] at hnumbers
    exact Int.ofNat_inj.mp hnumbers
  · unfold coordinates
    rw [hnumber]

theorem smallerThanOrEquals_eq (c other : FileBinlogCoordinates) :
    c.smallerThanOrEquals other = (c.smallerThan other || c.equals other) := rfl

/-- **On the binary logs of a server `SmallerThan` is the strict order of file number and
position.** -/
theorem file_coordinates_ordered (base : String) (p q r : ServerPosition) :
    ((p.coordinates base).smallerThan (q.coordinates base) = true ↔ p.place < q.place) ∧
    (p.coordinates base).smallerThan (p.coordinates base) = false ∧
    ((p.coordinates base).smallerThan (q.coordinates base) = true →
      (q.coordinates base).smallerThan (r.coordinates base) = true →
      (p.coordinates base).smallerThan (r.coordinates base) = true) ∧
    [(p.coordinates base).smallerThan (q.coordinates base),
      (q.coordinates base).smallerThan (p.coordinates base),
      (p.coordinates base).equals (q.coordinates base)].count true = 1 ∧
    ((p.coordinates base).smallerThanOrEquals (q.coordinates base) = true ↔
      (p.coordinates base).smallerThan (q.coordinates base) = true ∨
        (p.coordinates base).equals (q.coordinates base) = true) := by
  refine ⟨smallerThan_iff, ?_, ?_, ?_, ?_⟩
  · rw [Bool.eq_false_iff, ne_eq, smallerThan_iff]
    exact lt_irrefl _
  · rw [smallerThan_iff, smallerThan_iff, smallerThan_iff]
    exact lt_trans
  · -- the order of the places is linear, and equal places are equal coordinates
    have hlt := @smallerThan_iff base p q
    have hgt := @smallerThan_iff base q p
    have heq := @equals_iff base p q
    rcases lt_trichotomy p.place q.place with h | h | h
    · rw [hlt.mpr h, Bool.eq_false_iff.mpr fun h' => lt_asymm h (hgt.mp h'),
        Bool.eq_false_iff.mpr fun h' => h.ne (heq.mp h')]
      rfl
    · rw [heq.mpr h, Bool.eq_false_iff.mpr fun h' => (hlt.mp h').ne h,
        Bool.eq_false_iff.mpr fun h' => (hgt.mp h').ne' h]
      rfl
    · rw [hgt.mpr h, Bool.eq_false_iff.mpr fun h' => lt_asymm h (hlt.mp h'),
        Bool.eq_false_iff.mpr fun h' => h.ne' (heq.mp h')]
      rfl
  · rw [smallerThanOrEquals_eq, Bool.or_eq_true]

end ServerPosition

end GhOst.Mysql
