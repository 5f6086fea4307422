import Mathlib.Data.List.DropRight
import GhOst.Sql.Server

/-!
# Stored values, and the two ways they take to the ghost

What the server does with integers, `BINARY(n)`, `ENUM` and text. The row copy converts a stored
value inside the server (`select`). The event application takes its image in the binary log
(`image`), turns it into an argument (`Column.convertArg`), and the server assigns the argument
(`bind`) or compares a stored value with it (`equals`).

`Dialect` is what is not written out: the character sets of the server, with what is known of them,
and the decoders of `golang.org/x/text`, of which nothing is assumed: for a byte without a character
in `windows-1252` they give U+FFFD, where `latin1` of the server has a control character. `τ` are
the characters.
-/

namespace GhOst.Sql

/-! ## Types -/

inductive IntWidth where
  | tinyint
  | smallint
  | mediumint
  | int
  | bigint
deriving DecidableEq, Repr

def IntWidth.bits : IntWidth → Nat
  | .tinyint => 8
  | .smallint => 16
  | .mediumint => 24
  | .int => 32
  | .bigint => 64

inductive Charset where
  | latin1
  | gbk
  | utf8mb4
deriving DecidableEq, Repr

/-- `CHARACTER_SET_NAME`. -/
def Charset.name : Charset → String
  | .latin1 => "latin1"
  | .gbk => "gbk"
  | .utf8mb4 => "utf8mb4"

inductive SqlType (τ : Type) where
  | integer (width : IntWidth) (unsigned : Bool)
  | binary (length : Nat)
  | enum (labels : List (List τ)) (charset : Charset)
  /-- `CHAR` and `VARCHAR`, or one of the `TEXT` types, which the log holds as blobs -/
  | text (charset : Charset) (blob : Bool)
deriving DecidableEq, Repr

/-- A stored value. Text is held as bytes in the character set of its column. -/
inductive Stored where
  | null
  | int (i : Int)
  | bytes (b : List UInt8)
  | enum (index : Nat)
deriving DecidableEq, Repr

/-- The least and the greatest number of an integer type. -/
def IntWidth.least (w : IntWidth) (unsigned : Bool) : Int :=
  if unsigned then 0 else -2 ^ (w.bits - 1)

def IntWidth.greatest (w : IntWidth) (unsigned : Bool) : Int :=
  if unsigned then 2 ^ w.bits - 1 else 2 ^ (w.bits - 1) - 1

/-- What an integer column stores for a number: out of range, the nearest end of the range. -/
def IntWidth.clip (w : IntWidth) (unsigned : Bool) (i : Int) : Int :=
  max (w.least unsigned) (min i (w.greatest unsigned))

/-- What `BINARY(n)` stores: `n` bytes, filled up with zero bytes. -/
def fitBinary (n : Nat) (b : List UInt8) : List UInt8 :=
  (b ++ List.replicate (n - b.length) 0).take n

/-- The label of an index; the index 0 is the empty error value. -/
def labelOf {τ : Type} (labels : List (List τ)) : Nat → List τ
  | 0 => []
  | i + 1 => labels.getD i []

namespace SqlType

variable {τ : Type}

/-- Whether a column of the type can hold a value. An `ENUM` has at most 65535 labels. -/
def admits : SqlType τ → Stored → Bool
  | _, .null => true
  | .integer w unsigned, .int i => w.least unsigned ≤ i ∧ i ≤ w.greatest unsigned
  | .binary n, .bytes b => b.length = n
  | .enum labels _, .enum i => i ≤ labels.length ∧ i < 65536
  | .text _ _, .bytes _ => true
  | _, _ => false

/-- The image of an integer: the two's complement of its width, read as a signed number. -/
def imageInt : IntWidth → Int → Value
  | .tinyint, i => .int8 (Int8.ofInt i)
  | .smallint, i => .int16 (Int16.ofInt i)
  -- three bytes, sign-extended to four
  | .mediumint, i => .int32 (Int32.ofInt (i.bmod (2 ^ 24)))
  | .int, i => .int32 (Int32.ofInt i)
  | .bigint, i => .int64 (Int64.ofInt i)

/-- The image of a value in the binary log. -/
def image : SqlType τ → Stored → Value
  | .integer w _, .int i => imageInt w i
  -- trailing zero bytes are clipped
  | .binary _, .bytes b => .string (b.rdropWhile (· = 0))
  | .enum _ _, .enum i => .int64 (Int64.ofNat i)
  | .text _ blob, .bytes b => if blob then .bytes b else .string b
  | _, _ => .null

end SqlType

/-! ## Arguments -/

def parseUint (digits : List UInt8) : Nat :=
  Nat.ofDigitChars 10 (digits.map fun b => Char.ofNat b.toNat) 0

def Value.number : Value → Int
  | .int8 i => i.toInt
  | .int16 i => i.toInt
  | .int32 i => i.toInt
  | .int64 i => i.toInt
  | .int i => i.toInt
  | .uint8 u => u.toNat
  | .uint16 u => u.toNat
  | .uint32 u => u.toNat
  | .uint u => u.toNat
  | .string s => parseUint s
  | .bytes b => parseUint b
  | .null | .other _ => 0

def formatInt (i : Int) : List UInt8 :=
  if i < 0 then 45 :: formatUint i.natAbs else formatUint i.toNat

/-! ## Characters -/

structure Dialect (τ : Type) where
  decode : Charset → List UInt8 → List τ
  encode : Charset → List τ → List UInt8
  /-- the strings of a list of string literals -/
  literals : String → List (List τ)
  enc : Encodings
  /-- what an `ENUM` column stores when it is assigned an argument -/
  assignEnum : List (List τ) → Charset → Value → Stored
  /-- any other conversion of the server -/
  cast : SqlType τ → SqlType τ → Stored → Stored
  /-- any other expression around a placeholder -/
  evaluate : ValueToken → Value → Value
  /-- whether a string that is compared with a number is read as that number -/
  readsAs : List UInt8 → Int → Bool
  decode_encode : ∀ s, decode .utf8mb4 (encode .utf8mb4 s) = s

namespace Dialect

variable {τ : Type}

/-- Text of one character set in another. -/
def convert (d : Dialect τ) (source target : Charset) (b : List UInt8) : List UInt8 :=
  if source = target then b else d.encode target (d.decode source b)

/-- Text of a character set as a Go string, which is `utf8mb4`. -/
def decoded (d : Dialect τ) : Charset → List UInt8 → List UInt8
  | .latin1, b => d.enc.windows1252 b
  | .gbk, b => d.enc.gbk b
  | .utf8mb4, b => b

/-- `ELT(i, l₁, …)`. -/
def elt (labels : List (List τ)) (i : Int) : Option (List τ) :=
  if 1 ≤ i then labels[i.toNat - 1]? else none

/-- What a column stores. A byte slice is stored as it is, a string is converted from the character
set of the connection. -/
def store (d : Dialect τ) : SqlType τ → Value → Stored
  | _, .null => .null
  | .integer w unsigned, arg => .int (w.clip unsigned arg.number)
  | .binary n, arg => .bytes (fitBinary n (arg.asBytes.getD (formatInt arg.number)))
  | .enum labels charset, arg => d.assignEnum labels charset arg
  | .text _ _, .bytes b => .bytes b
  | .text charset _, .string s => .bytes (d.convert .utf8mb4 charset s)
  | .text charset _, arg => .bytes (d.convert .utf8mb4 charset (formatInt arg.number))

/-- What a column stores when it is assigned a token, given the argument. -/
def bind (d : Dialect τ) (type : SqlType τ) : ValueToken → Value → Stored
  | .plain, arg => d.store type arg
  | .elt enumValues, arg =>
    if arg = .null then .null
    else
      match elt (d.literals enumValues) arg.number with
      | some label => d.store type (.string (d.encode .utf8mb4 label))
      | none => .null
  | token, arg => d.store type (d.evaluate token arg)

/-- A string argument in the character set of a column. -/
def inColumn (d : Dialect τ) : SqlType τ → List UInt8 → List UInt8
  | .text charset _, s => d.convert .utf8mb4 charset s
  | _, s => s

/-- Whether `column = ?` holds of a stored value. A byte slice is compared byte by byte, a string
with a number as numbers. -/
def equals (d : Dialect τ) (type : SqlType τ) (v : Stored) (arg : Value) : Bool :=
  match v, arg with
  | .null, _ | _, .null => false
  | .int i, .bytes b => d.readsAs b i
  | .int i, arg => arg.number = i
  | .bytes b, .bytes a => b = a
  | .bytes b, .string s => b = d.inColumn type s
  | .bytes b, arg => d.readsAs b arg.number
  | .enum i, arg =>
    match type, arg.asBytes with
    | .enum labels charset, some label => d.encode charset (labelOf labels i) = label
    | _, _ => arg.number = i

/-- What `insert … select` stores. -/
def select (d : Dialect τ) : SqlType τ → SqlType τ → Stored → Stored
  | _, _, .null => .null
  | .integer _ _, .integer w unsigned, .int i => .int (w.clip unsigned i)
  | .binary _, .binary n, .bytes b => .bytes (fitBinary n b)
  | .enum labels _, .text charset _, .enum i => .bytes (d.encode charset (labelOf labels i))
  | .text source _, .text target _, .bytes b => .bytes (d.convert source target b)
  | source, target, v => d.cast source target v

end Dialect

/-! ## Numbers -/

theorem charOfDigit {c : Char} (h : c.isDigit = true) :
    Char.ofNat (UInt8.ofNat c.toNat).toNat = c := by
  have hlt : c.toNat < 256 := by
    rw [Char.isDigit, Bool.and_eq_true, decide_eq_true_iff, decide_eq_true_iff] at h
    have hle : c.toNat ≤ 57 := h.2
    omega
  rw [UInt8.toNat_ofNat', Nat.mod_eq_of_lt hlt, Char.ofNat_toNat]

theorem parseUint_formatUint (n : Nat) : parseUint (formatUint n) = n := by
  have hchars : ((Nat.toDigits 10 n).map fun c => UInt8.ofNat c.toNat).map
      (fun b => Char.ofNat b.toNat) = Nat.toDigits 10 n := by
    rw [List.map_map]
    refine (List.map_congr_left fun c hc => ?_).trans (List.map_id _)
    exact charOfDigit (Nat.isDigit_of_mem_toDigits (by omega) (by omega) hc)
  unfold parseUint formatUint
  rw [hchars, Nat.ofDigitChars_ten_toDigits]

namespace SqlType

variable {τ : Type}

/-- **The image of a signed number is the number.** -/
theorem number_imageInt {w : IntWidth} {i : Int} (hl : -2 ^ (w.bits - 1) ≤ i)
    (hg : i < 2 ^ (w.bits - 1)) : (imageInt w i).number = i := by
  cases w with
  | tinyint => exact Int8.toInt_ofInt_of_le hl hg
  | smallint => exact Int16.toInt_ofInt_of_le hl hg
  | mediumint =>
    have hl : -8388608 ≤ i := hl
    have hg : i < 8388608 := hg
    rw [imageInt, Int.bmod_eq_of_le (by omega) (by omega)]
    exact Int32.toInt_ofInt_of_le (by omega) (by omega)
  | int => exact Int32.toInt_ofInt_of_le hl hg
  | bigint => exact Int64.toInt_ofInt_of_le hl hg

/-- **An unsigned column turns the image back into the number.** -/
theorem number_convertUnsigned {cl : Column} {w : IntWidth}
    (hm : cl.type = .mediumInt ↔ w = .mediumint) {n : Nat} (hn : n < 2 ^ w.bits) :
    (cl.convertUnsigned (imageInt w n)).number = n := by
  cases w with
  | tinyint =>
    have hn : n < 256 := hn
    show ((Int8.ofInt n).toUInt8.toNat : Int) = n
    rw [Int8.ofInt_eq_ofNat, Int8.toUInt8_ofNat', UInt8.toNat_ofNat', Nat.mod_eq_of_lt hn]
  | smallint =>
    have hn : n < 65536 := hn
    show ((Int16.ofInt n).toUInt16.toNat : Int) = n
    rw [Int16.ofInt_eq_ofNat, Int16.toUInt16_ofNat', UInt16.toNat_ofNat', Nat.mod_eq_of_lt hn]
  | mediumint =>
    have hn : n < 16777216 := hn
    rw [imageInt, Column.convertUnsigned, if_pos (hm.mpr rfl)]
    by_cases hlt : n < 8388608
    · -- the three bytes read the same with and without a sign
      rw [Int.bmod_eq_of_le (by omega) (by omega)]
      have hi : (Int32.ofInt n).toInt = n := Int32.toInt_ofInt_of_le (by omega) (by omega)
      rw [if_pos (by rw [Int32.le_iff_toInt_le, hi]; simp)]
      exact hi
    · have hb : (n : Int).bmod (2 ^ 24) = n - 16777216 := by
        rw [Int.bmod_def]
        omega
      have hi : (Int32.ofInt (n - 16777216)).toInt = n - 16777216 :=
        Int32.toInt_ofInt_of_le (by omega) (by omega)
      have hsum : maxMediumintUnsigned + Int32.ofInt (n - 16777216) + 1 = Int32.ofInt n := by
        rw [show maxMediumintUnsigned = Int32.ofInt 16777215 from rfl,
          show (1 : Int32) = Int32.ofInt 1 from rfl, ← Int32.ofInt_add, ← Int32.ofInt_add]
        exact congrArg Int32.ofInt (by omega)
      rw [hb, if_neg (by rw [Int32.le_iff_toInt_le, hi]; simp; omega), hsum]
      show ((Int32.ofInt n).toUInt32.toNat : Int) = n
      rw [Int32.ofInt_eq_ofNat, Int32.toUInt32_ofNat', UInt32.toNat_ofNat',
        Nat.mod_eq_of_lt (by omega)]
  | int =>
    have hn : n < 4294967296 := hn
    rw [imageInt, Column.convertUnsigned, if_neg fun h => by simpa using hm.mp h]
    show ((Int32.ofInt n).toUInt32.toNat : Int) = n
    rw [Int32.ofInt_eq_ofNat, Int32.toUInt32_ofNat', UInt32.toNat_ofNat', Nat.mod_eq_of_lt hn]
  | bigint =>
    have hn : n < 2 ^ 64 := hn
    show ((parseUint (formatUint (Int64.ofInt n).toUInt64.toNat) : Nat) : Int) = n
    rw [Int64.ofInt_eq_ofNat, Int64.toUInt64_ofNat', UInt64.toNat_ofNat', Nat.mod_eq_of_lt hn,
      parseUint_formatUint]

@[simp] theorem asBytes_imageInt (w : IntWidth) (i : Int) : (imageInt w i).asBytes = none := by
  cases w <;> rfl

/-- **The argument of an integer column stands for the stored number.** -/
theorem number_convertArg {enc : Encodings} {cl : Column} {w : IntWidth} {i : Int}
    (hm : cl.type = .mediumInt ↔ w = .mediumint)
    (ha : (integer w cl.isUnsigned : SqlType τ).admits (.int i) = true) :
    (cl.convertArg enc (imageInt w i)).number = i := by
  rw [Column.convertArg, asBytes_imageInt]
  rw [admits, decide_eq_true_iff] at ha
  obtain ⟨hl, hg⟩ := ha
  cases hu : cl.isUnsigned with
  | true =>
    rw [hu] at hl hg
    have hl : 0 ≤ i := hl
    have hg : i ≤ 2 ^ w.bits - 1 := hg
    obtain ⟨n, rfl⟩ := Int.eq_ofNat_of_zero_le hl
    refine number_convertUnsigned hm ?_
    have : (n : Int) < (2 ^ w.bits : Nat) := by push_cast; omega
    exact_mod_cast this
  | false =>
    rw [hu] at hl hg
    have hg : i ≤ 2 ^ (w.bits - 1) - 1 := hg
    exact number_imageInt hl (by omega)

end SqlType

/-! ## Bytes -/

theorem rdropWhile_pad (b : List UInt8) :
    b.rdropWhile (· = 0) ++ List.replicate (b.length - (b.rdropWhile (· = 0)).length) 0 = b := by
  have happ : b.rdropWhile (· = 0) ++ b.rtakeWhile (· = 0) = b := by
    unfold List.rdropWhile List.rtakeWhile
    rw [← List.reverse_append, List.takeWhile_append_dropWhile, List.reverse_reverse]
  have hzero : b.rtakeWhile (· = 0) = List.replicate (b.rtakeWhile (· = 0)).length 0 :=
    List.eq_replicate_of_mem fun x hx => by simpa using List.mem_rtakeWhile_imp hx
  have hlen := congrArg List.length happ
  rw [List.length_append] at hlen
  rw [show b.length - (b.rdropWhile (· = 0)).length = (b.rtakeWhile (· = 0)).length by omega,
    ← hzero, happ]

theorem Column.convertBytes_binary {enc : Encodings} {cl : Column} {b : List UInt8} (arg : Value)
    (ht : cl.type = .binary) (hc : cl.charset = "") (hm : contains cl.mySQLType "binary" = true)
    (hlen : b.length = cl.binaryOctetLength) :
    cl.convertBytes enc arg (b.rdropWhile (· = 0)) = .bytes b := by
  have hpad := rdropWhile_pad b
  unfold convertBytes
  rw [if_pos ht]
  split
  · rw [← hlen, hpad]
  · next hge =>
    -- nothing was clipped
    rw [show b.length - (b.rdropWhile (· = 0)).length = 0 by omega, List.replicate_zero,
      List.append_nil] at hpad
    rw [if_neg (by simp [hc]), if_pos ⟨hc, .inl hm⟩, hpad]

/-- **A `BINARY(n)` column puts the clipped zero bytes back.** -/
theorem Column.convertArg_binary {enc : Encodings} {cl : Column} {b : List UInt8}
    (ht : cl.type = .binary) (hc : cl.charset = "") (hm : contains cl.mySQLType "binary" = true)
    (hlen : b.length = cl.binaryOctetLength) :
    cl.convertArg enc (.string (b.rdropWhile (· = 0))) = .bytes b :=
  convertBytes_binary _ ht hc hm hlen

/-! ## What is restored -/

/-- An unsigned integer column of a width, as the inspection describes it. -/
structure Column.UnsignedOf (cl : Column) (w : IntWidth) : Prop where
  isUnsigned : cl.isUnsigned = true
  mediumInt : cl.type = .mediumInt ↔ w = .mediumint

/-- A `BINARY(n)` column, as the inspection describes it. -/
structure Column.BinaryOf (cl : Column) (n : Nat) : Prop where
  type : cl.type = .binary
  charset : cl.charset = ""
  mySQLType : contains cl.mySQLType "binary" = true
  binaryOctetLength : cl.binaryOctetLength = n

/-- The image is the two's complement of the width, read as a signed number. -/
theorem SqlType.number_imageInt_bmod (w : IntWidth) (i : Int) :
    (imageInt w i).number = i.bmod (2 ^ w.bits) := by
  cases w with
  | tinyint => exact Int8.toInt_ofInt
  | smallint => exact Int16.toInt_ofInt
  | mediumint =>
    have hl : -8388608 ≤ i.bmod (2 ^ 24) := Int.le_bmod (by decide)
    have hg : i.bmod (2 ^ 24) < 8388608 := Int.bmod_lt (by decide)
    exact Int32.toInt_ofInt_of_le (by omega) (by omega)
  | int => exact Int32.toInt_ofInt
  | bigint => exact Int64.toInt_ofInt

/-- The sum for a negative `mediumint` stays within 32 bits at every step. -/
theorem mediumint_sum_exact {i : Int32} (hl : -8388608 ≤ i.toInt) (hg : i.toInt < 0) :
    (maxMediumintUnsigned + i).toInt = 16777215 + i.toInt ∧
      (maxMediumintUnsigned + i + 1).toInt = 16777215 + i.toInt + 1 := by
  have hfirst : (maxMediumintUnsigned + i).toInt = 16777215 + i.toInt := by
    rw [Int32.toInt_add, show maxMediumintUnsigned.toInt = 16777215 from rfl]
    exact Int.bmod_eq_of_le (by omega) (by omega)
  refine ⟨hfirst, ?_⟩
  rw [Int32.toInt_add, hfirst, show (1 : Int32).toInt = 1 from rfl]
  exact Int.bmod_eq_of_le (by omega) (by omega)

/-- **`convertArg` gives back what was stored** in an unsigned column, without overflow, and in a
`BINARY(n)` column. -/
theorem convertArg_restores (enc : Encodings) (cl : Column) :
    (∀ w, cl.UnsignedOf w → ∀ v : Nat, v < 2 ^ w.bits →
      (SqlType.imageInt w v).number = (v : Int).bmod (2 ^ w.bits) ∧
      (cl.convertArg enc (SqlType.imageInt w v)).number = v ∧
      ∀ i : Int32, w = .mediumint → SqlType.imageInt w v = .int32 i → i.toInt < 0 →
        (maxMediumintUnsigned + i).toInt = 16777215 + i.toInt ∧
          (maxMediumintUnsigned + i + 1).toInt = 16777215 + i.toInt + 1) ∧
    (∀ n, cl.BinaryOf n → ∀ b : List UInt8, b.length = n → ∀ arg : Value,
      arg.asBytes = some (b.rdropWhile (· = 0)) → cl.convertArg enc arg = .bytes b) := by
  constructor
  · intro w hcl v hv
    refine ⟨SqlType.number_imageInt_bmod w v, ?_, ?_⟩
    · rw [Column.convertArg, SqlType.asBytes_imageInt, hcl.isUnsigned]
      exact SqlType.number_convertUnsigned hcl.mediumInt hv
    · intro i hw himage hneg
      have hbmod := SqlType.number_imageInt_bmod w v
      rw [himage, hw] at hbmod
      have hi : i.toInt = (v : Int).bmod (2 ^ 24) := hbmod
      have hl : -8388608 ≤ (v : Int).bmod (2 ^ 24) := Int.le_bmod (by decide)
      exact mediumint_sum_exact (by omega) hneg
  · intro n hcl b hb arg harg
    rw [Column.convertArg, harg]
    exact Column.convertBytes_binary arg hcl.type hcl.charset hcl.mySQLType
      (hb.trans hcl.binaryOctetLength.symm)

theorem convertArg_restores_mediumint :
    (Column.convertArg ⟨id, id⟩ { name := "c", isUnsigned := true, type := .mediumInt }
      (SqlType.imageInt .mediumint 16777215)).number = 16777215 :=
  ((convertArg_restores ⟨id, id⟩ _).1 .mediumint ⟨rfl, by decide⟩ 16777215 (by decide)).2.1

end GhOst.Sql
