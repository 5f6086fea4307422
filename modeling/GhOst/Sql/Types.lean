import Mathlib.Algebra.Ring.Int.Defs
import Mathlib.Algebra.Ring.Nat
import Mathlib.Data.List.Infix
import Mathlib.Data.List.Nodup

/-!
# Columns, column lists and column values (`go/sql/types.go`)

A row image of the binary log and the arguments of a query are lists of Go values (`Value`).
`Column.convertArg` is the one place where a value of an image is changed before it is bound to a
placeholder.

Indexing a slice out of range and dereferencing a nil pointer are run-time panics in Go. They are
kept as `Fault` instead of being given a default, so that a result `ok` also says that no panic
occurs.
-/

namespace GhOst.Sql

/-! ## Go values -/

/-- A Go run-time panic. -/
inductive Fault where
  | indexOutOfRange
  | nilPointer
  | typeAssertion
deriving DecidableEq, Repr

/-- The Go values met in row images and query arguments. A Go string is a string of bytes. -/
inductive Value where
  | null
  | int8 (i : Int8)
  | int16 (i : Int16)
  | int32 (i : Int32)
  | int64 (i : Int64)
  | int (i : Int64)
  | uint8 (u : UInt8)
  | uint16 (u : UInt16)
  | uint32 (u : UInt32)
  | uint (u : UInt64)
  | string (s : List UInt8)
  | bytes (b : List UInt8)
  /-- a value of any other Go type (floats, decimals, times), which is passed on as it is -/
  | other (text : String)
deriving DecidableEq, Repr

/-- The bytes of a string or of a byte slice; `none` for every other value. -/
def Value.asBytes : Value → Option (List UInt8)
  | .string s => some s
  | .bytes b => some b
  | _ => none

def contains (s sub : String) : Bool := decide (sub.toList <:+: s.toList)

/-- `strings.HasPrefix`. -/
def startsWith (s start : String) : Bool := decide (start.toList <+: s.toList)

/-- `strings.HasSuffix`. -/
def endsWith (s tail : String) : Bool := decide (tail.toList <:+ s.toList)

/-- `strconv.FormatUint(n, 10)`. -/
def formatUint (n : Nat) : List UInt8 := (Nat.toDigits 10 n).map fun c => UInt8.ofNat c.toNat

/-! ## Columns -/

inductive ColumnType where
  | unknown
  | timestamp
  | dateTime
  | enum
  | mediumInt
  | json
  | float
  | binary
deriving DecidableEq, Repr

def maxMediumintUnsigned : Int32 := 16777215

structure CharacterSetConversion where
  toCharset : String
  fromCharset : String
deriving DecidableEq, Repr

/-- A column as the inspection describes it; `timezoneConversion` holds `ToTimezone`. -/
structure Column where
  name : String
  isUnsigned : Bool := false
  isVirtual : Bool := false
  charset : String := ""
  type : ColumnType := .unknown
  enumValues : String := ""
  timezoneConversion : Option String := none
  enumToTextConversion : Bool := false
  binaryOctetLength : Nat := 0
  charsetConversion : Option CharacterSetConversion := none
  mySQLType : String := ""
deriving DecidableEq, Repr

/-- The decoders of `golang.org/x/text` used by `charsetEncodingMap`. -/
structure Encodings where
  windows1252 : List UInt8 → List UInt8
  gbk : List UInt8 → List UInt8

/-- `charsetEncodingMap` (`go/sql/encoding.go`). -/
def charsetEncodingMap (enc : Encodings) (charset : String) : Option (List UInt8 → List UInt8) :=
  if charset = "latin1" then some enc.windows1252
  else if charset = "gbk" then some enc.gbk
  else none

/-- The part of `convertArg` that handles strings and byte slices; `b` are the bytes of `arg`. -/
def Column.convertBytes (enc : Encodings) (cl : Column) (arg : Value) (b : List UInt8) : Value :=
  let converted :=
    if cl.charset ≠ "" ∧ cl.charsetConversion = none then Value.bytes b
    else if cl.charset = "" ∧ (contains cl.mySQLType "binary" ∨ endsWith cl.mySQLType "blob") then
      Value.bytes b
    else
      match charsetEncodingMap enc cl.charset with
      | some decode => Value.string (decode b)
      | none => arg
  if cl.type = .binary then
    -- binary(n): the log clips trailing zero bytes, they are put back here
    if b.length < cl.binaryOctetLength then
      Value.bytes (b ++ List.replicate (cl.binaryOctetLength - b.length) 0)
    else converted
  else converted

/-- The part of `convertArg` that handles the integers of an unsigned column. -/
def Column.convertUnsigned (cl : Column) : Value → Value
  | .int8 i => .uint8 i.toUInt8
  | .int16 i => .uint16 i.toUInt16
  | .int32 i =>
    if cl.type = .mediumInt then
      -- three bytes, for which Go has no type: a negative value is converted by hand
      if 0 ≤ i then .int32 i else .uint32 (maxMediumintUnsigned + i + 1).toUInt32
    else .uint32 i.toUInt32
  | .int64 i => .string (formatUint i.toUInt64.toNat)
  | .int i => .uint i.toUInt64
  | arg => arg

def Column.convertArg (enc : Encodings) (cl : Column) (arg : Value) : Value :=
  match arg.asBytes with
  | some b => cl.convertBytes enc arg b
  | none => if cl.isUnsigned then cl.convertUnsigned arg else arg

/-! ## Column lists -/

/-- A map from column names to positions. A later entry for a name hides an earlier one. -/
abbrev ColumnsMap := List (String × Nat)

/-- `NewColumnsMap`, from position `i` on. -/
def newColumnsMapFrom : Nat → List Column → ColumnsMap → ColumnsMap
  | _, [], m => m
  | i, c :: cs, m => newColumnsMapFrom (i + 1) cs ((c.name, i) :: m)

def newColumnsMap (orderedColumns : List Column) : ColumnsMap :=
  newColumnsMapFrom 0 orderedColumns []

structure ColumnList where
  columns : List Column
  ordinals : ColumnsMap
deriving DecidableEq, Repr

def newColumns (names : List String) : List Column := names.map fun n => { name := n }

def newColumnList (names : List String) : ColumnList :=
  { columns := newColumns names, ordinals := newColumnsMap (newColumns names) }

def parseColumns (names : String) : List Column :=
  newColumns ((names.toList.splitOn ',').map String.ofList)

def parseColumnList (names : String) : ColumnList :=
  { columns := parseColumns names, ordinals := newColumnsMap (parseColumns names) }

namespace ColumnList

def names (cl : ColumnList) : List String := cl.columns.map Column.name

def len (cl : ColumnList) : Nat := cl.columns.length

/-- `cl.Ordinals[name]`: a missing name gives the zero value of the map's element type. -/
def ordinal (cl : ColumnList) (name : String) : Nat := (cl.ordinals.lookup name).getD 0

/-- `GetColumn`: `none` is the nil pointer. -/
def getColumn (cl : ColumnList) (name : String) : Except Fault (Option Column) :=
  match cl.ordinals.lookup name with
  | none => .ok none
  | some i =>
    match cl.columns[i]? with
    | some c => .ok (some c)
    | none => .error .indexOutOfRange

/-- The setters all write one field through the pointer `GetColumn` returns; `f` is the write. -/
def setColumn (cl : ColumnList) (name : String) (f : Column → Column) : Except Fault ColumnList :=
  match cl.ordinals.lookup name with
  | none => .error .nilPointer
  | some i =>
    match cl.columns[i]? with
    | some c => .ok { cl with columns := cl.columns.set i (f c) }
    | none => .error .indexOutOfRange

def isSubsetOf (cl other : ColumnList) : Bool :=
  cl.columns.all fun c => (other.ordinals.lookup c.name).isSome

/-- `FilterBy`: the positions are those of the list that was filtered. -/
def filterBy (cl : ColumnList) (f : Column → Bool) : ColumnList :=
  { ordinals := cl.ordinals, columns := cl.columns.filter f }

end ColumnList

structure UniqueKey where
  name : String
  nameInGhostTable : String := ""
  columns : ColumnList
  hasNullable : Bool := false
  isAutoIncrement : Bool := false
deriving DecidableEq, Repr

/-! ## What `Ordinals` gives on a list of distinct names -/

/-- `Ordinals` maps exactly the names of `columns` to their positions. -/
structure ColumnList.WellFormed (cl : ColumnList) : Prop where
  nodup : cl.names.Nodup
  ordinals : ∀ name i, cl.ordinals.lookup name = some i ↔ cl.names[i]? = some name

theorem lookup_newColumnsMapFrom {name : String} :
    ∀ (cs : List Column) (i : Nat) (m : ColumnsMap), (cs.map Column.name).Nodup →
      (newColumnsMapFrom i cs m).lookup name
        = if name ∈ cs.map Column.name then some (i + (cs.map Column.name).idxOf name)
          else m.lookup name
  | [], i, m, _ => by simp [newColumnsMapFrom]
  | c :: cs, i, m, h => by
    rw [List.map_cons, List.nodup_cons] at h
    rw [newColumnsMapFrom, lookup_newColumnsMapFrom cs (i + 1) _ h.2]
    by_cases hc : c.name = name
    · have hmem : name ∉ cs.map Column.name := hc ▸ h.1
      rw [if_neg hmem, if_pos (by simp [hc]), List.lookup_cons]
      simp [hc]
    · have hne : (name == c.name) = false := by simpa using fun h => hc h.symm
      rw [List.lookup_cons, hne, List.map_cons, List.idxOf_cons_ne _ hc]
      by_cases hmem : name ∈ cs.map Column.name
      · rw [if_pos hmem, if_pos (List.mem_cons_of_mem _ hmem)]
        congr 1
        omega
      · rw [if_neg hmem, if_neg (by simpa using ⟨fun h => hc h.symm, by simpa using hmem⟩)]

theorem newColumns_names (names : List String) : (newColumns names).map Column.name = names := by
  unfold newColumns
  rw [List.map_map]
  exact List.map_id' names

/-- **A list made from distinct names is well formed.** -/
theorem newColumnList_wellFormed {names : List String} (h : names.Nodup) :
    (newColumnList names).WellFormed where
  nodup := by
    show ((newColumns names).map Column.name).Nodup
    rw [newColumns_names]
    exact h
  ordinals := by
    intro name i
    show (newColumnsMapFrom 0 (newColumns names) []).lookup name = some i ↔
      ((newColumns names).map Column.name)[i]? = some name
    rw [lookup_newColumnsMapFrom _ _ _ (by rw [newColumns_names]; exact h), newColumns_names]
    constructor
    · intro hl
      split at hl
      · next hmem =>
        have hi : names.idxOf name = i := by simpa using hl
        rw [← hi]
        exact List.getElem?_idxOf hmem
      · simp at hl
    · intro hi
      obtain ⟨hlt, hget⟩ := List.getElem?_eq_some_iff.mp hi
      have hmem : name ∈ names := hget ▸ List.getElem_mem hlt
      rw [if_pos hmem, ← hget, List.Nodup.idxOf_getElem h]
      simp

theorem ColumnList.names_set {cl : ColumnList} {i : Nat} {c c' : Column}
    (hi : cl.columns[i]? = some c) (hname : c'.name = c.name) :
    names { cl with columns := cl.columns.set i c' } = cl.names := by
  obtain ⟨hlt, hget⟩ := List.getElem?_eq_some_iff.mp hi
  have hlt' : i < (cl.columns.map Column.name).length := by simpa using hlt
  have hset : (cl.columns.map Column.name).set i c'.name = cl.columns.map Column.name := by
    rw [hname, ← hget]
    simpa using List.set_getElem_self hlt'
  show (cl.columns.set i c').map Column.name = cl.columns.map Column.name
  rw [List.map_set, hset]

namespace ColumnList.WellFormed

variable {cl : ColumnList}

theorem lookup_isSome (h : cl.WellFormed) (name : String) :
    (cl.ordinals.lookup name).isSome = true ↔ name ∈ cl.names := by
  rw [Option.isSome_iff_exists, List.mem_iff_getElem?]
  exact exists_congr fun i => h.ordinals name i

theorem columns_ordinal (h : cl.WellFormed) {c : Column} (hc : c ∈ cl.columns) :
    cl.columns[cl.ordinal c.name]? = some c := by
  obtain ⟨i, hi⟩ := List.mem_iff_getElem?.mp hc
  have hn : cl.names[i]? = some c.name := by
    unfold names
    rw [List.getElem?_map, hi]
    rfl
  have ho : cl.ordinal c.name = i := by
    unfold ordinal
    rw [(h.ordinals c.name i).mpr hn]
    rfl
  rw [ho]
  exact hi

theorem ordinal_lt (h : cl.WellFormed) {name : String} (hn : name ∈ cl.names) :
    cl.ordinal name < cl.len := by
  obtain ⟨c, hc, rfl⟩ := List.mem_map.mp hn
  exact (List.getElem?_eq_some_iff.mp (h.columns_ordinal hc)).1

/-- `GetColumn` finds the column of a listed name, and is nil for any other. -/
theorem getColumn_eq (h : cl.WellFormed) (name : String) :
    cl.getColumn name = .ok (cl.columns.find? fun c => c.name = name) := by
  unfold getColumn
  cases hl : cl.ordinals.lookup name with
  | none =>
    have hn : name ∉ cl.names := fun hc => by
      have := (h.lookup_isSome name).mpr hc
      rw [hl] at this
      simp at this
    have hf : cl.columns.find? (fun c => decide (c.name = name)) = none := by
      rw [List.find?_eq_none]
      intro c hc he
      have he : c.name = name := by simpa using he
      exact hn (he ▸ List.mem_map_of_mem hc)
    simp only [hf]
  | some i =>
    have hi := (h.ordinals name i).mp hl
    unfold names at hi
    rw [List.getElem?_map, Option.map_eq_some_iff] at hi
    obtain ⟨c, hc, hcn⟩ := hi
    simp only [hc]
    have hmem : c ∈ cl.columns := List.mem_of_getElem? hc
    have hf : cl.columns.find? (fun c => decide (c.name = name)) = some c := by
      cases hq : cl.columns.find? (fun c => decide (c.name = name)) with
      | none => exact absurd hcn (by simpa using List.find?_eq_none.mp hq c hmem)
      | some q =>
        have hqn : q.name = name := by simpa using List.find?_some hq
        rw [List.inj_on_of_nodup_map h.nodup (List.mem_of_find?_eq_some hq) hmem
          (hqn.trans hcn.symm)]
    rw [hf]

theorem setColumn_eq (h : cl.WellFormed) {i : Nat} {c : Column} (hi : cl.columns[i]? = some c)
    (f : Column → Column) :
    cl.setColumn c.name f = .ok { cl with columns := cl.columns.set i (f c) } := by
  have hn : cl.names[i]? = some c.name := by
    unfold names
    rw [List.getElem?_map, hi]
    rfl
  unfold setColumn
  rw [(h.ordinals c.name i).mpr hn]
  simp only [hi]

theorem congr (h : cl.WellFormed) {cl' : ColumnList} (hnames : cl'.names = cl.names)
    (hordinals : cl'.ordinals = cl.ordinals) : cl'.WellFormed where
  nodup := hnames ▸ h.nodup
  ordinals := by
    rw [hnames, hordinals]
    exact h.ordinals

theorem set (h : cl.WellFormed) {i : Nat} {c c' : Column} (hi : cl.columns[i]? = some c)
    (hname : c'.name = c.name) :
    ColumnList.WellFormed { cl with columns := cl.columns.set i c' } :=
  h.congr (names_set hi hname) rfl

end ColumnList.WellFormed

end GhOst.Sql
