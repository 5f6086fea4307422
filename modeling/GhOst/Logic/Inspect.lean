import GhOst.Logic.Applier

/-!
# The inspection of the two tables (`go/logic/inspect.go`)

`inspectOriginalAndGhostTables` chooses the migration key, pairs the shared columns of the original
with the columns of the ghost that they become, and marks the columns whose values need a conversion
on their way from the binary log to the ghost. What it reads from the server is its input here:
the columns and unique keys of the tables, and their rows in `information_schema.columns`.

The functions write through pointers into column lists. A list that is written to is returned.
-/

namespace GhOst.Logic

open GhOst.Sql

/-! ## Column types -/

/-- A row of `information_schema.columns`. A NULL character set is read as the empty string. -/
structure ColumnInfo where
  columnName : String
  columnType : String
  characterOctetLength : Nat := 0
  extra : String := ""
  characterSetName : String := ""
deriving DecidableEq, Repr

/-- `ParseEnumValues`, with the expression `^enum[(](.*)[)]$`, whose dot matches no line feed. -/
def parseEnumValues (enumColumnType : String) : String :=
  let text := enumColumnType.toList
  let inner := (text.drop 5).dropLast
  if text = "enum(".toList ++ inner ++ [')'] ∧ '\n' ∉ inner then String.ofList inner
  else enumColumnType

/-- The type that `applyColumnTypes` reads off `COLUMN_TYPE`; a later match hides an earlier one. -/
def readColumnType (columnType : String) (type : ColumnType) : ColumnType :=
  if startsWith columnType "binary" then .binary
  else if startsWith columnType "enum" then .enum
  else if contains columnType "float" then .float
  else if contains columnType "json" then .json
  else if contains columnType "datetime" then .dateTime
  else if contains columnType "timestamp" then .timestamp
  else if contains columnType "mediumint" then .mediumInt
  else type

/-- What `applyColumnTypes` writes to the column of a row. -/
def ColumnInfo.apply (info : ColumnInfo) (column : Column) : Column :=
  { column with
    mySQLType := info.columnType
    isUnsigned := column.isUnsigned || contains info.columnType "unsigned"
    type := readColumnType info.columnType column.type
    enumValues :=
      if startsWith info.columnType "enum" then parseEnumValues info.columnType
      else column.enumValues
    binaryOctetLength :=
      if startsWith info.columnType "binary" then info.characterOctetLength
      else column.binaryOctetLength
    isVirtual := column.isVirtual || contains info.extra " GENERATED"
    charset := if info.characterSetName ≠ "" then info.characterSetName else column.charset }

/-- `applyColumnTypes`, for one of its lists. -/
def applyColumnTypes : List ColumnInfo → ColumnList → Except Fault ColumnList
  | [], columnsList => .ok columnsList
  | info :: infos, columnsList =>
    match columnsList.ordinals.lookup info.columnName with
    | none => applyColumnTypes infos columnsList
    | some _ =>
      match columnsList.setColumn info.columnName info.apply with
      | .error f => .error f
      | .ok columnsList => applyColumnTypes infos columnsList

/-! ## Shared keys and columns -/

/-- The unique key with the name of the first key of the ghost that contains its columns. -/
def sharedUniqueKey (originalUniqueKey : UniqueKey) : List UniqueKey → Option UniqueKey
  | [] => none
  | ghostUniqueKey :: ghostUniqueKeys =>
    if originalUniqueKey.columns.isSubsetOf ghostUniqueKey.columns then
      some { originalUniqueKey with nameInGhostTable := ghostUniqueKey.name }
    else sharedUniqueKey originalUniqueKey ghostUniqueKeys

def getSharedUniqueKeys (originalUniqueKeys ghostUniqueKeys : List UniqueKey) : List UniqueKey :=
  originalUniqueKeys.filterMap fun key => sharedUniqueKey key ghostUniqueKeys

/-- What `getSharedColumns` looks at, besides the names of the original's columns. -/
structure ColumnNames where
  equalFold : String → String → Bool
  ghostColumns : List String
  originalVirtualColumns : List String
  ghostVirtualColumns : List String
  droppedColumnsMap : List String
  columnRenameMap : List (String × String)

def ColumnNames.isSharedColumn (names : ColumnNames) (originalColumn : String) : Bool :=
  (names.ghostColumns.any fun ghostColumn =>
    names.equalFold originalColumn ghostColumn ||
      names.equalFold ((names.columnRenameMap.lookup originalColumn).getD "") ghostColumn) &&
  !(names.droppedColumnsMap.any (names.equalFold originalColumn)) &&
  !(names.originalVirtualColumns.any (names.equalFold originalColumn)) &&
  !(names.ghostVirtualColumns.any (names.equalFold originalColumn))

def ColumnNames.mappedName (names : ColumnNames) (columnName : String) : String :=
  (names.columnRenameMap.lookup columnName).getD columnName

def getSharedColumns (names : ColumnNames) (originalColumns : ColumnList) :
    ColumnList × ColumnList :=
  let sharedColumnNames := originalColumns.names.filter names.isSharedColumn
  (newColumnList sharedColumnNames, newColumnList (sharedColumnNames.map names.mappedName))

/-! ## Conversions -/

/-- A setter of a column list, called under a condition. -/
def setIf (condition : Bool) (cl : ColumnList) (name : String) (f : Column → Column) :
    Except Fault ColumnList :=
  if condition then cl.setColumn name f else .ok cl

def needsTimezoneConversion (column mappedColumn : Column) : Bool :=
  column.name = mappedColumn.name ∧ column.type = .dateTime ∧ mappedColumn.type = .timestamp

def needsEnumToTextConversion (column mappedColumn : Column) : Bool :=
  column.name = mappedColumn.name ∧ column.type = .enum ∧ mappedColumn.charset ≠ ""

def needsCharsetConversion (column mappedColumn : Column) : Bool :=
  column.name = mappedColumn.name ∧ column.charset ≠ mappedColumn.charset

def setConvertDatetimeToTimestamp (toTimezone : String) (c : Column) : Column :=
  { c with timezoneConversion := some toTimezone }

/-- `SetEnumToTextConversion` and `SetEnumValues`. -/
def setEnumToTextConversion (enumValues : String) (c : Column) : Column :=
  { c with enumToTextConversion := true, enumValues }

def setCharsetConversion (fromCharset toCharset : String) (c : Column) : Column :=
  { c with charsetConversion := some { toCharset, fromCharset } }

/-- The loop over the shared columns, from position `i` on for `n` columns. -/
def setConversions (applierTimeZone : String) :
    (n i : Nat) → ColumnList → ColumnList → Except Fault (ColumnList × ColumnList)
  | 0, _, sharedColumns, mappedSharedColumns => .ok (sharedColumns, mappedSharedColumns)
  | n + 1, i, sharedColumns, mappedSharedColumns =>
    match sharedColumns.columns[i]?, mappedSharedColumns.columns[i]? with
    | some column, some mappedColumn => do
      let mappedSharedColumns ← setIf (needsTimezoneConversion column mappedColumn)
        mappedSharedColumns column.name (setConvertDatetimeToTimestamp applierTimeZone)
      let mappedSharedColumns ← setIf (needsEnumToTextConversion column mappedColumn)
        mappedSharedColumns column.name (setEnumToTextConversion column.enumValues)
      let sharedColumns ← setIf (needsCharsetConversion column mappedColumn)
        sharedColumns column.name (setCharsetConversion column.charset mappedColumn.charset)
      setConversions applierTimeZone n (i + 1) sharedColumns mappedSharedColumns
    | _, _ => .error .indexOutOfRange

/-! ## The inspection -/

/-- `String` of a unique key. -/
def uniqueKeyText (key : UniqueKey) : String :=
  (if key.isAutoIncrement then key.name ++ " (auto_increment)" else key.name) ++ ": [" ++
    " ".intercalate key.columns.names ++ "]; has nullable: " ++
    (if key.hasNullable then "true" else "false")

inductive InspectError where
  | error (text : String)
  | fault (f : Fault)
deriving DecidableEq, Repr

/-- A panic ends the inspection. -/
def orFault {α : Type} : Except Fault α → Except InspectError α
  | .ok a => .ok a
  | .error f => .error (.fault f)

/-- What the inspection reads: its context, and the answers of the server. -/
structure Inspection where
  databaseName : String
  originalTableName : String
  ghostTableName : String
  originalTableColumns : ColumnList
  originalTableColumnsOnApplier : ColumnList
  originalTableVirtualColumns : ColumnList
  originalTableUniqueKeys : List UniqueKey
  ghostTableColumns : ColumnList
  ghostTableVirtualColumns : ColumnList
  ghostTableUniqueKeys : List UniqueKey
  /-- the rows of `information_schema.columns` -/
  originalColumnInfos : List ColumnInfo
  ghostColumnInfos : List ColumnInfo
  columnRenameMap : List (String × String)
  droppedColumnsMap : List String
  nullableUniqueKeyAllowed : Bool
  applierTimeZone : String
  equalFold : String → String → Bool

def Inspection.columnNames (isp : Inspection) : ColumnNames where
  equalFold := isp.equalFold
  ghostColumns := isp.ghostTableColumns.names
  originalVirtualColumns := isp.originalTableVirtualColumns.names
  ghostVirtualColumns := isp.ghostTableVirtualColumns.names
  droppedColumnsMap := isp.droppedColumnsMap
  columnRenameMap := isp.columnRenameMap

/-- The first shared key without `FLOAT` and `JSON` columns, with the types of its columns. -/
def chooseUniqueKey (infos : List ColumnInfo) : List UniqueKey → Except Fault (Option UniqueKey)
  | [] => .ok none
  | sharedUniqueKey :: sharedUniqueKeys =>
    match applyColumnTypes infos sharedUniqueKey.columns with
    | .error f => .error f
    | .ok columns =>
      if columns.columns.all fun column => column.type ≠ .float ∧ column.type ≠ .json then
        .ok (some { sharedUniqueKey with columns })
      else chooseUniqueKey infos sharedUniqueKeys

/-- The last check: no column of the key has a time zone conversion. -/
def checkKeyTimezone (isp : Inspection) (mappedSharedColumns : ColumnList) (key : UniqueKey) :
    List Column → Except InspectError Unit
  | [] => .ok ()
  | column :: columns => do
    let virtual ← orFault (isp.ghostTableVirtualColumns.getColumn column.name)
    if virtual.isSome then checkKeyTimezone isp mappedSharedColumns key columns
    else
      match ← orFault (mappedSharedColumns.getColumn column.name) with
      | none => .error (.fault .nilPointer)
      | some mappedColumn =>
        if mappedColumn.timezoneConversion.isSome then
          .error (.error ("no support at this time for converting a column from DATETIME to " ++
            "TIMESTAMP that is also part of the chosen unique key. Column: " ++ column.name ++
            ", key: " ++ key.name))
        else checkKeyTimezone isp mappedSharedColumns key columns

/-- The shared columns and the columns they become, with their types and conversions. -/
def inspectSharedColumns (isp : Inspection) : Except Fault (ColumnList × ColumnList) := do
  let (sharedColumns, mappedSharedColumns) :=
    getSharedColumns isp.columnNames isp.originalTableColumns
  let sharedColumns ← applyColumnTypes isp.originalColumnInfos sharedColumns
  let mappedSharedColumns ← applyColumnTypes isp.ghostColumnInfos mappedSharedColumns
  setConversions isp.applierTimeZone sharedColumns.len 0 sharedColumns mappedSharedColumns

def inspectOriginalAndGhostTables (isp : Inspection) : Except InspectError MigrationContext :=
  if isp.originalTableColumns.names ≠ isp.originalTableColumnsOnApplier.names then
    .error (.error ("it seems like table structure is not identical between master and replica. " ++
      "This scenario is not supported"))
  else do
    let sharedUniqueKeys := getSharedUniqueKeys isp.originalTableUniqueKeys isp.ghostTableUniqueKeys
    match ← orFault (chooseUniqueKey isp.originalColumnInfos sharedUniqueKeys) with
    | none => .error (.error "no shared unique key can be found after ALTER! Bailing out")
    | some uniqueKey =>
      if uniqueKey.hasNullable = true ∧ isp.nullableUniqueKeyAllowed = false then
        .error (.error ("chosen key (" ++ uniqueKeyText uniqueKey ++ ") has nullable columns. " ++
          "Bailing out. To force this operation to continue, supply --allow-nullable-unique-key " ++
          "flag. Only do so if you are certain there are no actual NULL values in this key. As " ++
          "long as there aren't, migration should be fine. NULL values in columns of this key " ++
          "will corrupt migration's data"))
      else
        let originalTableColumns ←
          orFault (applyColumnTypes isp.originalColumnInfos isp.originalTableColumns)
        let keyColumns ← orFault (applyColumnTypes isp.originalColumnInfos uniqueKey.columns)
        let (sharedColumns, mappedSharedColumns) ← orFault (inspectSharedColumns isp)
        let uniqueKey := { uniqueKey with columns := keyColumns }
        checkKeyTimezone isp mappedSharedColumns uniqueKey keyColumns.columns
        .ok { databaseName := isp.databaseName
              originalTableName := isp.originalTableName
              ghostTableName := isp.ghostTableName
              originalTableColumns, sharedColumns, mappedSharedColumns, uniqueKey }

/-! ## What an inspection that succeeds has gone through -/

theorem orFault_ok {α : Type} {x : Except Fault α} {a : α} (h : orFault x = .ok a) : x = .ok a := by
  cases x with
  | error f => simp [orFault] at h
  | ok b =>
    rw [orFault, Except.ok.injEq] at h
    rw [h]

theorem bind_eq_ok_iff {ε α β : Type} {x : Except ε α} {f : α → Except ε β} {b : β} :
    (x >>= f) = .ok b ↔ ∃ a, x = .ok a ∧ f a = .ok b := by
  cases x with
  | error e =>
    constructor
    · intro h
      cases h
    · rintro ⟨a, h, _⟩
      cases h
  | ok a =>
    constructor
    · intro h
      exact ⟨a, rfl, h⟩
    · rintro ⟨a', ha, h⟩
      rw [Except.ok.inj ha]
      exact h

/-- The steps of an inspection that gives the context `ctx`, with `chosen` as the migration key. -/
structure Inspection.Accepts (isp : Inspection) (chosen : UniqueKey) (ctx : MigrationContext) :
    Prop where
  chooses : chooseUniqueKey isp.originalColumnInfos
    (getSharedUniqueKeys isp.originalTableUniqueKeys isp.ghostTableUniqueKeys) = .ok (some chosen)
  tableColumns : applyColumnTypes isp.originalColumnInfos isp.originalTableColumns
    = .ok ctx.originalTableColumns
  keyColumns : applyColumnTypes isp.originalColumnInfos chosen.columns = .ok ctx.uniqueKey.columns
  sharedColumns : inspectSharedColumns isp = .ok (ctx.sharedColumns, ctx.mappedSharedColumns)
  keyTimezone : checkKeyTimezone isp ctx.mappedSharedColumns ctx.uniqueKey
    ctx.uniqueKey.columns.columns = .ok ()

theorem inspectOriginalAndGhostTables_ok {isp : Inspection} {ctx : MigrationContext}
    (h : inspectOriginalAndGhostTables isp = .ok ctx) : ∃ chosen, isp.Accepts chosen ctx := by
  unfold inspectOriginalAndGhostTables at h
  split at h
  · simp at h
  · obtain ⟨chosen, hchosen, h⟩ := bind_eq_ok_iff.mp h
    cases chosen with
    | none => simp at h
    | some uniqueKey =>
      dsimp only at h
      split at h
      · simp at h
      · obtain ⟨originalTableColumns, htable, h⟩ := bind_eq_ok_iff.mp h
        obtain ⟨keyColumns, hkey, h⟩ := bind_eq_ok_iff.mp h
        obtain ⟨⟨sharedColumns, mappedSharedColumns⟩, hshared, h⟩ := bind_eq_ok_iff.mp h
        obtain ⟨_, htimezone, h⟩ := bind_eq_ok_iff.mp h
        cases h
        exact ⟨uniqueKey, orFault_ok hchosen, orFault_ok htable, orFault_ok hkey,
          orFault_ok hshared, htimezone⟩

end GhOst.Logic
