import GhOst.Infra.Strconv
import GhOst.Mysql.Identifiers
import GhOst.Sql.Types

/-!
# Prepared statements for row events (`go/sql/builder.go`)

A prepared statement is kept as a syntax tree: the text is a function of it, and the server gives it
a meaning (`GhOst.Sql.Server`). The tree has the names of the columns as they are; in the text they
are escaped, and the server reads them there. The placeholders of a statement are numbered from left
to right, as in its text.
-/

namespace GhOst.Sql

variable {databaseName tableName : String} {table key shared mapped : ColumnList}

/-! ## Names -/

def escapeName (name : String) : String :=
  "`" ++ ((Infra.unquote name.toList).map String.ofList).getD name ++ "`"

/-- The name that the server reads where `name` is escaped. -/
def readName (name : String) : Option String :=
  (Mysql.readIdentifier (escapeName name).toList).map String.ofList

/-! ## Placeholders -/

/-- What stands for one value: a plain placeholder or one inside a conversion. -/
inductive ValueToken where
  /-- `?` -/
  | plain
  /-- `convert_tz(?, 'toTimezone', '+00:00')` -/
  | convertTz (toTimezone : String)
  /-- `ELT(?, enumValues)` -/
  | elt (enumValues : String)
  /-- `convert(? using utf8mb4)` -/
  | convertUtf8mb4
deriving DecidableEq, Repr

/-- The token of one column, in `buildColumnsPreparedValues` and in `BuildSetPreparedClause`. -/
def Column.valueToken (column : Column) : ValueToken :=
  match column.timezoneConversion with
  | some toTimezone => .convertTz toTimezone
  | none =>
    if column.enumToTextConversion then .elt column.enumValues
    else if column.type = .json then .convertUtf8mb4
    else .plain

def buildColumnsPreparedValues (columns : ColumnList) : List ValueToken :=
  columns.columns.map Column.valueToken

/-! ## Statements -/

/-- The statements gh-ost prepares for row events. -/
inductive Statement where
  /-- `delete from db.table where (c₁ = ?) and …` -/
  | delete (databaseName tableName : String) (whereColumns : List String)
  /-- `insert ignore into db.table (c₁, …) values (t₁, …)` -/
  | insertIgnore (databaseName tableName : String) (columns : List String)
      (values : List ValueToken)
  /-- `update db.table set c₁ = t₁, … where (k₁ = ?) and …` -/
  | update (databaseName tableName : String) (set : List (String × ValueToken))
      (whereColumns : List String)
deriving DecidableEq, Repr

/-- Why a constructor or `BuildQuery` does not give a statement: an `error`, or a panic. -/
inductive BuildError where
  | error (text : String)
  | fault (f : Fault)
deriving DecidableEq, Repr

/-- `BuildEqualsPreparedComparison`: the columns compared with a plain placeholder each. -/
def buildEqualsPreparedComparison (columns : List String) : Except BuildError (List String) :=
  if columns = [] then .error (.error "got 0 columns in BuildEqualsComparison")
  else if "" ∈ columns then .error (.error "empty column in BuildValueComparison")
  else .ok columns

def buildSetPreparedClause (columns : ColumnList) :
    Except BuildError (List (String × ValueToken)) :=
  if columns.len = 0 then .error (.error "got 0 columns in BuildSetPreparedClause")
  else .ok (columns.columns.map fun c => (c.name, c.valueToken))

/-- The loop of all three `BuildQuery`: the values of the image at the columns' positions,
converted. -/
def convertedArgs (enc : Encodings) (tableColumns : ColumnList) (args : List Value) :
    List Column → Except BuildError (List Value)
  | [] => .ok []
  | column :: columns =>
    match args[tableColumns.ordinal column.name]? with
    | none => .error (.fault .indexOutOfRange)
    | some arg =>
      match convertedArgs enc tableColumns args columns with
      | .error e => .error e
      | .ok rest => .ok (column.convertArg enc arg :: rest)

structure DMLDeleteQueryBuilder where
  tableColumns : ColumnList
  uniqueKeyColumns : ColumnList
  preparedStatement : Statement
deriving DecidableEq, Repr

def newDMLDeleteQueryBuilder (databaseName tableName : String)
    (tableColumns uniqueKeyColumns : ColumnList) : Except BuildError DMLDeleteQueryBuilder :=
  if uniqueKeyColumns.len = 0 then
    .error (.error "no unique key columns found in NewDMLDeleteQueryBuilder")
  else
    match buildEqualsPreparedComparison uniqueKeyColumns.names with
    | .error e => .error e
    | .ok whereColumns =>
      .ok { tableColumns, uniqueKeyColumns,
            preparedStatement := .delete databaseName tableName whereColumns }

/-- `BuildQuery` of the delete builder. -/
def DMLDeleteQueryBuilder.buildQuery (enc : Encodings) (b : DMLDeleteQueryBuilder)
    (args : List Value) : Except BuildError (Statement × List Value) :=
  if args.length ≠ b.tableColumns.len then
    .error (.error "args count differs from table column count in BuildDMLDeleteQuery")
  else
    match convertedArgs enc b.tableColumns args b.uniqueKeyColumns.columns with
    | .error e => .error e
    | .ok uniqueKeyArgs => .ok (b.preparedStatement, uniqueKeyArgs)

structure DMLInsertQueryBuilder where
  tableColumns : ColumnList
  sharedColumns : ColumnList
  preparedStatement : Statement
deriving DecidableEq, Repr

def newDMLInsertQueryBuilder (databaseName tableName : String)
    (tableColumns sharedColumns mappedSharedColumns : ColumnList) :
    Except BuildError DMLInsertQueryBuilder :=
  if ¬ sharedColumns.isSubsetOf tableColumns then
    .error (.error "shared columns is not a subset of table columns in NewDMLInsertQueryBuilder")
  else if sharedColumns.len = 0 then
    .error (.error "no shared columns found in NewDMLInsertQueryBuilder")
  else
    .ok { tableColumns, sharedColumns,
          preparedStatement := .insertIgnore databaseName tableName mappedSharedColumns.names
            (buildColumnsPreparedValues mappedSharedColumns) }

/-- `BuildQuery` of the insert builder. -/
def DMLInsertQueryBuilder.buildQuery (enc : Encodings) (b : DMLInsertQueryBuilder)
    (args : List Value) : Except BuildError (Statement × List Value) :=
  if args.length ≠ b.tableColumns.len then
    .error (.error "args count differs from table column count in BuildDMLInsertQuery")
  else
    match convertedArgs enc b.tableColumns args b.sharedColumns.columns with
    | .error e => .error e
    | .ok sharedArgs => .ok (b.preparedStatement, sharedArgs)

structure DMLUpdateQueryBuilder where
  tableColumns : ColumnList
  sharedColumns : ColumnList
  uniqueKeyColumns : ColumnList
  preparedStatement : Statement
deriving DecidableEq, Repr

def newDMLUpdateQueryBuilder (databaseName tableName : String)
    (tableColumns sharedColumns mappedSharedColumns uniqueKeyColumns : ColumnList) :
    Except BuildError DMLUpdateQueryBuilder :=
  if ¬ sharedColumns.isSubsetOf tableColumns then
    .error (.error "shared columns is not a subset of table columns in NewDMLUpdateQueryBuilder")
  else if sharedColumns.len = 0 then
    .error (.error "no shared columns found in NewDMLUpdateQueryBuilder")
  else if uniqueKeyColumns.len = 0 then
    .error (.error "no unique key columns found in NewDMLUpdateQueryBuilder")
  -- virtual columns of the key are not among the shared columns
  else if ¬ (uniqueKeyColumns.filterBy fun c => !c.isVirtual).isSubsetOf sharedColumns then
    .error (.error
      "unique key columns is not a subset of shared columns in NewDMLUpdateQueryBuilder")
  else
    match buildSetPreparedClause mappedSharedColumns with
    | .error e => .error e
    | .ok setClause =>
      match buildEqualsPreparedComparison uniqueKeyColumns.names with
      | .error e => .error e
      | .ok whereColumns =>
        .ok { tableColumns, sharedColumns, uniqueKeyColumns,
              preparedStatement := .update databaseName tableName setClause whereColumns }

/-- `BuildQuery` of the update builder, which does not compare the lengths. -/
def DMLUpdateQueryBuilder.buildQuery (enc : Encodings) (b : DMLUpdateQueryBuilder)
    (valueArgs whereArgs : List Value) : Except BuildError (Statement × List Value) :=
  match convertedArgs enc b.tableColumns valueArgs b.sharedColumns.columns with
  | .error e => .error e
  | .ok sharedArgs =>
    match convertedArgs enc b.tableColumns whereArgs b.uniqueKeyColumns.columns with
    | .error e => .error e
    | .ok uniqueKeyArgs => .ok (b.preparedStatement, sharedArgs ++ uniqueKeyArgs)

/-! ## What the constructors and the shared loop return -/

theorem buildEqualsPreparedComparison_ok {columns whereColumns : List String}
    (h : buildEqualsPreparedComparison columns = .ok whereColumns) : whereColumns = columns := by
  unfold buildEqualsPreparedComparison at h
  split at h
  · simp at h
  · split at h
    · simp at h
    · exact (Except.ok.inj h).symm

theorem newDMLDeleteQueryBuilder_ok {b : DMLDeleteQueryBuilder}
    (h : newDMLDeleteQueryBuilder databaseName tableName table key = .ok b) :
    b = { tableColumns := table, uniqueKeyColumns := key,
          preparedStatement := .delete databaseName tableName key.names } := by
  unfold newDMLDeleteQueryBuilder at h
  split at h
  · simp at h
  · cases hw : buildEqualsPreparedComparison key.names with
    | error e => simp [hw] at h
    | ok whereColumns =>
      simp only [hw] at h
      cases h
      rw [buildEqualsPreparedComparison_ok hw]

theorem newDMLInsertQueryBuilder_ok {b : DMLInsertQueryBuilder}
    (h : newDMLInsertQueryBuilder databaseName tableName table shared mapped = .ok b) :
    shared.isSubsetOf table = true ∧
      b = { tableColumns := table, sharedColumns := shared,
            preparedStatement := .insertIgnore databaseName tableName mapped.names
              (buildColumnsPreparedValues mapped) } := by
  unfold newDMLInsertQueryBuilder at h
  split at h
  · simp at h
  · next hsub =>
    split at h
    · simp at h
    · exact ⟨by simpa using hsub, (Except.ok.inj h).symm⟩

theorem newDMLInsertQueryBuilder_len {b : DMLInsertQueryBuilder}
    (h : newDMLInsertQueryBuilder databaseName tableName table shared mapped = .ok b) :
    shared.len ≠ 0 := by
  unfold newDMLInsertQueryBuilder at h
  split at h
  · simp at h
  · split at h
    · simp at h
    · next hlen => exact hlen

theorem newDMLUpdateQueryBuilder_ok {b : DMLUpdateQueryBuilder}
    (h : newDMLUpdateQueryBuilder databaseName tableName table shared mapped key = .ok b) :
    b = { tableColumns := table, sharedColumns := shared, uniqueKeyColumns := key,
          preparedStatement := .update databaseName tableName
            (mapped.columns.map fun c => (c.name, c.valueToken)) key.names } := by
  unfold newDMLUpdateQueryBuilder at h
  iterate 4
    split at h
    · simp at h
  cases hset : buildSetPreparedClause mapped with
  | error e => simp [hset] at h
  | ok setClause =>
    cases hw : buildEqualsPreparedComparison key.names with
    | error e => simp [hset, hw] at h
    | ok whereColumns =>
      simp only [hset, hw, Except.ok.injEq] at h
      unfold buildSetPreparedClause at hset
      split at hset
      · simp at hset
      · rw [← h, ← Except.ok.inj hset, buildEqualsPreparedComparison_ok hw]

theorem newDMLUpdateQueryBuilder_subset {b : DMLUpdateQueryBuilder}
    (h : newDMLUpdateQueryBuilder databaseName tableName table shared mapped key = .ok b) :
    shared.isSubsetOf table = true := by
  unfold newDMLUpdateQueryBuilder at h
  split at h
  · cases h
  · next hsub => exact not_not.mp hsub

/-- **The arguments are the converted values at the columns' positions, in the columns' order.** -/
theorem convertedArgs_eq {enc : Encodings} {args : List Value} :
    ∀ {columns : List Column}, (∀ c ∈ columns, table.ordinal c.name < args.length) →
      convertedArgs enc table args columns
        = .ok (columns.map fun c =>
            c.convertArg enc ((args[table.ordinal c.name]?).getD .null))
  | [], _ => rfl
  | c :: columns, h => by
    have hlt := h c List.mem_cons_self
    rw [convertedArgs, List.getElem?_eq_getElem hlt]
    simp only [convertedArgs_eq fun c' hc' => h c' (List.mem_cons_of_mem _ hc'), List.map_cons,
      List.getElem?_eq_getElem hlt, Option.getD_some]

end GhOst.Sql
