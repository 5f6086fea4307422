import GhOst.Sql.Builder
import GhOst.Sql.Comparisons

/-!
# The insert statement of a checkpoint (`go/sql/builder.go`)

The names of the columns stand in the statement as they are, without quotes; the names of the schema
and of the table are escaped.
-/

namespace GhOst.Sql

def maxColumnNameLength : Nat := 64

/-- `TruncateColumnName`: the first `limit` characters. -/
def truncateColumnName (name : String) (limit : Nat) : String :=
  String.ofList (name.toList.take limit)

def minColName (name : String) : String :=
  truncateColumnName name (maxColumnNameLength - 4) ++ "_min"

def maxColName (name : String) : String :=
  truncateColumnName name (maxColumnNameLength - 4) ++ "_max"

/-- What stands for a value of the insert: `unix_timestamp(now())`, or a token with a placeholder.
-/
inductive CheckpointValue where
  | now
  | token (t : ValueToken)
deriving DecidableEq, Repr

/-- `insert into databaseName.tableName (columns) values (values)`, with the names as texts. -/
structure CheckpointInsert where
  databaseName : String
  tableName : String
  columns : List String
  values : List CheckpointValue
deriving DecidableEq, Repr

structure CheckpointInsertQueryBuilder where
  uniqueKeyColumns : ColumnList
  preparedStatement : CheckpointInsert
deriving DecidableEq, Repr

def newCheckpointQueryBuilder (databaseName tableName : String) (uniqueKeyColumns : ColumnList) :
    Except BuildError CheckpointInsertQueryBuilder :=
  if uniqueKeyColumns.len = 0 then
    .error (.error "got 0 columns in BuildSetCheckpointInsertQuery")
  else
    let values := (buildColumnsPreparedValues uniqueKeyColumns).map CheckpointValue.token
    let placeholder := CheckpointValue.token .plain
    .ok
      { uniqueKeyColumns
        preparedStatement :=
          { databaseName := escapeName databaseName
            tableName := escapeName tableName
            columns :=
              ["gh_ost_chk_timestamp", "gh_ost_chk_coords", "gh_ost_chk_iteration",
                "gh_ost_rows_copied", "gh_ost_dml_applied", "gh_ost_is_cutover"] ++
              uniqueKeyColumns.names.map minColName ++ uniqueKeyColumns.names.map maxColName
            values :=
              [.now, placeholder, placeholder, placeholder, placeholder, placeholder] ++
              values ++ values } }

/-- `BuildQuery` of the checkpoint builder. -/
def CheckpointInsertQueryBuilder.buildQuery (enc : Encodings) (b : CheckpointInsertQueryBuilder)
    (uniqueKeyArgs : List Value) : Except BuildError (CheckpointInsert × List Value) :=
  if uniqueKeyArgs.length ≠ 2 * b.uniqueKeyColumns.len then
    .error (.error "args count differs from 2 x unique key column count")
  else
    let convert := List.zipWith (Column.convertArg enc) b.uniqueKeyColumns.columns
    .ok (b.preparedStatement,
      convert uniqueKeyArgs ++ convert (uniqueKeyArgs.drop b.uniqueKeyColumns.len))

end GhOst.Sql
