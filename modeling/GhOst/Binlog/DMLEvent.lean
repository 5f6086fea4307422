import GhOst.Sql.Types

/-!
# Row events (`go/binlog/binlog_dml_event.go`)
-/

namespace GhOst.Binlog

open GhOst.Sql

inductive EventDML where
  | notDML
  | insertDML
  | updateDML
  | deleteDML
deriving DecidableEq, Repr

/-- One row of a rows event. The images are pointers: `none` is nil. -/
structure BinlogDMLEvent where
  databaseName : String
  tableName : String
  dml : EventDML
  whereColumnValues : Option (List Value) := none
  newColumnValues : Option (List Value) := none
deriving DecidableEq, Repr

end GhOst.Binlog
