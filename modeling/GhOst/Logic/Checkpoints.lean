import GhOst.Mysql.Coordinates
import GhOst.Mysql.Identifiers
import GhOst.Sql.Checkpoints

/-!
# The checkpoint table (`go/logic/applier.go`)

`CreateCheckpointTable`, `WriteCheckpoint` and `ReadLastCheckpoint`, and what the server does for
them. A checkpoint has all its fields here; `GhOst.Logic.Checkpoint` has those that the resume
needs.
-/

namespace GhOst.Logic.Checkpoints

open GhOst.Mysql GhOst.Sql

/-! ## The server -/

/-- What is left open of the server: how names are compared, and what a column gives back of what is
stored in it. -/
structure Server where
  lower : Char → Char
  keep : (type : String) → ValueToken → Value → Value

/-- A field of a row, and an argument of the insert. -/
inductive Cell where
  | null
  | int (n : Int)
  | text (s : String)
  | flag (b : Bool)
  | value (v : Value)
deriving DecidableEq, Repr

/-- The table; a column is its name and its type, and the rows are in the order of their ids. -/
structure Table where
  columns : List (List Char × String)
  rows : List (List Cell) := []
deriving DecidableEq, Repr

namespace Server

variable (srv : Server)

def fold (name : List Char) : List Char := name.map srv.lower

/-- `create table`: every name is an identifier of at most 64 characters, and no two are the same.
-/
def create (colDefs : List (String × String)) : Option Table :=
  (colDefs.mapM fun d => readIdentifier d.1.toList).bind fun names =>
    if (names.map srv.fold).Nodup ∧ ∀ name ∈ names, name.length ≤ 64 then
      some { columns := names.zip (colDefs.map Prod.snd) }
    else none

/-- What each of the values of an insert stands for. -/
def bindArgs (now : Int) : List CheckpointValue → List Cell → Option (List (ValueToken × Cell))
  | [], [] => some []
  | .now :: values, args => (bindArgs now values args).map ((.plain, .int now) :: ·)
  | .token t :: values, arg :: args => (bindArgs now values args).map ((t, arg) :: ·)
  | _, _ => none

/-- Only the key columns convert what they store. -/
def store (type : String) : ValueToken × Cell → Cell
  | (t, .value v) => .value (srv.keep type t v)
  | (_, cell) => cell

/-- The field of a new row in a column; `gh_ost_chk_id` is `auto_increment`. -/
def field (id : Int) (stored : List (List Char × (ValueToken × Cell)))
    (column : List Char × String) : Cell :=
  match stored.lookup (srv.fold column.1) with
  | some source => srv.store column.2 source
  | none => if column.1 = "gh_ost_chk_id".toList then .int id else .null

/-- `insert`: it names columns of the table, each once, and has a value for each. -/
def insert (now : Int) (table : Table) (stmt : CheckpointInsert) (args : List Cell) :
    Option Table :=
  (stmt.columns.mapM fun c => readIdentifier c.toList).bind fun names =>
    (bindArgs now stmt.values args).bind fun sources =>
      let targets := names.map srv.fold
      if names.length = sources.length ∧ targets.Nodup ∧
          ∀ t ∈ targets, t ∈ table.columns.map fun c => srv.fold c.1 then
        let id := (table.rows.length + 1 : Int)
        some { table with
          rows := table.rows ++ [table.columns.map (srv.field id (targets.zip sources))] }
      else none

end Server

/-! ## The applier -/

structure Checkpoint where
  id : Int := 0
  timestamp : Int := 0
  lastTrxCoords : BinlogCoordinates
  iterationRangeMin : List Value
  iterationRangeMax : List Value
  iteration : Int
  rowsCopied : Int
  dmlApplied : Int
  isCutover : Bool
deriving DecidableEq

inductive CheckpointError where
  | build (e : BuildError)
  | refused
  /-- `ErrNoCheckpointFound` -/
  | noCheckpointFound
  /-- the row does not fit the variables of `Scan` -/
  | scan
  | coordinates (text : String)
deriving DecidableEq, Repr

/-- The text of a GTID set in `go-mysql`, and its parser. -/
structure GTIDSets where
  string : Finset GTID → String
  parseGTIDSet : String → Except String (Finset GTID)

/-- `String` of coordinates. -/
def GTIDSets.coordsString (gtids : GTIDSets) : BinlogCoordinates → String
  | .file c => c.displayString
  | .gtid none => ""
  | .gtid (some set) => gtids.string set

/-- A definition of a column has the text of the name, and the type. -/
def ownColDefs : List (String × String) :=
  [("\x60gh_ost_chk_id\x60", "bigint auto_increment primary key"),
    ("\x60gh_ost_chk_timestamp\x60", "bigint"),
    ("\x60gh_ost_chk_coords\x60", "text charset ascii"),
    ("\x60gh_ost_chk_iteration\x60", "bigint"),
    ("\x60gh_ost_rows_copied\x60", "bigint"),
    ("\x60gh_ost_dml_applied\x60", "bigint"),
    ("\x60gh_ost_is_cutover\x60", "tinyint(1) DEFAULT '0'")]

/-- `colDefs` of `CreateCheckpointTable`. -/
def colDefs (uniqueKeyColumns : ColumnList) : Except String (List (String × String)) :=
  match uniqueKeyColumns.columns.find? (·.mySQLType = "") with
  | some col =>
    .error ("column " ++ escapeName col.name ++
      " has no type information. applyColumnTypes must be called")
  | none =>
    .ok (ownColDefs ++
      uniqueKeyColumns.columns.map (fun col => (escapeName (minColName col.name), col.mySQLType)) ++
      uniqueKeyColumns.columns.map (fun col => (escapeName (maxColName col.name), col.mySQLType)))

/-- `CreateCheckpointTable`, after the table of an earlier run has been dropped. -/
def createCheckpointTable (srv : Server) (uniqueKeyColumns : ColumnList) :
    Except CheckpointError Table :=
  match colDefs uniqueKeyColumns with
  | .error e => .error (.build (.error e))
  | .ok defs =>
    match srv.create defs with
    | none => .error .refused
    | some table => .ok table

/-- `WriteCheckpoint`; `now` is the server's time. -/
def writeCheckpoint (srv : Server) (enc : Encodings) (gtids : GTIDSets)
    (checkpointInsertQueryBuilder : CheckpointInsertQueryBuilder) (now : Int) (table : Table)
    (chk : Checkpoint) : Except CheckpointError Table :=
  match checkpointInsertQueryBuilder.buildQuery enc
      (chk.iterationRangeMin ++ chk.iterationRangeMax) with
  | .error e => .error (.build e)
  | .ok (query, uniqueKeyArgs) =>
    let args := [.text (gtids.coordsString chk.lastTrxCoords), .int chk.iteration,
      .int chk.rowsCopied, .int chk.dmlApplied, .flag chk.isCutover] ++
      uniqueKeyArgs.map Cell.value
    match srv.insert now table query args with
    | none => .error .refused
    | some table => .ok table

def Cell.asValue : Cell → Option Value
  | .value v => some v
  | _ => none

/-- `row.Scan`: the text of the coordinates, and the checkpoint up to the coordinates. -/
def scan (length : Nat) : List Cell → Option (String × (BinlogCoordinates → Checkpoint))
  | .int id :: .int timestamp :: .text coordStr :: .int iteration :: .int rowsCopied ::
      .int dmlApplied :: .flag isCutover :: values =>
    if values.length = 2 * length then
      (values.mapM Cell.asValue).map fun keyValues =>
        (coordStr, fun lastTrxCoords =>
          { id, timestamp, lastTrxCoords, iteration, rowsCopied, dmlApplied, isCutover
            iterationRangeMin := keyValues.take length
            iterationRangeMax := keyValues.drop length })
    else none
  | _ => none

/-- The coordinates that `ReadLastCheckpoint` makes of their text. -/
def readCoords (gtids : GTIDSets) (useGTIDs : Bool) (coordStr : String) :
    Except String BinlogCoordinates :=
  if useGTIDs then (gtids.parseGTIDSet coordStr).map fun set => .gtid (some set)
  else (FileBinlogCoordinates.parseFileBinlogCoordinates coordStr).map .file

def readLastCheckpoint (gtids : GTIDSets) (useGTIDs : Bool) (uniqueKeyColumns : ColumnList)
    (table : Table) : Except CheckpointError Checkpoint :=
  match table.rows.getLast? with
  | none => .error .noCheckpointFound
  | some row =>
    match scan uniqueKeyColumns.len row with
    | none => .error .scan
    | some (coordStr, chk) =>
      match readCoords gtids useGTIDs coordStr with
      | .error e => .error (.coordinates e)
      | .ok lastTrxCoords => .ok (chk lastTrxCoords)

end GhOst.Logic.Checkpoints
