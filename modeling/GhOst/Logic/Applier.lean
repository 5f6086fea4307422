import GhOst.Binlog.DMLEvent
import GhOst.Sql.Server

/-!
# Building and applying a batch of row events (`go/logic/applier.go`)

`buildDMLEventQuery` writes to the event it is given, so it returns the event as it leaves it: the
events of a batch are shared between the attempts that `retryOperation` makes.
-/

namespace GhOst.Logic

open GhOst.Sql GhOst.Binlog

/-- `MaxEventsBatchSize`, the capacity of `applyEventsQueue`. -/
def maxEventsBatchSize : Nat := 1000

/-- The fields of the migration context that the row copy and the event application read. -/
structure MigrationContext where
  databaseName : String
  originalTableName : String
  ghostTableName : String
  originalTableColumns : ColumnList
  sharedColumns : ColumnList
  mappedSharedColumns : ColumnList
  uniqueKey : UniqueKey
deriving DecidableEq, Repr

structure Applier where
  migrationContext : MigrationContext
  dmlDeleteQueryBuilder : DMLDeleteQueryBuilder
  dmlInsertQueryBuilder : DMLInsertQueryBuilder
  dmlUpdateQueryBuilder : DMLUpdateQueryBuilder
deriving DecidableEq, Repr

/-- `prepareQueries`. The builder for checkpoints is left out. -/
def prepareQueries (ctx : MigrationContext) : Except BuildError Applier :=
  match newDMLDeleteQueryBuilder ctx.databaseName ctx.ghostTableName ctx.originalTableColumns
      ctx.uniqueKey.columns with
  | .error e => .error e
  | .ok dmlDeleteQueryBuilder =>
    match newDMLInsertQueryBuilder ctx.databaseName ctx.ghostTableName ctx.originalTableColumns
        ctx.sharedColumns ctx.mappedSharedColumns with
    | .error e => .error e
    | .ok dmlInsertQueryBuilder =>
      match newDMLUpdateQueryBuilder ctx.databaseName ctx.ghostTableName ctx.originalTableColumns
          ctx.sharedColumns ctx.mappedSharedColumns ctx.uniqueKey.columns with
      | .error e => .error e
      | .ok dmlUpdateQueryBuilder =>
        .ok { migrationContext := ctx, dmlDeleteQueryBuilder, dmlInsertQueryBuilder,
              dmlUpdateQueryBuilder }

theorem prepareQueries_ok {ctx : MigrationContext} {apl : Applier}
    (h : prepareQueries ctx = .ok apl) :
    ctx.sharedColumns.isSubsetOf ctx.originalTableColumns = true ∧
      apl = {
        migrationContext := ctx
        dmlDeleteQueryBuilder :=
          { tableColumns := ctx.originalTableColumns, uniqueKeyColumns := ctx.uniqueKey.columns,
            preparedStatement := .delete ctx.databaseName ctx.ghostTableName
              ctx.uniqueKey.columns.names }
        dmlInsertQueryBuilder :=
          { tableColumns := ctx.originalTableColumns, sharedColumns := ctx.sharedColumns,
            preparedStatement := .insertIgnore ctx.databaseName ctx.ghostTableName
              ctx.mappedSharedColumns.names
              (buildColumnsPreparedValues ctx.mappedSharedColumns) }
        dmlUpdateQueryBuilder :=
          { tableColumns := ctx.originalTableColumns, sharedColumns := ctx.sharedColumns,
            uniqueKeyColumns := ctx.uniqueKey.columns,
            preparedStatement := .update ctx.databaseName ctx.ghostTableName
              (ctx.mappedSharedColumns.columns.map fun c => (c.name, c.valueToken))
              ctx.uniqueKey.columns.names } } := by
  unfold prepareQueries at h
  split at h
  · simp at h
  · next hdelete =>
    split at h
    · simp at h
    · next hinsert =>
      split at h
      · simp at h
      · next hupdate =>
        obtain ⟨hsub, hins⟩ := newDMLInsertQueryBuilder_ok hinsert
        refine ⟨hsub, ?_⟩
        rw [← Except.ok.inj h, newDMLDeleteQueryBuilder_ok hdelete, hins,
          newDMLUpdateQueryBuilder_ok hupdate]

theorem prepareQueries_shared_ne_nil {ctx : MigrationContext} {apl : Applier}
    (h : prepareQueries ctx = .ok apl) : ctx.sharedColumns.columns ≠ [] := by
  unfold prepareQueries at h
  split at h
  · simp at h
  · split at h
    · simp at h
    · next hinsert =>
      intro hnil
      refine newDMLInsertQueryBuilder_len hinsert ?_
      unfold ColumnList.len
      rw [hnil]
      rfl

/-! ## Queries of one event -/

inductive DmlBuildResult where
  | built (query : Statement) (args : List Value) (rowsDelta : Int)
  | err (text : String)
deriving DecidableEq, Repr

/-- `newDmlBuildResult`; a panic of the builder is passed on. -/
def newDmlBuildResult (built : Except BuildError (Statement × List Value)) (rowsDelta : Int) :
    Except Fault DmlBuildResult :=
  match built with
  | .ok (query, args) => .ok (.built query args rowsDelta)
  | .error (.error text) => .ok (.err text)
  | .error (.fault f) => .error f

/-- The first key column whose two images differ. -/
def modifiedColumn (tableColumns : ColumnList) (whereValues newValues : List Value) :
    List Column → Except Fault (Option String)
  | [] => .ok none
  | column :: columns =>
    match whereValues[tableColumns.ordinal column.name]?,
        newValues[tableColumns.ordinal column.name]? with
    | some whereColumnValue, some newColumnValue =>
      if whereColumnValue ≠ newColumnValue then .ok (some column.name)
      else modifiedColumn tableColumns whereValues newValues columns
    | _, _ => .error .indexOutOfRange

variable (enc : Encodings) (apl : Applier)

def updateModifiesUniqueKeyColumns (dmlEvent : BinlogDMLEvent) : Except Fault (Option String) :=
  match dmlEvent.whereColumnValues, dmlEvent.newColumnValues with
  | some whereValues, some newValues =>
    modifiedColumn apl.migrationContext.originalTableColumns whereValues newValues
      apl.migrationContext.uniqueKey.columns.columns
  | _, _ => .error .nilPointer

/-- The `DeleteDML` case of `buildDMLEventQuery`. -/
def buildDeleteEventQuery (dmlEvent : BinlogDMLEvent) : Except Fault DmlBuildResult :=
  match dmlEvent.whereColumnValues with
  | none => .error .nilPointer
  | some values => newDmlBuildResult (apl.dmlDeleteQueryBuilder.buildQuery enc values) (-1)

/-- The `InsertDML` case of `buildDMLEventQuery`. -/
def buildInsertEventQuery (dmlEvent : BinlogDMLEvent) : Except Fault DmlBuildResult :=
  match dmlEvent.newColumnValues with
  | none => .error .nilPointer
  | some values => newDmlBuildResult (apl.dmlInsertQueryBuilder.buildQuery enc values) 1

/-- The `UpdateDML` case of `buildDMLEventQuery`, when the key is not modified. -/
def buildUpdateEventQuery (dmlEvent : BinlogDMLEvent) : Except Fault DmlBuildResult :=
  match dmlEvent.newColumnValues, dmlEvent.whereColumnValues with
  | some newValues, some whereValues =>
    newDmlBuildResult (apl.dmlUpdateQueryBuilder.buildQuery enc newValues whereValues) 0
  | _, _ => .error .nilPointer

/-- `buildDMLEventQuery`: the results, and the event as it is left. -/
def buildDMLEventQuery (dmlEvent : BinlogDMLEvent) :
    Except Fault (List DmlBuildResult × BinlogDMLEvent) :=
  match dmlEvent.dml with
  | .deleteDML =>
    match buildDeleteEventQuery enc apl dmlEvent with
    | .error f => .error f
    | .ok result => .ok ([result], dmlEvent)
  | .insertDML =>
    match buildInsertEventQuery enc apl dmlEvent with
    | .error f => .error f
    | .ok result => .ok ([result], dmlEvent)
  | .updateDML =>
    match updateModifiesUniqueKeyColumns apl dmlEvent with
    | .error f => .error f
    | .ok (some _) =>
      -- the event is marked as a delete, built, marked as an insert and built again
      match buildDeleteEventQuery enc apl { dmlEvent with dml := .deleteDML } with
      | .error f => .error f
      | .ok deletion =>
        match buildInsertEventQuery enc apl { dmlEvent with dml := .insertDML } with
        | .error f => .error f
        | .ok insertion => .ok ([deletion, insertion], { dmlEvent with dml := .insertDML })
    | .ok none =>
      match buildUpdateEventQuery enc apl dmlEvent with
      | .error f => .error f
      | .ok result => .ok ([result], dmlEvent)
  | .notDML => .ok ([.err "unknown dml event type: NoDML"], dmlEvent)

section

variable {enc : Encodings} {apl : Applier} {dmlEvent : BinlogDMLEvent} {result : DmlBuildResult}

theorem buildDMLEventQuery_delete (hd : dmlEvent.dml = .deleteDML)
    (h : buildDeleteEventQuery enc apl dmlEvent = .ok result) :
    buildDMLEventQuery enc apl dmlEvent = .ok ([result], dmlEvent) := by
  unfold buildDMLEventQuery
  simp only [hd, h]

theorem buildDMLEventQuery_insert (hd : dmlEvent.dml = .insertDML)
    (h : buildInsertEventQuery enc apl dmlEvent = .ok result) :
    buildDMLEventQuery enc apl dmlEvent = .ok ([result], dmlEvent) := by
  unfold buildDMLEventQuery
  simp only [hd, h]

theorem buildDMLEventQuery_update (hd : dmlEvent.dml = .updateDML)
    (hk : updateModifiesUniqueKeyColumns apl dmlEvent = .ok none)
    (h : buildUpdateEventQuery enc apl dmlEvent = .ok result) :
    buildDMLEventQuery enc apl dmlEvent = .ok ([result], dmlEvent) := by
  unfold buildDMLEventQuery
  simp only [hd, hk, h]

theorem buildDMLEventQuery_update_key {column : String} {deletion insertion : DmlBuildResult}
    (hd : dmlEvent.dml = .updateDML)
    (hk : updateModifiesUniqueKeyColumns apl dmlEvent = .ok (some column))
    (h : buildDeleteEventQuery enc apl { dmlEvent with dml := .deleteDML } = .ok deletion)
    (h' : buildInsertEventQuery enc apl { dmlEvent with dml := .insertDML } = .ok insertion) :
    buildDMLEventQuery enc apl dmlEvent
      = .ok ([deletion, insertion], { dmlEvent with dml := .insertDML }) := by
  unfold buildDMLEventQuery
  simp only [hd, hk, h, h']

end

/-! ## One attempt at a batch -/

abbrev Query := Statement × List Value

/-- The queries of one event's results; the first error, if there is one. -/
def collectQueries : List DmlBuildResult → Except String (List Query)
  | [] => .ok []
  | .err text :: _ => .error text
  | .built query args _ :: results =>
    match collectQueries results with
    | .error text => .error text
    | .ok queries => .ok ((query, args) :: queries)

/-- The build loop of `ApplyDMLEventQueries`: the queries or the first error, and the events as they
are left. -/
def buildBatch : List BinlogDMLEvent →
    Except Fault (Except String (List Query) × List BinlogDMLEvent)
  | [] => .ok (.ok [], [])
  | dmlEvent :: dmlEvents =>
    match buildDMLEventQuery enc apl dmlEvent with
    | .error f => .error f
    | .ok (results, dmlEvent') =>
      match collectQueries results with
      | .error text => .ok (.error text, dmlEvent' :: dmlEvents)
      | .ok queries =>
        match buildBatch dmlEvents with
        | .error f => .error f
        | .ok (.error text, dmlEvents') => .ok (.error text, dmlEvent' :: dmlEvents')
        | .ok (.ok rest, dmlEvents') => .ok (.ok (queries ++ rest), dmlEvent' :: dmlEvents')

/-- What goes wrong, from outside, in one attempt of `ApplyDMLEventQueries`. -/
inductive Failure where
  /-- no connection, `SET SESSION` fails, or no transaction can be begun -/
  | beforeBuild (err : String)
  /-- the statements fail, raise a warning that is not accepted, or are not committed -/
  | afterBuild (err : String)
deriving DecidableEq, Repr

/-- The batch between two attempts: its events, the ghost table, and two records of the past. -/
structure BatchState (σ : Type) where
  dmlEvents : List BinlogDMLEvent
  ghost : List (Row σ)
  /-- the queries of the transaction that was committed -/
  executed : List Query := []
  attempts : Nat := 0
deriving DecidableEq, Repr

variable {σ κ : Type} [DecidableEq κ] (srv : Server σ κ) (ix : Indexes)

/-- `ApplyDMLEventQueries`: the error, if there is one, and the state as it is left. -/
def applyDMLEventQueries (failure : Option Failure) (s : BatchState σ) :
    Except Fault (Option String × BatchState σ) :=
  match failure with
  | some (.beforeBuild err) => .ok (some err, { s with attempts := s.attempts + 1 })
  | _ =>
    match buildBatch enc apl s.dmlEvents with
    | .error f => .error f
    | .ok (.error err, dmlEvents) =>
      .ok (some err, { s with dmlEvents, attempts := s.attempts + 1 })
    | .ok (.ok queries, dmlEvents) =>
      match failure with
      | some (.afterBuild err) =>
        .ok (some err, { s with dmlEvents, attempts := s.attempts + 1 })
      | _ =>
        match srv.execAll ix s.ghost queries with
        | none =>
          .ok (some "Error 1062: Duplicate entry",
            { s with dmlEvents, attempts := s.attempts + 1 })
        | some ghost =>
          .ok (none, { dmlEvents, ghost, executed := queries, attempts := s.attempts + 1 })

/-! ## A small table -/

/-- The migration of a table with the columns `id` and `v` and the key `id`. -/
def smallContext : MigrationContext where
  databaseName := "test"
  originalTableName := "t"
  ghostTableName := "_t_gho"
  originalTableColumns := newColumnList ["id", "v"]
  sharedColumns := newColumnList ["id", "v"]
  mappedSharedColumns := newColumnList ["id", "v"]
  uniqueKey := { name := "PRIMARY", columns := newColumnList ["id"] }

/-- The applier of `smallContext`, as `prepareQueries` gives it. -/
def smallApplier : Applier where
  migrationContext := smallContext
  dmlDeleteQueryBuilder :=
    { tableColumns := newColumnList ["id", "v"], uniqueKeyColumns := newColumnList ["id"],
      preparedStatement := .delete "test" "_t_gho" ["id"] }
  dmlInsertQueryBuilder :=
    { tableColumns := newColumnList ["id", "v"], sharedColumns := newColumnList ["id", "v"],
      preparedStatement := .insertIgnore "test" "_t_gho" ["id", "v"] [.plain, .plain] }
  dmlUpdateQueryBuilder :=
    { tableColumns := newColumnList ["id", "v"], sharedColumns := newColumnList ["id", "v"],
      uniqueKeyColumns := newColumnList ["id"],
      preparedStatement := .update "test" "_t_gho" [("id", .plain), ("v", .plain)] ["id"] }

/-- A server without character sets to decode. -/
def noEncodings : Encodings := { windows1252 := id, gbk := id }

example : prepareQueries smallContext = .ok smallApplier := by decide

end GhOst.Logic
