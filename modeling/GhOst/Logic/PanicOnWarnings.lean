import GhOst.Logic.CopyReplay

/-!
# A run with `PanicOnWarnings`

The tables of `CopyReplay` together with the two goroutines that decide whether they are swapped:
`Migrate`, which waits in `consumeRowCopyComplete`, and `executeWriteFuncs`, the worker.

Warnings that are not about the migration key reject an attempt. A chunk is committed before the
verdict; the error goes to `rowCopyComplete`, and the chunk is attempted again until the abort is
seen. A batch is rolled back; the error ends the worker and goes to `PanicAbort`.
-/

namespace GhOst.Logic

open GhOst.Sql

variable {σ κ : Type} [LinearOrder κ]

/-! ## Warnings -/

/-- The warnings left after those of one row. A row that is ignored has one warning, which names one
of the indexes. -/
def takeWarning (violated : List IndexName) : List IndexName → Option (List IndexName)
  | [] => if violated = [] then some [] else none
  | warning :: rest =>
    if violated = [] then some (warning :: rest)
    else if warning ∈ violated then some rest
    else none

/-- The warnings that do not name the migration key. -/
def sqlWarnings (warnings : List IndexName) : List IndexName :=
  warnings.filter fun warning => warning ≠ .uniqueKey

namespace Migration

/-- What `SHOW WARNINGS` can return after `insert ignore` of `rows`. -/
def warnedRows (m : Migration σ κ) : List (Row σ) → List (Row σ) → List IndexName → Bool
  | _, [], warnings => warnings = []
  | ghost, row :: rows, warnings =>
    (takeWarning (m.srv.violated m.ix ghost row) warnings).any fun rest =>
      m.warnedRows (m.srv.insertIgnore m.ix ghost row) rows rest

/-- What the `SHOW WARNINGS` after each statement of a transaction can return. -/
def warnedQueries (m : Migration σ κ) :
    List (Row σ) → List (Statement × List Value) → List IndexName → Bool
  | _, [], warnings => warnings = []
  | ghost, (statement, args) :: rest, warnings =>
    (takeWarning (m.srv.ignoredFor m.ix ghost statement args) warnings).any fun left =>
      (m.srv.exec m.ix ghost statement args).any fun ghost => m.warnedQueries ghost rest left

/-- What the server can report about an action. -/
def warned (m : Migration σ κ) (s : State σ κ) (a : Action σ) (warnings : List IndexName) : Bool :=
  match a with
  | .applyEvents dmlBatchSize =>
    match buildBatch m.enc m.apl ((s.batch dmlBatchSize).map m.event) with
    | .ok (.ok queries, _) => m.warnedQueries s.ghost queries warnings
    | _ => false
  | .applyIterationInsertQuery => m.warnedRows s.ghost (m.currentChunk s) warnings
  | _ => warnings = []

end Migration

/-! ## The goroutines -/

/-- The place of `Migrate`, from the start of the row copy on. -/
inductive MigrateAt where
  | consumeRowCopyComplete
  /-- an error has come through `rowCopyComplete` -/
  | abort
  | checkAbort
  | cutOver
  /-- the original is locked, the sentinel of this lock is written -/
  | waitForEventsUpToLock
  | rename
  | swapped
  | returned
deriving DecidableEq, Repr

/-- The original admits no writes. -/
def MigrateAt.locks : MigrateAt → Bool
  | .waitForEventsUpToLock | .rename | .swapped => true
  | _ => false

/-- `consumeRowCopyComplete` has returned without an error of its own. -/
def MigrateAt.pastRowCopy : MigrateAt → Bool
  | .checkAbort | .cutOver | .waitForEventsUpToLock | .rename | .swapped => true
  | _ => false

inductive WorkerAt where
  | polling
  /-- in `terminateRowIteration`: sending to `rowCopyComplete`, an error or none -/
  | terminateRowIteration (failed : Bool)
  /-- in `retryBatchCopyWithHooks`, after a failed attempt -/
  | retryBatchCopy
  | stopped
deriving DecidableEq, Repr

structure WarnedRun (σ κ : Type) where
  tables : State σ κ
  migrate : MigrateAt := .consumeRowCopyComplete
  worker : WorkerAt := .polling
  /-- the abort error is set and the context cancelled -/
  aborted : Bool := false
  /-- what was rejected so far -/
  chunkRejected : Bool := false
  batchRejected : Bool := false
deriving DecidableEq, Repr

inductive WarnedAction (σ : Type) where
  /-- an action on the tables, and the warnings it yields -/
  | act (a : Action σ) (warnings : List IndexName)
  /-- an attempt of the worker fails by an SQL error -/
  | sqlError
  /-- the worker and `consumeRowCopyComplete` meet at `rowCopyComplete` -/
  | rowCopyComplete
  /-- the send of the worker ends because the context is cancelled -/
  | sendCancelled
  /-- `iterateChunks` finds no rows, and meets `consumeRowCopyComplete` -/
  | noRowsFound
  /-- a further attempt of the chunk finds the end of its range -/
  | retryBatchCopy (chunkSize : Nat)
  /-- the attempts are used up, or the abort is seen -/
  | stopWorker
  /-- `listenOnPanicAbort`, for whatever reason -/
  | panicAbort
  /-- `consumeRowCopyComplete` aborts because of the error it has received -/
  | abort
  /-- `consumeRowCopyComplete` returns because the context is cancelled -/
  | contextDone
  | checkAbort
  /-- an attempt of the cut-over -/
  | lockOriginal
  | eventsUpToLockProcessed
  | rename
  | failCutOver
  | giveUp
deriving DecidableEq, Repr

/-! ## Steps -/

/-- The worker performs one thing at a time; a locked original is not written to. -/
def WarnedRun.allows (t : WarnedRun σ κ) : Action σ → Bool
  | .commit _ => !t.migrate.locks
  | .deliver | .readMigrationRangeValues => true
  | .applyEvents _ | .calculateNextIterationRangeEndValues _ | .applyIterationInsertQuery =>
    t.worker = .polling

/-- The attempt has succeeded. If it has found no further range it ends the row copy. -/
def WarnedRun.accept (t : WarnedRun σ κ) (tables : State σ κ) : WarnedRun σ κ :=
  { t with
    tables
    worker :=
      if t.tables.hasNoFurtherRange = false ∧ tables.hasNoFurtherRange = true then
        .terminateRowIteration false
      else t.worker }

/-- The attempt is rejected: a chunk is in the ghost all the same, a batch is not. -/
def WarnedRun.reject (t : WarnedRun σ κ) (a : Action σ) (tables : State σ κ) : WarnedRun σ κ :=
  match a with
  | .applyIterationInsertQuery =>
    { t with
      tables := { tables with iteration := t.tables.iteration }
      worker := .terminateRowIteration true
      chunkRejected := true }
  | _ => { t with worker := .stopped, batchRejected := true }

/-- A further attempt of a chunk: the range is searched again from the same start. -/
def Migration.recalculate (m : Migration σ κ) (s : State σ κ) (chunkSize : Nat) :
    Option (State σ κ) :=
  match s.migrationIterationRangeMinValues, s.migrationRangeMaxValues with
  | some start, some stop =>
    match m.nextRangeEnd s.original start stop s.includeRangeStartValues chunkSize with
    | none => some { s with hasNoFurtherRange := true }
    | some rangeEnd =>
      some { s with migrationIterationRangeMaxValues := some rangeEnd, inChunk := true }
  | _, _ => none

/-- The worker has an attempt to make: of a batch, or of a chunk. -/
def WarnedRun.attempting (t : WarnedRun σ κ) : Bool :=
  t.tables.applied < t.tables.delivered ∨ t.tables.inChunk = true ∨ ¬ t.tables.RowCopyDone

def Migration.warnedStep (m : Migration σ κ) [DecidableEq σ] (t : WarnedRun σ κ) :
    WarnedAction σ → Option (WarnedRun σ κ)
  | .act a warnings =>
    if t.allows a = true ∧ m.warned t.tables a warnings = true then
      (m.step t.tables a).map fun tables =>
        if sqlWarnings warnings = [] then t.accept tables else t.reject a tables
    else none
  | .sqlError =>
    if t.worker = .polling ∧ t.attempting = true then
      some { t with worker := .stopped, aborted := true }
    else none
  | .rowCopyComplete =>
    if t.migrate = .consumeRowCopyComplete then
      match t.worker with
      | .terminateRowIteration true => some { t with migrate := .abort, worker := .retryBatchCopy }
      | .terminateRowIteration false => some { t with migrate := .checkAbort, worker := .polling }
      | _ => none
    else none
  | .sendCancelled =>
    if t.aborted = true then
      match t.worker with
      | .terminateRowIteration true => some { t with worker := .retryBatchCopy }
      | .terminateRowIteration false => some { t with worker := .polling }
      | _ => none
    else none
  | .noRowsFound =>
    if t.migrate = .consumeRowCopyComplete ∧ t.tables.rangeRead = true ∧
        t.tables.migrationRangeMinValues = none then
      some { t with migrate := .checkAbort }
    else none
  | .retryBatchCopy chunkSize =>
    if t.worker = .retryBatchCopy ∧ t.aborted = false then
      (m.recalculate t.tables chunkSize).map fun tables =>
        { t with
          tables
          worker := if tables.hasNoFurtherRange then .terminateRowIteration false else .polling }
    else none
  | .stopWorker =>
    if t.worker = .retryBatchCopy ∨ t.aborted = true then some { t with worker := .stopped }
    else none
  | .panicAbort => some { t with aborted := true }
  | .abort =>
    if t.migrate = .abort then some { t with aborted := true, migrate := .checkAbort } else none
  | .contextDone =>
    if t.migrate = .consumeRowCopyComplete ∧ t.aborted = true then
      some { t with migrate := .checkAbort }
    else none
  | .checkAbort =>
    if t.migrate = .checkAbort then
      some { t with migrate := if t.aborted then .returned else .cutOver }
    else none
  | .lockOriginal =>
    if t.migrate = .cutOver then some { t with migrate := .waitForEventsUpToLock } else none
  -- the sentinel follows the events of all writes before the lock
  | .eventsUpToLockProcessed =>
    if t.migrate = .waitForEventsUpToLock ∧ t.worker = .polling ∧
        t.tables.applied = t.tables.history.length then
      some { t with migrate := .rename }
    else none
  | .rename => if t.migrate = .rename then some { t with migrate := .swapped } else none
  | .failCutOver =>
    if t.migrate = .waitForEventsUpToLock ∨ t.migrate = .rename then
      some { t with migrate := .cutOver }
    else none
  | .giveUp => if t.migrate = .cutOver then some { t with migrate := .returned } else none

/-! ## What the steps do -/

namespace Migration

variable {m : Migration σ κ} [DecidableEq σ] {t t' : WarnedRun σ κ} {a : Action σ}
  {warnings : List IndexName}

theorem warnedStep_act (h : m.warnedStep t (.act a warnings) = some t') :
    t.allows a = true ∧ m.warned t.tables a warnings = true ∧
      ∃ tables, m.step t.tables a = some tables ∧
        (sqlWarnings warnings = [] ∧ t' = t.accept tables ∨
          sqlWarnings warnings ≠ [] ∧ t' = t.reject a tables) := by
  rw [warnedStep] at h
  split at h
  · next hg =>
    obtain ⟨tables, hs, rfl⟩ := Option.map_eq_some_iff.mp h
    refine ⟨hg.1, hg.2, tables, hs, ?_⟩
    by_cases hw : sqlWarnings warnings = []
    · exact .inl ⟨hw, if_pos hw⟩
    · exact .inr ⟨hw, if_neg hw⟩
  · simp at h

theorem warnedStep_rowCopyComplete (h : m.warnedStep t .rowCopyComplete = some t') :
    t.migrate = .consumeRowCopyComplete ∧
      (t.worker = .terminateRowIteration true ∧
          t' = { t with migrate := .abort, worker := .retryBatchCopy } ∨
        t.worker = .terminateRowIteration false ∧
          t' = { t with migrate := .checkAbort, worker := .polling }) := by
  rw [warnedStep] at h
  split at h
  · next hg =>
    refine ⟨hg, ?_⟩
    split at h
    · next hw => exact .inl ⟨hw, (Option.some.inj h).symm⟩
    · next hw => exact .inr ⟨hw, (Option.some.inj h).symm⟩
    · simp at h
  · simp at h

theorem warnedStep_sendCancelled (h : m.warnedStep t .sendCancelled = some t') :
    t.aborted = true ∧
      (t.worker = .terminateRowIteration true ∧ t' = { t with worker := .retryBatchCopy } ∨
        t.worker = .terminateRowIteration false ∧ t' = { t with worker := .polling }) := by
  rw [warnedStep] at h
  split at h
  · next hg =>
    refine ⟨hg, ?_⟩
    split at h
    · next hw => exact .inl ⟨hw, (Option.some.inj h).symm⟩
    · next hw => exact .inr ⟨hw, (Option.some.inj h).symm⟩
    · simp at h
  · simp at h

omit [DecidableEq σ] in
theorem recalculate_range {s s' : State σ κ} {n : Nat} (h : m.recalculate s n = some s') :
    s'.rangeRead = s.rangeRead ∧ s'.migrationRangeMinValues = s.migrationRangeMinValues := by
  unfold recalculate at h
  split at h
  · split at h
    · cases h
      exact ⟨rfl, rfl⟩
    · cases h
      exact ⟨rfl, rfl⟩
  · simp at h

theorem warnedStep_retryBatchCopy {n : Nat} (h : m.warnedStep t (.retryBatchCopy n) = some t') :
    t.worker = .retryBatchCopy ∧ t.aborted = false ∧
      ∃ tables worker, m.recalculate t.tables n = some tables ∧ t' = { t with tables, worker } := by
  rw [warnedStep] at h
  split at h
  · next hg =>
    obtain ⟨tables, hs, rfl⟩ := Option.map_eq_some_iff.mp h
    exact ⟨hg.1, hg.2, tables, _, hs, rfl⟩
  · simp at h

end Migration

end GhOst.Logic
