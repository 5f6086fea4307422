import Mathlib.Data.List.Lex
import Mathlib.Data.List.Sort
import GhOst.Infra.Steps
import GhOst.Logic.Applier

/-!
# Row copy and event application, interleaved

The state machine of `iterateChunks`, `onApplyEventStruct` and the application that keeps writing to
the original table. One worker performs the chunk copies and the event batches; the application
commits at any moment, also between the query that finds the end of a chunk and the `insert ignore …
select` that copies it.

A commit is a list of row changes. Each change is one row event, and the events reach the applier in
commit order. `history` are the changes committed after the content the stream starts from.
-/

namespace GhOst.Logic

open GhOst.Sql GhOst.Binlog Infra

variable {σ κ : Type} [LinearOrder κ]

/-- What stays fixed during a migration: the decoders, the applier, the server, the indexes. -/
structure Migration (σ κ : Type) where
  enc : Encodings
  apl : Applier
  srv : Server σ κ
  ix : Indexes

/-! ## Rows and row changes -/

/-- A committed change of one row of the original, with the row before and after it. -/
inductive RowChange (σ : Type) where
  | insert (row : Row σ)
  | delete (row : Row σ)
  | update (row new : Row σ)
deriving DecidableEq, Repr

def RowChange.rows : RowChange σ → List (Row σ)
  | .insert row => [row]
  | .delete row => [row]
  | .update row new => [row, new]

namespace Migration

def key (m : Migration σ κ) (row : Row σ) : List κ := m.srv.entry m.ix.uniqueKey row

/-- What `insert … select` makes of a row of the original: its shared columns. -/
def project (m : Migration σ κ) (row : Row σ) : Row σ :=
  let ctx := m.apl.migrationContext
  (ctx.sharedColumns.columns.zip ctx.mappedSharedColumns.columns).filterMap fun p =>
    (row.lookup p.1.name).map fun v => (p.2.name, m.srv.select p.1.name p.2.name v)

/-- A row that the original can hold. -/
def Admits (m : Migration σ κ) (row : Row σ) : Prop :=
  row.map Prod.fst = m.apl.migrationContext.originalTableColumns.names ∧
    ∀ p ∈ row, m.srv.admits p.1 p.2 = true

instance (m : Migration σ κ) (row : Row σ) : Decidable (m.Admits row) :=
  inferInstanceAs (Decidable (_ ∧ _))

def image (m : Migration σ κ) (row : Row σ) : List Value := row.map fun p => m.srv.image p.1 p.2

def event (m : Migration σ κ) (change : RowChange σ) : BinlogDMLEvent :=
  let databaseName := m.apl.migrationContext.databaseName
  let tableName := m.apl.migrationContext.originalTableName
  match change with
  | .insert row =>
    { databaseName, tableName, dml := .insertDML, newColumnValues := some (m.image row) }
  | .delete row =>
    { databaseName, tableName, dml := .deleteDML, whereColumnValues := some (m.image row) }
  | .update row new =>
    { databaseName, tableName, dml := .updateDML, whereColumnValues := some (m.image row),
      newColumnValues := some (m.image new) }

/-- The original accepts the change: the row is there, the new one is admitted and its key free. -/
def Valid (m : Migration σ κ) (original : List (Row σ)) : RowChange σ → Prop
  | .insert row => m.Admits row ∧ ∀ q ∈ original, m.key q ≠ m.key row
  | .delete row => row ∈ original
  | .update row new =>
    row ∈ original ∧ m.Admits new ∧ ∀ q ∈ original, m.key q = m.key new → m.key q = m.key row

instance (m : Migration σ κ) [DecidableEq σ] (original : List (Row σ)) (change : RowChange σ) :
    Decidable (m.Valid original change) := by
  cases change <;> unfold Valid <;> infer_instance

def perform (m : Migration σ κ) (original : List (Row σ)) : RowChange σ → List (Row σ)
  | .insert row => original ++ [row]
  | .delete row => dropKey m.key original (m.key row)
  | .update row new => dropKey m.key original (m.key row) ++ [new]

/-- The original after a transaction; `none` when one of its changes is not accepted. -/
def performAll (m : Migration σ κ) [DecidableEq σ] :
    List (Row σ) → List (RowChange σ) → Option (List (Row σ))
  | original, [] => some original
  | original, change :: changes =>
    if m.Valid original change then m.performAll (m.perform original change) changes else none

end Migration

/-! ## Chunks -/

/-- The keys of a range, with or without its start. -/
def InRange (start stop : List κ) (includeRangeStartValues : Bool) (k : List κ) : Prop :=
  (start < k ∨ includeRangeStartValues = true ∧ start = k) ∧ k ≤ stop

instance (start stop : List κ) (incl : Bool) (k : List κ) : Decidable (InRange start stop incl k) :=
  inferInstanceAs (Decidable (_ ∧ _))

namespace Migration

/-- `CalculateNextIterationRangeEndValues`: the end of the next chunk, if there is one. -/
def nextRangeEnd (m : Migration σ κ) (original : List (Row σ)) (start stop : List κ) (incl : Bool)
    (chunkSize : Nat) : Option (List κ) :=
  let keys := ((original.map m.key).filter fun k => InRange start stop incl k).insertionSort (· ≤ ·)
  keys[min chunkSize keys.length - 1]?

/-- The rows that the `select` of a chunk returns, as the ghost would store them. -/
def chunkRows (m : Migration σ κ) (original : List (Row σ)) (start stop : List κ) (incl : Bool) :
    List (Row σ) :=
  (original.filter fun row => InRange start stop incl (m.key row)).map m.project

def insertIgnoreAll (m : Migration σ κ) (ghost : List (Row σ)) (rows : List (Row σ)) :
    List (Row σ) :=
  rows.foldl (m.srv.insertIgnore m.ix) ghost

/-- The transaction of a batch of events, when no attempt fails. -/
def applyBatch (m : Migration σ κ) (ghost : List (Row σ)) (changes : List (RowChange σ)) :
    Option (List (Row σ)) :=
  match buildBatch m.enc m.apl (changes.map m.event) with
  | .ok (.ok queries, _) => m.srv.execAll m.ix ghost queries
  | _ => none

end Migration

/-! ## The state machine -/

structure State (σ κ : Type) where
  original : List (Row σ)
  history : List (RowChange σ) := []
  /-- how many changes have entered `applyEventsQueue`, and how many have left it -/
  delivered : Nat := 0
  applied : Nat := 0
  ghost : List (Row σ) := []
  rangeRead : Bool := false
  migrationRangeMinValues : Option (List κ) := none
  migrationRangeMaxValues : Option (List κ) := none
  migrationIterationRangeMinValues : Option (List κ) := none
  migrationIterationRangeMaxValues : Option (List κ) := none
  iteration : Nat := 0
  /-- the worker is between the two queries of a chunk -/
  inChunk : Bool := false
  hasNoFurtherRange : Bool := false
deriving DecidableEq, Repr

inductive Action (σ : Type) where
  /-- the application commits a transaction -/
  | commit (changes : List (RowChange σ))
  /-- the next row event enters `applyEventsQueue` -/
  | deliver
  /-- the worker applies a batch of at most `dmlBatchSize` events -/
  | applyEvents (dmlBatchSize : Nat)
  | readMigrationRangeValues
  | calculateNextIterationRangeEndValues (chunkSize : Nat)
  | applyIterationInsertQuery
deriving DecidableEq, Repr

/-- The events that `onApplyEventStruct` takes from the queue. -/
def State.batch (s : State σ κ) (dmlBatchSize : Nat) : List (RowChange σ) :=
  (s.history.drop s.applied).take (min dmlBatchSize (s.delivered - s.applied))

/-- `SetNextIterationRangeMinValues`. -/
def State.nextRangeMin (s : State σ κ) : Option (List κ) :=
  s.migrationIterationRangeMaxValues.or s.migrationRangeMinValues

/-- The start of a range is part of it only in the first chunk. -/
def State.includeRangeStartValues (s : State σ κ) : Bool := s.iteration == 0

/-- Nothing is left to copy: no further range was found, or the table was empty. -/
def State.RowCopyDone (s : State σ κ) : Prop :=
  s.rangeRead = true ∧
    (s.hasNoFurtherRange = true ∨ s.migrationRangeMinValues = none)

instance (s : State σ κ) : Decidable s.RowCopyDone := inferInstanceAs (Decidable (_ ∧ _))

def Migration.currentChunk (m : Migration σ κ) (s : State σ κ) : List (Row σ) :=
  match s.migrationIterationRangeMinValues, s.migrationIterationRangeMaxValues with
  | some start, some stop => m.chunkRows s.original start stop s.includeRangeStartValues
  | _, _ => []

def Migration.step (m : Migration σ κ) [DecidableEq σ] (s : State σ κ) :
    Action σ → Option (State σ κ)
  | .commit changes =>
    match m.performAll s.original changes with
    | none => none
    | some original => some { s with original, history := s.history ++ changes }
  | .deliver =>
    if s.delivered < s.history.length ∧ s.delivered - s.applied < maxEventsBatchSize then
      some { s with delivered := s.delivered + 1 }
    else none
  | .applyEvents dmlBatchSize =>
    if s.rangeRead = true ∧ s.inChunk = false ∧ 0 < dmlBatchSize ∧ s.applied < s.delivered then
      match m.applyBatch s.ghost (s.batch dmlBatchSize) with
      | none => none
      | some ghost =>
        some { s with ghost, applied := s.applied + (s.batch dmlBatchSize).length }
    else none
  | .readMigrationRangeValues =>
    if s.rangeRead = false then
      let keys := (s.original.map m.key).insertionSort (· ≤ ·)
      some { s with
        rangeRead := true
        migrationRangeMinValues := keys.head?
        migrationRangeMaxValues := keys.getLast? }
    else none
  | .calculateNextIterationRangeEndValues chunkSize =>
    if s.rangeRead = true ∧ s.inChunk = false ∧ s.hasNoFurtherRange = false ∧ 0 < chunkSize then
      match s.nextRangeMin, s.migrationRangeMinValues, s.migrationRangeMaxValues with
      | some start, some _, some stop =>
        match m.nextRangeEnd s.original start stop s.includeRangeStartValues chunkSize with
        | none =>
          some { s with migrationIterationRangeMinValues := some start, hasNoFurtherRange := true }
        | some rangeEnd =>
          some { s with
            migrationIterationRangeMinValues := some start
            migrationIterationRangeMaxValues := some rangeEnd
            inChunk := true }
      -- the table was empty: no chunk is started
      | _, _, _ => none
    else none
  | .applyIterationInsertQuery =>
    if s.inChunk = true then
      some { s with
        ghost := m.insertIgnoreAll s.ghost (m.currentChunk s)
        iteration := s.iteration + 1
        inChunk := false }
    else none

/-! ## What each action does -/

namespace Migration

variable {m : Migration σ κ} [DecidableEq σ] {s s' : State σ κ} {n : Nat}

theorem step_commit {changes : List (RowChange σ)} (h : m.step s (.commit changes) = some s') :
    ∃ original, m.performAll s.original changes = some original ∧
      s' = { s with original, history := s.history ++ changes } := by
  rw [step] at h
  cases hp : m.performAll s.original changes with
  | none => simp [hp] at h
  | some original =>
    simp only [hp, Option.some.injEq] at h
    exact ⟨original, rfl, h.symm⟩

theorem step_deliver (h : m.step s .deliver = some s') :
    s.delivered < s.history.length ∧ s' = { s with delivered := s.delivered + 1 } := by
  obtain ⟨hg, rfl⟩ := of_guard h
  exact ⟨hg.1, rfl⟩

theorem step_applyEvents (h : m.step s (.applyEvents n) = some s') :
    s.applied < s.delivered ∧ ∃ ghost, m.applyBatch s.ghost (s.batch n) = some ghost ∧
      s' = { s with ghost, applied := s.applied + (s.batch n).length } := by
  rw [step] at h
  split at h
  · next hg =>
    cases hb : m.applyBatch s.ghost (s.batch n) with
    | none => simp [hb] at h
    | some ghost =>
      simp only [hb, Option.some.injEq] at h
      exact ⟨hg.2.2.2, ghost, rfl, h.symm⟩
  · simp at h

theorem step_readMigrationRangeValues (h : m.step s .readMigrationRangeValues = some s') :
    s.rangeRead = false ∧
      s' = { s with
        rangeRead := true
        migrationRangeMinValues := ((s.original.map m.key).insertionSort (· ≤ ·)).head?
        migrationRangeMaxValues := ((s.original.map m.key).insertionSort (· ≤ ·)).getLast? } := by
  exact of_guard h

theorem step_calculate (h : m.step s (.calculateNextIterationRangeEndValues n) = some s') :
    s.rangeRead = true ∧ s.inChunk = false ∧ ∃ start stop, s.nextRangeMin = some start ∧
      s.migrationRangeMaxValues = some stop ∧
      (m.nextRangeEnd s.original start stop s.includeRangeStartValues n = none ∧
          s' = { s with
            migrationIterationRangeMinValues := some start, hasNoFurtherRange := true } ∨
        ∃ rangeEnd,
          m.nextRangeEnd s.original start stop s.includeRangeStartValues n = some rangeEnd ∧
          s' = { s with
            migrationIterationRangeMinValues := some start
            migrationIterationRangeMaxValues := some rangeEnd
            inChunk := true }) := by
  rw [step] at h
  split at h
  · next hg =>
    split at h
    · next start lo stop hstart hlo hstop =>
      refine ⟨hg.1, hg.2.1, start, stop, hstart, hstop, ?_⟩
      cases he : m.nextRangeEnd s.original start stop s.includeRangeStartValues n with
      | none =>
        simp only [he, Option.some.injEq] at h
        exact .inl ⟨rfl, h.symm⟩
      | some rangeEnd =>
        simp only [he, Option.some.injEq] at h
        exact .inr ⟨rangeEnd, rfl, h.symm⟩
    · simp at h
  · simp at h

/-- A chunk is started only while there is something left to copy. -/
theorem not_rowCopyDone_of_calculate
    (h : m.step s (.calculateNextIterationRangeEndValues n) = some s') : ¬ s.RowCopyDone := by
  rw [step] at h
  split at h
  · next hg =>
    split at h
    · next start lo stop hstart hlo hstop =>
      rintro ⟨_, hfurther | hmin⟩
      · simp [hg.2.2.1] at hfurther
      · simp [hlo] at hmin
    · simp at h
  · simp at h

theorem step_applyIterationInsertQuery (h : m.step s .applyIterationInsertQuery = some s') :
    s.inChunk = true ∧
      s' = { s with
        ghost := m.insertIgnoreAll s.ghost (m.currentChunk s)
        iteration := s.iteration + 1
        inChunk := false } := by
  exact of_guard h

end Migration

/-! ## A small table -/

/-- The migration of a table of two `BIGINT` columns, with further unique indexes. -/
def smallMigration (further : List (List String)) : Migration Int64 Int where
  enc := noEncodings
  apl := smallApplier
  srv := bigintServer
  ix := { uniqueKey := ["id"], further }

def smallRow (id v : Int64) : Row Int64 := [("id", id), ("v", v)]

end GhOst.Logic
