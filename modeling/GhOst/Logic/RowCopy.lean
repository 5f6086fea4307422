import GhOst.Logic.Resume
import GhOst.Sql.Ranges

/-!
# The row copy loop (`iterateChunks`)

`iterateChunks` sends one copy task after the other to `executeWriteFuncs`. A task fixes the start
of its range, and then `retryOperation` attempts to find the end of the range and to copy it. The
range, the iteration counter and the flag that ends the loop outlive the attempts and the tasks.

The original does not change here (`GhOst.Logic.CopyReplay` has the writes of the application, for
row copies without failures). A step is a query or a channel operation.
-/

namespace GhOst.Logic

open GhOst.Sql

variable {κ : Type} [LinearOrder κ]

/-- What the loop runs on: the unique key and its values in the original. -/
structure RowCopyContext (κ : Type) where
  maxRetries : Nat
  format : κ → String
  uniqueKeyColumns : List String
  keys : List (List κ)
  maxRetries_pos : 0 < maxRetries
  /-- values that are equal in Go are equal in the order of the keys -/
  injective : Function.Injective format
  ne_nil : uniqueKeyColumns ≠ []
  named : "" ∉ uniqueKeyColumns
  nodup : uniqueKeyColumns.Nodup
  length_key : ∀ k ∈ keys, k.length = uniqueKeyColumns.length

structure Chunk (κ : Type) where
  rangeMin : List κ
  rangeMax : List κ
  rows : List (List κ)
deriving DecidableEq, Repr

inductive IterateChunksAt where
  | begin
  /-- at the checks that begin each turn of the loop -/
  | checking
  | sending
  | returned
deriving DecidableEq, Repr

/-- The place of `executeWriteFuncs` in a copy task, with the number of the attempt. -/
inductive CopyTaskAt where
  | idle
  | calculate (n : Nat)
  | insert (n : Nat)
  | stopped
deriving DecidableEq, Repr

structure RowCopy (κ : Type) where
  migrationRangeMinValues : Option (List κ)
  migrationRangeMaxValues : Option (List κ)
  migrationIterationRangeMinValues : Option (List κ) := none
  migrationIterationRangeMaxValues : Option (List κ) := none
  iteration : Nat := 0
  iterate : IterateChunksAt := .begin
  task : CopyTaskAt := .idle
  hasNoFurtherRange : Bool := false
  rowCopyCompleteFlag : Bool := false
  /-- what was sent to `rowCopyComplete`; an error is `true` -/
  rowCopyComplete : List Bool := []
  /-- `LastIterationRangeMinValues` and `LastIterationRangeMaxValues`, set together -/
  lastIterationRange : Option (List κ × List κ) := none
  /-- the chunks that were copied; a record -/
  chunks : List (Chunk κ) := []
deriving DecidableEq, Repr

/-- `CalculateNextIterationRangeEndValues`; the chunk size is read for each of its two queries. -/
def RowCopyContext.calculateNextIterationRangeEndValues (ctx : RowCopyContext κ)
    (start stop : List κ) (includeRangeStartValues : Bool) (chunkSize chunkSize' : Nat) :
    Except BuildError (Option (List κ)) :=
  match buildUniqueKeyRangeEndPreparedQueryViaOffset ctx.format ctx.uniqueKeyColumns start stop
      chunkSize includeRangeStartValues with
  | .error e => .error e
  | .ok query =>
    match query.viaOffset ctx.uniqueKeyColumns ctx.keys chunkSize with
    | some rangeEnd => .ok (some rangeEnd)
    | none =>
      match buildUniqueKeyRangeEndPreparedQueryViaTemptable ctx.format ctx.uniqueKeyColumns start
          stop chunkSize' includeRangeStartValues with
      | .error e => .error e
      | .ok query => .ok (query.viaTemptable ctx.uniqueKeyColumns ctx.keys chunkSize')

namespace RowCopy

/-- The start of a migration: `ReadMigrationRangeValues`. -/
def fresh (ctx : RowCopyContext κ) : RowCopy κ where
  migrationRangeMinValues := (ctx.keys.insertionSort (· ≤ ·)).head?
  migrationRangeMaxValues := (ctx.keys.insertionSort (· ≤ ·)).getLast?

/-- A migration that goes on from a checkpoint; the range is read again. -/
def resume (ctx : RowCopyContext κ) (chk : Checkpoint κ) : RowCopy κ :=
  { fresh ctx with
    migrationIterationRangeMinValues := some chk.iterationRangeMin
    migrationIterationRangeMaxValues := some chk.iterationRangeMax
    iteration := chk.iteration }

variable (ctx : RowCopyContext κ) (s : RowCopy κ)

/-- The flags that both the loop and a task look at. -/
def done : Bool := s.rowCopyCompleteFlag || s.hasNoFurtherRange

def terminateRowIteration (err : Bool) : RowCopy κ :=
  { s with rowCopyComplete := s.rowCopyComplete ++ [err] }

def setNextIterationRangeMinValues : RowCopy κ :=
  { s with
    migrationIterationRangeMinValues :=
      s.migrationIterationRangeMaxValues.or s.migrationRangeMinValues }

/-- A task returns without an error, and records its range. -/
def endTask : RowCopy κ :=
  { s with
    task := .idle
    lastIterationRange :=
      match s.migrationIterationRangeMinValues, s.migrationIterationRangeMaxValues with
      | some rangeMin, some rangeMax => some (rangeMin, rangeMax)
      | _, _ => s.lastIterationRange }

/-- A task returns an error, and `executeWriteFuncs` with it. -/
def stop : RowCopy κ := { s.terminateRowIteration true with task := .stopped }

/-- The query finds no end of a range: the row copy is complete. -/
def noFurtherRange : RowCopy κ :=
  { s with hasNoFurtherRange := true }.terminateRowIteration false

def setIterationRangeEnd (n : Nat) (rangeEnd : List κ) : RowCopy κ :=
  { s with migrationIterationRangeMaxValues := some rangeEnd, task := .insert n }

def copyChunk (chunk : Chunk κ) : RowCopy κ :=
  { s with iteration := s.iteration + 1, chunks := s.chunks ++ [chunk] }

/-- `retryOperation` after the failed attempt `n`. -/
def fails (n : Nat) : RowCopy κ :=
  if n + 1 < ctx.maxRetries then { s with task := .calculate (n + 1) } else s.stop

/-- A turn of the loop; `aborted` is the result of `checkAbort`, or of a send with the context done.
-/
def iterateStep (aborted : Bool) : Option (RowCopy κ) :=
  match s.iterate with
  | .begin =>
    if s.migrationRangeMinValues = none then
      -- "No rows found in table. Rowcopy will be implicitly empty"
      some { s.terminateRowIteration false with iterate := .returned }
    else some { s with iterate := .checking }
  | .checking =>
    if aborted then some { s.terminateRowIteration true with iterate := .returned }
    else if s.done then some { s with iterate := .returned }
    else some { s with iterate := .sending }
  | .sending =>
    if aborted then some { s.terminateRowIteration true with iterate := .returned } else none
  | .returned => none

/-- `executeWriteFuncs` takes the task that the loop sends. -/
def takeTask : Option (RowCopy κ) :=
  if s.iterate = .sending ∧ s.task = .idle then
    some { s.setNextIterationRangeMinValues with iterate := .checking, task := .calculate 0 }
  else none

/-- How a query ends; `aborted` is the result of `checkAbort` before the attempt. -/
inductive QueryOutcome where
  | ok
  | err
  | aborted
deriving DecidableEq

/-- The attempt up to the query for the end of the range. -/
def calculateStep (outcome : QueryOutcome) (chunkSize chunkSize' : Nat) : Option (RowCopy κ) :=
  match s.task with
  | .calculate n =>
    if outcome = .aborted then some s.stop
    else if s.done then some s.endTask
    else if outcome = .err then some (s.fails ctx n)
    else
      match s.migrationIterationRangeMinValues, s.migrationRangeMaxValues with
      | some start, some stop =>
        match ctx.calculateNextIterationRangeEndValues start stop (s.iteration == 0) chunkSize
            chunkSize' with
        | .error _ => some (s.fails ctx n)
        | .ok none => some s.noFurtherRange.endTask
        | .ok (some rangeEnd) => some (s.setIterationRangeEnd n rangeEnd)
      | _, _ => none
  | _ => none

/-- The attempt from there on: `ApplyIterationInsertQuery`. -/
def insertStep (ok : Bool) : Option (RowCopy κ) :=
  match s.task with
  | .insert n =>
    if s.rowCopyCompleteFlag then some s.endTask
    else if ok = false then some (s.fails ctx n)
    else
      match s.migrationIterationRangeMinValues, s.migrationIterationRangeMaxValues with
      | some rangeMin, some rangeMax =>
        match buildRangeInsertPreparedQuery ctx.format ctx.uniqueKeyColumns rangeMin rangeMax
            (s.iteration == 0) with
        | .error _ => some (s.fails ctx n)
        | .ok query =>
          let rows := query.rows ctx.uniqueKeyColumns ctx.keys
          some (s.copyChunk ⟨rangeMin, rangeMax, rows⟩).endTask
      | _, _ => none
  | _ => none

def consumeRowCopyComplete : Option (RowCopy κ) :=
  if s.rowCopyComplete.head? = some false ∧ s.rowCopyCompleteFlag = false then
    some { s with rowCopyCompleteFlag := true }
  else none

end RowCopy

inductive RowCopyAction where
  | iterate (aborted : Bool)
  | takeTask
  | calculate (outcome : RowCopy.QueryOutcome) (chunkSize chunkSize' : Nat)
  | insert (ok : Bool)
  | consumeRowCopyComplete
deriving DecidableEq

def RowCopy.step (ctx : RowCopyContext κ) (s : RowCopy κ) : RowCopyAction → Option (RowCopy κ)
  | .iterate aborted => s.iterateStep aborted
  | .takeTask => s.takeTask
  | .calculate outcome chunkSize chunkSize' =>
    if 0 < chunkSize ∧ 0 < chunkSize' then s.calculateStep ctx outcome chunkSize chunkSize'
    else none
  | .insert ok => s.insertStep ctx ok
  | .consumeRowCopyComplete => s.consumeRowCopyComplete

end GhOst.Logic
