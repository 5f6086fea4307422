import GhOst.Infra.Steps
import GhOst.Logic.Pipeline
import GhOst.Logic.Retry

/-!
# The worker and its queue (`executeWriteFuncs`, `onApplyEventStruct` in `go/logic/migrator.go`)

`GhOst.Logic.Pipeline` collects a batch in one step and keeps only the outcome of a table write.
Here the worker takes each struct by itself, so that further structs may arrive at any time between,
and the ghost table is part of the state. A chunk of the row copy, which the worker runs when the
queue is empty, is any change of the ghost. A function has no effect on the ghost or on
`AppliedTransactionCoordinates`; that it has returned is recorded.
-/

namespace GhOst.Logic

open GhOst.Sql GhOst.Binlog GhOst.Mysql

/-- What the worker reads, and the server it writes to. -/
structure WorkerContext (σ κ : Type) where
  enc : Encodings
  applier : Applier
  srv : Server σ κ
  indexes : Indexes
  maxRetries : Nat
  /-- `SetDefaultNumRetries` takes no other number -/
  maxRetries_pos : 0 < maxRetries

inductive Call where
  /-- in the loop of `executeWriteFuncs` -/
  | idle
  /-- at the start of `onApplyEventStruct` -/
  | received (eventStruct : ApplyEventStruct)
  /-- in its loop, with the number of turns that are left -/
  | collecting (batch : Batch) (availableEvents : Nat) (batchSize : Int)
  | applying (batch : Batch)
  | running (writeFunc : TableWriteFunc)
  /-- stopped; the structs it had taken and not dealt with are a record -/
  | stopped (dropped : List ApplyEventStruct)
deriving DecidableEq

/-- Something that the worker has done: with a struct of the queue, or for the row copy. -/
inductive Work (σ : Type) where
  | item (eventStruct : ApplyEventStruct)
  | copyRows (write : List (Row σ) → List (Row σ))

structure ApplyWorker (σ : Type) where
  applyEventsQueue : List ApplyEventStruct
  call : Call := .idle
  ghost : List (Row σ)
  currentCoordinates : Option BinlogCoordinates := none
  appliedTransactionCoordinates : Option BinlogCoordinates := none
  -- records
  /-- the structs that came to the queue since the start -/
  arrived : List ApplyEventStruct := []
  /-- the structs that were taken from the queue -/
  taken : List ApplyEventStruct := []
  /-- what has been committed, acknowledged, returned and copied, in order -/
  log : List (Work σ) := []

namespace ApplyWorker

variable {σ κ : Type} [DecidableEq κ] (c : WorkerContext σ κ) (s : ApplyWorker σ)

def arrive (item : ApplyEventStruct) : Option (ApplyWorker σ) :=
  if s.applyEventsQueue.length < maxEventsBatchSize then
    some { s with
      applyEventsQueue := s.applyEventsQueue ++ [item]
      arrived := s.arrived ++ [item] }
  else none

def take : Option (ApplyWorker σ) :=
  match s.call, s.applyEventsQueue with
  | .idle, item :: queue =>
    some { s with applyEventsQueue := queue, call := .received item, taken := s.taken ++ [item] }
  | _, _ => none

/-- With nothing in the queue the worker runs a function of `copyRowsQueue`. -/
def copyRows (write : List (Row σ) → List (Row σ)) : Option (ApplyWorker σ) :=
  if s.call = .idle ∧ s.applyEventsQueue = [] then
    some { s with ghost := write s.ghost, log := s.log ++ [.copyRows write] }
  else none

/-- The worker leaves its loop: it was aborted, a chunk has failed or the migration is finished. -/
def leave : Option (ApplyWorker σ) :=
  if s.call = .idle then some { s with call := .stopped [] } else none

/-- `onApplyEventStruct`, up to the loop over the further structs. -/
def start (batchSize : Int) (abort : Option String) : Option (ApplyWorker σ) :=
  match s.call, abort with
  | .received item, some _ => some { s with call := .stopped [item] }
  | .received (.transactionComplete entry), none =>
    some { s with
      call := .idle
      appliedTransactionCoordinates := some entry.1.coordinates
      log := s.log ++ [.item (.transactionComplete entry)] }
  | .received (.func writeFunc), none => some { s with call := .running writeFunc }
  | .received (.dml entry ev), none =>
    some { s with
      call := .collecting (.first entry ev) s.applyEventsQueue.length batchSize }
  | _, _ => none

/-- One turn of the loop over the further structs, or its end. A receive from an empty queue would
wait. -/
def collect : Option (ApplyWorker σ) :=
  match s.call with
  | .collecting batch 0 _ => some { s with call := .applying batch }
  | .collecting batch (availableEvents + 1) batchSize =>
    if batch.dmlEvents.length < batchSize then
      match s.applyEventsQueue with
      | [] => none
      | item :: queue =>
        let s := { s with applyEventsQueue := queue, taken := s.taken ++ [item] }
        match item with
        | .transactionComplete entry =>
          some { s with call := .collecting (batch.addMarker entry) availableEvents batchSize }
        | .func writeFunc =>
          some { s with call := .applying { batch with nonDmlStructToApply := some writeFunc } }
        | .dml entry ev =>
          some { s with call := .collecting (batch.addRow entry ev) availableEvents batchSize }
    else some { s with call := .applying batch }
  | _ => none

/-- `ApplyDMLEventQueries` within `retryOperation`, with what goes wrong in each attempt and what
`checkAbort` returns from an attempt on. -/
def retryBatch (dmlEvents : List BinlogDMLEvent) (failures : List (Option Failure))
    (abort : Option (Nat × String)) : Except Fault (RetryResult × BatchState σ) :=
  retryOperation c.maxRetries
    (fun i => applyDMLEventQueries c.enc c.applier c.srv c.indexes failures[i]?.join)
    (fun i => (abort.filter fun p => p.1 ≤ i).map (·.2)) false { dmlEvents, ghost := s.ghost }

/-- The batch is applied and acknowledged, or the call fails. -/
def applyBatch (failures : List (Option Failure)) (abort : Option (Nat × String)) :
    Option (ApplyWorker σ) :=
  match s.call with
  | .applying batch =>
    match s.retryBatch c batch.dmlEvents failures abort with
    | .ok ({ err := none, .. }, after) =>
      some { s with
        ghost := after.ghost
        currentCoordinates := some batch.eventStruct.1.coordinates
        appliedTransactionCoordinates :=
          match batch.completedTransaction with
          | none => s.appliedTransactionCoordinates
          | some entry => some entry.1.coordinates
        log := s.log ++ batch.collected.map .item
        call :=
          match batch.nonDmlStructToApply with
          | none => .idle
          | some writeFunc => .running writeFunc }
    | .ok ({ err := some _, .. }, after) =>
      some { s with ghost := after.ghost, call := .stopped batch.taken }
    | .error _ => some { s with call := .stopped batch.taken }
  | _ => none

def runFunc (err : Option String) : Option (ApplyWorker σ) :=
  match s.call, err with
  | .running writeFunc, none =>
    some { s with call := .idle, log := s.log ++ [.item (.func writeFunc)] }
  | .running writeFunc, some _ => some { s with call := .stopped [.func writeFunc] }
  | _, _ => none

end ApplyWorker

inductive WorkerAction (σ : Type) where
  | arrive (item : ApplyEventStruct)
  | take
  | copyRows (write : List (Row σ) → List (Row σ))
  | leave
  | start (batchSize : Int) (abort : Option String)
  | collect
  | applyBatch (failures : List (Option Failure)) (abort : Option (Nat × String))
  | runFunc (err : Option String)

namespace ApplyWorker

variable {σ κ : Type} [DecidableEq κ] (c : WorkerContext σ κ)

def step (s : ApplyWorker σ) : WorkerAction σ → Option (ApplyWorker σ)
  | .arrive item => s.arrive item
  | .take => s.take
  | .copyRows write => s.copyRows write
  | .leave => s.leave
  | .start batchSize abort => s.start batchSize abort
  | .collect => s.collect
  | .applyBatch failures abort => s.applyBatch c failures abort
  | .runFunc err => s.runFunc err

/-! ## One struct after the other -/

/-- What a struct does by itself: a row is a batch of its own. -/
def processOne : List (Row σ) × Option BinlogCoordinates → Work σ →
    Option (List (Row σ) × Option BinlogCoordinates)
  | (ghost, applied), .copyRows write => some (write ghost, applied)
  | (ghost, applied), .item (.func _) => some (ghost, applied)
  | (ghost, _), .item (.transactionComplete entry) => some (ghost, some entry.1.coordinates)
  | (ghost, applied), .item (.dml _ ev) =>
    match applyDMLEventQueries c.enc c.applier c.srv c.indexes none
      { dmlEvents := [ev], ghost } with
    | .ok (none, after) => some (after.ghost, applied)
    | _ => none

def processSingly (start : List (Row σ) × Option BinlogCoordinates) (work : List (Work σ)) :
    Option (List (Row σ) × Option BinlogCoordinates) :=
  work.foldlM (processOne c) start

end ApplyWorker

end GhOst.Logic
