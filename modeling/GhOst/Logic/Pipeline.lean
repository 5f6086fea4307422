import GhOst.Infra.Steps
import GhOst.Logic.Listeners

/-!
# From the binary log to the ghost table (`go/logic/streamer.go`, `go/logic/migrator.go`)

The main goroutine goes through the start-up steps of `Migrate` or `Revert`, the reader sends
entries to `eventsChannel`, the dispatcher lets the registered listeners put structs on
`applyEventsQueue`, and the worker (`executeWriteFuncs`) takes those in batches. A checkpoint is
taken by a fifth goroutine. Each is cut where another one can observe it.

The numbers of the entries, and the fields below "records" of the state, are not in the source and
no step depends on them. The content of the tables is the subject of `GhOst.Logic.CopyReplay`. The
row copy, the throttler, hooks and metrics are left out.
-/

namespace GhOst.Logic

open GhOst.Sql GhOst.Binlog GhOst.Mysql Infra

/-! ## The state -/

/-- The steps of `Migrate` and `Revert` from the start of the streaming on. -/
inductive StartupStep where
  | addChangelogListener
  | streamEvents
  | checkAbort
  | onValidated
  | initiateServer
  | countTableRows
  | addTransactionCompleteListener
  | addDMLListener
  | readMigrationRangeValues
  | initiateThrottler
  | onBeforeRowCopy
  | executeWriteFuncs
deriving DecidableEq

def initiateStreaming : List StartupStep := [.addChangelogListener, .streamEvents]

def addDMLEventsListener : List StartupStep := [.addTransactionCompleteListener, .addDMLListener]

/-- `Migrate` with `Resume` set, after `ReadLastCheckpoint`. -/
def resumeSteps : List StartupStep :=
  initiateStreaming ++ [.onValidated, .initiateServer, .countTableRows] ++ addDMLEventsListener ++
    [.readMigrationRangeValues, .initiateThrottler, .onBeforeRowCopy, .executeWriteFuncs]

/-- `Revert`, after `ReadLastCheckpoint`; the worker is `executeDMLWriteFuncs`. -/
def revertSteps : List StartupStep :=
  initiateStreaming ++ [.checkAbort, .onValidated, .initiateServer] ++ addDMLEventsListener ++
    [.initiateThrottler, .executeWriteFuncs]

inductive Dispatcher where
  | waiting
  | received (entry : Emitted)
  /-- inside `notifyListeners`, with the sends that are left -/
  | notifying (entry : Emitted) (sends : List ApplyEventStruct) (fails : Bool)
  | stopped
deriving DecidableEq

/-- What `onApplyEventStruct` has collected. -/
structure Batch where
  eventStruct : Emitted
  dmlEvents : List BinlogDMLEvent
  completedTransaction : Option Emitted := none
  nonDmlStructToApply : Option TableWriteFunc := none
  /-- the rows and markers collected, in order; a record -/
  collected : List ApplyEventStruct
deriving DecidableEq

inductive Worker where
  | notStarted
  | idle
  | applying (batch : Batch)
  | running (writeFunc : TableWriteFunc)
  /-- stopped; the structs it had taken and not dealt with are a record -/
  | stopped (dropped : List ApplyEventStruct)
deriving DecidableEq

structure WrittenCheckpoint where
  lastTrxCoords : BinlogCoordinates
  /-- the reader position it waited for and the marker it stands for; two records -/
  sampled : BinlogCoordinates
  marker : Option Emitted
deriving DecidableEq

structure Pipeline where
  startup : List StartupStep
  streamer : EventsStreamer
  listeners : List Listener := []
  transactionListeners : Nat := 0
  streaming : Bool := false
  readerFailed : Bool := false
  /-- what the reader has still to send for the event it is at -/
  outbox : List Emitted := []
  eventsChannel : List Emitted := []
  dispatcher : Dispatcher := .waiting
  /-- sends that goroutines of their own are trying -/
  asyncSends : List ApplyEventStruct := []
  applyEventsQueue : List ApplyEventStruct := []
  worker : Worker := .notStarted
  currentCoordinates : Option BinlogCoordinates := none
  appliedTransactionCoordinates : Option BinlogCoordinates := none
  abortError : Bool := false
  canceled : Bool := false
  /-- the reader position of a checkpoint that is being attempted -/
  sampled : Option BinlogCoordinates := none
  checkpoints : List WrittenCheckpoint := []
  -- records
  /-- all entries of the reader; an entry's number is its place here -/
  emitted : List BinlogEntry := []
  /-- the rows of the original table that were handled with the DML listener registered -/
  handled : List Nat := []
  /-- all structs that were put on `applyEventsQueue` -/
  enqueued : List ApplyEventStruct := []
  /-- the rows that are committed, the markers acknowledged and the functions run, in order -/
  done : List ApplyEventStruct := []
  /-- the entries whose delivery or whose batch has failed -/
  failed : List Nat := []
  /-- the marker whose coordinates are `appliedTransactionCoordinates` -/
  acknowledged : Option Emitted := none
  /-- the positions of the reader and the coordinates of its markers -/
  positions : List BinlogCoordinates := []
  /-- the events read before and after the DML listener was registered -/
  readBefore : List BinlogEvent := []
  readAfter : List BinlogEvent := []
  streamFailed : Bool := false
deriving DecidableEq

/-- The state before `steps`, with a streamer that is to start at `coordinates`. -/
def initPipeline (steps : List StartupStep) (useGTIDs : Bool) (maxReconnectAttempts : Nat)
    (coordinates : BinlogCoordinates) : Pipeline where
  startup := steps
  streamer := initStreamer useGTIDs maxReconnectAttempts coordinates
  positions := [coordinates]

/-! ## The steps -/

def eventsChannelBufferSize : Nat := 1

namespace Batch

def first (entry : Emitted) (ev : BinlogDMLEvent) : Batch :=
  { eventStruct := entry, dmlEvents := [ev], collected := [.dml entry ev] }

def addRow (b : Batch) (entry : Emitted) (ev : BinlogDMLEvent) : Batch :=
  { b with dmlEvents := b.dmlEvents ++ [ev], collected := b.collected ++ [.dml entry ev] }

def addMarker (b : Batch) (entry : Emitted) : Batch :=
  { b with completedTransaction := some entry,
           collected := b.collected ++ [.transactionComplete entry] }

/-- What the worker does when the batch is applied. -/
def after (b : Batch) : Worker :=
  match b.nonDmlStructToApply with
  | none => .idle
  | some writeFunc => .running writeFunc

/-- All structs that were taken from the queue for the batch. -/
def taken (b : Batch) : List ApplyEventStruct :=
  b.collected ++ (b.nonDmlStructToApply.map .func).toList

end Batch

/-- The loop of `onApplyEventStruct` over the structs that are in the queue at its start. -/
def collectEvents (batchSize : Int) : Batch → List ApplyEventStruct → Batch × List ApplyEventStruct
  | b, [] => (b, [])
  | b, item :: queue =>
    if b.dmlEvents.length < batchSize then
      match item with
      | .transactionComplete entry => collectEvents batchSize (b.addMarker entry) queue
      | .func writeFunc => ({ b with nonDmlStructToApply := some writeFunc }, queue)
      | .dml entry ev => collectEvents batchSize (b.addRow entry ev) queue
    else (b, item :: queue)

/-- A batch that was begun with `start` has taken `queue` up to `left`. -/
structure Collected (start : List ApplyEventStruct) (b : Batch)
    (queue left : List ApplyEventStruct) :
    Prop where
  taken : start ++ queue = b.taken ++ left
  left : left <:+ queue
  completed : ∀ entry, b.completedTransaction = some entry →
    .transactionComplete entry ∈ b.collected

theorem collectEvents_spec (batchSize : Int) (queue : List ApplyEventStruct) (b : Batch)
    (hnone : b.nonDmlStructToApply = none)
    (hcompleted : ∀ entry, b.completedTransaction = some entry →
      .transactionComplete entry ∈ b.collected) :
    Collected b.collected (collectEvents batchSize b queue).1 queue
      (collectEvents batchSize b queue).2 := by
  induction queue generalizing b with
  | nil => exact ⟨by simp [collectEvents, Batch.taken, hnone], List.suffix_rfl, hcompleted⟩
  | cons item queue ih =>
    unfold collectEvents
    split
    · cases item with
      | func writeFunc => exact ⟨by simp [Batch.taken], List.suffix_cons .., hcompleted⟩
      | dml entry ev =>
        have hnext := ih (b.addRow entry ev) hnone
          (fun e he => List.mem_append_left _ (hcompleted e he))
        exact ⟨by rw [← hnext.taken]; simp [Batch.addRow],
          hnext.left.trans (List.suffix_cons ..), hnext.completed⟩
      | transactionComplete entry =>
        have hnext := ih (b.addMarker entry) hnone
          (fun e he => by cases he; simp [Batch.addMarker])
        exact ⟨by rw [← hnext.taken]; simp [Batch.addMarker],
          hnext.left.trans (List.suffix_cons ..), hnext.completed⟩
    · exact ⟨by simp [Batch.taken, hnone], List.suffix_rfl, hcompleted⟩

namespace Pipeline

variable (c : StreamContext) (s : Pipeline)

/-- `checkAbort` returns an error. -/
def aborted : Bool := s.abortError || s.canceled

def dmlRegistered : Bool := s.listeners.contains .dml

/-- `listenersMutex` is held by the dispatcher. -/
def mutexHeld : Bool :=
  match s.dispatcher with
  | .notifying .. => true
  | _ => false

def addListener (l : Listener) : Pipeline × Option String :=
  if c.databaseName = "" then (s, some "empty database name in AddListener")
  else if c.tableName l = "" then (s, some "empty table name in AddListener")
  else ({ s with listeners := s.listeners ++ [l] }, none)

/-- A step of the main goroutine. The steps without an effect on the other goroutines only take
time. -/
def perform : StartupStep → Option Pipeline
  | .addChangelogListener => if s.mutexHeld then none else some (s.addListener c .changelog).1
  | .addDMLListener =>
    if s.mutexHeld then none
    else
      match s.addListener c .dml with
      | (s, none) => some s
      | (s, some _) => some { s with startup := [] }
  | .addTransactionCompleteListener =>
    if s.mutexHeld then none
    else some { s with transactionListeners := s.transactionListeners + 1 }
  | .streamEvents => some { s with streaming := true }
  | .executeWriteFuncs => if s.worker = .notStarted then some { s with worker := .idle } else none
  | .checkAbort => if s.aborted then none else some s
  | _ => some s

def startupStep : Option Pipeline :=
  match s.startup with
  | [] => none
  | step :: rest => { s with startup := rest }.perform c step

/-- The reader handles the next event of the log, up to its sends. -/
def readEvent (ev : BinlogEvent) : Option Pipeline :=
  if s.streaming = true ∧ s.readerFailed = false ∧ s.outbox = [] then
    match s.streamer.binlogReader.handleEvent (c.decode s.listeners ev) with
    | (_, _, some (.fault _)) => none
    | (reader, entries, err) =>
      some { s with
        streamer := { s.streamer with binlogReader := reader }
        readerFailed := err.isSome
        outbox := entries.zipIdx s.emitted.length
        emitted := s.emitted ++ entries
        positions := s.positions ++ reader.currentCoordinates ::
          (entries.filter (·.transactionComplete)).map (·.coordinates)
        readBefore := if s.dmlRegistered then s.readBefore else s.readBefore ++ [ev]
        readAfter := if s.dmlRegistered then s.readAfter ++ [ev] else s.readAfter
        streamFailed := s.streamFailed || err.isSome }
  else none

def sendEntry : Option Pipeline :=
  match s.outbox with
  | [] => none
  | entry :: rest =>
    if s.eventsChannel.length < eventsChannelBufferSize then
      some { s with outbox := rest, eventsChannel := s.eventsChannel ++ [entry] }
    else none

/-- `SendWithContext` fails: `StreamEvents` of the reader and of the streamer return. -/
def sendEntryCanceled : Option Pipeline :=
  if s.canceled = true ∧ s.outbox ≠ [] then
    some { s with outbox := [], streaming := false }
  else none

/-- The stream fails; the streamer reconnects, or returns. -/
def reconnect : Option Pipeline :=
  if s.streaming = true ∧ s.outbox = [] then
    if s.aborted then some { s with streaming := false, streamFailed := true }
    else
      match s.streamer.reconnect with
      | none => some { s with streaming := false, streamFailed := true }
      | some streamer =>
        some { s with
          streamer
          readerFailed := false
          streamFailed := true
          positions := s.positions ++ [streamer.binlogReader.currentCoordinates] }
  else none

def receive : Option Pipeline :=
  match s.dispatcher, s.eventsChannel with
  | .waiting, entry :: rest =>
    if entry.1.dmlEvent.isSome || entry.1.transactionComplete then
      some { s with eventsChannel := rest, dispatcher := .received entry }
    else some { s with eventsChannel := rest }
  | _, _ => none

def dispatcherCanceled : Option Pipeline :=
  if s.canceled = true ∧ s.dispatcher = .waiting then some { s with dispatcher := .stopped }
  else none

/-- A failed delivery is fatal: `notifyListeners` returns an error. -/
def failDelivery (entry : Emitted) : Pipeline :=
  { s with dispatcher := .stopped, abortError := true, canceled := true,
           failed := s.failed ++ [entry.2] }

/-- The listeners of an entry: those of transactions for a marker, else those of its table. -/
def notification (entry : Emitted) : Except Fault Notification :=
  if entry.1.transactionComplete then
    .ok { sends := List.replicate s.transactionListeners (.transactionComplete entry) }
  else
    match entry.1.dmlEvent with
    | none => .error .nilPointer
    | some ev => c.notifyRow entry ev s.listeners

/-- The entry is a row of the original table and the DML listener is registered. -/
def hearsRow (entry : Emitted) : Bool :=
  s.dmlRegistered && !entry.1.transactionComplete && entry.1.dmlEvent.any c.isOriginal

/-- The record of the rows handled. -/
def handledWith (entry : Emitted) : List Nat :=
  if s.hearsRow c entry then s.handled ++ [entry.2] else s.handled

/-- `notifyListeners`, up to its sends. -/
def notifyListeners : Option Pipeline :=
  match s.dispatcher with
  | .received entry =>
    if s.aborted then some ({ s with handled := s.handledWith c entry }.failDelivery entry)
    else
      match s.notification c entry with
      | .error _ => none
      | .ok n =>
        some { s with
          handled := s.handledWith c entry
          dispatcher := .notifying entry n.sends n.fails
          asyncSends := s.asyncSends ++ n.asyncSends }
  | _ => none

def enqueue (item : ApplyEventStruct) : Pipeline :=
  { s with applyEventsQueue := s.applyEventsQueue ++ [item], enqueued := s.enqueued ++ [item] }

/-- The next send of the dispatcher, or its return from `notifyListeners`. -/
def deliver : Option Pipeline :=
  match s.dispatcher with
  | .notifying entry (item :: sends) fails =>
    if s.applyEventsQueue.length < maxEventsBatchSize then
      some { s.enqueue item with dispatcher := .notifying entry sends fails }
    else none
  | .notifying entry [] true => some (s.failDelivery entry)
  | .notifying _ [] false => some { s with dispatcher := .waiting }
  | _ => none

def deliverCanceled : Option Pipeline :=
  match s.dispatcher with
  | .notifying entry (_ :: _) _ => if s.canceled then some (s.failDelivery entry) else none
  | _ => none

/-- One of the goroutines sends its struct. -/
def deliverAsync (i : Nat) : Option Pipeline :=
  match s.asyncSends[i]? with
  | none => none
  | some item =>
    if s.applyEventsQueue.length < maxEventsBatchSize then
      some { s.enqueue item with asyncSends := s.asyncSends.eraseIdx i }
    else none

def acknowledge (entry : Emitted) : Pipeline :=
  { s with appliedTransactionCoordinates := some entry.1.coordinates, acknowledged := some entry }

/-- The worker stops with an error and leaves `dropped`. -/
def stopWorker (dropped : List ApplyEventStruct) : Pipeline :=
  { s with worker := .stopped dropped,
           failed := s.failed ++ (dropped.filterMap (·.source)).map (·.2) }

/-- The worker takes a struct and begins `onApplyEventStruct`. -/
def takeEvents (batchSize : Int) : Option Pipeline :=
  match s.worker, s.applyEventsQueue with
  | .idle, item :: queue =>
    let s := { s with applyEventsQueue := queue }
    if s.aborted then some (s.stopWorker [item])
    else
      match item with
      | .transactionComplete entry => some { s.acknowledge entry with done := s.done ++ [item] }
      | .func writeFunc => some { s with worker := .running writeFunc }
      | .dml entry ev =>
        let (batch, queue) := collectEvents batchSize (.first entry ev) queue
        some { s with worker := .applying batch, applyEventsQueue := queue }
  | _, _ => none

/-- `ApplyDMLEventQueries` has succeeded within `retryOperation`. -/
def batchApplied : Option Pipeline :=
  match s.worker with
  | .applying batch =>
    let s := { s with
      currentCoordinates := some batch.eventStruct.1.coordinates
      done := s.done ++ batch.collected
      worker := batch.after }
    match batch.completedTransaction with
    | none => some s
    | some entry => some (s.acknowledge entry)
  | _ => none

/-- `retryOperation` has given up on the batch. -/
def batchFailed : Option Pipeline :=
  match s.worker with
  | .applying batch =>
    some (s.stopWorker batch.taken)
  | _ => none

/-- The function of a struct returns without error. -/
def funcApplied : Option Pipeline :=
  match s.worker with
  | .running writeFunc =>
    let s := { s with worker := .idle, done := s.done ++ [.func writeFunc] }
    match writeFunc with
    | .heartbeat coords => some { s with currentCoordinates := some coords }
    | .lockProcessed .. => some s
  | _ => none

/-- `retryOperation` finds the migration aborted before it runs the function. -/
def funcFailed : Option Pipeline :=
  match s.worker with
  | .running writeFunc => if s.aborted then some (s.stopWorker [.func writeFunc]) else none
  | _ => none

/-- The worker sees, before it takes a struct, that the migration is finished or aborted. -/
def finishWorker : Option Pipeline :=
  if s.worker = .idle then some { s with worker := .stopped [] } else none

/-- `Checkpoint` samples the position of the reader. -/
def sampleCheckpoint : Option Pipeline :=
  if s.aborted then none
  else some { s with sampled := some s.streamer.binlogReader.currentCoordinates }

/-- `Checkpoint` finds an applied transaction that covers the sample, and persists it. -/
def writeCheckpoint : Option Pipeline :=
  if s.aborted then none
  else
    match s.sampled, s.appliedTransactionCoordinates with
    | some coords, some applied =>
      if coords.smallerThanOrEquals applied then
        some { s with
          sampled := none
          checkpoints := s.checkpoints ++
            [{ lastTrxCoords := applied, sampled := coords, marker := s.acknowledged }] }
      else none
    | _, _ => none

/-! ### What a step does -/

variable {c : StreamContext} {s s' : Pipeline}

theorem addListener_eq (c : StreamContext) (s : Pipeline) (l : Listener) :
    (∃ err, s.addListener c l = (s, some err)) ∨
      s.addListener c l = ({ s with listeners := s.listeners ++ [l] }, none) := by
  unfold addListener
  split
  · exact .inl ⟨_, rfl⟩
  · split
    · exact .inl ⟨_, rfl⟩
    · exact .inr rfl

/-- A start-up step registers a listener, while nobody is being notified, or starts a goroutine. -/
structure Performed (step : StartupStep) (s s' : Pipeline) : Prop where
  frame : s' = { s with startup := s'.startup, listeners := s'.listeners,
                        transactionListeners := s'.transactionListeners,
                        streaming := s'.streaming, worker := s'.worker }
  listeners : s'.listeners = s.listeners ∨
    s.mutexHeld = false ∧ ∃ l, s'.listeners = s.listeners ++ [l]
  registers : s'.listeners.count .dml + s'.startup.count .addDMLListener ≤
    s.listeners.count .dml + (step :: s.startup).count .addDMLListener
  startup : s'.startup = s.startup ∧ (step ≠ .addDMLListener →
      s'.listeners.contains .dml = s.listeners.contains .dml) ∨
    s'.startup = [] ∧ s'.listeners = s.listeners ∧ step = .addDMLListener
  worker : step ≠ .executeWriteFuncs ∧ s'.worker = s.worker ∨
    s.worker = .notStarted ∧ s'.worker = .idle

theorem perform_eq {step : StartupStep} (h : s.perform c step = some s') : Performed step s s' := by
  cases step
  case addChangelogListener =>
    rw [perform] at h
    split at h
    · simp at h
    · next hm =>
      cases h
      rcases addListener_eq c s .changelog with ⟨err, he⟩ | he <;> rw [he]
      · exact ⟨rfl, .inl rfl, by simp, .inl ⟨rfl, fun _ => rfl⟩, .inl ⟨by simp, rfl⟩⟩
      · exact ⟨rfl, .inr ⟨by simpa using hm, _, rfl⟩, by simp [List.count_append],
          .inl ⟨rfl, fun _ => by simp⟩, .inl ⟨by simp, rfl⟩⟩
  case addDMLListener =>
    rw [perform] at h
    split at h
    · simp at h
    · next hm =>
      rcases addListener_eq c s .dml with ⟨err, he⟩ | he <;> rw [he] at h <;>
        cases h
      · exact ⟨rfl, .inl rfl, by simp, .inr ⟨rfl, rfl, rfl⟩, .inl ⟨by simp, rfl⟩⟩
      · refine ⟨rfl, .inr ⟨by simpa using hm, _, rfl⟩, ?_, .inl ⟨rfl, by simp⟩, .inl ⟨by simp, rfl⟩⟩
        simp only [List.count_append, List.count_cons_self, List.count_nil]
        omega
  case addTransactionCompleteListener =>
    rw [perform] at h
    split at h
    · simp at h
    · cases h
      exact ⟨rfl, .inl rfl, by simp, .inl ⟨rfl, fun _ => rfl⟩, .inl ⟨by simp, rfl⟩⟩
  case executeWriteFuncs =>
    obtain ⟨hw, rfl⟩ := of_guard h
    exact ⟨rfl, .inl rfl, by simp, .inl ⟨rfl, fun _ => rfl⟩, .inr ⟨hw, rfl⟩⟩
  case checkAbort =>
    rw [perform] at h
    split at h
    · simp at h
    · cases h
      exact ⟨rfl, .inl rfl, by simp, .inl ⟨rfl, fun _ => rfl⟩, .inl ⟨by simp, rfl⟩⟩
  all_goals
    cases h
    exact ⟨rfl, .inl rfl, by simp, .inl ⟨rfl, fun _ => rfl⟩, .inl ⟨by simp, rfl⟩⟩

theorem startupStep_eq (h : s.startupStep c = some s') :
    ∃ step rest, s.startup = step :: rest ∧ Performed step { s with startup := rest } s' := by
  unfold startupStep at h
  split at h
  · simp at h
  · next step rest hs => exact ⟨step, rest, hs, perform_eq h⟩

theorem readEvent_eq {ev : BinlogEvent} (h : s.readEvent c ev = some s') :
    s.outbox = [] ∧ ∃ reader entries err,
      s.streamer.binlogReader.handleEvent (c.decode s.listeners ev) = (reader, entries, err) ∧
      s' = { s with
        streamer := { s.streamer with binlogReader := reader }
        readerFailed := err.isSome
        outbox := entries.zipIdx s.emitted.length
        emitted := s.emitted ++ entries
        positions := s.positions ++ reader.currentCoordinates ::
          (entries.filter (·.transactionComplete)).map (·.coordinates)
        readBefore := if s.dmlRegistered then s.readBefore else s.readBefore ++ [ev]
        readAfter := if s.dmlRegistered then s.readAfter ++ [ev] else s.readAfter
        streamFailed := s.streamFailed || err.isSome } := by
  unfold readEvent at h
  split at h
  · next hg =>
    split at h
    · simp at h
    · next reader entries err _ heq =>
      exact ⟨hg.2.2, reader, entries, err, heq, (Option.some.inj h).symm⟩
  · simp at h

theorem sendEntry_eq (h : s.sendEntry = some s') : ∃ entry rest, s.outbox = entry :: rest ∧
    s' = { s with outbox := rest, eventsChannel := s.eventsChannel ++ [entry] } := by
  unfold sendEntry at h
  split at h
  · simp at h
  · next entry rest hout =>
    obtain ⟨-, rfl⟩ := of_guard h
    exact ⟨entry, rest, hout, rfl⟩

theorem sendEntryCanceled_eq (h : s.sendEntryCanceled = some s') :
    s.canceled = true ∧ s' = { s with outbox := [], streaming := false } := by
  unfold sendEntryCanceled at h
  obtain ⟨hg, rfl⟩ := of_guard h
  exact ⟨hg.1, rfl⟩

theorem reconnect_eq (h : s.reconnect = some s') : ∃ streamer readerFailed streaming positions,
    s' = { s with streamer, readerFailed, streaming, positions, streamFailed := true } ∧
      (streamer = s.streamer ∧ positions = s.positions ∨
        positions = s.positions ++ [streamer.binlogReader.currentCoordinates]) := by
  unfold reconnect at h
  split at h
  · split at h
    · exact ⟨_, _, _, _, (Option.some.inj h).symm, .inl ⟨rfl, rfl⟩⟩
    · split at h
      · exact ⟨_, _, _, _, (Option.some.inj h).symm, .inl ⟨rfl, rfl⟩⟩
      · exact ⟨_, _, _, _, (Option.some.inj h).symm, .inr rfl⟩
  · simp at h

theorem receive_eq (h : s.receive = some s') : s.dispatcher = .waiting ∧
    ∃ entry rest, s.eventsChannel = entry :: rest ∧
      (s' = { s with eventsChannel := rest, dispatcher := .received entry } ∨
        entry.1.dmlEvent = none ∧ s' = { s with eventsChannel := rest }) := by
  unfold receive at h
  split at h
  · next entry rest hd hch =>
    refine ⟨hd, entry, rest, hch, ?_⟩
    split at h
    · exact .inl (Option.some.inj h).symm
    · next hno =>
      rw [Bool.or_eq_true, not_or, Option.not_isSome_iff_eq_none] at hno
      exact .inr ⟨hno.1, (Option.some.inj h).symm⟩
  · simp at h

theorem dispatcherCanceled_eq (h : s.dispatcherCanceled = some s') :
    s.canceled = true ∧ s.dispatcher = .waiting ∧ s' = { s with dispatcher := .stopped } := by
  unfold dispatcherCanceled at h
  obtain ⟨hg, rfl⟩ := of_guard h
  exact ⟨hg.1, hg.2, rfl⟩

theorem notification_madeFrom {entry : Emitted} {n : Notification}
    (h : s.notification c entry = .ok n) :
    (∀ item ∈ n.sends, item.MadeFrom entry) ∧ ∀ item ∈ n.asyncSends, item.source = none := by
  unfold notification at h
  split at h
  · next hc =>
    cases h
    refine ⟨fun item hi => ?_, by simp⟩
    rw [List.eq_of_mem_replicate hi]
    exact .transactionComplete hc
  · split at h
    · simp at h
    · exact StreamContext.notifyRow_sends h

theorem notifyListeners_eq (h : s.notifyListeners c = some s') :
    ∃ entry, s.dispatcher = .received entry ∧
      (s.aborted = true ∧ s' = { s with handled := s.handledWith c entry }.failDelivery entry ∨
        s.aborted = false ∧ ∃ n, s.notification c entry = .ok n ∧
          s' = { s with
            handled := s.handledWith c entry
            dispatcher := .notifying entry n.sends n.fails
            asyncSends := s.asyncSends ++ n.asyncSends }) := by
  unfold notifyListeners at h
  split at h
  · next entry hd =>
    refine ⟨entry, hd, ?_⟩
    split at h
    · next hab => exact .inl ⟨hab, (Option.some.inj h).symm⟩
    · next hab =>
      split at h
      · simp at h
      · next n hn =>
        exact .inr ⟨Bool.eq_false_iff.2 hab, n, hn, (Option.some.inj h).symm⟩
  · simp at h

theorem deliver_eq (h : s.deliver = some s') : ∃ entry sends fails,
    s.dispatcher = .notifying entry sends fails ∧
      ((∃ item rest, sends = item :: rest ∧
          s' = { s.enqueue item with dispatcher := .notifying entry rest fails }) ∨
        (sends = [] ∧ fails = true ∧ s' = s.failDelivery entry) ∨
        (sends = [] ∧ fails = false ∧ s' = { s with dispatcher := .waiting })) := by
  unfold deliver at h
  split at h
  · next entry item rest fails hd =>
    obtain ⟨-, rfl⟩ := of_guard h
    exact ⟨entry, _, fails, hd, .inl ⟨item, rest, rfl, rfl⟩⟩
  · next entry hd => exact ⟨entry, _, _, hd, .inr (.inl ⟨rfl, rfl, (Option.some.inj h).symm⟩)⟩
  · next entry hd => exact ⟨entry, _, _, hd, .inr (.inr ⟨rfl, rfl, (Option.some.inj h).symm⟩)⟩
  · simp at h

theorem deliverCanceled_eq (h : s.deliverCanceled = some s') : ∃ entry sends fails,
    s.dispatcher = .notifying entry sends fails ∧ s.canceled = true ∧
      s' = s.failDelivery entry := by
  unfold deliverCanceled at h
  split at h
  · next entry _ _ fails hd =>
    obtain ⟨hc, rfl⟩ := of_guard h
    exact ⟨entry, _, fails, hd, hc, rfl⟩
  · simp at h

theorem deliverAsync_eq {i : Nat} (h : s.deliverAsync i = some s') :
    ∃ item ∈ s.asyncSends, s' = { s.enqueue item with asyncSends := s.asyncSends.eraseIdx i } := by
  unfold deliverAsync at h
  split at h
  · simp at h
  · next item hi =>
    obtain ⟨-, rfl⟩ := of_guard h
    exact ⟨item, List.mem_of_getElem? hi, rfl⟩

theorem takeEvents_eq {batchSize : Int} (h : s.takeEvents batchSize = some s') :
    s.worker = .idle ∧ ∃ item queue, s.applyEventsQueue = item :: queue ∧
      (s.aborted = true ∧ s' = { s with applyEventsQueue := queue }.stopWorker [item] ∨
      (∃ entry, item = .transactionComplete entry ∧
        s' = { { s with applyEventsQueue := queue }.acknowledge entry with
                done := s.done ++ [item] }) ∨
      (∃ writeFunc, item = .func writeFunc ∧
        s' = { s with applyEventsQueue := queue, worker := .running writeFunc }) ∨
      ∃ batch left, Collected [item] batch queue left ∧
        s' = { s with applyEventsQueue := left, worker := .applying batch }) := by
  unfold takeEvents at h
  split at h
  · next item queue hw hq =>
    refine ⟨hw, item, queue, hq, ?_⟩
    dsimp only at h
    split at h
    · next hab => exact .inl ⟨hab, (Option.some.inj h).symm⟩
    · cases item with
      | transactionComplete entry => exact .inr (.inl ⟨entry, rfl, (Option.some.inj h).symm⟩)
      | func writeFunc => exact .inr (.inr (.inl ⟨writeFunc, rfl, (Option.some.inj h).symm⟩))
      | dml entry ev =>
        refine .inr (.inr (.inr ⟨_, _, ?_, (Option.some.inj h).symm⟩))
        exact collectEvents_spec batchSize queue (.first entry ev) rfl
          (fun _ he => absurd he (by simp [Batch.first]))
  · simp at h

theorem batchApplied_eq (h : s.batchApplied = some s') : ∃ batch, s.worker = .applying batch ∧
    ∃ applied acknowledged,
      s' = { s with
        currentCoordinates := some batch.eventStruct.1.coordinates
        done := s.done ++ batch.collected
        worker := batch.after
        appliedTransactionCoordinates := applied
        acknowledged } ∧
      (applied = s.appliedTransactionCoordinates ∧ acknowledged = s.acknowledged ∨
        ∃ entry, batch.completedTransaction = some entry ∧
          applied = some entry.1.coordinates ∧ acknowledged = some entry) := by
  unfold batchApplied at h
  split at h
  · next batch hw =>
    refine ⟨batch, hw, ?_⟩
    dsimp only at h
    split at h
    · exact ⟨_, _, (Option.some.inj h).symm, .inl ⟨rfl, rfl⟩⟩
    · next entry hc => exact ⟨_, _, (Option.some.inj h).symm, .inr ⟨entry, hc, rfl, rfl⟩⟩
  · simp at h

theorem batchFailed_eq (h : s.batchFailed = some s') : ∃ batch, s.worker = .applying batch ∧
    s' = s.stopWorker batch.taken := by
  unfold batchFailed at h
  split at h
  · next batch hw => exact ⟨batch, hw, (Option.some.inj h).symm⟩
  · simp at h

theorem funcApplied_eq (h : s.funcApplied = some s') :
    ∃ writeFunc coords, s.worker = .running writeFunc ∧
      s' = { s with
        worker := .idle, done := s.done ++ [.func writeFunc], currentCoordinates := coords } := by
  unfold funcApplied at h
  split at h
  · next writeFunc hw =>
    cases writeFunc with
    | heartbeat coords => exact ⟨_, some coords, hw, (Option.some.inj h).symm⟩
    | lockProcessed state coords => exact ⟨_, _, hw, (Option.some.inj h).symm⟩
  · simp at h

theorem funcFailed_eq (h : s.funcFailed = some s') :
    ∃ writeFunc, s.worker = .running writeFunc ∧ s' = s.stopWorker [.func writeFunc] := by
  unfold funcFailed at h
  split at h
  · next writeFunc hw =>
    obtain ⟨-, rfl⟩ := of_guard h
    exact ⟨writeFunc, hw, rfl⟩
  · simp at h

theorem finishWorker_eq (h : s.finishWorker = some s') :
    s.worker = .idle ∧ s' = { s with worker := .stopped [] } := by
  unfold finishWorker at h
  exact of_guard h

theorem sampleCheckpoint_eq (h : s.sampleCheckpoint = some s') :
    s' = { s with sampled := some s.streamer.binlogReader.currentCoordinates } := by
  unfold sampleCheckpoint at h
  split at h
  · simp at h
  · exact (Option.some.inj h).symm

theorem writeCheckpoint_eq (h : s.writeCheckpoint = some s') :
    ∃ coords applied, s.sampled = some coords ∧ s.appliedTransactionCoordinates = some applied ∧
      coords.smallerThanOrEquals applied = true ∧
      s' = { s with
        sampled := none
        checkpoints := s.checkpoints ++
          [{ lastTrxCoords := applied, sampled := coords, marker := s.acknowledged }] } := by
  unfold writeCheckpoint at h
  split at h
  · simp at h
  · split at h
    · next coords applied hs ha =>
      obtain ⟨hle, rfl⟩ := of_guard h
      exact ⟨coords, applied, hs, ha, hle, rfl⟩
    · simp at h

end Pipeline

inductive PipelineAction where
  | startup
  | readEvent (ev : BinlogEvent)
  | sendEntry
  | sendEntryCanceled
  | reconnect
  | receive
  | dispatcherCanceled
  | notifyListeners
  | deliver
  | deliverCanceled
  | deliverAsync (i : Nat)
  | takeEvents (batchSize : Int)
  | batchApplied
  | batchFailed
  | funcApplied
  | funcFailed
  | finishWorker
  | sampleCheckpoint
  | writeCheckpoint
  /-- a checkpoint attempt times out, or cannot be written -/
  | abandonCheckpoint
  /-- `SetAbortError` and `CancelContext` by anyone, at any time -/
  | setAbortError
  | cancelContext
deriving DecidableEq

def Pipeline.step (c : StreamContext) (s : Pipeline) : PipelineAction → Option Pipeline
  | .startup => s.startupStep c
  | .readEvent ev => s.readEvent c ev
  | .sendEntry => s.sendEntry
  | .sendEntryCanceled => s.sendEntryCanceled
  | .reconnect => s.reconnect
  | .receive => s.receive
  | .dispatcherCanceled => s.dispatcherCanceled
  | .notifyListeners => s.notifyListeners c
  | .deliver => s.deliver
  | .deliverCanceled => s.deliverCanceled
  | .deliverAsync i => s.deliverAsync i
  | .takeEvents batchSize => s.takeEvents batchSize
  | .batchApplied => s.batchApplied
  | .batchFailed => s.batchFailed
  | .funcApplied => s.funcApplied
  | .funcFailed => s.funcFailed
  | .finishWorker => s.finishWorker
  | .sampleCheckpoint => s.sampleCheckpoint
  | .writeCheckpoint => s.writeCheckpoint
  | .abandonCheckpoint => some { s with sampled := none }
  | .setAbortError => some { s with abortError := true }
  | .cancelContext => some { s with canceled := true }

/-- A step of the worker or of a checkpoint: it only takes what was enqueued. -/
def PipelineAction.downstream : PipelineAction → Bool
  | .takeEvents _ | .batchApplied | .batchFailed | .funcApplied | .funcFailed | .finishWorker
  | .sampleCheckpoint | .writeCheckpoint | .abandonCheckpoint => true
  | _ => false

/-- **What a step of the worker or of a checkpoint leaves alone.** -/
theorem Pipeline.downstream_eq {c : StreamContext} {s s' : Pipeline} {a : PipelineAction}
    (ha : a.downstream = true) (hs : s.step c a = some s') :
    ∃ applyEventsQueue worker currentCoordinates appliedTransactionCoordinates sampled
      checkpoints more
      failed acknowledged, s' = { s with
        applyEventsQueue, worker, currentCoordinates, appliedTransactionCoordinates, sampled
        checkpoints, done := s.done ++ more, failed, acknowledged } := by
  have hnone : s.done = s.done ++ [] := (List.append_nil _).symm
  cases a with
  | takeEvents batchSize =>
    obtain ⟨-, _, _, -, ⟨-, rfl⟩ | ⟨_, -, rfl⟩ | ⟨_, -, rfl⟩ | ⟨_, _, -, rfl⟩⟩ := takeEvents_eq hs
    · exact ⟨_, _, _, _, _, _, [], _, _, by rw [← hnone]; rfl⟩
    · exact ⟨_, _, _, _, _, _, _, _, _, rfl⟩
    · exact ⟨_, _, _, _, _, _, [], _, _, by rw [← hnone]⟩
    · exact ⟨_, _, _, _, _, _, [], _, _, by rw [← hnone]⟩
  | batchApplied =>
    obtain ⟨_, -, _, _, rfl, -⟩ := batchApplied_eq hs
    exact ⟨_, _, _, _, _, _, _, _, _, rfl⟩
  | batchFailed =>
    obtain ⟨_, -, rfl⟩ := batchFailed_eq hs
    exact ⟨_, _, _, _, _, _, [], _, _, by rw [← hnone]; rfl⟩
  | funcApplied =>
    obtain ⟨_, _, -, rfl⟩ := funcApplied_eq hs
    exact ⟨_, _, _, _, _, _, _, _, _, rfl⟩
  | funcFailed =>
    obtain ⟨_, -, rfl⟩ := funcFailed_eq hs
    exact ⟨_, _, _, _, _, _, [], _, _, by rw [← hnone]; rfl⟩
  | finishWorker =>
    obtain ⟨-, rfl⟩ := finishWorker_eq hs
    exact ⟨_, _, _, _, _, _, [], _, _, by rw [← hnone]⟩
  | sampleCheckpoint =>
    obtain rfl := sampleCheckpoint_eq hs
    exact ⟨_, _, _, _, _, _, [], _, _, by rw [← hnone]⟩
  | writeCheckpoint =>
    obtain ⟨_, _, -, -, -, rfl⟩ := writeCheckpoint_eq hs
    exact ⟨_, _, _, _, _, _, [], _, _, by rw [← hnone]⟩
  | abandonCheckpoint =>
    cases hs
    exact ⟨_, _, _, _, _, _, [], _, _, by rw [← hnone]⟩
  | _ => cases ha

/-! ## A small stream -/

/-- Names are compared exactly; a table `t` of the database `test`. -/
def smallStream : StreamContext where
  databaseName := "test"
  originalTableName := "t"
  changelogTableName := "_t_ghc"
  equalFold := fun a b => a == b
  sprintf := fun _ => []
  parsesTime := fun _ => true
  changelog_ne_original := by
    intro tableName h
    rw [← beq_iff_eq.1 h]
    decide

/-- The insert of a row into the original table. -/
def insertAt (pos : Nat) (id : Int64) : BinlogEvent where
  logPos := pos
  eventSize := 40
  body := .transaction (.rows .insertDML "test" "t" [[.int64 id]])

end GhOst.Logic
