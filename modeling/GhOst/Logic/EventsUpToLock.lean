import GhOst.Logic.Pipeline

/-!
# Waiting for the events up to the lock (`waitForEventsUpToLock`, `go/logic/migrator.go`)

A call writes a challenge to the changelog table and waits until the worker hands that very text
back. The stream is the one of `GhOst.Logic.Pipeline`; here the reader takes its events from the log
of the server, and the worker's function is cut at its three selects, since the receiver may empty
the channel between them.

The log may begin with the sentinels of an earlier run, and a write that was reported as failed can
still take effect later.
-/

namespace GhOst.Logic

open GhOst.Sql GhOst.Binlog GhOst.Mysql Infra

/-! ## The log -/

namespace StreamContext

variable (c : StreamContext)

/-- The state text that a row event of the changelog table brings to `onChangelogStateEvent`. -/
def stateText (ev : BinlogDMLEvent) : Option (List UInt8) :=
  if c.listensTo .changelog ev.databaseName ev.tableName then
    match c.stringColumn ev.newColumnValues 2, c.stringColumn ev.newColumnValues 3 with
    | .ok hint, .ok text => if hint = ascii "state" then some text else none
    | _, _ => none
  else none

end StreamContext

def transactionRows : TransactionEvent → List BinlogDMLEvent
  | .rows dml databaseName tableName rows =>
    match rowEvents databaseName tableName dml rows with
    | .ok events => events
    | .error _ => []
  | _ => []

def eventRows (ev : BinlogEvent) : List BinlogDMLEvent :=
  match ev.body with
  | .transaction event => transactionRows event
  | .transactionPayload events => events.flatMap transactionRows
  | _ => []

/-- The state texts that an event of the log brings. -/
def StreamContext.stateTexts (c : StreamContext) (ev : BinlogEvent) : List (List UInt8) :=
  (eventRows ev).filterMap c.stateText

/-- An event of the log, with the call that wrote it; the call is a record. -/
structure LogEvent where
  event : BinlogEvent
  writtenBy : Option Nat := none
deriving DecidableEq

/-! ## The state -/

/-- `lockProcessedStruct`. -/
structure LockProcessed where
  state : List UInt8
  coords : BinlogCoordinates
deriving DecidableEq

/-- The place of the main goroutine in `waitForEventsUpToLock`. -/
inductive WaitAt where
  /-- not in a call -/
  | outside
  /-- the first write of `WriteAndLogChangelog`, whose error is ignored -/
  | writeChangelog
  /-- the second one, which only logs -/
  | logChangelog
  | waiting
deriving DecidableEq

/-- The place of the worker in the function that sends to `allEventsUpToLockProcessed`. -/
inductive LockSend where
  | begin
  /-- the buffer was full -/
  | full
  | drained
  | ended
deriving DecidableEq

/-- A call that has returned nil, with the struct it accepted; a record. -/
structure Accepted where
  call : Nat
  lockProcessed : LockProcessed
deriving DecidableEq

structure UpToLock where
  pipeline : Pipeline
  /-- the binary log from the place on where the streamer was started -/
  log : List LogEvent
  /-- how many events of the log the reader has taken -/
  next : Nat := 0
  /-- the channel, whose buffer holds one struct -/
  allEventsUpToLockProcessed : Option LockProcessed := none
  send : LockSend := .begin
  main : WaitAt := .outside
  /-- the challenges of the calls, the running one last -/
  challenges : List (List UInt8) := []
  lastLockProcessed : Option LockProcessed := none
  -- records
  /-- the calls whose write was reported as failed and may still take effect -/
  failedWrites : List Nat := []
  /-- for each entry of the reader, the place in the log of the event it was made from -/
  origins : List Nat := []
  accepted : List Accepted := []
deriving DecidableEq

/-- Before the first call, with a log that others have written. -/
def initUpToLock (pipeline : Pipeline) (log : List BinlogEvent) : UpToLock where
  pipeline
  log := log.map fun event => { event }

/-- `fmt.Sprintf("%s:%d", AllEventsUpToLockProcessed, time.UnixNano())`. -/
def allEventsUpToLockProcessedChallenge (nanos : Nat) : List UInt8 :=
  ascii ("AllEventsUpToLockProcessed:" ++ toString nanos)

/-! ## The steps -/

namespace UpToLock

variable (c : StreamContext) (s : UpToLock)

def call : Nat := s.challenges.length - 1

/-- The function of the worker that is being run, if it is the one of a sentinel. -/
def sending : Option LockProcessed :=
  match s.pipeline.worker with
  | .running (.lockProcessed state coords) => some { state, coords }
  | _ => none

def readEvent : Option UpToLock :=
  match s.log[s.next]? with
  | none => none
  | some l =>
    match s.pipeline.readEvent c l.event with
    | none => none
    | some pipeline =>
      some { s with
        pipeline
        next := s.next + 1
        origins := s.origins ++
          List.replicate (pipeline.emitted.length - s.pipeline.emitted.length) s.next }

/-- The other goroutines of the stream. The function of a sentinel is not begun after an abort. -/
def streamStep (a : PipelineAction) : Option UpToLock :=
  match a with
  | .readEvent _ => none
  | .funcApplied =>
    if s.sending.isSome ∧ s.send ≠ .ended then none
    else
      match s.pipeline.step c .funcApplied with
      | none => none
      | some pipeline => some { s with pipeline, send := .begin }
  | .funcFailed =>
    if s.send = .begin then
      match s.pipeline.step c .funcFailed with
      | none => none
      | some pipeline => some { s with pipeline }
    else none
  | a =>
    match s.pipeline.step c a with
    | none => none
    | some pipeline => some { s with pipeline }

/-- The first select of the sentinel's function. -/
def trySend : Option UpToLock :=
  match s.sending, s.send, s.allEventsUpToLockProcessed with
  | some lps, .begin, none => some { s with allEventsUpToLockProcessed := some lps, send := .ended }
  | some _, .begin, some _ => some { s with send := .full }
  | _, _, _ => none

/-- The second select takes a stale value, if the receiver has not taken it. -/
def drain : Option UpToLock :=
  if s.send = .full then some { s with allEventsUpToLockProcessed := none, send := .drained }
  else none

def trySendAgain : Option UpToLock :=
  match s.sending, s.send, s.allEventsUpToLockProcessed with
  | some lps, .drained, none =>
    some { s with allEventsUpToLockProcessed := some lps, send := .ended }
  | some _, .drained, some _ => some { s with send := .ended }
  | _, _, _ => none

/-- `waitForEventsUpToLock` is called and computes its challenge. -/
def start (nanos : Nat) : Option UpToLock :=
  if s.main = .outside then
    some { s with
      main := .writeChangelog
      challenges := s.challenges ++ [allEventsUpToLockProcessedChallenge nanos] }
  else none

/-- `WriteChangelog("state", challenge)` of call `n` takes effect as `event`. -/
def committed (n : Nat) (event : BinlogEvent) : UpToLock :=
  { s with log := s.log ++ [{ event, writtenBy := some n }] }

/-- The event is what the server logs for the write of call `n`. -/
def IsWriteOf (n : Nat) (event : BinlogEvent) : Prop :=
  s.challenges[n]?.map (fun t => [t]) = some (c.stateTexts event)

instance (n : Nat) (event : BinlogEvent) : Decidable (s.IsWriteOf c n event) :=
  inferInstanceAs (Decidable (_ = _))

/-- The first write, with the event it leaves in the log when it succeeds. -/
def writeChangelog (written : Option BinlogEvent) : Option UpToLock :=
  if s.main = .writeChangelog then
    match written with
    | none =>
      some { s with main := .logChangelog, failedWrites := s.failedWrites ++ [s.call] }
    | some event =>
      if s.IsWriteOf c s.call event then
        some { s.committed s.call event with main := .logChangelog }
      else none
  else none

/-- A write that was reported as failed takes effect after all. -/
def lateWrite (n : Nat) (event : BinlogEvent) : Option UpToLock :=
  if n ∈ s.failedWrites ∧ s.IsWriteOf c n event then
    some { s.committed n event with failedWrites := s.failedWrites.erase n }
  else none

/-- The second write; its error is returned. -/
def logChangelog (ok : Bool) : Option UpToLock :=
  if s.main = .logChangelog then some { s with main := if ok then .waiting else .outside } else none

/-- The main goroutine receives from the channel; a sentinel that is not its own is skipped. -/
def receive : Option UpToLock :=
  if s.main = .waiting then
    match s.allEventsUpToLockProcessed with
    | none => none
    | some lps =>
      if s.challenges.getLast? = some lps.state then
        some { s with
          allEventsUpToLockProcessed := none
          main := .outside
          lastLockProcessed := some lps
          accepted := s.accepted ++ [{ call := s.call, lockProcessed := lps }] }
      else some { s with allEventsUpToLockProcessed := none }
  else none

def timeout : Option UpToLock :=
  if s.main = .waiting then some { s with main := .outside } else none

end UpToLock

inductive UpToLockAction where
  | stream (a : PipelineAction)
  | readEvent
  /-- others write to the server -/
  | commit (event : BinlogEvent)
  | start (nanos : Nat)
  | writeChangelog (written : Option BinlogEvent)
  | lateWrite (n : Nat) (event : BinlogEvent)
  | logChangelog (ok : Bool)
  | trySend
  | drain
  | trySendAgain
  | receive
  | timeout
deriving DecidableEq

def UpToLock.step (c : StreamContext) (s : UpToLock) : UpToLockAction → Option UpToLock
  | .stream a => s.streamStep c a
  | .readEvent => s.readEvent c
  | .commit event => some { s with log := s.log ++ [{ event }] }
  | .start nanos => s.start nanos
  | .writeChangelog written => s.writeChangelog c written
  | .lateWrite n event => s.lateWrite c n event
  | .logChangelog ok => s.logChangelog ok
  | .trySend => s.trySend
  | .drain => s.drain
  | .trySendAgain => s.trySendAgain
  | .receive => s.receive
  | .timeout => s.timeout

/-- A call finds its own challenge neither among those before it nor in the log, and nobody else
writes it. -/
def UpToLock.DistinctChallenges (c : StreamContext) (s : UpToLock) : UpToLockAction → Prop
  | .start nanos =>
    allEventsUpToLockProcessedChallenge nanos ∉ s.challenges ∧
      ∀ l ∈ s.log, allEventsUpToLockProcessedChallenge nanos ∉ c.stateTexts l.event
  | .commit event => ∀ t ∈ c.stateTexts event, t ∉ s.challenges
  | _ => True

instance (c : StreamContext) (s : UpToLock) (a : UpToLockAction) :
    Decidable (s.DistinctChallenges c a) := by
  cases a <;> unfold UpToLock.DistinctChallenges <;> infer_instance

/-! ## What each step does -/

namespace UpToLock

variable {c : StreamContext} {s s' : UpToLock}

theorem streamStep_eq {a : PipelineAction} (h : s.streamStep c a = some s') :
    ∃ pipeline send, s.pipeline.step c a = some pipeline ∧ s' = { s with pipeline, send } ∧
      ∀ ev, a ≠ .readEvent ev := by
  cases a
  case readEvent ev => simp [streamStep] at h
  case funcApplied =>
    rw [streamStep] at h
    split at h
    · simp at h
    · split at h
      · simp at h
      · next pipeline hp =>
        exact ⟨pipeline, .begin, hp, (Option.some.inj h).symm, fun _ => PipelineAction.noConfusion⟩
  case funcFailed =>
    rw [streamStep] at h
    split at h
    · split at h
      · simp at h
      · next pipeline hp =>
        exact ⟨pipeline, s.send, hp, (Option.some.inj h).symm, fun _ => PipelineAction.noConfusion⟩
    · simp at h
  all_goals
    rw [streamStep] at h
    · split at h
      · simp at h
      · next pipeline hp =>
        exact ⟨pipeline, s.send, hp, (Option.some.inj h).symm, fun _ => PipelineAction.noConfusion⟩
    all_goals simp

theorem readEvent_eq (h : s.readEvent c = some s') : ∃ l pipeline, s.log[s.next]? = some l ∧
    s.pipeline.readEvent c l.event = some pipeline ∧
    s' = { s with
      pipeline
      next := s.next + 1
      origins := s.origins ++
        List.replicate (pipeline.emitted.length - s.pipeline.emitted.length) s.next } := by
  unfold readEvent at h
  split at h
  · simp at h
  · next l hl =>
    split at h
    · simp at h
    · next pipeline hp => exact ⟨l, pipeline, hl, hp, (Option.some.inj h).symm⟩

theorem trySend_eq (h : s.trySend = some s' ∨ s.trySendAgain = some s') :
    ∃ channel send, s' = { s with allEventsUpToLockProcessed := channel, send } ∧
      (channel = s.allEventsUpToLockProcessed ∨ channel = s.sending) := by
  rcases h with h | h
  · unfold trySend at h
    split at h
    · next lps hs _ _ => exact ⟨_, _, (Option.some.inj h).symm, .inr hs.symm⟩
    · exact ⟨_, _, (Option.some.inj h).symm, .inl rfl⟩
    · simp at h
  · unfold trySendAgain at h
    split at h
    · next lps hs _ _ => exact ⟨_, _, (Option.some.inj h).symm, .inr hs.symm⟩
    · exact ⟨_, _, (Option.some.inj h).symm, .inl rfl⟩
    · simp at h

theorem drain_eq (h : s.drain = some s') :
    s' = { s with allEventsUpToLockProcessed := none, send := .drained } := by
  unfold drain at h
  obtain ⟨-, rfl⟩ := of_guard h
  exact rfl

theorem start_eq {nanos : Nat} (h : s.start nanos = some s') :
    s' = { s with
      main := .writeChangelog
      challenges := s.challenges ++ [allEventsUpToLockProcessedChallenge nanos] } := by
  unfold start at h
  obtain ⟨-, rfl⟩ := of_guard h
  exact rfl

theorem writeChangelog_eq {written : Option BinlogEvent}
    (h : s.writeChangelog c written = some s') : ∃ main failedWrites,
    s' = { s with main, failedWrites } ∨
      ∃ n event, s.IsWriteOf c n event ∧
        s' = { s.committed n event with main, failedWrites } := by
  unfold writeChangelog at h
  split at h
  · split at h
    · exact ⟨_, _, .inl (Option.some.inj h).symm⟩
    · next event =>
      obtain ⟨hw, rfl⟩ := of_guard h
      exact ⟨_, _, .inr ⟨_, event, hw, rfl⟩⟩
  · simp at h

theorem lateWrite_eq {n : Nat} {event : BinlogEvent} (h : s.lateWrite c n event = some s') :
    s.IsWriteOf c n event ∧
      s' = { s.committed n event with failedWrites := s.failedWrites.erase n } := by
  unfold lateWrite at h
  obtain ⟨hg, rfl⟩ := of_guard h
  exact ⟨hg.2, rfl⟩

theorem logChangelog_eq {ok : Bool} (h : s.logChangelog ok = some s') :
    s' = { s with main := if ok then .waiting else .outside } := by
  unfold logChangelog at h
  obtain ⟨-, rfl⟩ := of_guard h
  exact rfl

theorem receive_eq (h : s.receive = some s') : ∃ lps, s.allEventsUpToLockProcessed = some lps ∧
    (s.challenges.getLast? = some lps.state ∧
        s' = { s with
          allEventsUpToLockProcessed := none
          main := .outside
          lastLockProcessed := some lps
          accepted := s.accepted ++ [{ call := s.call, lockProcessed := lps }] } ∨
      s' = { s with allEventsUpToLockProcessed := none }) := by
  unfold receive at h
  split at h
  · split at h
    · simp at h
    · next lps hl =>
      refine ⟨lps, hl, ?_⟩
      split at h
      · next hc => exact .inl ⟨hc, (Option.some.inj h).symm⟩
      · exact .inr (Option.some.inj h).symm
  · simp at h

theorem timeout_eq (h : s.timeout = some s') : s' = { s with main := .outside } := by
  unfold timeout at h
  obtain ⟨-, rfl⟩ := of_guard h
  exact rfl

end UpToLock

end GhOst.Logic
