import GhOst.Logic.CutOver

/-!
# Aborting a migration (`Migrate`, `listenOnPanicAbort` and the goroutines that send)

A fatal error is sent to `PanicAbort`, or handed to `SetAbortError` by the dispatcher of the
streamer. It is stored, the context is cancelled, and the goroutines stop where they look at one of
the two.

`Migrate` is modelled from its start to its return, with every goroutine that it exchanges
something with over a channel. A step is a call, a send together with its receive, or one branch of
a `select`. Left out: `AttemptInstantDDL`, checkpoints, the replica modes, and what an earlier
attempt of the cut-over has left running, which has channels of its own.
-/

namespace GhOst.Logic

structure MigrateContext where
  maxRetries : Nat
  resume : Bool := false
  noop : Bool := false
  /-- `MigrationRangeMinValues` is nil -/
  emptyTable : Bool := false
  /-- `CutOverTwoStep` in place of `CutOverAtomic` -/
  twoStep : Bool := false
  maxEventsBatchSize : Nat := 1000

/-! ## The places -/

/-- What `Migrate` does next. -/
inductive MigratePlace where
  | initiateInspector
  | initiateStreaming
  | initiateApplier
  | createFlagFiles
  | ghostTableMigrated
  /-- from `inspectOriginalAndGhostTables` to `ReadMigrationRangeValues` -/
  | prepare
  /-- `initiateThrottler`, with `n` receives to go -/
  | firstThrottlingCollected (n : Nat)
  | onBeforeRowCopy
  /-- the `select` of `consumeRowCopyComplete` -/
  | rowCopyComplete
  /-- the `checkAbort` that follows it -/
  | rowCopyCheckAbort
  /-- `OnRowCopyComplete` and `OnBeforeCutOver` -/
  | onBeforeCutOver
  /-- the loop of the retrier, at its attempt `i` -/
  | retry (i : Nat)
  | throttle (i : Nat)
  /-- `sleepWhileTrue`, and the calls up to the cut-over proper -/
  | sleepWhileTrue (i : Nat)
  | atomicCutOver (i : Nat)
  | cutOverTwoStep (i : Nat)
  /-- the retrier sends its last error -/
  | panicAbort (err : String)
  | finalCleanup
  | onSuccess
  | checkAbort
  | returned
deriving DecidableEq

/-- A goroutine that calls `abort` with what it receives. -/
inductive AborterAt where
  | notStarted
  | receiving
  | setAbortError (err : String)
  | cancelContext
  | returned
deriving DecidableEq

inductive StreamerAt where
  | notStarted
  | streaming
  | panicAbort (err : String)
  | returned
deriving DecidableEq

/-- The goroutine of `StreamEvents` that calls `notifyListeners`. -/
inductive DispatcherAt where
  | notStarted
  | receiving
  /-- in `onChangelogStateEvent`, sending -/
  | ghostTableMigrated
  /-- in a listener, sending -/
  | applyEventsQueue
  | setAbortError (err : String)
  | cancelContext
  | returned
deriving DecidableEq

inductive IterateAt where
  | notStarted
  | checkAbort
  | copyRowsQueue
  | rowCopyComplete (err : Option String)
  | returned
deriving DecidableEq

/-- A send by way of `SendWithContext`. -/
inductive ContextSend where
  | panicAbort (err : String)
  | rowCopyComplete (err : Option String)
deriving DecidableEq

inductive WriterAt where
  | notStarted
  | checkAbort
  | select
  | onApplyEventStruct
  | copyRowsFunc
  /-- the sends that are left before it goes on at `next` -/
  | sending (sends : List ContextSend) (next : WriterAt)
  | returned
deriving DecidableEq

structure MigrateRun where
  main : MigratePlace := .initiateInspector
  /-- what `Migrate` has returned -/
  result : Option (Option String) := none
  abortError : Option String := none
  cancelled : Bool := false
  listenOnPanicAbort : AborterAt := .receiving
  streamer : StreamerAt := .notStarted
  dispatcher : DispatcherAt := .notStarted
  applyEventsQueue : Nat := 0
  iterateChunks : IterateAt := .notStarted
  executeWriteFuncs : WriterAt := .notStarted
  hasNoFurtherRangeFlag : Bool := false
  rowCopyCompleteFlag : Bool := false
  /-- the goroutine that `consumeRowCopyComplete` leaves behind -/
  drain : AborterAt := .notStarted
  /-- the collectors of the throttler that have not sent yet -/
  collectors : Nat := 0
  firstThrottlingCollected : Nat := 0
  cutOver : CutOver := {}
  /-- what was handed to `SetAbortError`, a record -/
  faults : List String := []
deriving DecidableEq

inductive MigrateOutcome where
  | ok
  | err (err : String)
  /-- an error with the text `warnings detected` -/
  | warnings (err : String)
  /-- the loop goes on: still throttled or postponed; for a chunk: there is no further range -/
  | again
deriving DecidableEq

/-- `context.Canceled`. -/
def contextCanceled : String := "context canceled"

namespace MigrateRun

variable (ctx : MigrateContext) (s : MigrateRun)

/-! ## Aborting -/

def setAbortError (err : String) : MigrateRun :=
  { s with abortError := s.abortError.or (some err), faults := s.faults ++ [err] }

def cancelContext : MigrateRun := { s with cancelled := true }

def checkAbort : Option String :=
  match s.abortError with
  | some err => some err
  | none => if s.cancelled then some contextCanceled else none

/-- `Migrate` returns; the context is cancelled by `defer`. -/
def returns (err : Option String) : MigrateRun :=
  { s with main := .returned, result := some err, cancelled := true }

/-- A goroutine that has received `err` and aborts. -/
def aborterStep (place : AborterAt) (set : MigrateRun → AborterAt → MigrateRun) :
    Option MigrateRun :=
  match place with
  | .setAbortError err => some (set (s.setAbortError err) .cancelContext)
  | .cancelContext => some (set s.cancelContext .returned)
  | _ => none

/-- `SendWithContext` to `PanicAbort`: it is received, or the context is done. -/
def sendPanicAbort (err : String) (done : Bool) : Option MigrateRun :=
  if done then if s.cancelled then some s else none
  else if s.listenOnPanicAbort = .receiving then
    some { s with listenOnPanicAbort := .setAbortError err }
  else none

/-- `rowCopyComplete` is received from, by `Migrate` or by the goroutine it leaves behind. -/
def receiveRowCopyComplete (err : Option String) : Option MigrateRun :=
  if s.main = .rowCopyComplete then
    match err with
    | some err =>
      some { (s.setAbortError err).cancelContext with main := .rowCopyCheckAbort }
    | none =>
      some { s with
        main := .rowCopyCheckAbort
        rowCopyCompleteFlag := true
        drain := .receiving }
  else if s.drain = .receiving then
    match err with
    | some err => some { s with drain := .setAbortError err }
    | none => some s
  else none

/-- `SendWithContext` to `rowCopyComplete`. -/
def sendRowCopyComplete (err : Option String) (done : Bool) : Option MigrateRun :=
  if done then if s.cancelled then some s else none
  else s.receiveRowCopyComplete err

/-! ## `Migrate` -/

/-- A call whose error `Migrate` returns. -/
def call (outcome : MigrateOutcome) (next : MigrateRun) : Option MigrateRun :=
  match outcome with
  | .ok => some next
  | .err err => some (s.returns (some err))
  | _ => none

/-- `if err := mgtr.checkAbort(); err != nil { return err }`. -/
def checked (next : MigrateRun) : MigrateRun :=
  match s.checkAbort with
  | some err => s.returns (some err)
  | none => next

def startStreaming : MigrateRun := { s with streamer := .streaming, dispatcher := .receiving }

/-- Attempt `i` of the cut-over returns to the retrier. -/
def endAttempt (i : Nat) : MigrateOutcome → Option MigrateRun
  | .ok => some { s with main := .finalCleanup }
  | .err err =>
    some { s with main := if i + 1 < ctx.maxRetries then .retry (i + 1) else .panicAbort err }
  | .warnings err => some { s with main := .panicAbort err }
  | .again => none

def mainStep (outcome : MigrateOutcome) : Option MigrateRun :=
  match s.main with
  | .initiateInspector =>
    s.call outcome (s.checked
      { s with main := if ctx.resume then .initiateApplier else .initiateStreaming })
  | .initiateStreaming =>
    s.call outcome (s.startStreaming.checked { s.startStreaming with main := .initiateApplier })
  | .initiateApplier => s.call outcome (s.checked { s with main := .createFlagFiles })
  | .createFlagFiles =>
    s.call outcome { s with main := if ctx.resume then .prepare else .ghostTableMigrated }
  -- a bare receive
  | .ghostTableMigrated => none
  | .prepare =>
    s.call outcome { (if ctx.resume then s.startStreaming else s) with
      main := .firstThrottlingCollected 3, collectors := 3 }
  | .firstThrottlingCollected 0 => some { s with main := .onBeforeRowCopy }
  | .firstThrottlingCollected (n + 1) =>
    if 0 < s.firstThrottlingCollected then
      some { s with
        firstThrottlingCollected := s.firstThrottlingCollected - 1
        main := .firstThrottlingCollected n }
    else none
  | .onBeforeRowCopy =>
    s.call outcome { s with
      main := .rowCopyComplete
      executeWriteFuncs := if ctx.noop then .returned else .checkAbort
      iterateChunks := if ctx.noop || ctx.emptyTable then .rowCopyComplete none else .checkAbort }
  | .rowCopyComplete =>
    if s.cancelled then some { s with main := .rowCopyCheckAbort } else none
  | .rowCopyCheckAbort => some (s.checked { s with main := .onBeforeCutOver })
  | .onBeforeCutOver => s.call outcome { s with main := .retry 0 }
  | .retry i =>
    some (s.checked { s with main := if ctx.noop then .finalCleanup else .throttle i })
  | .throttle i =>
    if outcome = .again ∧ s.cancelled = false then some s
    else some { s with main := .sleepWhileTrue i }
  | .sleepWhileTrue i =>
    match s.checkAbort with
    | some err => s.endAttempt ctx i (.err err)
    | none =>
      match outcome with
      | .ok =>
        if ctx.twoStep then some { s with main := .cutOverTwoStep i }
        else some { s with main := .atomicCutOver i, cutOver := { old := s.cutOver.old } }
      | .again => some s
      | _ => s.endAttempt ctx i outcome
  | .atomicCutOver i => if s.cutOver.main = .returned then s.endAttempt ctx i outcome else none
  | .cutOverTwoStep i => s.endAttempt ctx i outcome
  | .panicAbort err =>
    -- `again` stands for the branch of the context
    (s.sendPanicAbort err (outcome == .again)).map fun s => s.returns (some err)
  | .finalCleanup =>
    -- its error is dropped, that of `checkAbort` included
    if outcome = .ok ∧ s.checkAbort = none then some { s with main := .onSuccess }
    else some (s.returns none)
  | .onSuccess => s.call outcome { s with main := .checkAbort }
  | .checkAbort => some (s.returns s.checkAbort)
  | .returned => none

def cutOverStep (a : CutOverAction) : Option MigrateRun :=
  match s.main with
  | .atomicCutOver _ =>
    (s.cutOver.step ctx.maxRetries a).map fun cutOver => { s with cutOver }
  | _ => none

/-- A collector of the throttler has collected for the first time, and sends. -/
def collect : Option MigrateRun :=
  if 0 < s.collectors then
    some { s with
      collectors := s.collectors - 1
      firstThrottlingCollected := s.firstThrottlingCollected + 1 }
  else none

/-! ## The streamer -/

def streamerFails (err : String) : Option MigrateRun :=
  if s.streamer = .streaming then some { s with streamer := .panicAbort err } else none

def streamerSends (done : Bool) : Option MigrateRun :=
  match s.streamer with
  | .panicAbort err =>
    (s.sendPanicAbort err done).map fun s => { s with streamer := .returned }
  | _ => none

/-- An entry, by what its listener does. -/
inductive EntryKind where
  | ghostTableMigrated
  | applyEventsQueue
  /-- no blocking send -/
  | other
  | fails (err : String)
deriving DecidableEq

/-- The dispatcher receives an entry and calls `notifyListeners`. -/
def notifyListeners (entry : EntryKind) : Option MigrateRun :=
  if s.dispatcher = .receiving then
    match s.checkAbort with
    | some err => some { s with dispatcher := .setAbortError err }
    | none =>
      match entry with
      | .ghostTableMigrated =>
        -- written by `initiateApplier`
        if ctx.resume = false ∧ s.main ≠ .initiateInspector ∧ s.main ≠ .initiateStreaming then
          some { s with dispatcher := .ghostTableMigrated }
        else none
      | .applyEventsQueue => some { s with dispatcher := .applyEventsQueue }
      | .other => some s
      | .fails err => some { s with dispatcher := .setAbortError err }
  else none

/-- The `SendWithContext` of a listener. -/
def dispatcherSends (done : Bool) : Option MigrateRun :=
  match s.dispatcher with
  | .ghostTableMigrated =>
    if done then
      -- the error is dropped
      if s.cancelled then some { s with dispatcher := .receiving } else none
    else if s.main = .ghostTableMigrated then
      some { s with dispatcher := .receiving, main := .prepare }
    else none
  | .applyEventsQueue =>
    if done then
      if s.cancelled then some { s with dispatcher := .setAbortError contextCanceled } else none
    else if s.applyEventsQueue < ctx.maxEventsBatchSize then
      some { s with dispatcher := .receiving, applyEventsQueue := s.applyEventsQueue + 1 }
    else none
  | _ => none

/-- The dispatcher sees that the context is done, or aborts after an error. -/
def dispatcherStep : Option MigrateRun :=
  match s.dispatcher with
  | .receiving => if s.cancelled then some { s with dispatcher := .returned } else none
  | .setAbortError err => some { s.setAbortError err with dispatcher := .cancelContext }
  | .cancelContext => some { s.cancelContext with dispatcher := .returned }
  | _ => none

/-! ## `iterateChunks` and `executeWriteFuncs` -/

def iterateStep : Option MigrateRun :=
  match s.iterateChunks with
  | .checkAbort =>
    match s.checkAbort with
    | some err => some { s with iterateChunks := .rowCopyComplete (some err) }
    | none =>
      some { s with
        iterateChunks :=
          if s.rowCopyCompleteFlag || s.hasNoFurtherRangeFlag then .returned else .copyRowsQueue }
  | _ => none

def iterateSends (done : Bool) : Option MigrateRun :=
  match s.iterateChunks with
  | .copyRowsQueue =>
    if done then
      if s.cancelled then
        some { s with
          iterateChunks := .rowCopyComplete (some (s.checkAbort.getD contextCanceled)) }
      else none
    else if s.executeWriteFuncs = .select then
      some { s with iterateChunks := .checkAbort, executeWriteFuncs := .copyRowsFunc }
    else none
  | .rowCopyComplete err =>
    (s.sendRowCopyComplete err done).map fun s => { s with iterateChunks := .returned }
  | _ => none

/-- `executeWriteFuncs`, with what its calls end with. -/
def writerStep (outcome : MigrateOutcome) : Option MigrateRun :=
  match s.executeWriteFuncs with
  | .checkAbort =>
    match s.checkAbort with
    | some err => some { s with executeWriteFuncs := .sending [.panicAbort err] .returned }
    | none =>
      -- `finishedMigrating`
      some { s with executeWriteFuncs := if s.result.isSome then .returned else .select }
  | .select =>
    if 0 < s.applyEventsQueue then
      some { s with
        applyEventsQueue := s.applyEventsQueue - 1, executeWriteFuncs := .onApplyEventStruct }
    else some { s with executeWriteFuncs := .checkAbort }
  | .onApplyEventStruct =>
    match s.checkAbort, outcome with
    | some err, _ => some { s with executeWriteFuncs := .sending [.panicAbort err] .returned }
    | none, .ok => some { s with executeWriteFuncs := .checkAbort }
    -- the retrier sends, and so does the caller
    | none, .err err =>
      some { s with executeWriteFuncs := .sending [.panicAbort err, .panicAbort err] .returned }
    | none, _ => none
  | .copyRowsFunc =>
    match outcome with
    | .ok => some { s with executeWriteFuncs := .checkAbort }
    | .again =>
      some { s with
        hasNoFurtherRangeFlag := true
        executeWriteFuncs := .sending [.rowCopyComplete none] .checkAbort }
    | .err err =>
      -- the last attempt has failed; an attempt is not begun after an abort
      match s.checkAbort with
      | some err =>
        some { s with
          executeWriteFuncs := .sending [.rowCopyComplete (some err), .panicAbort err] .returned }
      | none =>
        some { s with
          executeWriteFuncs :=
            .sending [.panicAbort err, .rowCopyComplete (some err), .panicAbort err] .returned }
    -- `PanicOnWarnings`
    | .warnings err =>
      some { s with executeWriteFuncs := .sending [.rowCopyComplete (some err)] .copyRowsFunc }
  | .sending [] next => some { s with executeWriteFuncs := next }
  | _ => none

def writerSends (done : Bool) : Option MigrateRun :=
  match s.executeWriteFuncs with
  | .sending (.panicAbort err :: sends) next =>
    (s.sendPanicAbort err done).map fun s => { s with executeWriteFuncs := .sending sends next }
  | .sending (.rowCopyComplete err :: sends) next =>
    (s.sendRowCopyComplete err done).map fun s =>
      { s with executeWriteFuncs := .sending sends next }
  | _ => none

end MigrateRun

inductive MigrateAction where
  | main (outcome : MigrateOutcome)
  | cutOver (a : CutOverAction)
  | collect
  | listener
  | drain
  /-- another goroutine sends a fatal error to `PanicAbort` -/
  | fatal (err : String)
  | streamerFails (err : String)
  | streamerSends (done : Bool)
  | notifyListeners (entry : MigrateRun.EntryKind)
  | dispatcherSends (done : Bool)
  | dispatcher
  | iterate
  | iterateSends (done : Bool)
  | writer (outcome : MigrateOutcome)
  | writerSends (done : Bool)
deriving DecidableEq

def MigrateRun.step (ctx : MigrateContext) (s : MigrateRun) : MigrateAction → Option MigrateRun
  | .main outcome => s.mainStep ctx outcome
  | .cutOver a => s.cutOverStep ctx a
  | .collect => s.collect
  | .listener =>
    s.aborterStep s.listenOnPanicAbort fun s listener => { s with listenOnPanicAbort := listener }
  | .drain => s.aborterStep s.drain fun s drain => { s with drain }
  | .fatal err => s.sendPanicAbort err false
  | .streamerFails err => s.streamerFails err
  | .streamerSends done => s.streamerSends done
  | .notifyListeners entry => s.notifyListeners ctx entry
  | .dispatcherSends done => s.dispatcherSends ctx done
  | .dispatcher => s.dispatcherStep
  | .iterate => s.iterateStep
  | .iterateSends done => s.iterateSends done
  | .writer outcome => s.writerStep outcome
  | .writerSends done => s.writerSends done

end GhOst.Logic
