import Mathlib.Logic.Function.Basic
import GhOst.Logic.CutOver

/-!
# Consecutive attempts of the atomic cut-over

`cutOverOperationWithMetrics` calls the cut-over again when it has returned an error. The goroutines
of an earlier attempt may still be running then, and its statements waiting at the server: the
attempts meet at the three table names.

In contrast to `GhOst.Logic.CutOver`, the table that bears a name is kept and a check of the sentry
table is not one step with its `DROP`. A statement may take effect although it is reported as
failed, and the server may notice a lost connection late.
-/

namespace GhOst.Logic

/-! ## The state -/

/-- The tables, by what they hold. -/
inductive Table where
  | original
  | ghost
  /-- a table with the magic comment -/
  | sentry
deriving DecidableEq

structure TableNames where
  original : Option Table := some .original
  ghost : Option Table := some .ghost
  old : Option Table := none
deriving DecidableEq

/-- The place of the main goroutine in `atomicCutOver`. -/
inductive AttemptAt where
  | tableLocked
  | lockOriginalSessionId
  | waitForEventsUpToLock
  /-- the loop of `createTriggers`, at trigger `k` -/
  | createTriggers (k : Nat)
  | startRename
  | renameSessionId
  /-- the loop of `retryOperation`, at its attempt `n` -/
  | waitForRename (n : Nat)
  | expectUsedLock
  | okToUnlockTable
  | tableUnlocked
  | tablesRenamed
  /-- the deferred send, with or without an error to return -/
  | returning (err : Bool)
  | returned
deriving DecidableEq

/-- The place of the locking goroutine in `AtomicCutOverMagicLock`. -/
inductive SentryLockAt where
  | begin
  | connectionId
  | getLock
  | lockWaitTimeout
  /-- `CreateAtomicCutOverSentryTable` looks for a sentry table that is left over -/
  | showLeftover
  /-- it has seen one -/
  | dropLeftover
  | createSentryTable
  | waitTimeout
  | lockTables
  | okToUnlockTable
  | dropSentryTable
  | expectMetadataLock
  | unlockTables
  /-- the deferred sends -/
  | returning
  /-- the deferred `DropAtomicCutOverSentryTableIfExists` -/
  | showSentry
  /-- it has seen a sentry table -/
  | dropSentry
  | returned
deriving DecidableEq

structure Attempt where
  main : AttemptAt := .tableLocked
  lock : SentryLockAt := .begin
  rename : RenameAt := .notStarted
  -- the channels; an error is `true`
  okToUnlockTable : Nat := 0
  lockOriginalSessionIdChan : List Int := []
  tableLocked : List Bool := []
  tableUnlocked : List Bool := []
  renameSessionIdChan : List Int := []
  tablesRenamed : List Bool := []
  tableRenameKnownToHaveFailed : Bool := false
  renameSessionId : Int := 0
  /-- the locking session, as its client and as the server see it -/
  lockConnected : Bool := true
  lockSession : Bool := true
  renameConnected : Bool := true
  statement : RenameStatement := .notIssued
  /-- what `atomicCutOver` has returned; an error is `true` -/
  result : Option Bool := none
  /-- how many of its `create trigger` have taken effect; a record -/
  created : Nat := 0
deriving DecidableEq

structure CutOvers where
  names : TableNames := {}
  /-- the attempt whose session holds `LOCK TABLES` -/
  lockedBy : Option Nat := none
  /-- the copied triggers on the ghost table -/
  ghostTriggers : List String := []
  attempts : Nat → Attempt := fun _ => {}
  /-- the attempt that the main goroutine is in -/
  current : Nat := 0
  /-- the tables that were dropped under the name of the old table; a record -/
  dropped : List Table := []

/-- What the migration context fixes. -/
structure CutOverContext where
  maxRetries : Nat
  includeTriggers : Bool := false
  triggers : List String := []
  triggerSuffix : String := ""
  removeTriggerSuffix : Bool := false

def CutOverContext.getGhostTriggerName (ctx : CutOverContext) (triggerName : String) : String :=
  if ctx.removeTriggerSuffix && triggerName.endsWith ctx.triggerSuffix then
    (triggerName.dropEnd ctx.triggerSuffix.length).toString
  else triggerName ++ ctx.triggerSuffix

inductive CallOutcome where
  | ok
  | err
  /-- it takes effect and is reported as failed: its connection is lost -/
  | lost
deriving DecidableEq

namespace CallOutcome

def takesEffect : CallOutcome → Bool
  | .err => false
  | _ => true

end CallOutcome

namespace Attempt

variable (a : Attempt)

/-- `tableLocked <- err; return err`. -/
def lockFails : Attempt := { a with tableLocked := a.tableLocked ++ [true], lock := .returning }

/-- A statement that is sent over the locking session arrives at the server. -/
def lockReaches : Bool := a.lockConnected && a.lockSession

/-- A statement of the locking session that has no effect on the tables. -/
def lockCall (outcome : CallOutcome) (next : SentryLockAt) : Attempt :=
  if outcome = .ok ∧ a.lockReaches then { a with lock := next } else a.lockFails

/-- `AtomicCutoverRename` returns an error, and the goroutine aborts the cut-over. -/
def renameFails : Attempt :=
  { a with
    rename := .returned
    tableRenameKnownToHaveFailed := true
    okToUnlockTable := a.okToUnlockTable + 1 }

/-- The deferred sends of `AtomicCutoverRename`. -/
def renameDeferred : Attempt :=
  { a with
    renameSessionIdChan := a.renameSessionIdChan ++ [-1]
    tablesRenamed := a.tablesRenamed ++ [true] }

/-- `ExpectProcess` finds the renaming session in a `metadata lock` state. -/
def renameInProcessList : Bool :=
  a.statement = .waiting ∧ a.renameSessionId = renameConnectionId

end Attempt

namespace CutOvers

variable (ctx : CutOverContext) (s : CutOvers)

def setAttempt (i : Nat) (a : Attempt) : CutOvers :=
  { s with attempts := Function.update s.attempts i a }

/-- `drop table if exists` on the name of the old table. -/
def dropOld : CutOvers :=
  { s with names := { s.names with old := none }, dropped := s.dropped ++ s.names.old.toList }

/-- `create table` of the sentry table. -/
def createSentry : CutOvers := { s with names := { s.names with old := some .sentry } }

/-- `lock tables` by the locking session of attempt `i`. -/
def lock (i : Nat) : CutOvers := { s with lockedBy := some i }

/-- The locking session of attempt `i` unlocks, or ends. -/
def unlock (i : Nat) : CutOvers :=
  { s with lockedBy := if s.lockedBy = some i then none else s.lockedBy }

/-! ## `AtomicCutOverMagicLock` -/

/-- The step of the locking goroutine of attempt `i`. Except under the lock, the sentry table is
created and dropped on another connection. -/
def lockStep (i : Nat) (outcome : CallOutcome) : Option CutOvers :=
  let a := s.attempts i
  match a.lock with
  | .begin =>
    if outcome = .ok then some (s.setAttempt i { a with lock := .connectionId })
    else
      some (s.setAttempt i { a with tableLocked := a.tableLocked ++ [true], lock := .returned })
  | .connectionId =>
    some (s.setAttempt i
      (if outcome = .ok ∧ a.lockReaches then
        { a with
          lockOriginalSessionIdChan := a.lockOriginalSessionIdChan ++ [lockConnectionId]
          lock := .getLock }
      else a.lockFails))
  | .getLock => some (s.setAttempt i (a.lockCall outcome .lockWaitTimeout))
  | .lockWaitTimeout => some (s.setAttempt i (a.lockCall outcome .showLeftover))
  | .showLeftover =>
    match outcome, s.names.old with
    | .ok, some .sentry => some (s.setAttempt i { a with lock := .dropLeftover })
    | .ok, some _ => some (s.setAttempt i a.lockFails) -- "expected magic comment on %s"
    -- `showTableStatus` ignores its error: no table
    | _, _ => some (s.setAttempt i { a with lock := .createSentryTable })
  | .dropLeftover =>
    if outcome.takesEffect then
      if s.lockedBy = none then
        some (s.dropOld.setAttempt i
          (if outcome = .ok then { a with lock := .createSentryTable } else a.lockFails))
      else none
    else some (s.setAttempt i a.lockFails)
  | .createSentryTable =>
    if outcome.takesEffect ∧ s.names.old = none then
      some (s.createSentry.setAttempt i
        (if outcome = .ok then { a with lock := .waitTimeout } else a.lockFails))
    else some (s.setAttempt i a.lockFails)
  | .waitTimeout => some (s.setAttempt i (a.lockCall outcome .lockTables))
  | .lockTables =>
    if outcome.takesEffect ∧ a.lockReaches then
      if s.lockedBy = none ∧ s.names.original.isSome ∧ s.names.old.isSome then
        some ((s.lock i).setAttempt i
          (if outcome = .ok then
            { a with tableLocked := a.tableLocked ++ [false], lock := .okToUnlockTable }
          else { a.lockFails with lockConnected := false }))
      else none
    else some (s.setAttempt i a.lockFails)
  | .okToUnlockTable =>
    if 0 < a.okToUnlockTable then
      some (s.setAttempt i
        { a with okToUnlockTable := a.okToUnlockTable - 1, lock := .dropSentryTable })
    else none
  | .dropSentryTable =>
    -- an error is only logged
    if outcome.takesEffect ∧ a.lockReaches ∧ s.lockedBy = some i then
      some (s.dropOld.setAttempt i
        { a with lock := .expectMetadataLock, lockConnected := outcome == .ok })
    else some (s.setAttempt i { a with lock := .expectMetadataLock })
  | .expectMetadataLock => some (s.setAttempt i { a with lock := .unlockTables })
  | .unlockTables =>
    if outcome.takesEffect ∧ a.lockReaches then
      some ((s.unlock i).setAttempt i
        { a with
          tableUnlocked := a.tableUnlocked ++ [outcome != .ok]
          lockConnected := outcome == .ok
          lock := .returning })
    else
      some (s.setAttempt i
        { a with
          tableUnlocked := a.tableUnlocked ++ [true]
          lockConnected := false
          lock := .returning })
  | .returning =>
    some (s.setAttempt i
      { a with
        lockOriginalSessionIdChan := a.lockOriginalSessionIdChan ++ [-1]
        tableLocked := a.tableLocked ++ [true]
        tableUnlocked := a.tableUnlocked ++ [true]
        lock := .showSentry })
  | .showSentry =>
    some (s.setAttempt i
      { a with
        lock := if outcome = .ok ∧ s.names.old = some .sentry then .dropSentry else .returned })
  | .dropSentry =>
    if outcome.takesEffect then
      if s.lockedBy = none then some (s.dropOld.setAttempt i { a with lock := .returned }) else none
    else some (s.setAttempt i { a with lock := .returned })
  | .returned => none

/-! ## `AtomicCutoverRename` -/

def renameStep (i : Nat) (outcome : CallOutcome) : Option CutOvers :=
  let a := s.attempts i
  match a.rename with
  | .notStarted => none
  | .begin =>
    some (s.setAttempt i
      (if outcome = .ok then { a with rename := .connectionId } else a.renameFails))
  | .connectionId =>
    some (s.setAttempt i
      (if outcome = .ok ∧ a.renameConnected then
        { a with
          renameSessionIdChan := a.renameSessionIdChan ++ [renameConnectionId]
          rename := .lockWaitTimeout }
      else a.renameDeferred.renameFails))
  | .lockWaitTimeout =>
    some (s.setAttempt i
      (if outcome = .ok ∧ a.renameConnected then { a with rename := .issue }
      else a.renameDeferred.renameFails))
  | .issue =>
    some (s.setAttempt i
      (if outcome.takesEffect ∧ a.renameConnected then
        { a with rename := .issued, statement := .waiting, renameConnected := outcome == .ok }
      else { a with rename := .issued, statement := .failed }))
  | .issued =>
    if a.renameConnected = false ∨ a.statement = .failed then
      some (s.setAttempt i
        { a with tablesRenamed := a.tablesRenamed ++ [true] }.renameDeferred.renameFails)
    else if a.statement = .succeeded then
      some (s.setAttempt i
        { { a with tablesRenamed := a.tablesRenamed ++ [false] }.renameDeferred with
          rename := .returned })
    else none
  | .returned => none

/-- The effect of the `RENAME`, with the tables that bore the names of the original and the ghost.
-/
def swap (first second : Table) : CutOvers :=
  { s with names := { original := some second, ghost := none, old := some first } }

/-- The server executes a `RENAME` that waits for nobody. -/
def executeRename (i : Nat) : Option CutOvers :=
  let a := s.attempts i
  if a.statement = .waiting ∧ s.lockedBy = none then
    match s.names.original, s.names.ghost, s.names.old with
    | some first, some second, none =>
      some ((s.swap first second).setAttempt i { a with statement := .succeeded })
    | _, _, _ => some (s.setAttempt i { a with statement := .failed })
  else none

/-- A waiting `RENAME` ends with an error: a timeout, or its session ends. -/
def endRename (i : Nat) : Option CutOvers :=
  let a := s.attempts i
  if a.statement = .waiting then some (s.setAttempt i { a with statement := .failed }) else none

/-! ## `atomicCutOver` -/

inductive MainOutcome where
  | ok
  | err
  /-- `checkAbort` within `retryOperation` -/
  | aborted
  /-- it takes effect and is reported as failed -/
  | lost
deriving DecidableEq

def fails (a : Attempt) : CutOvers := s.setAttempt s.current { a with main := .returning true }

/-- The error exit of the wait for the `RENAME`. -/
def abandonRename (a : Attempt) : CutOvers :=
  s.fails { a with okToUnlockTable := a.okToUnlockTable + 1 }

/-- `CreateTriggersOnGhost`, at trigger `k`. -/
def createTrigger (k : Nat) (outcome : MainOutcome) : Option CutOvers :=
  let a := s.attempts s.current
  match if ctx.includeTriggers then ctx.triggers[k]? else none with
  | none => some (s.setAttempt s.current { a with main := .startRename })
  | some trigger =>
    let name := ctx.getGhostTriggerName trigger
    let created := { s with ghostTriggers := s.ghostTriggers ++ [name] }
    if s.names.ghost.isSome ∧ name ∉ s.ghostTriggers then
      match outcome with
      | .ok =>
        some (created.setAttempt s.current
          { a with main := .createTriggers (k + 1), created := a.created + 1 })
      | .lost => some (created.fails { a with created := a.created + 1 })
      | _ => some (s.fails a)
    else some (s.fails a)

def mainStep (outcome : MainOutcome) : Option CutOvers :=
  let a := s.attempts s.current
  let next (main : AttemptAt) : Option CutOvers := some (s.setAttempt s.current { a with main })
  match a.main with
  | .tableLocked =>
    match a.tableLocked with
    | [] => none
    | err :: rest =>
      some (s.setAttempt s.current
        { a with
          tableLocked := rest
          main := if err then .returning true else .lockOriginalSessionId })
  | .lockOriginalSessionId =>
    match a.lockOriginalSessionIdChan with
    | [] => none
    | _ :: rest =>
      some (s.setAttempt s.current
        { a with lockOriginalSessionIdChan := rest, main := .waitForEventsUpToLock })
  | .waitForEventsUpToLock =>
    if outcome = .ok then next (.createTriggers 0) else some (s.fails a)
  | .createTriggers k => s.createTrigger ctx k outcome
  | .startRename =>
    some (s.setAttempt s.current { a with rename := .begin, main := .renameSessionId })
  | .renameSessionId =>
    match a.renameSessionIdChan with
    | [] => none
    | id :: rest =>
      some (s.setAttempt s.current
        { a with
          renameSessionIdChan := rest
          renameSessionId := id
          main := .waitForRename 0 })
  | .waitForRename n =>
    if n < ctx.maxRetries then
      match outcome with
      | .aborted => some (s.abandonRename a)
      | .ok =>
        if a.tableRenameKnownToHaveFailed || a.renameInProcessList then next .expectUsedLock
        else none
      | _ =>
        if a.tableRenameKnownToHaveFailed then none else next (.waitForRename (n + 1))
    -- without an attempt there is no error
    else if ctx.maxRetries = 0 then next .expectUsedLock
    else some (s.abandonRename a)
  | .expectUsedLock =>
    if outcome = .ok then if a.lockSession then next .okToUnlockTable else none
    else some (s.fails a)
  | .okToUnlockTable =>
    some (s.setAttempt s.current
      { a with okToUnlockTable := a.okToUnlockTable + 1, main := .tableUnlocked })
  | .tableUnlocked =>
    match a.tableUnlocked with
    | [] => none
    | err :: rest =>
      some (s.setAttempt s.current
        { a with
          tableUnlocked := rest
          main := if err then .returning true else .tablesRenamed })
  | .tablesRenamed =>
    match a.tablesRenamed with
    | [] => none
    | err :: rest =>
      some (s.setAttempt s.current { a with tablesRenamed := rest, main := .returning err })
  | .returning err =>
    some (s.setAttempt s.current
      { a with
        okToUnlockTable := a.okToUnlockTable + 1
        result := some err
        main := .returned })
  | .returned => none

def retry : Option CutOvers :=
  if (s.attempts s.current).result = some true then some { s with current := s.current + 1 }
  else none

end CutOvers

inductive CutOversAction where
  | lock (i : Nat) (outcome : CallOutcome)
  | rename (i : Nat) (outcome : CallOutcome)
  | main (outcome : CutOvers.MainOutcome)
  | retry
  | executeRename (i : Nat)
  | endRename (i : Nat)
  /-- the locking session ends at the server, which releases its locks -/
  | endLockSession (i : Nat)
  /-- a client loses its connection, which the server has not noticed -/
  | disconnectLock (i : Nat)
  | disconnectRename (i : Nat)
deriving DecidableEq

def CutOvers.step (ctx : CutOverContext) (s : CutOvers) : CutOversAction → Option CutOvers
  | .lock i outcome => if i ≤ s.current then s.lockStep i outcome else none
  | .rename i outcome => s.renameStep i outcome
  | .main outcome => s.mainStep ctx outcome
  | .retry => s.retry
  | .executeRename i => s.executeRename i
  | .endRename i => s.endRename i
  | .endLockSession i =>
    if i ≤ s.current then
      some ((s.unlock i).setAttempt i { s.attempts i with lockSession := false })
    else none
  | .disconnectLock i =>
    if i ≤ s.current then some (s.setAttempt i { s.attempts i with lockConnected := false })
    else none
  | .disconnectRename i =>
    if i ≤ s.current then some (s.setAttempt i { s.attempts i with renameConnected := false })
    else none

end GhOst.Logic
