import Mathlib.Data.List.Basic

/-!
# The atomic cut-over (`atomicCutOver`, `AtomicCutOverMagicLock`, `AtomicCutoverRename`)

One attempt of the cut-over: the main goroutine and the two goroutines it starts, each with its own
session, next to application sessions that write to the original table. A step is a statement, a
channel operation or the return of a call.

`LOCK TABLES … WRITE` keeps other sessions away until the session unlocks or dies. A `RENAME` takes
the metadata locks of the sentry, the ghost and the original in an order of the server's own: only
once it waits for that of the original is it granted before any waiting write. It fails if the
target name exists. A write to a table that is neither locked nor waited for commits at once. Every
statement may fail, and a call on a dead session does.
-/

namespace GhOst.Logic

/-- The place of the main goroutine in `atomicCutOver`: what it does next. -/
inductive MainAt where
  | tableLocked
  | lockOriginalSessionId
  | writeChangelogState
  | eventsUpToLock
  | createTriggers
  | startRename
  | renameSessionId
  /-- the loop of `retryOperation`, at its attempt `i` -/
  | waitForRename (i : Nat)
  | expectUsedLock
  | okToUnlockTable
  | tableUnlocked
  | tablesRenamed
  /-- the deferred send -/
  | returning
  | returned
deriving DecidableEq

/-- The place of the locking goroutine in `AtomicCutOverMagicLock`. -/
inductive LockAt where
  | begin
  | connectionId
  | getLock
  | lockWaitTimeout
  /-- `CreateAtomicCutOverSentryTable` drops a sentry that is left over, and creates one -/
  | dropLeftoverSentry
  | createSentryTable
  | waitTimeout
  | lockTables
  | okToUnlockTable
  | dropSentryTable
  /-- up to 100 probes for the `RENAME` that waits for the original -/
  | expectMetadataLock
  | unlockTables
  /-- the deferred sends -/
  | returning
  /-- the deferred `DropAtomicCutOverSentryTableIfExists` -/
  | dropSentryTableIfExists
  | returned
deriving DecidableEq

/-- The place of the renaming goroutine in `AtomicCutoverRename`. -/
inductive RenameAt where
  | notStarted
  | begin
  | connectionId
  | lockWaitTimeout
  | issue
  | issued
  | returned
deriving DecidableEq

inductive RenameStatement where
  | notIssued
  /-- at the metadata lock of another table than the original -/
  | acquiring
  /-- waiting for the metadata lock of the original -/
  | waiting
  | failed
  | succeeded
deriving DecidableEq

def RenameStatement.pending : RenameStatement → Bool
  | .acquiring | .waiting => true
  | _ => false

inductive OldTable where
  | absent
  | sentry
  /-- a table without the magic comment -/
  | other
deriving DecidableEq

structure CutOver where
  main : MainAt := .tableLocked
  lock : LockAt := .begin
  rename : RenameAt := .notStarted
  -- the channels; an error is `true`
  okToUnlockTable : Nat := 0
  lockOriginalSessionIdChan : List Int := []
  tableLocked : List Bool := []
  tableUnlocked : List Bool := []
  renameSessionIdChan : List Int := []
  tablesRenamed : List Bool := []
  tableRenameKnownToHaveFailed : Bool := false
  /-- the identifier that the main goroutine got for the renaming session -/
  renameSessionId : Int := 0
  -- the server
  lockSessionAlive : Bool := true
  renameSessionAlive : Bool := true
  originalLocked : Bool := false
  old : OldTable := .absent
  statement : RenameStatement := .notIssued
  -- records
  sentinelInjected : Bool := false
  /-- the writes to the original table that were committed after the sentinel -/
  writes : Nat := 0
  /-- the number of these writes when the `RENAME` took effect -/
  writesAtRename : Option Nat := none
deriving DecidableEq

/-- The identifiers of the two sessions on the server. -/
def lockConnectionId : Int := 11

def renameConnectionId : Int := 12

namespace CutOver

variable (s : CutOver)

/-! ## `AtomicCutOverMagicLock` -/

/-- `tableLocked <- err; return err`. -/
def lockFails : CutOver := { s with tableLocked := s.tableLocked ++ [true], lock := .returning }

/-- The next step of the locking goroutine. The sentry table is dropped and created on another
connection, except under the lock. -/
def lockStep (ok : Bool) : Option CutOver :=
  let executed := ok && s.lockSessionAlive
  match s.lock with
  | .begin =>
    if executed then some { s with lock := .connectionId }
    else some { s with tableLocked := s.tableLocked ++ [true], lock := .returned }
  | .connectionId =>
    if executed then
      some { s with
        lockOriginalSessionIdChan := s.lockOriginalSessionIdChan ++ [lockConnectionId]
        lock := .getLock }
    else some s.lockFails
  | .getLock => if executed then some { s with lock := .lockWaitTimeout } else some s.lockFails
  | .lockWaitTimeout =>
    if executed then some { s with lock := .dropLeftoverSentry } else some s.lockFails
  | .dropLeftoverSentry =>
    if ok && s.old != .other then some { s with old := .absent, lock := .createSentryTable }
    else some s.lockFails
  | .createSentryTable =>
    if ok then some { s with old := .sentry, lock := .waitTimeout } else some s.lockFails
  | .waitTimeout => if executed then some { s with lock := .lockTables } else some s.lockFails
  | .lockTables =>
    if executed then
      some { s with
        originalLocked := true
        tableLocked := s.tableLocked ++ [false]
        lock := .okToUnlockTable }
    else some s.lockFails
  | .okToUnlockTable =>
    if 0 < s.okToUnlockTable then
      some { s with okToUnlockTable := s.okToUnlockTable - 1, lock := .dropSentryTable }
    else none
  | .dropSentryTable =>
    -- an error is only logged
    some { s with
      old := if executed then .absent else s.old
      lock := .expectMetadataLock }
  | .expectMetadataLock =>
    -- a probe succeeds; or all of them fail, or there are none, and it goes on all the same
    if ok && s.statement != .waiting then none else some { s with lock := .unlockTables }
  | .unlockTables =>
    -- `UNLOCK TABLES` fails with its connection only
    some { s with
      originalLocked := false
      lockSessionAlive := executed
      tableUnlocked := s.tableUnlocked ++ [!executed]
      lock := .returning }
  | .returning =>
    some { s with
      lockOriginalSessionIdChan := s.lockOriginalSessionIdChan ++ [-1]
      tableLocked := s.tableLocked ++ [true]
      tableUnlocked := s.tableUnlocked ++ [true]
      lock := .dropSentryTableIfExists }
  | .dropSentryTableIfExists =>
    some { s with
      old := if ok && s.old == .sentry then .absent else s.old
      lock := .returned }
  | .returned => none

/-! ## `AtomicCutoverRename` -/

/-- `AtomicCutoverRename` returns an error, and the goroutine aborts the cut-over. -/
def renameFails : CutOver :=
  { s with
    rename := .returned
    tableRenameKnownToHaveFailed := true
    okToUnlockTable := s.okToUnlockTable + 1 }

/-- The deferred sends of `AtomicCutoverRename`. -/
def renameDeferred : CutOver :=
  { s with
    renameSessionIdChan := s.renameSessionIdChan ++ [-1]
    tablesRenamed := s.tablesRenamed ++ [true] }

def renameStep (ok : Bool) : Option CutOver :=
  let executed := ok && s.renameSessionAlive
  match s.rename with
  | .notStarted => none
  | .begin =>
    -- nothing is deferred yet
    if executed then some { s with rename := .connectionId } else some s.renameFails
  | .connectionId =>
    if executed then
      some { s with
        renameSessionIdChan := s.renameSessionIdChan ++ [renameConnectionId]
        rename := .lockWaitTimeout }
    else some s.renameDeferred.renameFails
  | .lockWaitTimeout =>
    if executed then some { s with rename := .issue } else some s.renameDeferred.renameFails
  | .issue =>
    some { s with
      rename := .issued
      statement := if executed then .acquiring else .failed }
  | .issued =>
    match s.statement with
    | .succeeded =>
      some { { s with tablesRenamed := s.tablesRenamed ++ [false] }.renameDeferred with
              rename := .returned }
    | .failed =>
      some { s with tablesRenamed := s.tablesRenamed ++ [true] }.renameDeferred.renameFails
    | _ => none
  | .returned => none

/-! ## `atomicCutOver` -/

inductive Outcome where
  | ok
  | err
  /-- `checkAbort` within `retryOperation` -/
  | aborted
deriving DecidableEq

/-- The error exit of the wait for the `RENAME`. -/
def abandonRename : CutOver :=
  { s with okToUnlockTable := s.okToUnlockTable + 1, main := .returning }

/-- `ExpectProcess` finds the renaming session in a `metadata lock` state. -/
def renameInProcessList : Bool :=
  s.statement.pending && s.renameSessionId == renameConnectionId

def mainStep (maxRetries : Nat) (outcome : Outcome) : Option CutOver :=
  match s.main with
  | .tableLocked =>
    match s.tableLocked with
    | [] => none
    | err :: rest =>
      some { s with
        tableLocked := rest
        main := if err then .returning else .lockOriginalSessionId }
  | .lockOriginalSessionId =>
    match s.lockOriginalSessionIdChan with
    | [] => none
    | _ :: rest =>
      some { s with lockOriginalSessionIdChan := rest, main := .writeChangelogState }
  | .writeChangelogState =>
    if outcome = .ok then some { s with sentinelInjected := true, main := .eventsUpToLock }
    else some { s with main := .returning }
  | .eventsUpToLock =>
    if outcome = .ok then some { s with main := .createTriggers }
    else some { s with main := .returning }
  | .createTriggers =>
    if outcome = .ok then some { s with main := .startRename }
    else some { s with main := .returning }
  | .startRename => some { s with rename := .begin, main := .renameSessionId }
  | .renameSessionId =>
    match s.renameSessionIdChan with
    | [] => none
    | id :: rest =>
      some { s with
        renameSessionIdChan := rest
        renameSessionId := id
        main := .waitForRename 0 }
  | .waitForRename i =>
    if i < maxRetries then
      match outcome with
      | .aborted => some s.abandonRename
      | .ok =>
        if s.tableRenameKnownToHaveFailed || s.renameInProcessList then
          some { s with main := .expectUsedLock }
        else none
      | .err =>
        if s.tableRenameKnownToHaveFailed then none
        else some { s with main := .waitForRename (i + 1) }
    -- without an attempt there is no error
    else if maxRetries = 0 then some { s with main := .expectUsedLock }
    else some s.abandonRename
  | .expectUsedLock =>
    if outcome = .ok then
      if s.lockSessionAlive then some { s with main := .okToUnlockTable } else none
    else some { s with main := .returning }
  | .okToUnlockTable =>
    some { s with okToUnlockTable := s.okToUnlockTable + 1, main := .tableUnlocked }
  | .tableUnlocked =>
    match s.tableUnlocked with
    | [] => none
    | err :: rest =>
      some { s with
        tableUnlocked := rest
        main := if err then .returning else .tablesRenamed }
  | .tablesRenamed =>
    match s.tablesRenamed with
    | [] => none
    | _ :: rest => some { s with tablesRenamed := rest, main := .returning }
  | .returning => some { s with okToUnlockTable := s.okToUnlockTable + 1, main := .returned }
  | .returned => none

/-! ## The server -/

def executeRename : CutOver :=
  if s.old = .absent then
    { s with statement := .succeeded, old := .other, writesAtRename := some s.writes }
  else { s with statement := .failed }

/-- The `RENAME` gets its last metadata lock. -/
def grantRename : Option CutOver :=
  if s.statement.pending = true ∧ s.originalLocked = false then some s.executeRename else none

/-- The `RENAME` comes to wait for the metadata lock of the original. -/
def renameWaits : Option CutOver :=
  if s.statement = .acquiring then some { s with statement := .waiting } else none

/-- A pending `RENAME` ends with an error: a timeout, or its session dies. -/
def endRename : CutOver :=
  { s with statement := if s.statement.pending then .failed else s.statement }

def applicationWrite : Option CutOver :=
  if s.originalLocked = false ∧ s.statement ≠ .waiting ∧ s.statement ≠ .succeeded then
    some { s with writes := if s.sentinelInjected then s.writes + 1 else s.writes }
  else none

end CutOver

inductive CutOverAction where
  | lock (ok : Bool)
  | rename (ok : Bool)
  | main (outcome : CutOver.Outcome)
  | grantRename
  | renameWaits
  | renameTimeout
  | killLockSession
  | killRenameSession
  | applicationWrite
deriving DecidableEq

def CutOver.step (maxRetries : Nat) (s : CutOver) : CutOverAction → Option CutOver
  | .lock ok => s.lockStep ok
  | .rename ok => s.renameStep ok
  | .main outcome => s.mainStep maxRetries outcome
  | .grantRename => s.grantRename
  | .renameWaits => s.renameWaits
  | .renameTimeout => some s.endRename
  | .killLockSession => some { s with lockSessionAlive := false, originalLocked := false }
  | .killRenameSession => some { s.endRename with renameSessionAlive := false }
  | .applicationWrite => s.applicationWrite

end GhOst.Logic
