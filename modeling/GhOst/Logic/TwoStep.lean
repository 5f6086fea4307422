import GhOst.Logic.Attempts

/-!
# The two-step cut-over (`cutOverTwoStep`)

Each step is an operation of `retryOperation`: it is attempted up to `maxRetries` times, with a
`checkAbort` before each attempt, and the error of the last one is sent to `PanicAbort`, which
aborts the migration for good. So the retrier of the cut-over does not call it again: that is left
to another process. The table is locked, renamed and unlocked on the one connection of
`singletonDB`; the ghost table gets its triggers and its new name on another one. A statement may
fail, and it may take effect although it is reported as failed, its connection being lost; the
server releases the locks of a session when it ends the session. Renaming a table that is locked
ends the lock on its name.
-/

namespace GhOst.Logic

/-- The place of the main goroutine in `cutOverTwoStep`, with the attempt that `retryOperation` is
at. -/
inductive TwoStepAt where
  | lockOriginalTable (n : Nat)
  | waitForEventsUpToLock (n : Nat)
  /-- `CreateTriggersOnGhost`, at trigger `k` -/
  | createTriggers (n k : Nat)
  /-- the two statements of `SwapTablesQuickAndBumpy` -/
  | renameOriginal (n : Nat)
  | renameGhost (n : Nat)
  | unlockTables (n : Nat)
  | returned
deriving DecidableEq

structure TwoStep where
  main : TwoStepAt := .lockOriginalTable 0
  names : TableNames := {}
  /-- a session of `singletonDB` holds the write lock at the server -/
  locked : Bool := false
  /-- the copied triggers on the ghost table -/
  ghostTriggers : List String := []
  /-- what `cutOverTwoStep` has returned; an error is `true` -/
  result : Option Bool := none
  /-- the migration is aborted, so that `checkAbort` returns an error -/
  aborted : Bool := false
  -- records
  /-- how many `create trigger` of this cut-over have taken effect -/
  created : Nat := 0
  /-- how many renames have taken effect -/
  renames : Nat := 0
deriving DecidableEq

namespace TwoStep

open CutOvers (MainOutcome)

variable (ctx : CutOverContext) (s : TwoStep)

/-- The trigger that `CreateTriggersOnGhost` creates after `k` others. -/
def triggerAt (k : Nat) : Option String :=
  if ctx.includeTriggers then ctx.triggers[k]? else none

/-- `retryOperation` is about to begin an attempt. -/
def beginsAttempt : Bool :=
  match s.main with
  | .createTriggers _ k => k = 0 ∧ (triggerAt ctx 0).isSome
  | .renameGhost _ | .returned => false
  | _ => true

/-- `retryOperation` returns an error, of `checkAbort` or of an operation. In the second case it has
sent it to `PanicAbort`, and `listenOnPanicAbort` has aborted the migration. -/
def aborts : TwoStep := { s with main := .returned, result := some true, aborted := true }

/-- `retryOperation` after a failed attempt `n`. -/
def fails (n : Nat) (again : Nat → TwoStepAt) : TwoStep :=
  if n + 1 < ctx.maxRetries then { s with main := again (n + 1) } else s.aborts

/-- `alter table … rename` of the original, which ends the lock. -/
def renameOriginal (first : Table) : TwoStep :=
  { s with
    names := { s.names with original := none, old := some first }
    locked := false
    renames := s.renames + 1 }

/-- `alter table … rename` of the ghost. -/
def renameGhost (second : Table) : TwoStep :=
  { s with
    names := { s.names with original := some second, ghost := none }
    renames := s.renames + 1 }

def addTrigger (name : String) : TwoStep :=
  { s with ghostTriggers := s.ghostTriggers ++ [name], created := s.created + 1 }

/-- A `create trigger` within attempt `n`; it is the attempt as a whole that is retried. -/
def createTrigger (n k : Nat) (outcome : MainOutcome) : Option TwoStep :=
  match triggerAt ctx k with
  | none => some { s with main := .renameOriginal 0 }
  | some trigger =>
    let name := ctx.getGhostTriggerName trigger
    if outcome ≠ .err ∧ s.names.ghost.isSome ∧ name ∉ s.ghostTriggers then
      if outcome = .ok then some { s.addTrigger name with main := .createTriggers n (k + 1) }
      else some ((s.addTrigger name).fails ctx n (.createTriggers · 0))
    else some (s.fails ctx n (.createTriggers · 0))

def mainStep (outcome : MainOutcome) : Option TwoStep :=
  if outcome = .aborted then
    if s.aborted ∧ s.beginsAttempt ctx then some s.aborts else none
  else
    match s.main with
    | .lockOriginalTable n =>
      -- a session that holds the lock already is one whose connection was lost
      if outcome = .err ∨ s.names.original = none ∨ s.locked then
        some (s.fails ctx n .lockOriginalTable)
      else if outcome = .ok then some { s with locked := true, main := .waitForEventsUpToLock 0 }
      else some ({ s with locked := true }.fails ctx n .lockOriginalTable)
    | .waitForEventsUpToLock n =>
      if outcome = .ok then some { s with main := .createTriggers 0 0 }
      else some (s.fails ctx n .waitForEventsUpToLock)
    | .createTriggers n k => s.createTrigger ctx n k outcome
    | .renameOriginal n =>
      match outcome, s.names.original, s.names.old with
      | .ok, some first, none => some { s.renameOriginal first with main := .renameGhost n }
      | .lost, some first, none => some ((s.renameOriginal first).fails ctx n .renameOriginal)
      | _, _, _ => some (s.fails ctx n .renameOriginal)
    | .renameGhost n =>
      match outcome, s.names.original, s.names.ghost with
      | .ok, none, some second => some { s.renameGhost second with main := .unlockTables 0 }
      | .lost, none, some second => some ((s.renameGhost second).fails ctx n .renameOriginal)
      | _, _, _ => some (s.fails ctx n .renameOriginal)
    | .unlockTables n =>
      match outcome with
      | .ok => some { s with locked := false, main := .returned, result := some false }
      | .lost => some ({ s with locked := false }.fails ctx n .unlockTables)
      | _ => some (s.fails ctx n .unlockTables)
    | .returned => none

/-- Another process resumes the migration and comes to the cut-over, on the tables as they were
left. -/
def resume : Option TwoStep :=
  if s.result = some true then
    some { s with main := .lockOriginalTable 0, result := none, aborted := false, created := 0 }
  else none

end TwoStep

inductive TwoStepAction where
  | main (outcome : CutOvers.MainOutcome)
  /-- another goroutine aborts the migration -/
  | abort
  | resume
  /-- the session of `singletonDB` ends at the server -/
  | endSession
deriving DecidableEq

def TwoStep.step (ctx : CutOverContext) (s : TwoStep) : TwoStepAction → Option TwoStep
  | .main outcome => s.mainStep ctx outcome
  | .abort => some { s with aborted := true }
  | .resume => s.resume
  | .endSession => some { s with locked := false }

end GhOst.Logic
