import Mathlib.Logic.Function.Basic
import GhOst.Base.TableNames
import GhOst.Infra.Steps

/-!
# The tables that a run creates, renames and drops (`go/logic/migrator.go`, `go/logic/applier.go`)

`Migrate` and `Revert` by the statements on whole tables that they issue, in their order. A
statement may fail, with or without effect; most errors end the run, and some are only logged. The
process may be killed between two statements. The cut-over is here by its renames alone: its locks
and its sentry table are the subject of `GhOst.Logic.Attempts` and `GhOst.Logic.TwoStep`.
-/

namespace GhOst.Logic

open GhOst.Base GhOst.Sql Infra

/-- The flags of a run, next to what its names are made of. -/
structure TableRun extends NamesContext where
  noop : Bool := false
  resume : Bool := false
  checkpoint : Bool := false
  testOnReplica : Bool := false
  okToDropTable : Bool := false
  initiallyDropGhostTable : Bool := false
  initiallyDropOldTable : Bool := false
  attemptInstantDDL : Bool := false
  cutOverTwoStep : Bool := false

structure RunNames where
  original : List UInt8
  ghost : List UInt8
  old : List UInt8
  changelog : List UInt8
  checkpoint : List UInt8

def TableRun.runNames (r : TableRun) : Except Fault RunNames :=
  match r.getGhostTableName, r.getOldTableName, r.getChangelogTableName,
    r.getCheckpointTableName with
  | .ok ghost, .ok old, .ok changelog, .ok checkpoint =>
    .ok { original := encode r.originalTableName.toList, ghost, old, changelog, checkpoint }
  | _, _, _, _ => .error .indexOutOfRange

/-- The tables of the database. A table is a number, which no later table gets. -/
structure Tables where
  named : List UInt8 → Option Nat
  next : Nat

inductive TableStatement where
  /-- `tableExists`, whose answer is an error of the run -/
  | expectMissing (name : List UInt8)
  /-- a table is read -/
  | expectPresent (name : List UInt8)
  | create (name : List UInt8)
  /-- `drop table if exists` -/
  | drop (name : List UInt8)
  /-- `rename table … to …, …`: all of the renames, or none -/
  | rename (pairs : List (List UInt8 × List UInt8))
  /-- `RenameTablesRollback` -/
  | rollback (names : RunNames)

namespace Tables

def renameOne (s : Tables) (pair : List UInt8 × List UInt8) : Option Tables :=
  match s.named pair.1, s.named pair.2 with
  | some t, none =>
    some { s with named := Function.update (Function.update s.named pair.1 none) pair.2 (some t) }
  | _, _ => none

def rename (s : Tables) (pairs : List (List UInt8 × List UInt8)) : Option Tables :=
  run renameOne s pairs

/-- The first statement may also fail for another reason than the tables. -/
def renameTablesRollback (n : RunNames) (fails : Bool) (s : Tables) : Tables :=
  match if fails then none else s.rename [(n.original, n.ghost), (n.old, n.original)] with
  | some s' => s'
  | none =>
    let s' := (s.rename [(n.original, n.ghost)]).getD s
    (s'.rename [(n.old, n.original)]).getD s'

def exec (s : Tables) : TableStatement → Option Tables
  | .expectMissing name => if s.named name = none then some s else none
  | .expectPresent name => if s.named name = none then none else some s
  | .create name =>
    if s.named name = none then
      some { named := Function.update s.named name (some s.next), next := s.next + 1 }
    else none
  | .drop name => some { s with named := Function.update s.named name none }
  | .rename pairs => s.rename pairs
  | .rollback names => some (s.renameTablesRollback names false)

end Tables

namespace TableRun

variable (r : TableRun) (n : RunNames)

def validateOrDropExistingTables : List TableStatement :=
  (if r.initiallyDropGhostTable then [.drop n.ghost] else []) ++ [.expectMissing n.ghost] ++
    (if r.initiallyDropOldTable then [.drop n.old] else []) ++ [.expectMissing n.old]

def initiateInspector : List TableStatement := [.expectPresent n.original]

def createChangelogTable : List TableStatement := [.drop n.changelog, .create n.changelog]

def createCheckpointTable : List TableStatement := [.drop n.checkpoint, .create n.checkpoint]

def initiateApplier : List TableStatement :=
  if r.revert then createChangelogTable n
  else if r.resume then []
  else r.validateOrDropExistingTables n ++ createChangelogTable n ++ [.create n.ghost]

def inspectOriginalAndGhostTables : List TableStatement := [.expectPresent n.ghost]

def readLastCheckpoint : List TableStatement := [.expectPresent n.checkpoint]

/-- `AtomicCutoverRename`, or `SwapTablesQuickAndBumpy`. -/
def swapTables : List TableStatement :=
  if r.cutOverTwoStep then [.rename [(n.original, n.old)], .rename [(n.ghost, n.original)]]
  else [.rename [(n.original, n.old), (n.ghost, n.original)]]

def cutOver : List TableStatement :=
  if r.noop then [] else r.swapTables n ++ if r.testOnReplica then [.rollback n] else []

def finalCleanup : List TableStatement :=
  [.drop n.changelog] ++
    (if r.okToDropTable && !r.testOnReplica then [.drop n.old, .drop n.checkpoint] else []) ++
    if r.noop then [.drop n.ghost] else []

/-- `instant` says whether the server can alter the table at once. -/
def migrateTables (instant : Bool) : List TableStatement :=
  initiateInspector n ++ r.initiateApplier n ++
    if r.attemptInstantDDL && !r.noop && instant then r.finalCleanup n
    else inspectOriginalAndGhostTables n ++
      (if r.checkpoint && !r.resume then createCheckpointTable n else []) ++
      (if r.resume then readLastCheckpoint n else []) ++ r.cutOver n ++ r.finalCleanup n

def revertTables : List TableStatement :=
  initiateInspector n ++ r.initiateApplier n ++ inspectOriginalAndGhostTables n ++
    readLastCheckpoint n ++
    r.cutOver n ++ r.finalCleanup n

def statements (instant : Bool) : List TableStatement :=
  if r.revert then r.revertTables n else r.migrateTables n instant

end TableRun

/-! ## Any number of runs -/

/-- One run at a time, on one original table. -/
structure TableRuns where
  tables : Tables
  /-- what the run has still to do -/
  left : List TableStatement := []
  /-- the tables that have had the name of the original; a record -/
  originals : List Nat := []

inductive TableRunsAction where
  | start (r : TableRun) (instant : Bool)
  /-- the next statement takes effect -/
  | execute
  /-- it takes effect and is repeated, since an error is reported -/
  | again
  /-- it fails, and the error is only logged -/
  | skip
  /-- the run ends, by an error or because it is killed -/
  | stop

namespace TableRuns

variable (original : List UInt8)

/-- The first statement that is left takes effect. -/
def effect (s : TableRuns) : Option TableRuns :=
  s.left.head?.bind fun statement => (s.tables.exec statement).map fun tables =>
    { s with tables, originals := s.originals ++ (tables.named original).toList }

def step (s : TableRuns) : TableRunsAction → Option TableRuns
  | .start r instant =>
    match s.left, r.runNames with
    | [], .ok n => some { s with left := r.statements n instant }
    | _, _ => none
  | .execute => (s.effect original).map fun s' => { s' with left := s.left.tail }
  | .again => s.effect original
  | .skip => some { s with left := s.left.tail }
  | .stop => some { s with left := [] }

end TableRuns

end GhOst.Logic
