import GhOst.Logic.Applier
import GhOst.Logic.Warnings

/-!
# Writes that are rejected because of their warnings

`insert ignore` stores what it can: a value that does not fit is adjusted, and a row that a unique
index keeps out is dropped, with a warning. With `PanicOnWarnings` a chunk
(`ApplyIterationInsertQuery`) is committed before `iterateChunks` looks at its warnings; a batch
(`ApplyDMLEventQueries`) is rolled back when it fails.
-/

namespace GhOst.Logic

open GhOst.Sql

variable {σ κ : Type} [DecidableEq κ]

/-- A server and what it says about the statements. -/
structure WarningServer (σ κ : Type) where
  srv : Server σ κ
  ix : Indexes
  /-- what `insert ignore` makes of a row, and the warnings about it -/
  adjust : Row σ → Row σ × List Raised
  /-- the warning about a row that an index keeps out -/
  duplicate : Row σ → IndexName → Raised
  /-- a statement of a batch: the table after it and the warnings, or an SQL error -/
  execute : List (Row σ) → Query → Except String (List (Row σ) × List Raised)
  showsTable : Bool
  maxErrorCount : Nat

namespace WarningServer

def insertRow (ws : WarningServer σ κ) (ghost : List (Row σ)) (row : Row σ) :
    List (Row σ) × List Raised :=
  match ws.srv.violated ws.ix ghost (ws.adjust row).1 with
  | [] => (ghost ++ [(ws.adjust row).1], (ws.adjust row).2)
  | index :: _ => (ghost, (ws.adjust row).2 ++ [ws.duplicate (ws.adjust row).1 index])

/-- The `insert ignore … select` of a chunk that selects `rows`. -/
def insertRows (ws : WarningServer σ κ) :
    List (Row σ) → List (Row σ) → List (Row σ) × List Raised
  | ghost, [] => (ghost, [])
  | ghost, row :: rows =>
    let (ghost, raised) := ws.insertRow ghost row
    let (ghost, raised') := ws.insertRows ghost rows
    (ghost, raised ++ raised')

/-- The statements of a batch, with what each of them raises. -/
def executeAll (ws : WarningServer σ κ) :
    List (Row σ) → List Query → Except String (List (Row σ) × List (List Raised))
  | ghost, [] => .ok (ghost, [])
  | ghost, query :: queries => do
    let (ghost, raised) ← ws.execute ghost query
    let (ghost, rest) ← ws.executeAll ghost queries
    return (ghost, raised :: rest)

def warned (ws : WarningServer σ κ) (raised : List Raised) : WarnedStatement :=
  { raised, maxErrorCount := ws.maxErrorCount }

/-- `SHOW WARNINGS`. -/
def showWarnings (ws : WarningServer σ κ) (raised : List Raised) : List (Except String Warning) :=
  (ws.warned raised).rows ws.showsTable

/-- `ApplyIterationInsertQuery`: the ghost as it is committed, and
`MigrationLastInsertSQLWarnings`. -/
def applyIterationInsertQuery (ws : WarningServer σ κ) (names : KeyNames)
    (ghost rows : List (Row σ)) : List (Row σ) × List String :=
  let (after, raised) := ws.insertRows ghost rows
  (after, names.lastInsertSQLWarnings (ws.showWarnings raised))

/-- `ApplyDMLEventQueries`, of statements with their deltas: the ghost after commit or rollback. -/
def applyDMLEventQueries (ws : WarningServer σ κ) (names : KeyNames) (ghost : List (Row σ))
    (batch : List (Int × Query)) : List (Row σ) × Except String Int :=
  match ws.executeAll ghost (batch.map Prod.snd) with
  | .error err => (ghost, .error err)
  | .ok (after, raised) =>
    match names.executeBatchWithWarningChecking (batch.map Prod.fst)
        (raised.map ws.showWarnings) with
    | .error err => (ghost, .error err)
    | .ok totalDelta => (after, .ok totalDelta)

/-! What the statements raise, whether the server retains it or not. -/

def chunkRaised (ws : WarningServer σ κ) (ghost rows : List (Row σ)) : List WarnedStatement :=
  [ws.warned (ws.insertRows ghost rows).2]

def batchRaised (ws : WarningServer σ κ) (ghost : List (Row σ)) (batch : List (Int × Query)) :
    List WarnedStatement :=
  match ws.executeAll ghost (batch.map Prod.snd) with
  | .error _ => []
  | .ok (_, raised) => raised.map ws.warned

end WarningServer

/-! ## Runs -/

structure CopyRun (σ : Type) where
  ghost : List (Row σ) := []
  /-- the rows that were stored by writes with no warning but duplicates on the migration key -/
  clean : List (Row σ) := []
  iteration : Nat := 0
  /-- the iteration of the last checkpoint -/
  checkpoint : Nat := 0
deriving DecidableEq, Repr

inductive CopyAction (σ : Type) where
  /-- an attempt of the chunk that selects `rows` -/
  | copyChunk (rows : List (Row σ))
  | applyBatch (batch : List (Int × Query))
  | checkpoint
  /-- the process ends, and another one resumes from the checkpoint -/
  | resume

/-- A write leaves the ghost as `after`. -/
def CopyRun.store [DecidableEq σ] (s : CopyRun σ) (names : KeyNames)
    (statements : List WarnedStatement) (after : List (Row σ)) : CopyRun σ :=
  { s with
    ghost := after
    clean :=
      if names.RaisesOther statements then s.clean
      else s.clean ++ after.filter fun row => row ∉ s.ghost }

def WarningServer.step [DecidableEq σ] (ws : WarningServer σ κ) (names : KeyNames) (s : CopyRun σ) :
    CopyAction σ → Option (CopyRun σ)
  | .copyChunk rows =>
    let (after, sqlWarnings) := ws.applyIterationInsertQuery names s.ghost rows
    let stored := s.store names (ws.chunkRaised s.ghost rows) after
    match KeyNames.chunkVerdict sqlWarnings with
    | .ok _ => some { stored with iteration := s.iteration + 1 }
    | .error _ => some stored
  | .applyBatch batch =>
    some (s.store names (ws.batchRaised s.ghost batch)
      (ws.applyDMLEventQueries names s.ghost batch).1)
  | .checkpoint => some { s with checkpoint := s.iteration }
  | .resume => some { s with iteration := s.checkpoint }

end GhOst.Logic
