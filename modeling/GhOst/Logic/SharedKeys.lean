import GhOst.Logic.CopyReplay
import GhOst.Logic.Inspect

/-!
# The ghost table with its own unique indexes

`Migration.step` takes the migration key for a unique index of the ghost. Here the ghost has the
indexes that the inspection has found on it: the one that `getSharedUniqueKeys` has named for the
migration key, and the others.
-/

namespace GhOst.Logic

open GhOst.Sql

variable {σ κ : Type} [LinearOrder κ]

/-- The unique indexes of the ghost, with the one that `NameInGhostTable` names in the first place.
-/
def ghostIndexes (ghostUniqueKeys : List UniqueKey) (key : UniqueKey) : Indexes where
  uniqueKey :=
    ((ghostUniqueKeys.find? fun g => g.name = key.nameInGhostTable).map (·.columns.names)).getD []
  further :=
    (ghostUniqueKeys.filter fun g => g.name ≠ key.nameInGhostTable).map (·.columns.names)

namespace Migration

/-- `Migration.step` on a ghost with the unique indexes `ghost`; chunks and ranges go by the
migration key. -/
def stepOn (m : Migration σ κ) [DecidableEq σ] (ghost : Indexes) (s : State σ κ) :
    Action σ → Option (State σ κ)
  | .applyEvents dmlBatchSize =>
    if s.rangeRead = true ∧ s.inChunk = false ∧ 0 < dmlBatchSize ∧ s.applied < s.delivered then
      match { m with ix := ghost }.applyBatch s.ghost (s.batch dmlBatchSize) with
      | none => none
      | some rows =>
        some { s with ghost := rows, applied := s.applied + (s.batch dmlBatchSize).length }
    else none
  | .applyIterationInsertQuery =>
    if s.inChunk = true then
      some { s with
        ghost := { m with ix := ghost }.insertIgnoreAll s.ghost (m.currentChunk s)
        iteration := s.iteration + 1
        inChunk := false }
    else none
  | a => m.step s a

/-- On a ghost whose indexes are those of the migration the two agree. -/
theorem stepOn_ix (m : Migration σ κ) [DecidableEq σ] (s : State σ κ) (a : Action σ) :
    m.stepOn m.ix s a = m.step s a := by
  cases a <;> rfl

end Migration

end GhOst.Logic
