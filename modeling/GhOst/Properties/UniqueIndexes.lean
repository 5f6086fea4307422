import GhOst.Properties.Convergence

/-!
# Further unique indexes

With further unique indexes on the ghost, `insert ignore` also drops a row because another row of
the ghost holds one of its unique values. Such a row is not always written later: the events that
free the value and the one that would have written the row may both be updates
(`ignored_row_is_lost`).
-/

namespace GhOst.Logic

open GhOst.Sql Infra

variable {σ κ : Type} [LinearOrder κ] {m : Migration σ κ} {content : List (Row σ)} {s : State σ κ}

namespace Migration

/-- **Clean runs converge, with any further unique indexes**: runs in which a row is ignored only
because the ghost holds its migration key. -/
theorem clean_runs_converge [DecidableEq σ] (hm : m.CarriesOver) (hc : m.Content content)
    (hr : Reach m.step m.CleanStep { original := content } s) (hdone : s.RowCopyDone)
    (happlied : s.applied = s.history.length) :
    (∀ row ∈ s.original, m.project row ∈ s.ghost) ∧ s.ghost.Perm (s.original.map m.project) := by
  have hperm := (Inv.of_reach hm hc hr).converged hm hdone happlied
  exact ⟨fun row hrow => hperm.mem_iff.mpr (List.mem_map_of_mem hrow), hperm⟩

theorem clean_runs_converge_small :
    ∃ s, Reach (smallMigration [["v"]]).step (smallMigration [["v"]]).CleanStep
        { original := [smallRow 1 10, smallRow 2 20] } s ∧
      s.RowCopyDone ∧ s.applied = s.history.length ∧ s.history.length = 1 ∧
      s.ghost.Perm (s.original.map (smallMigration [["v"]]).project) := by
  refine exists_reach_of
    (fun s => s.RowCopyDone ∧ s.applied = s.history.length ∧ s.history.length = 1)
    [.readMigrationRangeValues, .calculateNextIterationRangeEndValues 1,
      .applyIterationInsertQuery, .commit [.update (smallRow 1 10) (smallRow 1 30)], .deliver,
      .applyEvents 1, .calculateNextIterationRangeEndValues 1, .applyIterationInsertQuery,
      .calculateNextIterationRangeEndValues 1] (by decide) ?_
  rintro s hr ⟨hdone, happlied, hlen⟩
  exact ⟨hdone, happlied, hlen, (clean_runs_converge (smallMigration_carriesOver _)
    ⟨by decide, by decide⟩ hr hdone happlied).2⟩

/-- **An ignored row is lost.** The row 1 passes the value 10 of `v` on to the row 2 between the
copies of their chunks; the row 2 is ignored, and its event is an update of a row that the ghost
does not have. -/
theorem ignored_row_is_lost :
    ∃ s, Reachable (smallMigration [["v"]]).step
        { original := [smallRow 1 10, smallRow 2 20] } s ∧
      (∀ j ∈ List.range 3, bigintServer.Consistent (smallMigration [["v"]]).ix
        ((smallMigration [["v"]]).contentAt [smallRow 1 10, smallRow 2 20] s.history j)) ∧
      s.RowCopyDone ∧ s.applied = s.history.length ∧ s.history.length = 2 ∧
      s.original = [smallRow 1 30, smallRow 2 10] ∧ s.ghost = [smallRow 1 30] := by
  exact exists_reach
    [.readMigrationRangeValues, .calculateNextIterationRangeEndValues 1,
      .applyIterationInsertQuery, .commit [.update (smallRow 1 10) (smallRow 1 30)],
      .commit [.update (smallRow 2 20) (smallRow 2 10)],
      .calculateNextIterationRangeEndValues 1, .applyIterationInsertQuery, .deliver, .deliver,
      .applyEvents 10, .calculateNextIterationRangeEndValues 1] (by decide)

end Migration

end GhOst.Logic
