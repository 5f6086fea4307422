import GhOst.Logic.PanicOnWarnings
import GhOst.Properties.Convergence

/-!
# With `PanicOnWarnings`: converge or abort

An attempt that is accepted was clean (`cleanStep_of_warned`), so as long as no chunk was rejected
the tables satisfy the invariant of copy and replay. And a rejected attempt keeps the tables from
being swapped: the error of a chunk makes `checkAbort` return before the cut-over, and a rejected
batch stops the worker with events left, so that no sentinel is processed.
-/

namespace GhOst.Logic

open GhOst.Sql Infra

variable {σ κ : Type} [LinearOrder κ] {m : Migration σ κ} {content : List (Row σ)}

/-! ## Accepted attempts are clean -/

theorem takeWarning_clean {violated warnings rest : List IndexName}
    (h : takeWarning violated warnings = some rest) (hw : sqlWarnings warnings = []) :
    (violated = [] ∨ .uniqueKey ∈ violated) ∧ sqlWarnings rest = [] := by
  by_cases hv : violated = []
  · cases warnings with
    | nil =>
      rw [takeWarning, if_pos hv, Option.some.injEq] at h
      exact ⟨.inl hv, h ▸ hw⟩
    | cons warning warnings =>
      rw [takeWarning, if_pos hv, Option.some.injEq] at h
      exact ⟨.inl hv, h ▸ hw⟩
  · cases warnings with
    | nil => simp [takeWarning, hv] at h
    | cons warning warnings =>
      rw [takeWarning, if_neg hv] at h
      rw [sqlWarnings, List.filter_eq_nil_iff] at hw
      have hkey : warning = .uniqueKey := by simpa using hw warning List.mem_cons_self
      split at h
      · next hmem =>
        rw [Option.some.injEq] at h
        refine ⟨.inr (hkey ▸ hmem), ?_⟩
        rw [sqlWarnings, List.filter_eq_nil_iff, ← h]
        exact fun w hmem => hw w (List.mem_cons_of_mem _ hmem)
      · simp at h

namespace Migration

theorem cleanRows_of_warned : ∀ {rows ghost : List (Row σ)} {warnings : List IndexName},
    m.warnedRows ghost rows warnings = true → sqlWarnings warnings = [] →
    m.cleanRows ghost rows = true
  | [], _, _, _, _ => rfl
  | row :: rows, ghost, warnings, h, hw => by
    rw [warnedRows, Option.any_eq_true] at h
    obtain ⟨rest, htake, hrest⟩ := h
    obtain ⟨hclean, hw'⟩ := takeWarning_clean htake hw
    rw [cleanRows, Bool.and_eq_true, decide_eq_true_iff]
    exact ⟨hclean, cleanRows_of_warned hrest hw'⟩

theorem cleanAll_of_warned : ∀ {queries : List (Statement × List Value)} {ghost : List (Row σ)}
    {warnings : List IndexName},
    m.warnedQueries ghost queries warnings = true → sqlWarnings warnings = [] →
    m.srv.cleanAll m.ix ghost queries = true
  | [], _, _, _, _ => rfl
  | (statement, args) :: queries, ghost, warnings, h, hw => by
    rw [warnedQueries, Option.any_eq_true] at h
    obtain ⟨rest, htake, hrest⟩ := h
    obtain ⟨hclean, hw'⟩ := takeWarning_clean htake hw
    rw [Option.any_eq_true] at hrest
    obtain ⟨ghost', hexec, hrest⟩ := hrest
    rw [Server.cleanAll, Bool.and_eq_true, Bool.or_eq_true, hexec]
    exact ⟨hclean.imp (fun h => by simp [h]) (fun h => by simpa using h),
      cleanAll_of_warned hrest hw'⟩

/-- **What is accepted is clean.** -/
theorem cleanStep_of_warned {s : State σ κ} {a : Action σ} {warnings : List IndexName}
    (h : m.warned s a warnings = true) (hw : sqlWarnings warnings = []) : m.CleanStep s a := by
  cases a with
  | applyEvents n =>
    rw [warned] at h
    rw [CleanStep, cleanBatch]
    rcases hb : buildBatch m.enc m.apl ((s.batch n).map m.event) with _ | ⟨_ | queries, left⟩
    · rfl
    · rfl
    · rw [hb] at h
      exact cleanAll_of_warned h hw
  | applyIterationInsertQuery => exact cleanRows_of_warned h hw
  | _ => trivial

theorem rejected_action {s : State σ κ} {a : Action σ} {warnings : List IndexName}
    (h : m.warned s a warnings = true) (hw : sqlWarnings warnings ≠ []) :
    a = .applyIterationInsertQuery ∨ ∃ n, a = .applyEvents n := by
  have hnone : ¬ warnings = [] := by
    rintro rfl
    exact hw rfl
  cases a with
  | applyIterationInsertQuery => exact .inl rfl
  | applyEvents n => exact .inr ⟨n, rfl⟩
  | _ => simp [warned, hnone] at h

end Migration

/-! ## The row copy stays done -/

structure State.Copied (s : State σ κ) : Prop where
  done : s.RowCopyDone
  noChunk : s.inChunk = false

section Tables

variable [DecidableEq σ] {s s' : State σ κ} {a : Action σ}

theorem State.Copied.step (h : s.Copied) (hs : m.step s a = some s') : s'.Copied := by
  cases a with
  | commit changes =>
    obtain ⟨original, _, rfl⟩ := Migration.step_commit hs
    exact ⟨h.done, h.noChunk⟩
  | deliver =>
    obtain ⟨_, rfl⟩ := Migration.step_deliver hs
    exact ⟨h.done, h.noChunk⟩
  | applyEvents n =>
    obtain ⟨_, ghost, _, rfl⟩ := Migration.step_applyEvents hs
    exact ⟨h.done, h.noChunk⟩
  | readMigrationRangeValues =>
    obtain ⟨hread, _⟩ := Migration.step_readMigrationRangeValues hs
    exact absurd (hread.symm.trans h.done.1) (by simp)
  | calculateNextIterationRangeEndValues n =>
    exact absurd h.done (Migration.not_rowCopyDone_of_calculate hs)
  | applyIterationInsertQuery =>
    obtain ⟨hchunk, _⟩ := Migration.step_applyIterationInsertQuery hs
    exact absurd (hchunk.symm.trans h.noChunk) (by simp)

theorem Migration.step_events (hs : m.step s a = some s') (ha : ∀ n, a ≠ .applyEvents n) :
    s'.applied = s.applied ∧
      (s'.history = s.history ∨ ∃ changes, a = .commit changes ∧
        s'.history = s.history ++ changes) := by
  cases a with
  | commit changes =>
    obtain ⟨original, _, rfl⟩ := step_commit hs
    exact ⟨rfl, .inr ⟨changes, rfl, rfl⟩⟩
  | deliver =>
    obtain ⟨_, rfl⟩ := step_deliver hs
    exact ⟨rfl, .inl rfl⟩
  | applyEvents n => exact absurd rfl (ha n)
  | readMigrationRangeValues =>
    obtain ⟨_, rfl⟩ := step_readMigrationRangeValues hs
    exact ⟨rfl, .inl rfl⟩
  | calculateNextIterationRangeEndValues n =>
    obtain ⟨_, _, start, stop, _, _, ⟨_, rfl⟩ | ⟨rangeEnd, _, rfl⟩⟩ := step_calculate hs
    · exact ⟨rfl, .inl rfl⟩
    · exact ⟨rfl, .inl rfl⟩
  | applyIterationInsertQuery =>
    obtain ⟨_, rfl⟩ := step_applyIterationInsertQuery hs
    exact ⟨rfl, .inl rfl⟩

theorem Migration.step_hasNoFurtherRange (hs : m.step s a = some s') :
    s'.hasNoFurtherRange = s.hasNoFurtherRange ∨
      s'.Copied ∧ ∃ n, a = .calculateNextIterationRangeEndValues n := by
  cases a with
  | commit changes =>
    obtain ⟨original, _, rfl⟩ := step_commit hs
    exact .inl rfl
  | deliver =>
    obtain ⟨_, rfl⟩ := step_deliver hs
    exact .inl rfl
  | applyEvents n =>
    obtain ⟨_, ghost, _, rfl⟩ := step_applyEvents hs
    exact .inl rfl
  | readMigrationRangeValues =>
    obtain ⟨_, rfl⟩ := step_readMigrationRangeValues hs
    exact .inl rfl
  | calculateNextIterationRangeEndValues n =>
    obtain ⟨hread, hchunk, start, stop, _, _, ⟨_, rfl⟩ | ⟨rangeEnd, _, rfl⟩⟩ := step_calculate hs
    · exact .inr ⟨⟨⟨hread, .inl rfl⟩, hchunk⟩, n, rfl⟩
    · exact .inl rfl
  | applyIterationInsertQuery =>
    obtain ⟨_, rfl⟩ := step_applyIterationInsertQuery hs
    exact .inl rfl

theorem Migration.step_range (hs : m.step s a = some s') (hread : s.rangeRead = true) :
    s'.rangeRead = true ∧ s'.migrationRangeMinValues = s.migrationRangeMinValues := by
  cases a with
  | commit changes =>
    obtain ⟨original, _, rfl⟩ := step_commit hs
    exact ⟨hread, rfl⟩
  | deliver =>
    obtain ⟨_, rfl⟩ := step_deliver hs
    exact ⟨hread, rfl⟩
  | applyEvents n =>
    obtain ⟨_, ghost, _, rfl⟩ := step_applyEvents hs
    exact ⟨hread, rfl⟩
  | readMigrationRangeValues =>
    obtain ⟨hunread, _⟩ := step_readMigrationRangeValues hs
    exact absurd (hunread.symm.trans hread) (by simp)
  | calculateNextIterationRangeEndValues n =>
    obtain ⟨_, _, start, stop, _, _, ⟨_, rfl⟩ | ⟨rangeEnd, _, rfl⟩⟩ := step_calculate hs
    · exact ⟨hread, rfl⟩
    · exact ⟨hread, rfl⟩
  | applyIterationInsertQuery =>
    obtain ⟨_, rfl⟩ := step_applyIterationInsertQuery hs
    exact ⟨hread, rfl⟩

theorem WarnedRun.accept_cases {t : WarnedRun σ κ} {tables : State σ κ} (ha : t.allows a = true)
    (hs : m.step t.tables a = some tables) :
    t.accept tables = { t with tables } ∨
      t.worker = .polling ∧ tables.Copied ∧
        t.accept tables = { t with tables, worker := .terminateRowIteration false } := by
  unfold accept
  by_cases hf : t.tables.hasNoFurtherRange = false ∧ tables.hasNoFurtherRange = true
  · rw [if_pos hf]
    rcases Migration.step_hasNoFurtherRange hs with hsame | ⟨hcopied, n, rfl⟩
    · exact absurd (hf.1.symm.trans (hsame.symm.trans hf.2)) (by simp)
    · exact .inr ⟨by simpa [allows] using ha, hcopied, rfl⟩
  · rw [if_neg hf]
    exact .inl rfl

end Tables

/-! ## The invariant -/

namespace WarnedRun

structure Sound (m : Migration σ κ) (content : List (Row σ)) (t : WarnedRun σ κ) : Prop where
  tables : t.chunkRejected = false → m.Inv content t.tables
  /-- only a rejected chunk is attempted again -/
  attempts : t.chunkRejected = false →
    t.worker ≠ .retryBatchCopy ∧ t.worker ≠ .terminateRowIteration true
  /-- the error of a rejected chunk is on its way to `consumeRowCopyComplete` -/
  reported : t.chunkRejected = true → t.migrate = .consumeRowCopyComplete →
    t.worker = .terminateRowIteration true ∨ t.aborted = true
  /-- there was something to copy -/
  ranged : t.chunkRejected = true →
    t.tables.rangeRead = true ∧ t.tables.migrationRangeMinValues ≠ none
  ended : t.chunkRejected = false → t.worker = .terminateRowIteration false → t.tables.Copied
  passed : t.migrate.pastRowCopy = true →
    t.migrate = .checkAbort ∧ t.aborted = true ∨ t.chunkRejected = false ∧ t.tables.Copied
  /-- a rejected batch is left in the queue for good -/
  halted : t.batchRejected = true → t.worker = .stopped ∧
    (t.chunkRejected = false → t.tables.applied < t.tables.history.length)
  processed : t.migrate = .rename ∨ t.migrate = .swapped →
    t.tables.applied = t.tables.history.length

variable {t t' : WarnedRun σ κ}

theorem Sound.init (hc : m.Content content) :
    Sound m content { tables := { original := content } } where
  tables := fun _ => Migration.Inv.init hc
  attempts := fun _ => ⟨by simp, by simp⟩
  reported := by simp
  ranged := by simp
  ended := fun _ h => by simp at h
  passed := by simp [MigrateAt.pastRowCopy]
  halted := by simp
  processed := by simp

section Kept

variable (h : Sound m content t)
include h

theorem Sound.copied (hp : t.migrate.pastRowCopy = true) (hne : t.migrate ≠ .checkAbort) :
    t.chunkRejected = false ∧ t.tables.Copied :=
  (h.passed hp).resolve_left fun hc => hne hc.1

theorem Sound.renaming (hr : t.migrate = .rename ∨ t.migrate = .swapped) :
    t.chunkRejected = false ∧ t.tables.Copied := by
  rcases hr with hr | hr
  · exact h.copied (by rw [hr]; rfl) (by simp [hr])
  · exact h.copied (by rw [hr]; rfl) (by simp [hr])

section Act

variable [DecidableEq σ] {a : Action σ} {tables : State σ κ}

theorem Sound.processed_act (ha : t.allows a = true) (hs : m.step t.tables a = some tables)
    (hr : t.migrate = .rename ∨ t.migrate = .swapped) : tables.applied = tables.history.length := by
  have hall := h.processed hr
  have hlocks : t.migrate.locks = true := by
    rcases hr with hr | hr
    · rw [hr]; rfl
    · rw [hr]; rfl
  have hnone : ∀ n, a ≠ .applyEvents n := by
    rintro n rfl
    have hlt := (Migration.step_applyEvents hs).1
    have hle := (h.tables (h.renaming hr).1).delivered_le
    omega
  obtain ⟨happlied, hhist | ⟨changes, rfl, _⟩⟩ := Migration.step_events hs hnone
  · rw [happlied, hhist, hall]
  · simp [allows, hlocks] at ha

theorem Sound.halted_act (ha : t.allows a = true) (hs : m.step t.tables a = some tables)
    (hb : t.batchRejected = true) :
    t.chunkRejected = false → tables.applied < tables.history.length := by
  intro hc
  obtain ⟨hworker, hlt⟩ := h.halted hb
  have hlt := hlt hc
  have hnone : ∀ n, a ≠ .applyEvents n := by
    rintro n rfl
    simp [allows, hworker] at ha
  obtain ⟨happlied, hhist | ⟨changes, _, hhist⟩⟩ := Migration.step_events hs hnone
  · rw [happlied, hhist]
    exact hlt
  · rw [happlied, hhist, List.length_append]
    omega

theorem Sound.ranged_act (hs : m.step t.tables a = some tables) (hc : t.chunkRejected = true) :
    tables.rangeRead = true ∧ tables.migrationRangeMinValues ≠ none := by
  obtain ⟨hread, hmin⟩ := h.ranged hc
  obtain ⟨hread', hmin'⟩ := Migration.step_range hs hread
  exact ⟨hread', hmin' ▸ hmin⟩

theorem Sound.accept (hm : m.CarriesOver) (ha : t.allows a = true) (hclean : m.CleanStep t.tables a)
    (hs : m.step t.tables a = some tables) : Sound m content (t.accept tables) := by
  rcases accept_cases ha hs with heq | ⟨hpoll, hcopied, heq⟩
  · rw [heq]
    exact { h with
      tables := fun hc => (h.tables hc).step hm hclean hs
      ranged := h.ranged_act hs
      ended := fun hc hw => (h.ended hc hw).step hs
      passed := fun hp => (h.passed hp).imp_right (And.imp_right fun hd => hd.step hs)
      halted := fun hb => ⟨(h.halted hb).1, h.halted_act ha hs hb⟩
      processed := h.processed_act ha hs }
  · rw [heq]
    exact {
      tables := fun hc => (h.tables hc).step hm hclean hs
      attempts := fun _ => ⟨by simp, by simp⟩
      reported := fun hc hmig => .inr ((h.reported hc hmig).resolve_left (by simp [hpoll]))
      ranged := h.ranged_act hs
      ended := fun _ _ => hcopied
      passed := fun hp => (h.passed hp).imp_right (And.imp_right fun hd => hd.step hs)
      halted := fun hb => absurd (h.halted hb).1 (by simp [hpoll])
      processed := h.processed_act ha hs }

theorem Sound.reject_chunk (hpoll : t.worker = .polling)
    (hs : m.step t.tables .applyIterationInsertQuery = some tables) :
    Sound m content (t.reject .applyIterationInsertQuery tables) := by
  have hranged : tables.rangeRead = true ∧ tables.migrationRangeMinValues ≠ none := by
    by_cases hc : t.chunkRejected = true
    · exact h.ranged_act hs hc
    · have hinv := h.tables (by simpa using hc)
      obtain ⟨hchunk, _⟩ := Migration.step_applyIterationInsertQuery hs
      obtain ⟨start, stop, last, _, _, hlast, _, _⟩ := hinv.chunk hchunk
      have hread : t.tables.rangeRead = true := by
        by_contra hr
        simp [(hinv.unread (by simpa using hr)).2.1] at hchunk
      obtain ⟨hread', hmin⟩ := Migration.step_range hs hread
      refine ⟨hread', fun hnone => ?_⟩
      rw [hinv.range hread (hmin ▸ hnone)] at hlast
      simp at hlast
  obtain ⟨hchunk, _⟩ := Migration.step_applyIterationInsertQuery hs
  have hnot : ¬ t.tables.Copied := fun hd => absurd (hchunk.symm.trans hd.noChunk) (by simp)
  exact {
    tables := by simp [reject]
    attempts := by simp [reject]
    reported := fun _ _ => .inl rfl
    ranged := fun _ => hranged
    ended := by simp [reject]
    passed := fun hp => (h.passed hp).imp_right fun hd => absurd hd.2 hnot
    halted := fun hb => absurd (h.halted hb).1 (by simp [hpoll])
    processed := fun hr => absurd (h.renaming hr).2 hnot }

theorem Sound.reject_batch (hpoll : t.worker = .polling) {n : Nat}
    (hs : m.step t.tables (.applyEvents n) = some tables) :
    Sound m content (t.reject (.applyEvents n) tables) :=
  { h with
    attempts := fun _ => ⟨by simp [reject], by simp [reject]⟩
    reported := fun hc hmig => .inr ((h.reported hc hmig).resolve_left (by simp [hpoll]))
    ended := fun _ hw => by simp [reject] at hw
    halted := fun _ => ⟨rfl, fun hc => by
      have hlt := (Migration.step_applyEvents hs).1
      have hle := (h.tables hc).delivered_le
      show t.tables.applied < t.tables.history.length
      omega⟩ }

theorem Sound.act (hm : m.CarriesOver) {warnings : List IndexName}
    (hs : m.warnedStep t (.act a warnings) = some t') : Sound m content t' := by
  obtain ⟨ha, hwarned, tables, hstep, ⟨hw, rfl⟩ | ⟨hw, rfl⟩⟩ := Migration.warnedStep_act hs
  · exact h.accept hm ha (Migration.cleanStep_of_warned hwarned hw) hstep
  · rcases Migration.rejected_action hwarned hw with rfl | ⟨n, rfl⟩
    · exact h.reject_chunk (by simpa [allows] using ha) hstep
    · exact h.reject_batch (by simpa [allows] using ha) hstep

end Act

/-! ## Signals -/

theorem Sound.move {migrate : MigrateAt} (hne : migrate ≠ .consumeRowCopyComplete)
    (hpass : migrate.pastRowCopy = true →
      migrate = .checkAbort ∧ t.aborted = true ∨ t.chunkRejected = false ∧ t.tables.Copied)
    (hproc : migrate = .rename ∨ migrate = .swapped → t.tables.applied = t.tables.history.length) :
    Sound m content { t with migrate } :=
  { h with
    reported := fun _ hmig => absurd hmig hne
    passed := hpass
    processed := hproc }

theorem Sound.cancel : Sound m content { t with aborted := true } :=
  { h with
    reported := fun _ _ => .inr rfl
    passed := fun hp => (h.passed hp).imp_left fun hc => ⟨hc.1, rfl⟩ }

theorem Sound.stop
    (hrep : t.chunkRejected = true → t.migrate = .consumeRowCopyComplete → t.aborted = true) :
    Sound m content { t with worker := .stopped } :=
  { h with
    attempts := fun _ => ⟨by simp, by simp⟩
    reported := fun hc hmig => .inr (hrep hc hmig)
    ended := fun _ hw => by simp at hw
    halted := fun hb => ⟨rfl, (h.halted hb).2⟩ }

theorem Sound.rejected_of_failed
    (hw : t.worker = .retryBatchCopy ∨ t.worker = .terminateRowIteration true) :
    t.chunkRejected = true := by
  by_contra hc
  obtain ⟨hretry, hterm⟩ := h.attempts (by simpa using hc)
  exact hw.elim hretry hterm

theorem Sound.sent {failed : Bool} {worker : WorkerAt}
    (hterm : t.worker = .terminateRowIteration failed)
    (hw : worker = if failed then .retryBatchCopy else .polling)
    (hmig : t.migrate = .consumeRowCopyComplete → t.aborted = true) :
    Sound m content { t with worker } := by
  subst hw
  exact { h with
    attempts := by
      intro hc
      cases failed with
      | true =>
        exact absurd ((h.rejected_of_failed (.inr hterm)).symm.trans hc) (by simp)
      | false => exact ⟨by simp, by simp⟩
    reported := fun _ hm => .inr (hmig hm)
    ended := by
      intro _ hw
      cases failed with
      | true => simp at hw
      | false => simp at hw
    halted := fun hb => absurd (h.halted hb).1 (by simp [hterm]) }

theorem Sound.received (hmig : t.migrate = .consumeRowCopyComplete)
    (hterm : t.worker = .terminateRowIteration false) :
    t.aborted = true ∨ t.chunkRejected = false ∧ t.tables.Copied := by
  by_cases hc : t.chunkRejected = true
  · exact .inl ((h.reported hc hmig).resolve_left (by simp [hterm]))
  · have hc : t.chunkRejected = false := by simpa using hc
    exact .inr ⟨hc, h.ended hc hterm⟩

theorem Sound.rowCopyComplete [DecidableEq σ] (hs : m.warnedStep t .rowCopyComplete = some t') :
    Sound m content t' := by
  obtain ⟨hmig, ⟨hterm, rfl⟩ | ⟨hterm, rfl⟩⟩ := Migration.warnedStep_rowCopyComplete hs
  · have hmoved : Sound m content { t with migrate := .abort } :=
      h.move (by simp) (by simp [MigrateAt.pastRowCopy]) (by simp)
    exact hmoved.sent hterm rfl (by simp)
  · have hmoved : Sound m content { t with migrate := .checkAbort } :=
      h.move (by simp) (fun _ => (h.received hmig hterm).imp_left fun ha => ⟨rfl, ha⟩) (by simp)
    exact hmoved.sent hterm rfl (by simp)

theorem Sound.noRowsFound (hread : t.tables.rangeRead = true)
    (hmin : t.tables.migrationRangeMinValues = none) :
    t.chunkRejected = false ∧ t.tables.Copied := by
  have hc : t.chunkRejected = false := by
    by_contra hc
    exact (h.ranged (by simpa using hc)).2 hmin
  refine ⟨hc, ⟨hread, .inr hmin⟩, ?_⟩
  by_contra hchunk
  obtain ⟨start, stop, last, _, _, hlast, _, _⟩ := (h.tables hc).chunk (by simpa using hchunk)
  rw [(h.tables hc).range hread hmin] at hlast
  simp at hlast

theorem Sound.retryBatchCopy [DecidableEq σ] {n : Nat}
    (hs : m.warnedStep t (.retryBatchCopy n) = some t') : Sound m content t' := by
  obtain ⟨hretry, _, tables, worker, hre, rfl⟩ := Migration.warnedStep_retryBatchCopy hs
  have hc : t.chunkRejected = true := h.rejected_of_failed (.inl hretry)
  obtain ⟨hread, hmin⟩ := Migration.recalculate_range hre
  exact {
    tables := fun hc' => absurd (hc.symm.trans hc') (by simp)
    attempts := fun hc' => absurd (hc.symm.trans hc') (by simp)
    reported := fun hc hmig => .inr ((h.reported hc hmig).resolve_left (by simp [hretry]))
    ranged := fun _ => ⟨hread.trans (h.ranged hc).1, hmin ▸ (h.ranged hc).2⟩
    ended := fun hc' => absurd (hc.symm.trans hc') (by simp)
    passed := fun hp => (h.passed hp).imp_right fun hd => absurd (hc.symm.trans hd.1) (by simp)
    halted := fun hb => absurd (h.halted hb).1 (by simp [hretry])
    processed := fun hr => absurd (hc.symm.trans (h.renaming hr).1) (by simp) }

theorem Sound.step [DecidableEq σ] (hm : m.CarriesOver) {a : WarnedAction σ}
    (hs : m.warnedStep t a = some t') : Sound m content t' := by
  cases a with
  | act a warnings => exact h.act hm hs
  | rowCopyComplete => exact h.rowCopyComplete hs
  | retryBatchCopy n => exact h.retryBatchCopy hs
  | sendCancelled =>
    obtain ⟨hab, ⟨hterm, rfl⟩ | ⟨hterm, rfl⟩⟩ := Migration.warnedStep_sendCancelled hs
    · exact h.sent hterm rfl fun _ => hab
    · exact h.sent hterm rfl fun _ => hab
  | panicAbort =>
    rw [Migration.warnedStep, Option.some.injEq] at hs
    exact hs ▸ h.cancel
  | sqlError =>
    rw [Migration.warnedStep] at hs
    split at hs
    · exact Option.some.inj hs ▸ h.cancel.stop fun _ _ => rfl
    · simp at hs
  | stopWorker =>
    rw [Migration.warnedStep] at hs
    split at hs
    · next hg =>
      refine Option.some.inj hs ▸ h.stop fun hc hmig => ?_
      rcases hg with hretry | hab
      · exact (h.reported hc hmig).resolve_left (by simp [hretry])
      · exact hab
    · simp at hs
  | noRowsFound =>
    rw [Migration.warnedStep] at hs
    split at hs
    · next hg =>
      exact Option.some.inj hs ▸ h.move (by simp) (fun _ => .inr (h.noRowsFound hg.2.1 hg.2.2))
        (by simp)
    · simp at hs
  | abort =>
    rw [Migration.warnedStep] at hs
    split at hs
    · exact Option.some.inj hs ▸ h.cancel.move (by simp) (fun _ => .inl ⟨rfl, rfl⟩) (by simp)
    · simp at hs
  | contextDone =>
    rw [Migration.warnedStep] at hs
    split at hs
    · next hg =>
      exact Option.some.inj hs ▸ h.move (by simp) (fun _ => .inl ⟨rfl, hg.2⟩) (by simp)
    · simp at hs
  | checkAbort =>
    rw [Migration.warnedStep] at hs
    split at hs
    · next hg =>
      have hpast : t.migrate.pastRowCopy = true := by rw [hg]; rfl
      refine Option.some.inj hs ▸ h.move (by split <;> simp) ?_ (by split <;> simp)
      intro hp
      -- with the abort error set `Migrate` returns
      split at hp
      · simp [MigrateAt.pastRowCopy] at hp
      · next hab => exact .inr ((h.passed hpast).resolve_left fun hc => hab hc.2)
    · simp at hs
  | lockOriginal =>
    rw [Migration.warnedStep] at hs
    split at hs
    · next hg =>
      exact Option.some.inj hs ▸
        h.move (by simp) (fun _ => .inr (h.copied (by rw [hg]; rfl) (by simp [hg]))) (by simp)
    · simp at hs
  | eventsUpToLockProcessed =>
    rw [Migration.warnedStep] at hs
    split at hs
    · next hg =>
      exact Option.some.inj hs ▸
        h.move (by simp) (fun _ => .inr (h.copied (by rw [hg.1]; rfl) (by simp [hg.1])))
          fun _ => hg.2.2
    · simp at hs
  | rename =>
    rw [Migration.warnedStep] at hs
    split at hs
    · next hg =>
      exact Option.some.inj hs ▸
        h.move (by simp) (fun _ => .inr (h.renaming (.inl hg))) fun _ => h.processed (.inl hg)
    · simp at hs
  | failCutOver =>
    rw [Migration.warnedStep] at hs
    split at hs
    · next hg =>
      have hcopied : t.chunkRejected = false ∧ t.tables.Copied := by
        rcases hg with hg | hg
        · exact h.copied (by rw [hg]; rfl) (by simp [hg])
        · exact h.renaming (.inl hg)
      exact Option.some.inj hs ▸ h.move (by simp) (fun _ => .inr hcopied) (by simp)
    · simp at hs
  | giveUp =>
    rw [Migration.warnedStep] at hs
    split at hs
    · exact Option.some.inj hs ▸
        h.move (by simp) (by simp [MigrateAt.pastRowCopy]) (by simp)
    · simp at hs

end Kept

/-! ## Converge or abort -/

/-- An attempt was rejected because of a warning. -/
def rejected (t : WarnedRun σ κ) : Bool := t.chunkRejected || t.batchRejected

theorem Sound.not_swapped (h : Sound m content t) (hr : t.rejected = true) :
    t.migrate ≠ .swapped := by
  intro hsw
  have hc := (h.renaming (.inr hsw)).1
  rw [rejected, hc, Bool.false_or] at hr
  have hlt := (h.halted hr).2 hc
  have heq := h.processed (.inr hsw)
  omega

/-- **Converge or abort.** If an attempt was rejected, the tables are not swapped; if none was, the
ghost has the projected rows of the original once all is copied and applied. -/
theorem converges_or_aborts [DecidableEq σ] (hm : m.CarriesOver) (hc : m.Content content)
    (hr : Reachable m.warnedStep { tables := { original := content } } t) :
    (t.rejected = true → t.migrate ≠ .swapped) ∧
    (t.rejected = false → t.tables.RowCopyDone →
      t.tables.applied = t.tables.history.length →
      t.tables.ghost.Perm (t.tables.original.map m.project)) ∧
    (t.migrate = .swapped → t.tables.ghost.Perm (t.tables.original.map m.project)) := by
  have h : Sound m content t := hr.invariant (Sound.init hc) fun _ _ _ h _ hs => h.step hm hs
  refine ⟨h.not_swapped, ?_, ?_⟩
  · intro hrej hdone happlied
    rw [rejected, Bool.or_eq_false_iff] at hrej
    exact (h.tables hrej.1).converged hm hdone happlied
  · intro hsw
    obtain ⟨hc, hcopied⟩ := h.renaming (.inr hsw)
    exact (h.tables hc).converged hm hcopied.done (h.processed (.inr hsw))

/-- A run in which the tables are swapped, and one in which the copy of a row is rejected. -/
theorem converges_or_aborts_small :
    (∃ t, Reachable (smallMigration [["v"]]).warnedStep
        { tables := { original := [smallRow 1 10, smallRow 3 30] } } t ∧
      t.tables.history.length = 1 ∧ t.migrate = .swapped ∧
      t.tables.ghost.Perm (t.tables.original.map (smallMigration [["v"]]).project)) ∧
    ∃ t, Reachable (smallMigration [["v"]]).warnedStep
        { tables := { original := [smallRow 1 10, smallRow 2 20] } } t ∧
      t.rejected = true ∧ t.migrate = .returned ∧ t.migrate ≠ .swapped := by
  constructor
  · refine exists_reach_of (fun t => t.tables.history.length = 1 ∧ t.migrate = .swapped)
      [.act .readMigrationRangeValues [], .act (.commit [.insert (smallRow 2 20)]) [],
        .act .deliver [], .act (.applyEvents 1) [],
        .act (.calculateNextIterationRangeEndValues 5) [],
        .act .applyIterationInsertQuery [.uniqueKey],
        .act (.calculateNextIterationRangeEndValues 5) [], .rowCopyComplete, .checkAbort,
        .lockOriginal, .eventsUpToLockProcessed, .rename] (by decide) ?_
    rintro t hr ⟨hlen, hsw⟩
    exact ⟨hlen, hsw, (converges_or_aborts (smallMigration_carriesOver _)
      ⟨by decide, by decide⟩ hr).2.2 hsw⟩
  · refine exists_reach_of (fun t => t.rejected = true ∧ t.migrate = .returned)
      [.act .readMigrationRangeValues [], .act (.calculateNextIterationRangeEndValues 1) [],
        .act .applyIterationInsertQuery [],
        .act (.commit [.update (smallRow 1 10) (smallRow 1 30)]) [],
        .act (.commit [.update (smallRow 2 20) (smallRow 2 10)]) [],
        .act (.calculateNextIterationRangeEndValues 1) [],
        .act .applyIterationInsertQuery [.further ["v"]], .rowCopyComplete, .abort, .checkAbort]
      (by decide) ?_
    rintro t hr ⟨hrej, hret⟩
    exact ⟨hrej, hret, (converges_or_aborts (smallMigration_carriesOver _)
      ⟨by decide, by decide⟩ hr).1 hrej⟩

end WarnedRun

end GhOst.Logic
