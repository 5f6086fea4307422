import GhOst.Logic.Resume
import GhOst.Properties.Convergence

/-!
# Crash-resume convergence

Resuming replays old events on a newer ghost. The invariant of copy and replay is not hurt by that:
a cell that is at least of version `a` is at least of every older version. No key up to the end of
the checkpoint's range may still have to be copied (`Covered`), and since the pending keys only
become fewer (`pending_mono`), a range that was covered when it was recorded still is when the
process is killed.
-/

namespace GhOst.Logic

open GhOst.Sql Infra

variable {σ κ : Type} [LinearOrder κ]

/-- No key up to `stop` is still to be copied. -/
def State.Covered (s : State σ κ) (stop : List κ) : Prop := ∀ k, s.Pending k → stop < k

namespace Migration

variable {m : Migration σ κ} {content : List (Row σ)} {s s' : State σ κ} {stop : List κ}

/-! ## The pending keys become fewer -/

/-- **A key that is not pending does not become pending.** -/
theorem Inv.pending_mono [DecidableEq σ] (h : m.Inv content s) {a : Action σ}
    (hs : m.step s a = some s') {k : List κ} (hk : s'.Pending k) : s.Pending k := by
  cases a with
  | commit changes =>
    obtain ⟨original, _, rfl⟩ := step_commit hs
    exact ⟨hk.further, hk.start, hk.stop⟩
  | deliver =>
    obtain ⟨_, rfl⟩ := step_deliver hs
    exact ⟨hk.further, hk.start, hk.stop⟩
  | applyEvents n =>
    obtain ⟨_, ghost, _, rfl⟩ := step_applyEvents hs
    exact ⟨hk.further, hk.start, hk.stop⟩
  | readMigrationRangeValues =>
    obtain ⟨hread, rfl⟩ := step_readMigrationRangeValues hs
    obtain ⟨hmin, hchunk, _⟩ := h.unread hread
    refine ⟨hk.further, ?_, fun hr => absurd (hread.symm.trans hr) (by simp)⟩
    intro start hstart
    refine hk.start start ?_
    unfold State.copyStart State.nextRangeMin at hstart ⊢
    rw [if_neg (by simp [hchunk]), hmin, Option.or_none] at hstart
    rw [if_neg (by simp [hchunk]), hstart, Option.some_or]
  | calculateNextIterationRangeEndValues n =>
    obtain ⟨_, hchunk, start, stop, hstart, _, hcase⟩ := step_calculate hs
    rcases hcase with ⟨_, rfl⟩ | ⟨rangeEnd, _, rfl⟩
    · exact absurd hk.further (by simp)
    · refine ⟨hk.further, fun st hst => hk.start st ?_, hk.stop⟩
      unfold State.copyStart at hst ⊢
      rw [if_neg (by simp [hchunk]), hstart] at hst
      exact hst
  | applyIterationInsertQuery =>
    obtain ⟨hchunk, rfl⟩ := step_applyIterationInsertQuery hs
    obtain ⟨start, stop, last, hstart, hstop, _, hle, _⟩ := h.chunk hchunk
    refine ⟨hk.further, ?_, hk.stop⟩
    intro st hst
    unfold State.copyStart at hst
    rw [if_pos hchunk, hstart, Option.some.injEq] at hst
    have hlt := hk.start stop (by
      unfold State.copyStart State.nextRangeMin
      rw [if_neg (by simp), hstop, Option.some_or])
    refine .inl (hst ▸ lt_of_le_of_lt hle ?_)
    simpa [State.includeRangeStartValues] using hlt

theorem Inv.covered_last (h : m.Inv content s) (hchunk : s.inChunk = false)
    (hmax : s.migrationIterationRangeMaxValues = some stop) : s.Covered stop := by
  intro k hk
  have hne : s.iteration ≠ 0 := fun h0 => by
    have := (h.iteration hchunk).mp h0
    rw [hmax] at this
    simp at this
  have hlt := hk.start stop (by
    unfold State.copyStart State.nextRangeMin
    rw [if_neg (by simp [hchunk]), hmax, Option.some_or])
  simpa [State.includeRangeStartValues, hne] using hlt

/-! ## Positions only move forward within a run -/

theorem applied_mono [DecidableEq σ] {a : Action σ} (hs : m.step s a = some s') :
    s.applied ≤ s'.applied ∧ s.iteration ≤ s'.iteration := by
  cases a with
  | commit changes =>
    obtain ⟨original, _, rfl⟩ := step_commit hs
    exact ⟨Nat.le_refl _, Nat.le_refl _⟩
  | deliver =>
    obtain ⟨_, rfl⟩ := step_deliver hs
    exact ⟨Nat.le_refl _, Nat.le_refl _⟩
  | applyEvents n =>
    obtain ⟨_, ghost, _, rfl⟩ := step_applyEvents hs
    exact ⟨Nat.le_add_right _ _, Nat.le_refl _⟩
  | readMigrationRangeValues =>
    obtain ⟨_, rfl⟩ := step_readMigrationRangeValues hs
    exact ⟨Nat.le_refl _, Nat.le_refl _⟩
  | calculateNextIterationRangeEndValues n =>
    obtain ⟨_, _, start, stop, _, _, ⟨_, rfl⟩ | ⟨rangeEnd, _, rfl⟩⟩ := step_calculate hs
    · exact ⟨Nat.le_refl _, Nat.le_refl _⟩
    · exact ⟨Nat.le_refl _, Nat.le_refl _⟩
  | applyIterationInsertQuery =>
    obtain ⟨_, rfl⟩ := step_applyIterationInsertQuery hs
    exact ⟨Nat.le_refl _, Nat.le_succ _⟩

/-! ## The invariant of a session -/

structure SessionInv (m : Migration σ κ) (content : List (Row σ)) (s : Session σ κ) : Prop where
  live : m.Inv content s.live
  acknowledged : ∀ p, s.appliedTransactionCoordinates = some p → p ≤ s.live.applied
  lastRange : ∀ r, s.lastIterationRange = some r → 0 < s.live.iteration ∧ s.live.Covered r.2
  sample : ∀ c, s.sample = some c → 0 < c.iteration ∧ s.live.Covered c.iterationRangeMax
  checkpoint : ∀ c, s.lastCheckpoint = some c → 0 < c.iteration ∧
    s.live.Covered c.iterationRangeMax ∧ c.lastTrxCoords ≤ s.live.applied

/-- **Resuming from a checkpoint keeps the invariant of copy and replay.** -/
theorem Inv.resume (h : m.Inv content s) {chk : Checkpoint κ} (hit : 0 < chk.iteration)
    (hcov : s.Covered chk.iterationRangeMax) (hle : chk.lastTrxCoords ≤ s.applied) :
    m.Inv content (s.resume chk) where
  start := h.start
  original := h.original
  valid := h.valid
  applied_le := Nat.le_refl _
  delivered_le := Nat.le_trans hle h.applied_le_length
  ghostKeys := h.ghostKeys
  ghostStored := h.ghostStored
  cells := by
    intro k
    rcases h.cells k with hat | ⟨hk, hnone⟩
    · exact .inl (hat.mono hle)
    · refine .inr ⟨⟨rfl, ?_, by simp [State.resume]⟩, hnone⟩
      intro start hstart
      have hstart : chk.iterationRangeMax = start := by
        simpa [State.resume, State.copyStart, State.nextRangeMin] using hstart
      exact .inl (hstart ▸ hcov k hk)
  unread := fun _ => ⟨rfl, rfl, rfl⟩
  range := by simp [State.resume]
  iteration := fun _ => by simp [State.resume]; omega
  chunk := by simp [State.resume]

theorem covered_resume {chk : Checkpoint κ} (hit : 0 < chk.iteration) :
    (s.resume chk).Covered chk.iterationRangeMax := by
  intro k hk
  have hlt := hk.start chk.iterationRangeMax (by simp [State.resume, State.copyStart,
    State.nextRangeMin])
  have hne : chk.iteration ≠ 0 := by omega
  simpa [State.resume, State.includeRangeStartValues, hne] using hlt

theorem SessionInv.init (hc : m.Content content) :
    m.SessionInv content { live := { original := content } } where
  live := Inv.init hc
  acknowledged := by simp
  lastRange := by simp
  sample := by simp
  checkpoint := by simp

theorem SessionInv.live_step [DecidableEq σ] {t t' : Session σ κ} (hm : m.CarriesOver)
    (hix : m.ix.further = []) (h : m.SessionInv content t) {a : Action σ}
    (hs : m.step t.live a = some t'.live)
    (hack : t'.appliedTransactionCoordinates = t.appliedTransactionCoordinates)
    (hlast : t'.lastIterationRange = t.lastIterationRange) (hsample : t'.sample = t.sample)
    (hchk : t'.lastCheckpoint = t.lastCheckpoint) : m.SessionInv content t' := by
  obtain ⟨happ, hiter⟩ := applied_mono hs
  have hcov : ∀ {e}, t.live.Covered e → t'.live.Covered e :=
    fun hc k hk => hc k (h.live.pending_mono hs hk)
  exact {
    live := h.live.step hm (cleanStep_of_no_further hix _ _) hs
    acknowledged := fun p hp => Nat.le_trans (h.acknowledged p (hack ▸ hp)) happ
    lastRange := fun r hr =>
      have ⟨h1, h2⟩ := h.lastRange r (hlast ▸ hr)
      ⟨Nat.lt_of_lt_of_le h1 hiter, hcov h2⟩
    sample := fun c hc =>
      have ⟨h1, h2⟩ := h.sample c (hsample ▸ hc)
      ⟨h1, hcov h2⟩
    checkpoint := fun c hc =>
      have ⟨h1, h2, h3⟩ := h.checkpoint c (hchk ▸ hc)
      ⟨h1, hcov h2, Nat.le_trans h3 happ⟩ }

theorem SessionInv.step [DecidableEq σ] {t t' : Session σ κ} (hm : m.CarriesOver)
    (hix : m.ix.further = []) (h : m.SessionInv content t) {a : SessionAction σ}
    (hs : m.sessionStep t a = some t') : m.SessionInv content t' := by
  cases a with
  | live a =>
    rw [sessionStep] at hs
    cases hl : m.step t.live a with
    | none => simp [hl] at hs
    | some live =>
      simp only [hl] at hs
      cases hs
      exact h.live_step hm hix hl rfl rfl rfl rfl
  | acknowledge trxEnd =>
    obtain ⟨hg, rfl⟩ := of_guard hs
    refine { h with acknowledged := fun p hp => ?_ }
    rw [Option.some.injEq] at hp
    exact hp ▸ hg.2
  | recordLastIterationRange =>
    rw [sessionStep] at hs
    split at hs
    · next rangeMin rangeMax hchunk hmin hmax =>
      cases hs
      refine { h with lastRange := fun r hr => ?_ }
      cases hr
      refine ⟨Nat.pos_of_ne_zero fun h0 => ?_, h.live.covered_last hchunk hmax⟩
      have := (h.live.iteration hchunk).mp h0
      rw [hmax] at this
      simp at this
    · simp at hs
  | sampleCheckpoint coords =>
    rw [sessionStep] at hs
    split at hs
    · next rangeMin rangeMax hlast =>
      cases hs
      refine { h with sample := fun c hc => ?_ }
      cases hc
      exact h.lastRange _ hlast
    · simp at hs
  | writeCheckpoint =>
    rw [sessionStep] at hs
    split at hs
    · next sample applied hsample happlied =>
      obtain ⟨-, rfl⟩ := of_guard hs
      refine { h with sample := by simp, checkpoint := fun c hc => ?_ }
      cases hc
      obtain ⟨h1, h2⟩ := h.sample _ hsample
      exact ⟨h1, h2, h.acknowledged _ happlied⟩
    · simp at hs
  | crashAndResume =>
    rw [sessionStep] at hs
    split at hs
    · next chk hchk =>
      cases hs
      obtain ⟨h1, h2, h3⟩ := h.checkpoint chk hchk
      refine ⟨h.live.resume h1 h2 h3, by simp, by simp, by simp, fun c hc => ?_⟩
      cases hc
      exact ⟨h1, covered_resume h1, Nat.le_refl _⟩
    · simp at hs

/-- **Crash-resume convergence**, over any number of crashes, each followed by resuming from the
last checkpoint. -/
theorem crash_resume_converges [DecidableEq σ] {t : Session σ κ} (hm : m.CarriesOver)
    (hix : m.ix.further = []) (hc : m.Content content)
    (hr : Reachable m.sessionStep { live := { original := content } } t)
    (hdone : t.live.RowCopyDone) (happlied : t.live.applied = t.live.history.length) :
    t.live.ghost.Perm (t.live.original.map m.project) := by
  have hinv : m.SessionInv content t :=
    hr.invariant (SessionInv.init hc) fun _ _ _ h _ hs => h.step hm hix hs
  exact hinv.live.converged hm hdone happlied

theorem crash_resume_converges_small :
    ∃ t, Reachable (smallMigration []).sessionStep
        { live := { original := [smallRow 1 10, smallRow 2 20, smallRow 3 30] } } t ∧
      t.live.RowCopyDone ∧ t.live.applied = t.live.history.length ∧
      t.live.history.length = 2 ∧ t.lastCheckpoint.isSome = true ∧
      t.live.ghost.Perm (t.live.original.map (smallMigration []).project) := by
  refine exists_reach_of
    (fun t => t.live.RowCopyDone ∧ t.live.applied = t.live.history.length ∧
      t.live.history.length = 2 ∧ t.lastCheckpoint.isSome = true)
    [.live .readMigrationRangeValues, .live (.calculateNextIterationRangeEndValues 1),
      .live (.commit [.update (smallRow 1 10) (smallRow 1 11)]),
      .live .applyIterationInsertQuery, .recordLastIterationRange, .live .deliver,
      .live (.applyEvents 1), .acknowledge 1, .sampleCheckpoint 1,
      .live (.commit [.update (smallRow 2 20) (smallRow 5 20)]), .writeCheckpoint,
      .live (.calculateNextIterationRangeEndValues 5), .live .applyIterationInsertQuery,
      .live .deliver, .live (.applyEvents 1), .crashAndResume, .live .deliver,
      .live .readMigrationRangeValues, .live (.applyEvents 1),
      .live (.calculateNextIterationRangeEndValues 5), .live .applyIterationInsertQuery,
      .live (.calculateNextIterationRangeEndValues 5)] (by decide) ?_
  rintro t hr ⟨hdone, happlied, hlen, hchk⟩
  exact ⟨hdone, happlied, hlen, hchk, crash_resume_converges
    (smallMigration_carriesOver []) rfl ⟨by decide, by decide⟩ hr hdone happlied⟩

end Migration

end GhOst.Logic
