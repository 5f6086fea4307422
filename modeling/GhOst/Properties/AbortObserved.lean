import GhOst.Properties.Abort

/-!
# An abort is observed

Once the context is cancelled, every wait of `Migrate` ends on its own or is served by goroutines
that do not stop, with one exception: the receive from `ghostTableMigrated` has no branch for the
context, while the dispatcher that would send stops.
-/

namespace GhOst.Logic

open Infra

namespace MigrateRun

variable {ctx : MigrateContext} {s s' : MigrateRun} {a : MigrateAction}

/-! ## `Migrate` can go on -/

def CanProgress (ctx : MigrateContext) (s : MigrateRun) : Prop :=
  ∃ a s', a.progresses = true ∧ s.Observed ctx a ∧ s.step ctx a = some s'

theorem canProgress_main (outcome : MigrateOutcome)
    (hok : ∀ err, s.abortError = some err → s.leaves ctx outcome err = true)
    (hs : ∃ s', s.mainStep ctx outcome = some s') : s.CanProgress ctx := by
  obtain ⟨s', hs⟩ := hs
  exact ⟨.main outcome, s', rfl, ⟨by simp [stores], hok⟩, hs⟩

theorem Inv.canProgress (h : s.Inv ctx) (hc : s.cancelled = true) (hresult : s.result = none) :
    s.CanProgress ctx := by
  obtain ⟨err, herr⟩ : ∃ err, s.abortError = some err := by
    rcases h.cancelled hc with ha | hr
    · exact Option.isSome_iff_exists.1 ha
    · simp [hresult] at hr
  have hcheck := checkAbort_of_stored herr
  have hheeds := h.heeds err herr
  -- an attempt of the cut-over may end with the stored error, another call without one
  have hleft : ∀ err', s.abortError = some err' → s.leaves ctx (.err err) err' = true := by
    intro err' herr'
    simp [leaves, Option.some.inj (herr.symm.trans herr')]
  have hok : ∀ {o : MigrateOutcome}, s.main.attempt = none → o.fails = false →
      ∀ err', s.abortError = some err' → s.leaves ctx o err' = true := by
    intro o hm ho err' _
    simp [leaves, hm, ho]
  cases hm : s.main <;> rw [hm] at hheeds hok
  case ghostTableMigrated => exact absurd hm (h.resumed hheeds)
  case firstThrottlingCollected n =>
    cases n with
    | zero =>
      refine canProgress_main .ok (hok rfl rfl) ?_
      simp [MigrateRun.mainStep, hm]
    | succ n =>
      have hle := h.collects _ hm
      by_cases hpos : 0 < s.firstThrottlingCollected
      · refine canProgress_main .ok (hok rfl rfl) ?_
        simp [MigrateRun.mainStep, hm, hpos]
      · exact ⟨.collect, _, rfl, ⟨by simp [stores], trivial⟩, if_pos (by omega)⟩
  case rowCopyComplete =>
    refine canProgress_main .ok (hok rfl rfl) ?_
    simp [MigrateRun.mainStep, hm, hc]
  case throttle i =>
    refine canProgress_main .ok (hok rfl rfl) ?_
    simp [MigrateRun.mainStep, hm]
  case sleepWhileTrue i =>
    refine canProgress_main .ok (hok rfl rfl) ?_
    simp [MigrateRun.mainStep, hm, hcheck, MigrateRun.endAttempt]
  case atomicCutOver i =>
    have hcan : s.cutOver.Finished ∨ s.cutOver.CanProgress ctx.maxRetries :=
      (h.cutOver i hm).canProgress
    rcases hcan with hfin | ⟨b, c, hb, hbegins, hs⟩
    · refine canProgress_main (.err err) hleft ?_
      simp [MigrateRun.mainStep, hm, hfin.1, MigrateRun.endAttempt]
    · refine ⟨.cutOver b, { s with cutOver := c }, hb, ⟨by simp [stores], hbegins⟩, ?_⟩
      simp [MigrateRun.step, MigrateRun.cutOverStep, hm, hs]
  case cutOverTwoStep i =>
    refine canProgress_main (.err err) hleft ?_
    simp [MigrateRun.mainStep, hm, MigrateRun.endAttempt]
  case panicAbort own =>
    refine canProgress_main .again (hok rfl rfl) ?_
    simp [MigrateRun.mainStep, hm, sendPanicAbort, hc]
  case finalCleanup => simp [MigratePlace.heeds] at hheeds
  case returned =>
    have := h.returned.1 hm
    simp [hresult] at this
  all_goals
    refine canProgress_main .ok (hok rfl rfl) ?_
    simp [MigrateRun.mainStep, hm, MigrateRun.call]

/-! ## There is only so much work -/

theorem work_peer (hmove : PeerMove s a s') : s'.work ctx ≤ s.work ctx := by
  have hframe : ∀ {t : MigrateRun}, Frame t s' → s'.work ctx = t.work ctx := by
    intro t hf
    rw [hf]
    rfl
  cases hmove with
  | quiet frame => exact Nat.le_of_eq (hframe frame)
  | stores err ha frame =>
    rw [hframe frame]
    exact Nat.le_refl _
  | cancels ha frame =>
    rw [hframe frame]
    exact Nat.le_refl _
  | ghostTableMigrated hm frame =>
    rw [hframe frame]
    exact Nat.le_of_lt (work_to_lt (by simp [hm, MigratePlace.work]) rfl (by simp))
  | rowCopyComplete hm frame =>
    rw [hframe frame]
    exact Nat.le_of_lt (work_to_lt (by simp [hm, MigratePlace.work]) rfl (by simp))
  | rowCopyFailed err hm frame =>
    rw [hframe frame]
    exact Nat.le_of_lt (work_to_lt (by simp [hm, MigratePlace.work]) rfl (by simp))

theorem Aborted.peer (h : s.Aborted) (hmove : PeerMove s a s') : s'.Aborted := by
  have hframe : ∀ {t : MigrateRun}, Frame t s' → t.Aborted → s'.Aborted := by
    intro t hf ht
    rw [hf]
    exact ⟨ht.cancelled, ht.stored⟩
  have hset : ∀ err, (s.setAbortError err).abortError.isSome = true := by
    intro err
    rw [abortError_setAbortError]
    rfl
  cases hmove with
  | quiet frame => exact hframe frame h
  | stores err ha frame => exact hframe frame ⟨h.cancelled, .inl (hset err)⟩
  | cancels ha frame => exact hframe frame ⟨rfl, h.stored⟩
  | ghostTableMigrated hm frame =>
    exact hframe frame ⟨h.cancelled, .inl (by simpa [hm] using h.stored)⟩
  | rowCopyComplete hm frame =>
    exact hframe frame ⟨h.cancelled, .inl (by simpa [hm] using h.stored)⟩
  | rowCopyFailed err hm frame => exact hframe frame ⟨rfl, .inl (hset err)⟩

theorem Aborted.main {outcome : MigrateOutcome} (h : s.Aborted)
    (hmove : MainMove ctx s outcome s') : s'.Aborted ∧ s'.work ctx < s.work ctx := by
  cases hmove with
  | returns result frame haborting hm =>
    refine ⟨⟨rfl, .inr rfl⟩, work_to_lt ?_ ?_ (by simp [MigrateRun.returns])⟩
    · show 0 < s.main.work
      cases hplace : s.main <;> simp [hplace, MigratePlace.work] at hm ⊢
    · rw [frame]
      rfl
  | goes hsame haborting hm hheeds hresumed hcollects hcut hwork =>
    obtain ⟨-, ha, hc, -⟩ := hsame
    refine ⟨⟨hc.trans h.cancelled, .inl ?_⟩, hwork h⟩
    rw [ha]
    exact h.stored.resolve_right hm.1

theorem Aborted.step (h : s.Aborted) (hs : s.step ctx a = some s') :
    s'.Aborted ∧ (if a.progresses then 1 else 0) + s'.work ctx ≤ s.work ctx := by
  cases step_move hs with
  | main outcome hmove =>
    obtain ⟨h', hlt⟩ := h.main hmove
    refine ⟨h', ?_⟩
    show 1 + _ ≤ _
    omega
  | @cutOver b i c hm hc =>
    refine ⟨⟨h.cancelled, h.stored⟩, ?_⟩
    have hwork := CutOver.work_step hc
    show (if b.progresses then 1 else 0) + _ ≤ _
    simp only [work, cutOverWork, hm]
    omega
  | collect hpos =>
    refine ⟨⟨h.cancelled, h.stored⟩, ?_⟩
    show 1 + (s.main.work + (s.collectors - 1) + s.cutOverWork ctx) ≤
      s.main.work + s.collectors + s.cutOverWork ctx
    omega
  | peer ha hmove =>
    refine ⟨h.peer hmove, ?_⟩
    rw [ha]
    simpa using work_peer hmove

/-! ## An abort is observed -/

/-- **An abort is observed.** Once the context is cancelled `Migrate` has returned or goes on, for
at most `work` steps; and when an error is stored before it has returned, it returns the first one.
-/
theorem abort_observed
    (hr : Reach (MigrateRun.step ctx) (Observed ctx) {} s) :
    (s.cancelled = true → (s.result.isSome = true ∨ s.CanProgress ctx) ∧
      ∀ as s', run (MigrateRun.step ctx) s as = some s' →
        as.countP MigrateAction.progresses + s'.work ctx ≤ s.work ctx) ∧
    ∀ err, s.faults.head? = some err → s.result = none →
      ∀ s' r, Reach (MigrateRun.step ctx) (Observed ctx) s s' → s'.result = some r →
        r = some err := by
  have h : s.Inv ctx := hr.invariant .init fun _ _ _ h hok hs => h.step hok hs
  refine ⟨fun hc => ⟨?_, fun as s' hs => ?_⟩, fun err hfirst hnone s' r hr' hresult => ?_⟩
  · cases hresult : s.result with
    | none => exact .inr (h.canProgress hc hresult)
    | some r => exact .inl rfl
  · have haborted : s.Aborted := ⟨hc, (h.cancelled hc).imp_right h.returned.2⟩
    exact run_countP_le (fun _ _ _ h hs => (h.step hs).1) (fun _ _ _ h hs => (h.step hs).2)
      haborted hs
  · have howes : s.Owes ctx err := ⟨h, h.first.trans hfirst, by simp [hnone]⟩
    have howes : s'.Owes ctx err := hr'.invariant howes fun _ _ _ h hok hs => h.step hok hs
    exact howes.owed.2 r hresult

/-- The streamer gives up during the row copy. -/
theorem abort_observed_small : ∃ s s',
    Reach (MigrateRun.step { maxRetries := 1 }) (Observed { maxRetries := 1 }) {} s ∧
      s.cancelled = true ∧ s.faults.head? = some "streamer" ∧ s.result = none ∧
      Reach (MigrateRun.step { maxRetries := 1 }) (Observed { maxRetries := 1 }) s s' ∧
      s'.result = some (some "streamer") := by
  have hrun : ∃ s,
      Reach (MigrateRun.step { maxRetries := 1 }) (Observed { maxRetries := 1 }) {} s ∧
      s.cancelled = true ∧ s.faults.head? = some "streamer" ∧ s.result = none ∧
      (run
        (guarded (MigrateRun.step { maxRetries := 1 }) (Observed { maxRetries := 1 }))
        s [.main .ok, .main .ok]).any (·.result.isSome) = true := exists_reach
    [.main .ok, .main .ok, .notifyListeners .other, .main .ok, .main .ok,
      .notifyListeners .ghostTableMigrated, .dispatcherSends false, .main .ok, .collect, .collect,
      .collect, .main .ok, .main .ok, .main .ok, .main .ok, .main .ok, .streamerFails "streamer",
      .streamerSends false, .listener, .listener] (by decide +kernel)
  obtain ⟨s, hr, hc, hfirst, hnone, hrun⟩ := hrun
  have hend : ∃ s', Reach (MigrateRun.step { maxRetries := 1 }) (Observed { maxRetries := 1 })
      s s' ∧ s'.result.isSome = true :=
        exists_reach [.main .ok, .main .ok] (by simpa using hrun)
  obtain ⟨s', hr', hresult⟩ := hend
  obtain ⟨r, hresult⟩ := Option.isSome_iff_exists.1 hresult
  exact ⟨s, s', hr, hc, hfirst, hnone, hr',
    by rw [hresult, (abort_observed hr).2 _ hfirst hnone s' r hr' hresult]⟩

/-- `Migrate` waits for the ghost table to be migrated, and nobody is going to tell it. -/
structure Stuck (s : MigrateRun) : Prop where
  main : s.main = .ghostTableMigrated
  dispatcher : s.dispatcher = .returned

theorem Stuck.step (h : s.Stuck) (hs : s.step ctx a = some s') : s'.Stuck := by
  have hframe : ∀ {t : MigrateRun}, Frame t s' → t.main = s.main →
      s'.main = .ghostTableMigrated := by
    intro t hf hm
    rw [hf]
    exact hm.trans h.main
  cases step_move hs with
  | main outcome => simp [MigrateRun.step, MigrateRun.mainStep, h.main] at hs
  | cutOver hm => simp [h.main] at hm
  | collect => exact ⟨h.main, h.dispatcher⟩
  | peer ha hmove =>
    cases hmove with
    | quiet frame quiet => exact ⟨hframe frame rfl, quiet.stopped h.dispatcher⟩
    | stores err ha frame stopped => exact ⟨hframe frame rfl, stopped h.dispatcher⟩
    | cancels ha frame stopped => exact ⟨hframe frame rfl, stopped h.dispatcher⟩
    | ghostTableMigrated hm frame quiet hd => exact absurd h.dispatcher hd
    | rowCopyComplete hm => simp [h.main] at hm
    | rowCopyFailed err hm => simp [h.main] at hm

/-- **The streamer gives up while `Migrate` waits for the ghost table to be migrated**, which it
does for ever. -/
theorem abort_not_observed : ∃ s, Reachable (MigrateRun.step { maxRetries := 1 }) {} s ∧
    s.cancelled = true ∧ s.abortError = some "streamer" ∧
      ∀ s', Reachable (MigrateRun.step { maxRetries := 1 }) s s' →
        s'.main = .ghostTableMigrated := by
  refine exists_reach_of
    (fun s => s.cancelled = true ∧ s.abortError = some "streamer" ∧
      s.main = .ghostTableMigrated ∧ s.dispatcher = .returned)
    [.main .ok, .main .ok, .main .ok, .main .ok, .streamerFails "streamer", .streamerSends false,
      .listener, .listener, .dispatcher] (by decide +kernel) ?_
  rintro s - ⟨hc, ha, hm, hd⟩
  refine ⟨hc, ha, fun s' hs' => ?_⟩
  have hstuck : s'.Stuck :=
    Reach.invariant hs' ⟨hm, hd⟩ fun _ _ _ h _ hs => h.step hs
  exact hstuck.main

end MigrateRun

end GhOst.Logic
