import GhOst.Infra.Steps
import GhOst.Logic.TwoStep

/-!
# What a failed two-step cut-over leaves behind

No error exit of `cutOverTwoStep` undoes anything: the lock stays with the session, a trigger with
the ghost table, a renamed table under its new name. So a failure is harmless only if nothing was
created or renamed, and before the lock is taken or after its session has ended (`FailsSafely`).
-/

namespace GhOst.Logic

open Infra

/-- The first step of `cutOverTwoStep`. -/
def TwoStepAt.locking : TwoStepAt → Bool
  | .lockOriginalTable _ => true
  | _ => false

namespace TwoStep

open CutOvers (MainOutcome)

variable {ctx : CutOverContext} {s s' t : TwoStep} {outcome : MainOutcome}
variable {n : Nat} {a : TwoStepAction}

/-! ## What each step does -/

inductive Effect (outcome : MainOutcome) (s : TwoStep) : TwoStep → Prop where
  | nothing : Effect outcome s s
  | lock (h : outcome = .lost) {n : Nat} (hm : s.main = .lockOriginalTable n) :
      Effect outcome s { s with locked := true }
  | unlock : Effect outcome s { s with locked := false }
  | addTrigger (h : outcome = .lost) {n k : Nat} (hm : s.main = .createTriggers n k)
      (name : String) : Effect outcome s (s.addTrigger name)
  | renameOriginal (h : outcome = .lost) {n : Nat} (hm : s.main = .renameOriginal n)
      (first : Table) : Effect outcome s (s.renameOriginal first)
  | renameGhost (h : outcome = .lost) {n : Nat} (hm : s.main = .renameGhost n) (second : Table) :
      Effect outcome s (s.renameGhost second)

inductive Retries : TwoStepAt → Nat → (Nat → TwoStepAt) → Prop where
  | lockOriginalTable (n : Nat) : Retries (.lockOriginalTable n) n .lockOriginalTable
  | waitForEventsUpToLock (n : Nat) : Retries (.waitForEventsUpToLock n) n .waitForEventsUpToLock
  | createTriggers (n k : Nat) : Retries (.createTriggers n k) n (.createTriggers · 0)
  | renameOriginal (n : Nat) : Retries (.renameOriginal n) n .renameOriginal
  | renameGhost (n : Nat) : Retries (.renameGhost n) n .renameOriginal
  | unlockTables (n : Nat) : Retries (.unlockTables n) n .unlockTables

inductive Move (ctx : CutOverContext) (outcome : MainOutcome) (s : TwoStep) : TwoStep → Prop where
  | lock {n : Nat} (h : s.main = .lockOriginalTable n) (ho : s.names.original.isSome) :
      Move ctx outcome s { s with locked := true, main := .waitForEventsUpToLock 0 }
  | wait {n : Nat} (h : s.main = .waitForEventsUpToLock n) :
      Move ctx outcome s { s with main := .createTriggers 0 0 }
  | create {n k : Nat} (h : s.main = .createTriggers n k) {trigger : String}
      (ht : triggerAt ctx k = some trigger) :
      Move ctx outcome s
        { s.addTrigger (ctx.getGhostTriggerName trigger) with main := .createTriggers n (k + 1) }
  | created {n k : Nat} (h : s.main = .createTriggers n k) :
      Move ctx outcome s { s with main := .renameOriginal 0 }
  | renameOriginal {n : Nat} (h : s.main = .renameOriginal n) (first : Table) :
      Move ctx outcome s { s.renameOriginal first with main := .renameGhost n }
  | renameGhost {n : Nat} (h : s.main = .renameGhost n) (second : Table) :
      Move ctx outcome s { s.renameGhost second with main := .unlockTables 0 }
  | unlock {n : Nat} (h : s.main = .unlockTables n) :
      Move ctx outcome s { s with locked := false, main := .returned, result := some false }
  | fails {t : TwoStep} (ht : Effect outcome s t) {n : Nat} {again : Nat → TwoStepAt}
      (hr : Retries s.main n again) : Move ctx outcome s (t.fails ctx n again)
  | aborts (h : s.main ≠ .returned) : Move ctx outcome s s.aborts

theorem createTrigger_eq {k : Nat} (hm : s.main = .createTriggers n k) (hna : outcome ≠ .aborted)
    (h : s.createTrigger ctx n k outcome = some s') : Move ctx outcome s s' := by
  have hretries : Retries s.main n (.createTriggers · 0) := by
    rw [hm]
    exact .createTriggers n k
  unfold createTrigger at h
  cases ht : triggerAt ctx k with
  | none =>
    simp only [ht, Option.some.injEq] at h
    exact h ▸ .created hm
  | some trigger =>
    simp only [ht] at h
    split at h
    · next hc =>
      split at h
      · exact Option.some.inj h ▸ .create hm ht
      · next hno =>
        have hlost : outcome = .lost := by
          cases outcome <;> simp_all
        exact Option.some.inj h ▸ .fails (.addTrigger hlost hm _) hretries
    · exact Option.some.inj h ▸ .fails .nothing hretries

theorem mainStep_eq (h : s.mainStep ctx outcome = some s') : Move ctx outcome s s' := by
  unfold mainStep at h
  split at h
  · split at h
    · next hb =>
      refine Option.some.inj h ▸ .aborts fun hm => ?_
      simp [beginsAttempt, hm] at hb
    · cases h
  next hna =>
  cases hm : s.main with
  | lockOriginalTable n =>
    have hr : Retries s.main n .lockOriginalTable := hm ▸ .lockOriginalTable n
    simp only [hm] at h
    split at h
    · exact Option.some.inj h ▸ .fails .nothing hr
    · next hfree =>
      obtain ⟨herr, ho, -⟩ := not_or.mp hfree |>.imp_right not_or.mp
      split at h
      · exact Option.some.inj h ▸ .lock hm (Option.isSome_iff_ne_none.mpr ho)
      · next hok =>
        have hlost : outcome = .lost := by
          cases outcome <;> simp_all
        exact Option.some.inj h ▸ .fails (.lock hlost hm) hr
  | waitForEventsUpToLock n =>
    have hr : Retries s.main n .waitForEventsUpToLock := hm ▸ .waitForEventsUpToLock n
    simp only [hm] at h
    split at h
    · exact Option.some.inj h ▸ .wait hm
    · exact Option.some.inj h ▸ .fails .nothing hr
  | createTriggers n k =>
    simp only [hm] at h
    exact createTrigger_eq hm hna h
  | renameOriginal n =>
    have hr : Retries s.main n .renameOriginal := hm ▸ .renameOriginal n
    simp only [hm] at h
    split at h
    · exact Option.some.inj h ▸ .renameOriginal hm _
    · exact Option.some.inj h ▸ .fails (.renameOriginal rfl hm _) hr
    · exact Option.some.inj h ▸ .fails .nothing hr
  | renameGhost n =>
    have hr : Retries s.main n .renameOriginal := hm ▸ .renameGhost n
    simp only [hm] at h
    split at h
    · exact Option.some.inj h ▸ .renameGhost hm _
    · exact Option.some.inj h ▸ .fails (.renameGhost rfl hm _) hr
    · exact Option.some.inj h ▸ .fails .nothing hr
  | unlockTables n =>
    have hr : Retries s.main n .unlockTables := hm ▸ .unlockTables n
    simp only [hm] at h
    split at h
    · exact Option.some.inj h ▸ .unlock hm
    · exact Option.some.inj h ▸ .fails .unlock hr
    · exact Option.some.inj h ▸ .fails .nothing hr
  | returned =>
    simp only [hm] at h
    simp at h

theorem resume_eq (h : s.resume = some s') : s.result = some true ∧
    s' = { s with
      main := .lockOriginalTable 0, result := none, aborted := false, created := 0 } := by
  unfold resume at h
  exact of_guard h

theorem fails_cases (n : Nat) (again : Nat → TwoStepAt) :
    s.fails ctx n again = { s with main := again (n + 1) } ∨ s.fails ctx n again = s.aborts := by
  unfold fails
  split
  · exact .inl rfl
  · exact .inr rfl

theorem Retries.ne_returned {p : TwoStepAt} {again : Nat → TwoStepAt} (h : Retries p n again) :
    p ≠ .returned ∧ again (n + 1) ≠ .returned := by
  cases h <;> simp

theorem Retries.locking_eq {p : TwoStepAt} {again : Nat → TwoStepAt} (h : Retries p n again) :
    (again (n + 1)).locking = p.locking := by
  cases h <;> rfl

theorem Effect.of_locking (he : Effect outcome s t) (hl : s.main.locking = true) :
    t = { s with locked := t.locked } := by
  cases he with
  | nothing => rfl
  | lock => rfl
  | unlock => rfl
  | addTrigger _ hm => simp [hm, TwoStepAt.locking] at hl
  | renameOriginal _ hm => simp [hm, TwoStepAt.locking] at hl
  | renameGhost _ hm => simp [hm, TwoStepAt.locking] at hl

/-! ## Failing safe -/

/-- The step makes `cutOverTwoStep` return an error. -/
def exits (ctx : CutOverContext) (s : TwoStep) (outcome : MainOutcome) : Bool :=
  (s.mainStep ctx outcome).any (·.result = some true)

/-- An error is returned only while no session has the lock, before anything was created or renamed,
and not for a statement that took effect. -/
def FailsSafely (ctx : CutOverContext) (s : TwoStep) : TwoStepAction → Prop
  | .main outcome =>
    s.exits ctx outcome = true →
      s.locked = false ∧ s.created = 0 ∧ s.renames = 0 ∧ outcome ≠ .lost
  | _ => True

instance (s : TwoStep) : ∀ a : TwoStepAction, Decidable (s.FailsSafely ctx a)
  | .main outcome => inferInstanceAs (Decidable (s.exits ctx outcome = true → _ ∧ _))
  | .abort | .resume | .endSession => .isTrue trivial

/-- The records of a cut-over that has not returned are right. -/
structure Running (s : TwoStep) : Prop where
  result : s.result = none
  names : s.renames = 0 → s.names = {}
  created : s.ghostTriggers.length = s.created

structure Untouched (s : TwoStep) : Prop where
  locked : s.locked = false
  names : s.names = {}
  ghostTriggers : s.ghostTriggers = []
  renames : s.renames = 0

structure Inv (s : TwoStep) : Prop where
  running : s.main ≠ .returned → s.Running
  failed : s.result = some true → s.Untouched

namespace Running

theorem setLocked (h : s.Running) (locked : Bool) : Running { s with locked } := { h with }

theorem addTrigger (h : s.Running) (name : String) : (s.addTrigger name).Running :=
  ⟨h.result, h.names, by simp [TwoStep.addTrigger, h.created]⟩

theorem renameOriginal (h : s.Running) (first : Table) : (s.renameOriginal first).Running :=
  ⟨h.result, fun hno => by simp [TwoStep.renameOriginal] at hno, h.created⟩

theorem renameGhost (h : s.Running) (second : Table) : (s.renameGhost second).Running :=
  ⟨h.result, fun hno => by simp [TwoStep.renameGhost] at hno, h.created⟩

theorem effect (h : s.Running) (he : Effect outcome s t) : t.Running := by
  cases he with
  | nothing => exact h
  | lock => exact h.setLocked true
  | unlock => exact h.setLocked false
  | addTrigger _ _ name => exact h.addTrigger name
  | renameOriginal _ _ first => exact h.renameOriginal first
  | renameGhost _ _ second => exact h.renameGhost second

theorem goesOn (h : s.Running) {main : TwoStepAt} : Inv { s with main } where
  running _ := { h with }
  failed hr := by simp [h.result] at hr

end Running

theorem Inv.exit (h : s.Inv) (hm : s.main ≠ .returned) (hok : s.FailsSafely ctx (.main outcome))
    (he : Effect outcome s t) (hs : s.mainStep ctx outcome = some t.aborts) : t.aborts.Inv := by
  have hexits : s.exits ctx outcome = true := by
    simp [exits, hs, TwoStep.aborts]
  obtain ⟨hlocked, hcreated, hrenames, hlost⟩ := hok hexits
  have hrunning := h.running hm
  have hnone := List.eq_nil_of_length_eq_zero (hrunning.created.trans hcreated)
  refine ⟨fun hm => absurd rfl hm, fun _ => ?_⟩
  cases he with
  | nothing => exact ⟨hlocked, hrunning.names hrenames, hnone, hrenames⟩
  | unlock => exact ⟨rfl, hrunning.names hrenames, hnone, hrenames⟩
  | lock hlost' | addTrigger hlost' | renameOriginal hlost' | renameGhost hlost' =>
    exact absurd hlost' hlost

theorem Inv.mainStep (h : s.Inv) (hok : s.FailsSafely ctx (.main outcome))
    (hs : s.mainStep ctx outcome = some s') : s'.Inv := by
  cases mainStep_eq hs with
  | lock hm _ => exact ((h.running (by simp [hm])).setLocked true).goesOn
  | wait hm => exact (h.running (by simp [hm])).goesOn
  | create hm _ => exact ((h.running (by simp [hm])).addTrigger _).goesOn
  | created hm => exact (h.running (by simp [hm])).goesOn
  | renameOriginal hm first => exact ((h.running (by simp [hm])).renameOriginal first).goesOn
  | renameGhost hm second => exact ((h.running (by simp [hm])).renameGhost second).goesOn
  | unlock hm => exact ⟨fun hm' => absurd rfl hm', fun hr => by simp at hr⟩
  | @fails t he n again hr =>
    obtain ⟨hm, -⟩ := hr.ne_returned
    rcases @fails_cases ctx t n again with hagain | hexit
    · rw [hagain]
      exact ((h.running hm).effect he).goesOn
    · rw [hexit] at hs ⊢
      exact h.exit hm hok he hs
  | aborts hm => exact h.exit hm hok .nothing hs

theorem Untouched.resume (h : s.Untouched) (hr : s.result = some true) : s.resume = some {} := by
  obtain ⟨hlocked, hnames, htriggers, hrenames⟩ := h
  simp [TwoStep.resume, hr, hlocked, hnames, htriggers, hrenames]

theorem Inv.init : Inv {} := ⟨fun _ => ⟨rfl, fun _ => rfl, rfl⟩, by simp⟩

theorem Inv.step (h : s.Inv) (hok : s.FailsSafely ctx a) (hs : s.step ctx a = some s') :
    s'.Inv := by
  cases a with
  | main outcome => exact h.mainStep hok hs
  | abort =>
    cases hs
    exact ⟨fun hm => { h.running hm with }, fun hr => { h.failed hr with }⟩
  | resume =>
    have hr := (resume_eq hs).1
    have hstart := hs.symm.trans ((h.failed hr).resume hr)
    exact Option.some.inj hstart ▸ .init
  | endSession =>
    cases hs
    exact ⟨fun hm => { h.running hm with }, fun hr => { h.failed hr with locked := rfl }⟩

/-! ## A cut-over without failures -/

theorem reachable_createTriggers (hinc : ctx.includeTriggers = true)
    (hnodup : (ctx.triggers.map ctx.getGhostTriggerName).Nodup) (k : Nat)
    (hk : k ≤ ctx.triggers.length) :
    Reachable (TwoStep.step ctx) {}
      { main := .createTriggers 0 k
        locked := true
        ghostTriggers := (ctx.triggers.map ctx.getGhostTriggerName).take k
        created := k } := by
  induction k with
  | zero =>
    have hlock : Reachable (TwoStep.step ctx) {}
        { main := .waitForEventsUpToLock 0, locked := true } :=
      .next (a := .main .ok) .init trivial rfl
    exact .next (a := .main .ok) hlock trivial rfl
  | succ k ih =>
    refine .next (a := .main .ok) (ih (by omega)) trivial ?_
    have hk' : k < (ctx.triggers.map ctx.getGhostTriggerName).length := by
      rw [List.length_map]
      omega
    have ht : triggerAt ctx k = some ctx.triggers[k] := by
      simp [triggerAt, hinc]
    have hfresh : ctx.getGhostTriggerName ctx.triggers[k] ∉
        (ctx.triggers.map ctx.getGhostTriggerName).take k := by
      intro hmem
      refine List.disjoint_take_drop hnodup (Nat.le_refl k) hmem ?_
      rw [List.drop_eq_getElem_cons hk', List.getElem_map]
      exact List.mem_cons_self
    simp [TwoStep.step, mainStep, createTrigger, ht, hfresh, addTrigger,
      List.take_succ_eq_append_getElem hk']

theorem reachable_success (hnodup : (ctx.triggers.map ctx.getGhostTriggerName).Nodup) :
    ∃ s, Reachable (TwoStep.step ctx) {} s ∧ s.result = some false := by
  have hcreated : ∃ k g, Reachable (TwoStep.step ctx) {}
      { main := .createTriggers 0 k, locked := true, ghostTriggers := g, created := k } ∧
        triggerAt ctx k = none := by
    by_cases hinc : ctx.includeTriggers = true
    · exact ⟨_, _, reachable_createTriggers hinc hnodup _ (Nat.le_refl _), by simp [triggerAt]⟩
    · have hlock : Reachable (TwoStep.step ctx) {}
          { main := .waitForEventsUpToLock 0, locked := true } :=
        .next (a := .main .ok) .init trivial rfl
      exact ⟨0, [], .next (a := .main .ok) hlock trivial rfl, by simp [triggerAt, hinc]⟩
  obtain ⟨k, g, hr, ht⟩ := hcreated
  have hrename : Reachable (TwoStep.step ctx) {}
      { main := .renameOriginal 0, locked := true, ghostTriggers := g, created := k } := by
    refine .next (a := .main .ok) hr trivial ?_
    simp [TwoStep.step, mainStep, createTrigger, ht]
  have hghost := hrename.next (a := .main .ok) trivial rfl
  have hunlock := hghost.next (a := .main .ok) trivial rfl
  exact ⟨_, hunlock.next (a := .main .ok) trivial rfl, rfl⟩

/-- **If errors are returned only as `FailsSafely` says, then at every error the original name is
bound, the table is not locked and the cut-over can still succeed, in a process that resumes.** -/
theorem two_step_fails_safe (hnodup : (ctx.triggers.map ctx.getGhostTriggerName).Nodup)
    (hr : Reach (TwoStep.step ctx) (FailsSafely ctx) {} s) (herr : s.result = some true) :
    s.names.original ≠ none ∧ s.locked = false ∧
      ∃ s', Reachable (TwoStep.step ctx) s s' ∧ s'.result = some false := by
  have hinv : s.Inv := hr.invariant .init fun _ _ _ h hok hs => h.step hok hs
  have huntouched := hinv.failed herr
  refine ⟨?_, huntouched.locked, ?_⟩
  · rw [huntouched.names]
    simp
  · obtain ⟨s', hsuccess, hresult⟩ := @reachable_success ctx hnodup
    have hresume : Reachable (TwoStep.step ctx) s {} :=
      .next (a := .resume) .init trivial (huntouched.resume herr)
    exact ⟨s', hresume.trans hsuccess, hresult⟩

/-- The table cannot be locked: both attempts fail. -/
theorem two_step_fails_safe_small : ∃ s,
    Reach (TwoStep.step { maxRetries := 2 }) (FailsSafely { maxRetries := 2 }) {} s ∧
      s.names.original ≠ none ∧ s.locked = false ∧
        ∃ s', Reachable (TwoStep.step { maxRetries := 2 }) s s' ∧ s'.result = some false := by
  refine exists_reach_of (fun s => s.result = some true) [.main .err, .main .err] (by decide)
    fun s hr herr => ?_
  exact two_step_fails_safe (by simp) hr herr

/-! ## A failure between the two renames -/

/-- There is no original table, so that there will never be one. -/
structure Lost (s : TwoStep) : Prop where
  original : s.names.original = none
  main : s.main.locking = true ∨ s.main = .returned
  result : s.result ≠ some false

theorem Lost.step (h : s.Lost) (hs : s.step ctx a = some s') : s'.Lost := by
  obtain ⟨horiginal, hmain, hresult⟩ := h
  cases a with
  | main outcome =>
    have hat : ∀ {p : TwoStepAt}, s.main = p → p.locking = true ∨ p = .returned :=
      fun hm => hm ▸ hmain
    cases mainStep_eq hs with
    | lock _ ho => simp [horiginal] at ho
    | wait hm => simpa [TwoStepAt.locking] using hat hm
    | create hm => simpa [TwoStepAt.locking] using hat hm
    | created hm => simpa [TwoStepAt.locking] using hat hm
    | renameOriginal hm => simpa [TwoStepAt.locking] using hat hm
    | renameGhost hm => simpa [TwoStepAt.locking] using hat hm
    | unlock hm => simpa [TwoStepAt.locking] using hat hm
    | aborts => exact ⟨horiginal, .inr rfl, by simp [TwoStep.aborts]⟩
    | @fails t he n again hr =>
      have hl : s.main.locking = true := hmain.resolve_right hr.ne_returned.1
      rw [he.of_locking hl]
      rcases @fails_cases ctx { s with locked := t.locked } n again with hagain | hexit
      · rw [hagain]
        exact ⟨horiginal, .inl (hr.locking_eq.trans hl), hresult⟩
      · rw [hexit]
        exact ⟨horiginal, .inr rfl, by simp [TwoStep.aborts]⟩
  | abort =>
    cases hs
    exact ⟨horiginal, hmain, hresult⟩
  | resume =>
    obtain ⟨-, rfl⟩ := resume_eq hs
    exact ⟨horiginal, .inl rfl, by simp⟩
  | endSession =>
    cases hs
    exact ⟨horiginal, hmain, hresult⟩

/-- A cut-over that has returned an error is over, but for another process. -/
theorem failed_of_step (h : s.main = .returned ∧ s.result = some true) (ha : a ≠ .resume)
    (hs : s.step ctx a = some s') : s'.main = .returned ∧ s'.result = some true := by
  cases a with
  | main outcome =>
    cases mainStep_eq hs with
    | aborts => exact ⟨rfl, rfl⟩
    | fails _ hr => exact absurd h.1 hr.ne_returned.1
    | _ hm => simp [h.1] at hm
  | resume => exact absurd rfl ha
  | abort | endSession =>
    cases hs
    exact h

/-- The wait for the events fails, and the table stays locked; the second rename fails, and the
original name stays unbound; the table cannot be locked, and the process does not try again. -/
theorem two_step_leaves_lock_or_gap :
    (∃ s, Reachable (TwoStep.step { maxRetries := 1 }) {} s ∧ s.result = some true ∧
      s.locked = true) ∧
    (∃ s, Reachable (TwoStep.step { maxRetries := 1 }) {} s ∧ s.result = some true ∧
      ∀ s', Reachable (TwoStep.step { maxRetries := 1 }) s s' →
        s'.names.original = none ∧ s'.result ≠ some false) ∧
    ∃ s, Reachable (TwoStep.step { maxRetries := 1 }) {} s ∧ s.result = some true ∧
      ∀ s', Reach (TwoStep.step { maxRetries := 1 }) (fun _ a => a ≠ .resume) s s' →
        s'.result ≠ some false := by
  refine ⟨?_, ?_, ?_⟩
  · exact exists_reach [.main .ok, .main .err] (by decide)
  · refine exists_reach_of
      (fun s => s.result = some true ∧ s.names.original = none ∧ s.main = .returned)
      [.main .ok, .main .ok, .main .ok, .main .ok, .main .err] (by decide) ?_
    rintro s - ⟨hresult, horiginal, hmain⟩
    have hlost : s.Lost := ⟨horiginal, .inr hmain, by simp [hresult]⟩
    refine ⟨hresult, fun s' hr' => ?_⟩
    have hlost' : s'.Lost := hr'.invariant hlost fun _ _ _ h _ hs => h.step hs
    exact ⟨hlost'.original, hlost'.result⟩
  · refine exists_reach_of (fun s => s.main = .returned ∧ s.result = some true) [.main .err]
      (by decide) fun s _ hfailed => ⟨hfailed.2, fun s' hr' => ?_⟩
    have hfailed' : s'.main = .returned ∧ s'.result = some true :=
      hr'.invariant hfailed fun _ _ _ h ha hs => failed_of_step h ha hs
    simp [hfailed'.2]

end TwoStep

end GhOst.Logic
