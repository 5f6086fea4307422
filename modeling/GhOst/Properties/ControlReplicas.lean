import Mathlib.Order.Bounds.Basic
import GhOst.Logic.Throttler

/-!
# The lag of the control replicas

The results of the replicas are folded as they arrive. A result with an error replaces what there
was, but its own lag is zero, so any later replica with a lag replaces the error. The error of a
replica is kept exactly when no lag arrives after the last of the errors.
-/

namespace GhOst.Logic

variable {r x : ReplicationLagResult} {p : Probe}

/-- One turn of the loop, once there is a result. -/
def worseLagResult (r lagResult : ReplicationLagResult) : ReplicationLagResult :=
  if lagResult.err.isSome then lagResult
  else if lagResult.lag > r.lag then lagResult
  else r

theorem foldl_receiveLagResult (r : ReplicationLagResult) (results : List ReplicationLagResult) :
    results.foldl receiveLagResult (some r) = some (results.foldl worseLagResult r) := by
  induction results generalizing r with
  | nil => rfl
  | cons x results ih =>
    have hstep : receiveLagResult (some r) x = some (worseLagResult r x) := by
      unfold receiveLagResult worseLagResult
      dsimp only
      split
      · rfl
      · split <;> rfl
    rw [List.foldl_cons, hstep, ih, List.foldl_cons]

theorem worseLagResult_of_err (h : x.err.isSome = true) : worseLagResult r x = x := if_pos h

theorem worseLagResult_of_ok (h : x.err = none) :
    worseLagResult r x = if x.lag > r.lag then x else r := by
  unfold worseLagResult
  rw [h, Option.isSome_none, if_neg Bool.false_ne_true]

theorem foldl_worse_of_ok {results : List ReplicationLagResult} (h : ∀ x ∈ results, x.err = none) :
    let last := results.foldl worseLagResult r
    (last = r ∨ last ∈ results ∧ r.lag < last.lag) ∧ r.lag ≤ last.lag ∧
      ∀ x ∈ results, x.lag ≤ last.lag := by
  induction results generalizing r with
  | nil => exact ⟨.inl rfl, le_refl _, fun x hx => absurd hx (List.not_mem_nil)⟩
  | cons x results ih =>
    have hrest := @ih (worseLagResult r x) fun y hy => h y (List.mem_cons_of_mem _ hy)
    dsimp only at hrest ⊢
    rw [List.foldl_cons]
    generalize results.foldl worseLagResult (worseLagResult r x) = last at hrest ⊢
    obtain ⟨hfrom, hle, hall⟩ := hrest
    rw [worseLagResult_of_ok (h x List.mem_cons_self)] at hfrom hle
    by_cases hgt : x.lag > r.lag
    · rw [if_pos hgt] at hfrom hle
      refine ⟨.inr ⟨?_, by omega⟩, by omega, ?_⟩
      · rcases hfrom with heq | ⟨hmem, -⟩
        · rw [heq]
          exact List.mem_cons_self
        · exact List.mem_cons_of_mem _ hmem
      · intro y hy
        rcases List.mem_cons.mp hy with rfl | hy
        · exact hle
        · exact hall y hy
    · rw [if_neg hgt] at hfrom hle
      refine ⟨hfrom.imp_right fun hmem => ⟨List.mem_cons_of_mem _ hmem.1, hmem.2⟩, hle, ?_⟩
      intro y hy
      rcases List.mem_cons.mp hy with rfl | hy
      · omega
      · exact hall y hy

theorem foldl_worse_append_err (hx : x.err.isSome = true) (front back : List ReplicationLagResult) :
    (front ++ x :: back).foldl worseLagResult r = back.foldl worseLagResult x := by
  rw [List.foldl_append, List.foldl_cons, worseLagResult_of_err hx]

/-! ## What is stored -/

abbrev Probe := InstanceKey × Except String Int

def Probe.Fails (p : Probe) : Prop := ∃ err, p.2 = .error err

theorem replicaResult_ok {lag : Int} (h : p.2 = .ok lag) :
    replicaResult p = { key := p.1, lag } := by
  unfold replicaResult
  rw [h]

theorem replicaResult_error {err : String} (h : p.2 = .error err) :
    replicaResult p = { key := p.1, err := some err } := by
  unfold replicaResult
  rw [h]

theorem Probe.ok_of_not_fails (h : ¬ p.Fails) : ∃ lag, p.2 = .ok lag := by
  unfold Probe.Fails at h
  cases hp : p.2 with
  | error err => exact absurd ⟨err, hp⟩ h
  | ok lag => exact ⟨lag, rfl⟩

theorem replicaResult_err_of_not_fails (h : ¬ p.Fails) : (replicaResult p).err = none := by
  obtain ⟨lag, hlag⟩ := Probe.ok_of_not_fails h
  rw [replicaResult_ok hlag]

/-- The stored result tells of a failing replica, or else of the greatest lag. -/
structure TellsWorst (probes : List Probe) (stored : ReplicationLagResult) : Prop where
  failing : (∃ p ∈ probes, p.Fails) → stored.err.isSome = true
  lagging : (∀ p ∈ probes, ¬ p.Fails) →
    stored.err = none ∧ IsGreatest { lag | ∃ p ∈ probes, p.2 = .ok lag } stored.lag

/-- After the last replica that fails, none arrives with a lag. -/
def NoLagAfterErrors (probes : List Probe) : Prop :=
  ∀ front p back, probes = front ++ p :: back → p.Fails → (∀ q ∈ back, ¬ q.Fails) →
    ∀ q ∈ back, ∀ lag, q.2 = .ok lag → lag ≤ 0

theorem exists_last_failing {probes : List Probe} (h : ∃ p ∈ probes, p.Fails) :
    ∃ front p back, probes = front ++ p :: back ∧ p.Fails ∧ ∀ q ∈ back, ¬ q.Fails := by
  induction probes with
  | nil =>
    obtain ⟨p, hp, -⟩ := h
    exact absurd hp List.not_mem_nil
  | cons q probes ih =>
    by_cases hlater : ∃ p ∈ probes, p.Fails
    · obtain ⟨front, p, back, rfl, hp, hback⟩ := ih hlater
      exact ⟨q :: front, p, back, rfl, hp, hback⟩
    · obtain ⟨p, hp, hfails⟩ := h
      rcases List.mem_cons.mp hp with rfl | hp
      · exact ⟨[], p, probes, rfl, hfails, fun x hx hf => hlater ⟨x, hx, hf⟩⟩
      · exact absurd ⟨p, hp, hfails⟩ hlater

section Stored

variable {keys : List InstanceKey} {probes : List Probe}

/-- The result that is stored for replicas that were all polled. -/
def storedLagResult (keys : List InstanceKey) (probes : List Probe) : ReplicationLagResult :=
  (readControlReplicasLag keys (.ok probes)).getD {}

theorem storedLagResult_cons (hkeys : keys ≠ []) (p : Probe) (rest : List Probe) :
    storedLagResult keys (p :: rest) =
      (rest.map replicaResult).foldl worseLagResult (replicaResult p) := by
  unfold storedLagResult readControlReplicasLag
  rw [if_neg hkeys]
  dsimp only
  rw [List.map_cons, List.foldl_cons, receiveLagResult, foldl_receiveLagResult, Option.getD_some]

theorem storedLagResult_append (hkeys : keys ≠ []) {p : Probe} (hp : p.Fails)
    (front back : List Probe) :
    storedLagResult keys (front ++ p :: back) =
      (back.map replicaResult).foldl worseLagResult (replicaResult p) := by
  obtain ⟨err, herr⟩ := hp
  have hsome : (replicaResult p).err.isSome = true := by rw [replicaResult_error herr]; rfl
  cases front with
  | nil => exact storedLagResult_cons hkeys p back
  | cons q front =>
    rw [List.cons_append, storedLagResult_cons hkeys, List.map_append, List.map_cons,
      foldl_worse_append_err hsome]

theorem results_ok {probes : List Probe} (h : ∀ p ∈ probes, ¬ p.Fails) :
    ∀ x ∈ probes.map replicaResult, x.err = none := by
  intro x hx
  obtain ⟨p, hp, rfl⟩ := List.mem_map.mp hx
  exact replicaResult_err_of_not_fails (h p hp)

theorem err_kept_iff (hkeys : keys ≠ []) {p : Probe} (hp : p.Fails) (front : List Probe)
    {back : List Probe} (hback : ∀ q ∈ back, ¬ q.Fails) :
    (storedLagResult keys (front ++ p :: back)).err.isSome = true ↔
      ∀ q ∈ back, ∀ lag, q.2 = .ok lag → lag ≤ 0 := by
  rw [storedLagResult_append hkeys hp]
  obtain ⟨err, herr⟩ := hp
  have hfold := @foldl_worse_of_ok (replicaResult p) _ (results_ok hback)
  dsimp only at hfold
  rw [replicaResult_error herr] at hfold ⊢
  generalize (back.map replicaResult).foldl worseLagResult _ = last at hfold ⊢
  obtain ⟨hfrom, -, hall⟩ := hfold
  constructor
  · intro hsome q hq lag hlag
    rcases hfrom with heq | ⟨hmem, -⟩
    · have hle := hall _ (List.mem_map_of_mem hq)
      rw [replicaResult_ok hlag, heq] at hle
      exact hle
    · rw [results_ok hback last hmem] at hsome
      exact absurd hsome Bool.false_ne_true
  · intro hlags
    rcases hfrom with heq | ⟨hmem, hlt⟩
    · rw [heq]
      rfl
    · obtain ⟨q, hq, rfl⟩ := List.mem_map.mp hmem
      obtain ⟨lag, hlag⟩ := Probe.ok_of_not_fails (hback q hq)
      have hle := hlags q hq lag hlag
      rw [replicaResult_ok hlag] at hlt
      exact absurd hlt (by simpa using hle)

theorem stored_greatest (hkeys : keys ≠ []) (hne : probes ≠ []) (h : ∀ p ∈ probes, ¬ p.Fails) :
    (storedLagResult keys probes).err = none ∧
      IsGreatest { lag | ∃ p ∈ probes, p.2 = .ok lag } (storedLagResult keys probes).lag := by
  obtain ⟨p, rest, rfl⟩ := List.exists_cons_of_ne_nil hne
  rw [storedLagResult_cons hkeys]
  have hrest : ∀ q ∈ rest, ¬ q.Fails := fun q hq => h q (List.mem_cons_of_mem _ hq)
  have hfold := @foldl_worse_of_ok (replicaResult p) _ (results_ok hrest)
  dsimp only at hfold
  generalize (rest.map replicaResult).foldl worseLagResult (replicaResult p) = last at hfold ⊢
  obtain ⟨hfrom, hfirst, hall⟩ := hfold
  -- the last result is that of one of the replicas
  obtain ⟨q, hq, rfl⟩ : ∃ q ∈ p :: rest, last = replicaResult q := by
    rcases hfrom with heq | ⟨hmem, -⟩
    · exact ⟨p, List.mem_cons_self, heq⟩
    · obtain ⟨q, hq, heq⟩ := List.mem_map.mp hmem
      exact ⟨q, List.mem_cons_of_mem _ hq, heq.symm⟩
  refine ⟨replicaResult_err_of_not_fails (h q hq), ?_, ?_⟩
  · obtain ⟨lag, hlag⟩ := Probe.ok_of_not_fails (h q hq)
    refine ⟨q, hq, ?_⟩
    rw [replicaResult_ok hlag]
    exact hlag
  · rintro lag ⟨x, hx, hlag⟩
    rcases List.mem_cons.mp hx with rfl | hx
    · rw [replicaResult_ok hlag] at hfirst
      exact hfirst
    · have hle := hall _ (List.mem_map_of_mem hx)
      rw [replicaResult_ok hlag] at hle
      exact hle

theorem tellsWorst_iff (hkeys : keys ≠ []) (hne : probes ≠ []) :
    TellsWorst probes (storedLagResult keys probes) ↔ NoLagAfterErrors probes := by
  constructor
  · intro h front p back heq hp hback
    have hkept := h.failing ⟨p, by rw [heq]; exact List.mem_append_right _ List.mem_cons_self, hp⟩
    rw [heq] at hkept
    exact (err_kept_iff hkeys hp front hback).mp hkept
  · intro h
    refine ⟨fun hfailing => ?_, fun hall => stored_greatest hkeys hne hall⟩
    obtain ⟨front, p, back, rfl, hp, hback⟩ := exists_last_failing hfailing
    exact (err_kept_iff hkeys hp front hback).mpr (h front p back rfl hp hback)

end Stored

/-! ## What `shouldThrottle` makes of it -/

theorem lagVerdict_err {lagResult : ReplicationLagResult} (h : lagResult.err.isSome = true)
    (threshold : Int) : (lagVerdict lagResult threshold).result = true := by
  unfold lagVerdict
  obtain ⟨err, herr⟩ := Option.isSome_iff_exists.mp h
  rw [herr]

theorem lagVerdict_lag {lagResult : ReplicationLagResult} {threshold : Int}
    (h : lagResult.lag > milliseconds threshold) :
    (lagVerdict lagResult threshold).result = true := by
  unfold lagVerdict
  split
  · rfl
  · rw [if_pos h]

theorem shouldThrottle_of_lagVerdict {ctx : ThrottleContext}
    (hcheck : ctx.checksControlReplicas = true)
    (h : (lagVerdict ctx.controlReplicasLagResult
      ctx.maxLagMillisecondsThrottleThreshold).result = true) :
    ctx.shouldThrottle.result = true := by
  unfold ThrottleContext.shouldThrottle
  split
  · rfl
  · split
    · next hgeneral => exact hgeneral
    · split
      · rfl
      · split
        · rfl
        · exact h

/-- A control replica fails, or lags by more than the threshold. -/
def WorrisomeReplica (ctx : ThrottleContext) (probes : List Probe) : Prop :=
  ∃ p ∈ probes, p.Fails ∨
    ∃ lag, p.2 = .ok lag ∧ lag > milliseconds ctx.maxLagMillisecondsThrottleThreshold

theorem shouldThrottle_of_tellsWorst {ctx : ThrottleContext} {probes : List Probe}
    (h : TellsWorst probes ctx.controlReplicasLagResult)
    (hcheck : ctx.checksControlReplicas = true) (hworry : WorrisomeReplica ctx probes) :
    ctx.shouldThrottle.result = true := by
  refine shouldThrottle_of_lagVerdict hcheck ?_
  by_cases hfailing : ∃ p ∈ probes, p.Fails
  · exact lagVerdict_err (h.failing hfailing) _
  · have hnone : ∀ p ∈ probes, ¬ p.Fails := fun p hp hf => hfailing ⟨p, hp, hf⟩
    obtain ⟨p, hp, hf | ⟨lag, hlag, hgt⟩⟩ := hworry
    · exact absurd hf (hnone p hp)
    · have hle := (h.lagging hnone).2.2 ⟨p, hp, hlag⟩
      exact lagVerdict_lag (lt_of_lt_of_le hgt hle)

/-- **The stored result tells of the worst replica, and `shouldThrottle` heeds it, exactly when no
replica with a lag arrives after the last one that failed.** -/
theorem control_replicas_worst_iff (ctx : ThrottleContext) {keys : List InstanceKey}
    {probes : List Probe} (hkeys : keys ≠ []) (harrived : (probes.map Prod.fst).Perm keys) :
    (TellsWorst probes
        (ctx.setControlReplicasLagResult
          (readControlReplicasLag keys (.ok probes))).controlReplicasLagResult ∧
      (ctx.checksControlReplicas = true → WorrisomeReplica ctx probes →
        (ctx.setControlReplicasLagResult
          (readControlReplicasLag keys (.ok probes))).shouldThrottle.result = true)) ↔
    NoLagAfterErrors probes := by
  have hne : probes ≠ [] := by
    rintro rfl
    exact hkeys harrived.symm.eq_nil
  have hiff := tellsWorst_iff hkeys hne
  constructor
  · intro h
    exact hiff.mp h.1
  · intro h
    have htells := hiff.mpr h
    exact ⟨htells, fun hcheck hworry => shouldThrottle_of_tellsWorst htells hcheck hworry⟩

/-- A replica that lags by two seconds, and then one that fails. -/
theorem control_replicas_worst_iff_small :
    let probes : List Probe :=
      [({ hostname := "a" }, .ok 2000000000), ({ hostname := "b" }, .error "refused")]
    (({} : ThrottleContext).setControlReplicasLagResult
      (readControlReplicasLag [{ hostname := "b" }, { hostname := "a" }]
        (.ok probes))).shouldThrottle.result = true := by
  refine ((control_replicas_worst_iff {} (by decide) (by decide)).mpr ?_).2 rfl ?_
  · rintro front p back heq hp - q hq
    have hlast : q ∈ ([] : List Probe) := by
      rcases front with _ | ⟨f, _ | ⟨f', front⟩⟩
      · obtain ⟨err, herr⟩ := hp
        rw [List.nil_append] at heq
        rw [← (List.cons.inj heq).1] at herr
        cases herr
      · rw [List.cons_append, List.nil_append] at heq
        rw [(List.cons.inj (List.cons.inj heq).2).2]
        exact hq
      · rw [List.cons_append, List.cons_append] at heq
        have hnil := (List.cons.inj (List.cons.inj heq).2).2
        exact absurd hnil.symm (List.append_ne_nil_of_right_ne_nil _ (List.cons_ne_nil _ _))
    exact absurd hlast List.not_mem_nil
  · exact ⟨_, List.mem_cons_self, .inr ⟨_, rfl, by decide⟩⟩

/-- The failing replica is the first to arrive, and one with a lag of a millisecond hides it. -/
theorem lag_hides_error :
    let probes : List Probe :=
      [({ hostname := "b" }, .error "refused"), ({ hostname := "a" }, .ok 1000000)]
    let stored := ({} : ThrottleContext).setControlReplicasLagResult
      (readControlReplicasLag [{ hostname := "a" }, { hostname := "b" }] (.ok probes))
    ¬ TellsWorst probes stored.controlReplicasLagResult ∧
      stored.shouldThrottle.result = false := by
  refine ⟨fun htells => ?_, by decide⟩
  have hkept := htells.failing ⟨_, List.mem_cons_self, "refused", rfl⟩
  revert hkept
  decide

end GhOst.Logic
