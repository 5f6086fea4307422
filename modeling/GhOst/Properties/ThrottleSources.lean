import GhOst.Properties.Hibernation

/-!
# Throttle sources that are cleared

A collector that finds its source cleared should overwrite what it stored while the source was set.
The one of the control replicas does, and so does a general check that comes to its end. The one of
the HTTP endpoint returns at once and leaves the last status where it is. A hibernation, an abort
and the lock on a replica also keep a collector from storing.
-/

namespace GhOst.Logic

open Infra

/-- From this place the collector of the control replicas stores that there is none. -/
def ReplicasAt.Clean : ReplicasAt → Prop
  | .polling known => known = []
  | .store result => result = none
  | _ => True

/-- The call of `shouldThrottle` will load the result of the control replicas next. -/
def CheckAt.loadsReplicas : CheckAt → Bool
  | .replicas _ => true
  | _ => false

def CheckAt.loaded : CheckAt → Option Int
  | .lag t => some t
  | .lockFlag t => some t
  | .replicas t => some t
  | _ => none

/-- A result that no threshold holds against the control replicas. -/
def ReplicationLagResult.quiet (lagResult : ReplicationLagResult) : Bool :=
  lagResult.err.isNone && lagResult.lag ≤ milliseconds 100

theorem lagVerdict_of_quiet {lagResult : ReplicationLagResult} {threshold : Int}
    (h : lagResult.quiet = true) (ht : milliseconds 100 ≤ milliseconds threshold) :
    lagVerdict lagResult threshold = notThrottled := by
  unfold ReplicationLagResult.quiet at h
  rw [Bool.and_eq_true, Option.isNone_iff_eq_none, decide_eq_true_iff] at h
  unfold lagVerdict
  rw [h.1]
  exact if_neg (by omega)

namespace Throttler

variable {s s' : Throttler}
variable {c : Collector} {source : ThrottleSource}

/-! ## The condition -/

/-- The general result blames no source that is cleared. -/
def generalQuiet (s : Throttler) : Bool :=
  s.ctx.throttleGeneralCheckResult.reason.source.all fun source => source.isSet s.ctx

/-- The stored status does not throttle, or the endpoint is set. -/
def httpQuiet (s : Throttler) : Bool :=
  ThrottleSource.http.isSet s.ctx || httpStatusPasses s.ctx.throttleHTTPStatusCode

def replicasQuiet (s : Throttler) : Bool :=
  ThrottleSource.controlReplicas.isSet s.ctx || s.ctx.controlReplicasLagResult.quiet

/-- A run of a collector that stores nothing ends only when what is stored blames no cleared source,
unless it is not looked at; and the end of a hibernation and the threshold of the lag fit into 64
bits. -/
def StoresOrQuiet (s : Throttler) : ThrottlerAction → Prop
  | .general .start => 0 < s.ctx.hibernateUntil → s.check = .general → s.generalQuiet = true
  | .general (.hibernate now) =>
    0 < s.ctx.hibernatesUntil now ∧ (s.check = .general → s.generalQuiet = true)
  | .check => s.check = .threshold →
    s.ctx.maxLagMillisecondsThrottleThreshold * 1000000 < 2 ^ 63
  | .general .sent => s.generalQuiet = true
  | .http .start => 0 < s.ctx.hibernateUntil → s.httpQuiet = true
  | .http .readURL => s.httpQuiet = true
  | .replicas .tick =>
    s.ctx.checksControlReplicas = false → s.check.loadsReplicas = true → s.replicasQuiet = true
  | .setLockFlag flag =>
    s.ctx.checksControlReplicas = false →
      { s.ctx with allEventsUpToLockProcessedInjectedFlag := flag }.checksControlReplicas = true →
      .controlReplicas ∈ s.ranAfter → s.replicasQuiet = true
  | _ => True

instance (s : Throttler) : (a : ThrottlerAction) → Decidable (s.StoresOrQuiet a)
  | .general a => by cases a <;> dsimp only [StoresOrQuiet] <;> infer_instance
  | .http a => by cases a <;> dsimp only [StoresOrQuiet] <;> infer_instance
  | .replicas a => by cases a <;> dsimp only [StoresOrQuiet] <;> infer_instance
  | .check | .setLockFlag _ | .command _ | .wake _ | .setCurrentLag _ => by
    dsimp only [StoresOrQuiet]
    infer_instance

/-! ## The records -/

theorem mem_begins :
    source ∈ (s.begins c).startedAfter ↔ source.collector = c ∨ source ∈ s.startedAfter := by
  unfold begins
  rw [List.mem_filter]
  simp [ThrottleSource.mem_all]

theorem mem_ends :
    source ∈ (s.ends c).ranAfter ↔
      source ∈ s.ranAfter ∨ source.collector = c ∧ source ∈ s.startedAfter := by
  unfold ends
  rw [List.mem_filter]
  simp [ThrottleSource.mem_all]

theorem mem_cleared : source ∈ s.cleared ↔ source ∈ s.ranAfter ∧ source.isSet s.ctx = false := by
  unfold cleared
  rw [List.mem_filter, Bool.not_eq_true']

/-- What a command leaves recorded of a source was recorded before, and it did not touch it. -/
structure Untouched (s s' : Throttler) : Prop where
  started : ∀ source ∈ s'.startedAfter,
    source ∈ s.startedAfter ∧ source.isSet s'.ctx = source.isSet s.ctx
  ran : ∀ source ∈ s'.ranAfter, source ∈ s.ranAfter ∧ source.isSet s'.ctx = source.isSet s.ctx
  kept : ∀ source ∈ s'.ranAfter, source ∈ s.startedAfter → source ∈ s'.startedAfter

theorem untouched_touch {ctx : ThrottleContext}
    (h : ∀ other, other ≠ source → other.isSet ctx = other.isSet s.ctx) :
    Untouched s { s.touch source with ctx } := by
  constructor
  · intro other hother
    have hmem := List.mem_filter.mp hother
    exact ⟨hmem.1, h other (of_decide_eq_true hmem.2)⟩
  · intro other hother
    have hmem := List.mem_filter.mp hother
    exact ⟨hmem.1, h other (of_decide_eq_true hmem.2)⟩
  · intro other hother hstarted
    exact List.mem_filter.mpr ⟨hstarted, (List.mem_filter.mp hother).2⟩

theorem untouched_of_isSet {ctx : ThrottleContext}
    (h : ∀ source : ThrottleSource, source.isSet ctx = source.isSet s.ctx) :
    Untouched s { s with ctx } :=
  ⟨fun source hs => ⟨hs, h source⟩, fun source hr => ⟨hr, h source⟩, fun _ _ hs => hs⟩

theorem untouched_command (s : Throttler) (c : ThrottleCommand) :
    Untouched s (s.applyServerCommand c) := by
  have hsame : ∀ source : ThrottleSource, source.isSet s.ctx = source.isSet s.ctx := fun _ => rfl
  cases c with
  | throttleHTTP url => exact untouched_touch fun other hne => by cases other <;> trivial
  | throttleQuery query => exact untouched_touch fun other hne => by cases other <;> trivial
  | maxLoad load => exact untouched_touch fun other hne => by cases other <;> trivial
  | criticalLoad load => exact untouched_of_isSet fun other => by cases other <;> rfl
  | throttleControlReplicas keys =>
    exact untouched_touch fun other hne => by cases other <;> trivial
  | throttle arg =>
    rw [applyServerCommand]
    split
    · exact untouched_of_isSet hsame
    · exact untouched_touch fun other hne => by cases other <;> trivial
  | noThrottle arg =>
    rw [applyServerCommand]
    split
    · exact untouched_of_isSet hsame
    · exact untouched_touch fun other hne => by cases other <;> trivial
  | maxLagMillis n => exact untouched_of_isSet fun other => by cases other <;> rfl

/-! ## The invariant -/

/-- A cleared source whose collector has run since is not blamed by what is stored, or that is not
looked at. -/
structure Settled (s : Throttler) : Prop where
  ran : ∀ source ∈ s.ranAfter, source ∈ s.startedAfter
  leaving : .leaving ∈ s.sleepers →
    s.ctx.throttleGeneralCheckResult.reason = .leavingHibernation
  general : ∀ source ∈ s.startedAfter, source.collector = .general →
    source.isSet s.ctx = false → s.general.Clean source
  result : ∀ source ∈ s.ranAfter, source.isSet s.ctx = false →
    s.ctx.throttleGeneralCheckResult.reason.source = some source →
    0 < s.ctx.hibernateUntil ∧ s.check ≠ .general
  http : .http ∈ s.startedAfter → ThrottleSource.http.isSet s.ctx = false →
    ∀ url, s.http ≠ .request url
  status : .http ∈ s.ranAfter → ThrottleSource.http.isSet s.ctx = false →
    httpStatusPasses s.ctx.throttleHTTPStatusCode = true
  replicas : .controlReplicas ∈ s.startedAfter →
    ThrottleSource.controlReplicas.isSet s.ctx = false → s.replicas.Clean
  lag : .controlReplicas ∈ s.ranAfter → ThrottleSource.controlReplicas.isSet s.ctx = false →
    s.ctx.controlReplicasLagResult.quiet = true ∨
      s.ctx.checksControlReplicas = false ∧ s.check.loadsReplicas = false
  threshold : 100 ≤ s.ctx.maxLagMillisecondsThrottleThreshold
  loaded : ∀ threshold, s.check.loaded = some threshold → milliseconds 100 ≤ milliseconds threshold
  returned : ∀ r ∈ s.returned, ∀ source ∈ r.cleared, r.verdict.reason.source ≠ some source

theorem Settled.init (flags : ThrottleContext) : Settled (initThrottler flags) where
  ran := fun _ h => h
  leaving := fun h => absurd h List.not_mem_nil
  general := fun _ h => absurd h List.not_mem_nil
  result := fun _ h => absurd h List.not_mem_nil
  http := fun h => absurd h List.not_mem_nil
  status := fun h => absurd h List.not_mem_nil
  replicas := fun h => absurd h List.not_mem_nil
  lag := fun h => absurd h List.not_mem_nil
  threshold := Int.le_max_left 100 _
  loaded := nofun
  returned := fun _ h => absurd h List.not_mem_nil

/-- What a step keeps that only changes what commands set. -/
structure SameStored (s s' : Throttler) : Prop extends SameHibernation s s', Untouched s s' where
  http : s'.http = s.http
  status : s'.ctx.throttleHTTPStatusCode = s.ctx.throttleHTTPStatusCode
  replicas : s'.replicas = s.replicas
  lag : s'.ctx.controlReplicasLagResult = s.ctx.controlReplicasLagResult
  checks : s'.ctx.checksControlReplicas = s.ctx.checksControlReplicas
  threshold : 100 ≤ s'.ctx.maxLagMillisecondsThrottleThreshold

theorem Settled.congr (h : Settled s) (hs : SameStored s s') : Settled s' where
  ran source hr := hs.kept source hr (h.ran source (hs.ran source hr).1)
  leaving := by
    rw [hs.sleepers, hs.result]
    exact h.leaving
  general source hsource hc hset := by
    obtain ⟨hstarted, hsame⟩ := hs.started source hsource
    rw [hs.general]
    exact h.general source hstarted hc (hsame ▸ hset)
  result source hsource hset := by
    obtain ⟨hran, hsame⟩ := hs.ran source hsource
    rw [hs.result, hs.hibernateUntil, hs.check]
    exact h.result source hran (hsame ▸ hset)
  http hstarted hset := by
    obtain ⟨hstarted, hsame⟩ := hs.started _ hstarted
    rw [hs.http]
    exact h.http hstarted (hsame ▸ hset)
  status hran hset := by
    obtain ⟨hran, hsame⟩ := hs.ran _ hran
    rw [hs.status]
    exact h.status hran (hsame ▸ hset)
  replicas hstarted hset := by
    obtain ⟨hstarted, hsame⟩ := hs.started _ hstarted
    rw [hs.replicas]
    exact h.replicas hstarted (hsame ▸ hset)
  lag hran hset := by
    obtain ⟨hran, hsame⟩ := hs.ran _ hran
    rw [hs.lag, hs.checks, hs.check]
    exact h.lag hran (hsame ▸ hset)
  threshold := hs.threshold
  loaded := by
    rw [hs.check]
    exact h.loaded
  returned := by
    rw [hs.returned]
    exact h.returned

theorem sameStored_command (s : Throttler) (c : ThrottleCommand)
    (h : 100 ≤ s.ctx.maxLagMillisecondsThrottleThreshold) :
    SameStored s (s.applyServerCommand c) where
  toSameHibernation := sameHibernation_command s c
  toUntouched := untouched_command s c
  http := by cases c <;> rw [applyServerCommand] <;> first | rfl | split <;> rfl
  status := by cases c <;> rw [applyServerCommand] <;> first | rfl | split <;> rfl
  replicas := by cases c <;> rw [applyServerCommand] <;> first | rfl | split <;> rfl
  lag := by cases c <;> rw [applyServerCommand] <;> first | rfl | split <;> rfl
  checks := by cases c <;> rw [applyServerCommand] <;> first | rfl | split <;> rfl
  threshold := by
    cases c with
    | maxLagMillis n => exact Int.le_max_left 100 _
    | throttle arg =>
      rw [applyServerCommand]
      split <;> exact h
    | noThrottle arg =>
      rw [applyServerCommand]
      split <;> exact h
    | _ => exact h

theorem generalQuiet_ne (h : s.generalQuiet = true) (hset : source.isSet s.ctx = false) :
    s.ctx.throttleGeneralCheckResult.reason.source ≠ some source := by
  intro heq
  unfold generalQuiet at h
  rw [heq, Option.all_some, hset] at h
  cases h

/-! ## Runs begin and end -/

theorem Settled.begins (h : Settled s) (hgeneral : c = .general → s.general = .idle)
    (hhttp : c = .http → s.http = .idle) (hreplicas : c = .replicas → s.replicas = .idle) :
    Settled (s.begins c) := by
  refine { h with
    ran := fun source hr => mem_begins.mpr (.inr (h.ran source hr))
    general := fun source hsource hc hset => ?_
    http := fun hsource hset => ?_
    replicas := fun hsource hset => ?_ }
  · rcases mem_begins.mp hsource with heq | hstarted
    · show s.general.Clean source
      rw [hgeneral (heq.symm.trans hc)]
      trivial
    · exact h.general source hstarted hc hset
  · rcases mem_begins.mp hsource with hc | hstarted
    · show ∀ url, s.http ≠ .request url
      rw [hhttp hc.symm]
      exact nofun
    · exact h.http hstarted hset
  · rcases mem_begins.mp hsource with hc | hstarted
    · show s.replicas.Clean
      rw [hreplicas hc.symm]
      trivial
    · exact h.replicas hstarted hset

theorem GeneralReason_source {reason : GeneralReason} (h : reason.source = some source) :
    source.collector = .general := by
  cases reason <;> first | (cases h; rfl) | cases h

theorem Settled.ends (h : Settled s)
    (hresult : c = .general → ∀ source ∈ s.startedAfter, source.collector = .general →
      source.isSet s.ctx = false →
      s.ctx.throttleGeneralCheckResult.reason.source = some source →
      0 < s.ctx.hibernateUntil ∧ s.check ≠ .general)
    (hstatus : c = .http → .http ∈ s.startedAfter → ThrottleSource.http.isSet s.ctx = false →
      httpStatusPasses s.ctx.throttleHTTPStatusCode = true)
    (hlag : c = .replicas → .controlReplicas ∈ s.startedAfter →
      ThrottleSource.controlReplicas.isSet s.ctx = false →
      s.ctx.controlReplicasLagResult.quiet = true ∨
        s.ctx.checksControlReplicas = false ∧ s.check.loadsReplicas = false) :
    Settled (s.ends c) := by
  refine { h with
    ran := fun source hr => (mem_ends.mp hr).elim (h.ran source) And.right
    result := fun source hr hset hblames => ?_
    status := fun hr => ?_
    lag := fun hr => ?_ }
  · have hc := GeneralReason_source hblames
    rcases mem_ends.mp hr with hr | ⟨heq, hr⟩
    · exact h.result source hr hset hblames
    · exact hresult (heq.symm.trans hc) source hr hc hset hblames
  · rcases mem_ends.mp hr with hr | ⟨heq, hr⟩
    · exact h.status hr
    · exact hstatus heq.symm hr
  · rcases mem_ends.mp hr with hr | ⟨heq, hr⟩
    · exact h.lag hr
    · exact hlag heq.symm hr

/-! ## The steps -/

theorem Settled.generalBegins (h : Settled s) (hidle : s.general = .idle) :
    Settled s.generalBegins := by
  have hbegun : Settled (s.begins .general) := h.begins (fun _ => hidle) nofun nofun
  exact { hbegun with }

theorem Settled.withGeneral (h : Settled s) {place : GeneralAt}
    (hclean : ∀ source ∈ s.startedAfter, source.collector = .general →
      source.isSet s.ctx = false → place.Clean source) :
    Settled { s with general := place } :=
  { h with general := hclean }

theorem Settled.generalStep {a : GeneralAction} (h : Settled s) (hhand : HandOver s)
    (hok : s.StoresOrQuiet (.general a)) (hs : s.generalStep a = some s') : Settled s' := by
  obtain ⟨hplace, rfl, ⟨hhib, rfl⟩ | ⟨hhib, rfl⟩⟩ | ⟨place, hmoves, rfl⟩ |
    ⟨now, hplace, rfl, rfl⟩ | ⟨hplace, rfl, rfl⟩ | ⟨result, hplace, rfl⟩ :=
    generalStep_cases hs
  · refine (h.generalBegins hplace).ends (fun _ source _ _ hset hblames => ⟨hhib, ?_⟩) nofun nofun
    exact fun hcheck => generalQuiet_ne (hok hhib hcheck) hset hblames
  · exact (h.generalBegins hplace).withGeneral fun _ _ _ _ => trivial
  · exact h.withGeneral fun source hstarted hc hset =>
      hmoves.clean source hset (h.general source hstarted hc hset)
  · -- the check that begins a hibernation stores no result
    obtain ⟨hpos, hok⟩ := hok
    have hidle : Settled (s.hibernated (s.ctx.hibernatesUntil now)) := by
      refine { h with
        leaving := fun hleaving => ?_
        general := fun _ _ _ _ => trivial
        result := fun source hr hset hblames => ⟨hpos, (h.result source hr hset hblames).2⟩ }
      rcases List.mem_append.mp hleaving with hleaving | hleaving
      · exact h.leaving hleaving
      · cases List.mem_singleton.mp hleaving
    refine hidle.ends (fun _ source _ _ hset hblames => ⟨hpos, ?_⟩) nofun nofun
    exact fun hcheck => generalQuiet_ne (hok hcheck) hset hblames
  · have hidle : Settled { s with general := .idle } := h.withGeneral fun _ _ _ _ => trivial
    exact hidle.ends (fun _ source _ _ hset hblames => absurd hblames (generalQuiet_ne hok hset))
      nofun nofun
  · have hrun : s.general ≠ .idle := by
      rw [hplace]
      exact nofun
    have hsleepers := (hhand.atMostOne.of_running hrun).1
    have hclean : ∀ source ∈ s.startedAfter, source.collector = .general →
        source.isSet s.ctx = false → result.reason.source ≠ some source := by
      intro source hstarted hc hset
      have hclean := h.general source hstarted hc hset
      rw [hplace] at hclean
      exact hclean
    have hstored : Settled { s.setGeneral result with general := .idle } := by
      exact { h with
        leaving := fun hleaving => absurd (hsleepers ▸ hleaving) List.not_mem_nil
        general := fun _ _ _ _ => trivial
        result := fun source hr hset hblames => absurd hblames
          (hclean source (h.ran source hr) (GeneralReason_source hblames) hset) }
    unfold storeGeneral
    dsimp only
    split
    · exact ends { hstored with } (fun _ source hstarted hc hset hblames =>
        absurd hblames (hclean source hstarted hc hset)) nofun nofun
    · exact hstored.ends (fun _ source hstarted hc hset hblames =>
        absurd hblames (hclean source hstarted hc hset)) nofun nofun

theorem Settled.wake {i : Nat} (h : Settled s) (hs : s.wake i = some s') : Settled s' := by
  unfold Throttler.wake at hs
  split at hs
  · cases hs
    exact { h with leaving := fun _ => rfl, result := nofun }
  · next hleaving =>
    have hreason := h.leaving (List.mem_of_getElem? hleaving)
    cases hs
    refine { h with leaving := fun _ => hreason, result := fun source _ _ hblames => ?_ }
    have hnone : s.ctx.throttleGeneralCheckResult.reason.source = some source := hblames
    rw [hreason] at hnone
    cases hnone
  · cases hs

theorem Settled.httpStep {a : HTTPAction} (h : Settled s) (hok : s.StoresOrQuiet (.http a))
    (hs : s.httpStep a = some s') : Settled s' := by
  have hquiet : s.httpQuiet = true → ThrottleSource.http.isSet s.ctx = false →
      httpStatusPasses s.ctx.throttleHTTPStatusCode = true := by
    intro hq hset
    unfold httpQuiet at hq
    rw [hset, Bool.false_or] at hq
    exact hq
  unfold Throttler.httpStep at hs
  split at hs
  · next hplace =>
    have hbegun : Settled (s.begins .http) := h.begins nofun (fun _ => hplace) nofun
    dsimp only at hs
    split at hs
    · next hhib =>
      cases hs
      exact hbegun.ends nofun (fun _ _ => hquiet (hok hhib)) nofun
    · cases hs
      exact { hbegun with http := fun _ _ _ => nofun }
  · split at hs
    · cases hs
      exact ends { h with http := fun _ _ _ => nofun } nofun (fun _ _ => hquiet hok) nofun
    · next hurl =>
      cases hs
      exact { h with http := fun _ hset => absurd hurl (of_decide_eq_false hset) }
  · next url statusCode hplace =>
    -- a request that was made since the endpoint was cleared would be for an empty one
    have hnever : .http ∈ s.startedAfter → ThrottleSource.http.isSet s.ctx = false → False :=
      fun hstarted hset => h.http hstarted hset url hplace
    cases hs
    exact ends { h with
      http := fun _ _ _ => nofun
      status := fun hran hset => (hnever (h.ran _ hran) hset).elim }
      nofun (fun _ hstarted hset => (hnever hstarted hset).elim) nofun
  · cases hs

theorem Settled.replicasStep {a : ReplicasAction} (h : Settled s)
    (hok : s.StoresOrQuiet (.replicas a)) (hs : s.replicasStep a = some s') : Settled s' := by
  have hplace : ∀ {place : ReplicasAt}, (ThrottleSource.controlReplicas.isSet s.ctx = false →
      s.replicas.Clean → place.Clean) → Settled { s with replicas := place } :=
    fun hclean => { h with
      replicas := fun hstarted hset => hclean hset (h.replicas hstarted hset) }
  unfold Throttler.replicasStep at hs
  split at hs
  · split at hs
    · cases hs
      exact hplace fun _ _ => trivial
    · cases hs
      exact hplace fun _ _ => trivial
  · next hidle =>
    have hbegun : Settled (s.begins .replicas) := h.begins nofun nofun fun _ => hidle
    dsimp only at hs
    split at hs
    · cases hs
      exact { hbegun with replicas := fun _ _ => trivial }
    · next hchecks =>
      have hchecks : s.ctx.checksControlReplicas = false := Bool.eq_false_iff.mpr hchecks
      cases hs
      refine hbegun.ends nofun nofun fun _ _ hset => ?_
      cases hloads : s.check.loadsReplicas with
      | false => exact .inr ⟨hchecks, hloads⟩
      | true =>
        have hq := hok hchecks hloads
        unfold replicasQuiet at hq
        have hset : ThrottleSource.controlReplicas.isSet s.ctx = false := hset
        rw [hset, Bool.false_or] at hq
        exact .inl hq
  · cases hs
    refine hplace fun hset _ => ?_
    have hnil : ¬ s.ctx.throttleControlReplicaKeys ≠ [] := of_decide_eq_false hset
    exact not_not.mp hnil
  · next keys arrived hpolling =>
    -- no replica is polled once they are cleared
    have hnone : ∀ arrived, s.replicas.Clean → readControlReplicasLag keys arrived = none := by
      intro arrived hclean
      rw [hpolling] at hclean
      have hnil : keys = [] := hclean
      rw [hnil]
      rfl
    split at hs
    · cases hs
      exact hplace fun _ hclean => hnone _ hclean
    · obtain ⟨-, rfl⟩ := of_guard hs
      exact hplace fun _ hclean => hnone _ hclean
  · next result hstore =>
    have hquiet : .controlReplicas ∈ s.startedAfter →
        ThrottleSource.controlReplicas.isSet s.ctx = false → (result.getD {}).quiet = true := by
      intro hstarted hset
      have hclean := h.replicas hstarted hset
      rw [hstore] at hclean
      have hnone : result = none := hclean
      rw [hnone]
      rfl
    cases hs
    exact ends { h with
      replicas := fun _ _ => trivial
      lag := fun hran hset => .inl (hquiet (h.ran _ hran) hset) }
      nofun nofun fun _ hstarted hset => .inl (hquiet hstarted hset)
  · cases hs

/-! ## A call of `shouldThrottle` -/

theorem Settled.returns (h : Settled s) {verdict : ThrottleVerdict}
    (hverdict : ∀ source ∈ s.ranAfter, source.isSet s.ctx = false →
      verdict.reason.source ≠ some source) : Settled (s.returns verdict) := by
  refine { h with
    result := fun source hr hset hblames => ⟨(h.result source hr hset hblames).1, nofun⟩
    lag := fun hr hset => (h.lag hr hset).imp_right fun hc => ⟨hc.1, rfl⟩
    loaded := nofun
    returned := fun r hr source hsource => ?_ }
  rcases List.mem_append.mp hr with hr | hr
  · exact h.returned r hr source hsource
  · rw [List.mem_singleton.mp hr] at hsource ⊢
    obtain ⟨hran, hset⟩ := mem_cleared.mp hsource
    exact hverdict source hran hset

theorem Settled.goesOn (h : Settled s) {check : CheckAt}
    (hgeneral : check = .general → s.ctx.hibernateUntil ≤ 0)
    (hloads : check.loadsReplicas = true → s.ctx.checksControlReplicas = true)
    (hloaded : ∀ threshold, check.loaded = some threshold →
      milliseconds 100 ≤ milliseconds threshold) :
    Settled { s with check } := by
  refine { h with
    result := fun source hr hset hblames => ?_, lag := fun hr hset => ?_, loaded := hloaded }
  · have hhib := (h.result source hr hset hblames).1
    exact ⟨hhib, fun hc => absurd hhib (Int.not_lt.mpr (hgeneral hc))⟩
  · refine (h.lag hr hset).imp_right fun hc => ⟨hc.1, ?_⟩
    cases hl : check.loadsReplicas with
    | false => rfl
    | true =>
      rw [hloads hl] at hc
      cases hc.1

theorem milliseconds_mono {threshold : Int} (h : 100 ≤ threshold)
    (hfits : threshold * 1000000 < 2 ^ 63) : milliseconds 100 ≤ milliseconds threshold := by
  have heq : milliseconds threshold = threshold * 1000000 :=
    Int.bmod_eq_of_le (by omega) (by omega)
  rw [heq, show milliseconds 100 = 100000000 by decide]
  omega

theorem Settled.checkStep (h : Settled s) (hok : s.StoresOrQuiet .check) :
    Settled s.checkStep := by
  have hnone : ∀ {verdict : ThrottleVerdict}, verdict.reason.source = none →
      Settled (s.returns verdict) := by
    intro verdict hv
    refine h.returns fun source _ _ => ?_
    rw [hv]
    exact nofun
  unfold Throttler.checkStep
  split
  · -- the records of the period play no part here
    have hbegun : Settled { s with within := s.period ≠ .outside } := { h with }
    dsimp only
    split
    · exact hbegun.returns fun _ _ _ => nofun
    · next hhib => exact hbegun.goesOn (fun _ => Int.not_lt.mp hhib) nofun nofun
  · next hcheck =>
    split
    · refine h.returns fun source hran hset hblames => ?_
      exact (h.result source hran hset hblames).2 hcheck
    · exact h.goesOn nofun nofun nofun
  · split
    · next hstatus =>
      refine h.returns fun source hran hset hblames => ?_
      have hsource : ThrottleSource.http = source := Option.some.inj hblames
      rw [← hsource] at hran hset
      rw [h.status hran hset] at hstatus
      cases hstatus
    · exact h.goesOn nofun nofun nofun
  · next hcheck =>
    refine h.goesOn nofun nofun fun threshold ht => ?_
    cases ht
    exact milliseconds_mono h.threshold (hok hcheck)
  · next threshold hcheck =>
    split
    · exact hnone rfl
    · refine h.goesOn nofun nofun fun t ht => h.loaded t ?_
      rw [hcheck]
      exact ht
  · next threshold hcheck =>
    split
    · next hchecks =>
      refine h.goesOn nofun (fun _ => hchecks) fun t ht => h.loaded t ?_
      rw [hcheck]
      exact ht
    · exact hnone rfl
  · next threshold hcheck =>
    refine h.returns fun source hran hset hblames => ?_
    have hsource : source = .controlReplicas := by
      unfold lagVerdict at hblames
      split at hblames
      · exact (Option.some.inj hblames).symm
      · split at hblames
        · exact (Option.some.inj hblames).symm
        · cases hblames
    rw [hsource] at hran hset
    have hloaded := h.loaded threshold (by rw [hcheck]; rfl)
    rcases h.lag hran hset with hquiet | ⟨-, hloads⟩
    · rw [lagVerdict_of_quiet hquiet hloaded] at hblames
      cases hblames
    · rw [hcheck] at hloads
      cases hloads

theorem Settled.setLockFlag (h : Settled s) {flag : Int}
    (hok : s.StoresOrQuiet (.setLockFlag flag)) :
    Settled { s with ctx := { s.ctx with allEventsUpToLockProcessedInjectedFlag := flag } } := by
  have hset : ∀ source : ThrottleSource,
      source.isSet { s.ctx with allEventsUpToLockProcessedInjectedFlag := flag } =
        source.isSet s.ctx := fun source => by cases source <;> rfl
  refine { h with
    general := fun source hs hc hn => h.general source hs hc (hset source ▸ hn)
    result := fun source hr hn => h.result source hr (hset source ▸ hn)
    http := fun hs hn => h.http hs (hset _ ▸ hn)
    status := fun hr hn => h.status hr (hset _ ▸ hn)
    replicas := fun hs hn => h.replicas hs (hset _ ▸ hn)
    lag := fun hr hn => ?_ }
  rw [hset] at hn
  rcases h.lag hr hn with hquiet | ⟨hbefore, hloads⟩
  · exact .inl hquiet
  · cases hafter : { s.ctx with
        allEventsUpToLockProcessedInjectedFlag := flag }.checksControlReplicas with
    | false => exact .inr ⟨rfl, hloads⟩
    | true =>
      have hq := hok hbefore hafter hr
      unfold replicasQuiet at hq
      rw [hn, Bool.false_or] at hq
      exact .inl hq

theorem Settled.step {a : ThrottlerAction} (h : Settled s) (hhand : HandOver s)
    (hok : s.StoresOrQuiet a) (hs : s.step a = some s') : Settled s' := by
  cases a with
  | command c => exact Option.some.inj hs ▸ h.congr (sameStored_command s c h.threshold)
  | general a => exact h.generalStep hhand hok hs
  | wake i => exact h.wake hs
  | http a => exact h.httpStep hok hs
  | replicas a => exact h.replicasStep hok hs
  | check => exact Option.some.inj hs ▸ h.checkStep hok
  | setCurrentLag lag =>
    cases hs
    refine h.congr
      { toSameHibernation := ⟨rfl, rfl, rfl, rfl, rfl, rfl, rfl, rfl, rfl⟩
        toUntouched := untouched_of_isSet fun source => by cases source <;> rfl
        http := rfl
        status := rfl
        replicas := rfl
        lag := rfl
        checks := rfl
        threshold := h.threshold }
  | setLockFlag flag => exact Option.some.inj hs ▸ h.setLockFlag hok

theorem StoresOrQuiet.lasts {a : ThrottlerAction} (h : s.StoresOrQuiet a) : s.Lasts a := by
  unfold Lasts
  split
  · exact h.1
  · trivial

/-- **A source that is cleared stops throttling**, in every run in which a collector that stores
nothing leaves nothing behind. -/
theorem cleared_source_stops_throttling {flags : ThrottleContext}
    (h : Reach Throttler.step StoresOrQuiet (initThrottler flags) s) :
    ∀ r ∈ s.returned, ∀ source ∈ r.cleared, r.verdict.reason.source ≠ some source := by
  -- `HandOver` says which results the general collector can still store
  let Inv : Throttler → Prop := fun s => HandOver s ∧ Settled s
  have h0 : Inv (initThrottler flags) := ⟨HandOver.init flags, Settled.init flags⟩
  have hinv : Inv s := by
    refine h.invariant h0 ?_
    intro s s' a hs hok hstep
    exact ⟨hs.1.step hok.lasts hstep, hs.2.step hs.1 hok hstep⟩
  exact hinv.2.returned

theorem cleared_source_stops_throttling_small :
    ∃ s, Reach Throttler.step StoresOrQuiet (initThrottler {}) s ∧
      s.returned.map (fun r => (r.verdict.reason, r.cleared)) =
        [(.general (.maxLoad "Threads_running" 30 25), [.throttleQuery, .userCommand]),
          (.none, [.http, .maxLoad, .throttleQuery, .userCommand])] ∧
      ∀ r ∈ s.returned, ∀ source ∈ r.cleared, r.verdict.reason.source ≠ some source := by
  refine exists_reach_of
    (fun s => s.returned.map (fun r => (r.verdict.reason, r.cleared)) =
      [(.general (.maxLoad "Threads_running" 30 25), [.throttleQuery, .userCommand]),
        (.none, [.http, .maxLoad, .throttleQuery, .userCommand])])
    [.command (.throttleHTTP "http://probe"), .http .start, .http .readURL,
      .http (.response (.ok 200)), .command (.maxLoad [("Threads_running", 25)]),
      .general .start, .general (.panicFile false), .general .read, .general (.load .notMet),
      .general .read, .general (.flagFiles false false), .general .read,
      .general (.load (.met "Threads_running" 30 25)), .general .store, .check, .check,
      .command (.throttleHTTP ""), .command (.maxLoad []), .http .start, .http .readURL,
      .general .start, .general (.panicFile false), .general .read, .general (.load .notMet),
      .general .read, .general (.flagFiles false false), .general .read, .general (.load .notMet),
      .general .read, .general .store, .check, .check, .check, .check, .check, .check, .check]
    (by decide) fun s hr hs => ⟨hs, cleared_source_stops_throttling hr⟩

/-- The endpoint answers 500 and is cleared; its collector returns at once, and the next call still
throttles. -/
theorem cleared_endpoint_throttles :
    ∃ s, Reachable Throttler.step (initThrottler {}) s ∧ ∃ r ∈ s.returned,
      r.cleared = ThrottleSource.all ∧ r.verdict.result = true ∧
        r.verdict.reason.source = some .http := by
  exact exists_reach
    [.replicas .start, .command (.throttleHTTP "http://probe"), .http .start, .http .readURL,
      .http (.response (.ok 500)), .command (.throttleHTTP ""), .http .start, .http .readURL,
      .general .start, .general (.panicFile false), .general .read, .general (.load .notMet),
      .general .read, .general (.flagFiles false false), .general .read, .general (.load .notMet),
      .general .read, .general .store, .replicas .tick, .replicas .readKeys,
      .replicas (.arrive (.ok [])), .replicas .store, .check, .check, .check] (by decide)

end Throttler

end GhOst.Logic
