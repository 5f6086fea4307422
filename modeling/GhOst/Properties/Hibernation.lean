import GhOst.Infra.Steps
import GhOst.Logic.Throttler

/-!
# Hibernation

A hibernation ends with two stores: first the general result, which throttles, then
`HibernateUntil`. `shouldThrottle` loads them in the other order. A general check overwrites the
result only if it began after `HibernateUntil` was reset, because a check that finds it set stores
nothing. So a call within the period finds one or the other, as long as the time that is stored fits
into 64 bits: else it is negative, and the hibernation goes unnoticed.
-/

namespace GhOst.Logic

open Infra

/-- From this place the general collector does not come to blame the source, unless it is set. -/
def GeneralAt.Clean (source : ThrottleSource) : GeneralAt → Prop
  | maxLoadOf load => source = .maxLoad → load = []
  | store result => result.reason.source ≠ some source
  | _ => True

namespace Throttler

variable {s s' : Throttler}

/-! ## What the steps do -/

theorem clean_store {result : ThrottleCheckResult} (h : result.reason.source = none)
    (source : ThrottleSource) : (GeneralAt.store result).Clean source := by
  show result.reason.source ≠ some source
  rw [h]
  exact nofun

theorem clean_afterCriticalLoad (ctx : ThrottleContext) (source : ThrottleSource)
    (outcome : LoadOutcome) : (ctx.afterCriticalLoad outcome).Clean source := by
  unfold ThrottleContext.afterCriticalLoad
  split
  · exact clean_store rfl source
  · split
    · trivial
    · split <;> trivial
  · trivial

theorem clean_afterUserCommand {ctx : ThrottleContext} {source : ThrottleSource}
    (h : source.isSet ctx = false) : ctx.afterUserCommand.Clean source := by
  unfold ThrottleContext.afterUserCommand
  split
  · next hcommanded =>
    intro heq
    rw [← Option.some.inj heq] at h
    exact absurd hcommanded (of_decide_eq_false h)
  · trivial

theorem clean_afterFlagFiles (ctx : ThrottleContext) (source : ThrottleSource)
    (first second : Bool) : (ctx.afterFlagFiles first second).Clean source := by
  unfold ThrottleContext.afterFlagFiles
  split
  · exact clean_store rfl source
  · trivial

theorem clean_afterMaxLoad {load : List (String × Int)} {source : ThrottleSource}
    (h : source = .maxLoad → load = []) {outcome : LoadOutcome}
    (hpossible : outcome.possible load = true) : (afterMaxLoad outcome).Clean source := by
  cases outcome with
  | error variableName err =>
    intro heq
    rw [h (Option.some.inj heq).symm] at hpossible
    exact absurd hpossible Bool.false_ne_true
  | met variableName value threshold =>
    intro heq
    rw [h (Option.some.inj heq).symm] at hpossible
    exact absurd hpossible Bool.false_ne_true
  | notMet => trivial

theorem clean_afterThrottleQuery {ctx : ThrottleContext} {source : ThrottleSource}
    (h : source.isSet ctx = false) (result : Except String Int) :
    (ctx.afterThrottleQuery result).Clean source := by
  unfold ThrottleContext.afterThrottleQuery
  split
  · split
    · next hquery =>
      intro heq
      rw [← Option.some.inj heq] at h
      exact absurd hquery.1 (of_decide_eq_false h)
    · exact clean_store rfl source
  · exact clean_store rfl source

/-- A general check moves on to another place, and blames no source that is not set. -/
structure Moves (s : Throttler) (place : GeneralAt) : Prop where
  running : s.general ≠ .idle
  goesOn : place ≠ .idle
  clean : ∀ source, source.isSet s.ctx = false → s.general.Clean source → place.Clean source

def hibernated (s : Throttler) (hibernateUntil : Int) : Throttler :=
  { s with
    ctx := { s.ctx with hibernateUntil }
    general := .idle
    sleepers := s.sleepers ++ [.sleeping]
    period := .hibernating }

def generalBegins (s : Throttler) : Throttler :=
  { s.begins .general with generalAfter := s.period = .ended }

theorem generalStep_cases {a : GeneralAction} (h : s.generalStep a = some s') :
    (s.general = .idle ∧ a = .start ∧
      (0 < s.ctx.hibernateUntil ∧ s' = s.generalBegins.ends .general ∨
        s.ctx.hibernateUntil ≤ 0 ∧ s' = { s.generalBegins with general := .panicFile })) ∨
    (∃ place, Moves s place ∧ s' = { s with general := place }) ∨
    (∃ now, s.general = .hibernate ∧ a = .hibernate now ∧
      s' = (s.hibernated (s.ctx.hibernatesUntil now)).ends .general) ∨
    (s.general = .panicAbort ∧ a = .sent ∧ s' = { s with general := .idle }.ends .general) ∨
    ∃ result, s.general = .store result ∧ s' = s.storeGeneral result := by
  have hmoves : ∀ {start place}, s.general = start → start ≠ .idle → place ≠ .idle →
      (∀ source, source.isSet s.ctx = false → start.Clean source → place.Clean source) →
      ∃ place', Moves s place' ∧ { s with general := place } = { s with general := place' } := by
    rintro _ place rfl hrun hgo hclean
    exact ⟨place, ⟨hrun, hgo, hclean⟩, rfl⟩
  unfold generalStep at h
  split at h
  case h_1 hplace =>
    refine .inl ⟨hplace, rfl, ?_⟩
    dsimp only at h
    split at h
    · next hhib => exact .inl ⟨hhib, (Option.some.inj h).symm⟩
    · next hhib => exact .inr ⟨Int.not_lt.mp hhib, (Option.some.inj h).symm⟩
  case h_2 hplace =>
    refine .inr (.inl ?_)
    split at h
    · cases h
      exact hmoves hplace nofun nofun fun _ _ _ => trivial
    · cases h
      exact hmoves hplace nofun nofun fun _ _ _ => trivial
  case h_3 hplace =>
    cases h
    exact .inr (.inl (hmoves hplace nofun nofun fun _ _ _ => trivial))
  case h_4 load outcome hplace =>
    obtain ⟨-, rfl⟩ := of_guard h
    refine .inr (.inl (hmoves hplace nofun ?_
      fun source _ _ => clean_afterCriticalLoad s.ctx source outcome))
    unfold ThrottleContext.afterCriticalLoad
    split
    · exact nofun
    · split
      · exact nofun
      · split <;> exact nofun
    · exact nofun
  case h_5 now hplace =>
    obtain ⟨-, rfl⟩ := of_guard h
    exact .inr (.inr (.inl ⟨now, hplace, rfl, rfl⟩))
  case h_6 hplace => exact .inr (.inr (.inr (.inl ⟨hplace, rfl, (Option.some.inj h).symm⟩)))
  case h_7 hplace =>
    cases h
    refine .inr (.inl (hmoves hplace nofun ?_
      fun source hset _ => clean_afterUserCommand hset))
    unfold ThrottleContext.afterUserCommand
    split <;> exact nofun
  case h_8 first second hplace =>
    cases h
    refine .inr (.inl (hmoves hplace nofun ?_
      fun source _ _ => clean_afterFlagFiles s.ctx source first second))
    unfold ThrottleContext.afterFlagFiles
    split <;> exact nofun
  case h_9 hplace =>
    cases h
    refine .inr (.inl (hmoves hplace nofun nofun ?_))
    intro source hset _ heq
    rw [heq] at hset
    exact not_not.mp (of_decide_eq_false hset)
  case h_10 load outcome hplace =>
    obtain ⟨hpossible, rfl⟩ := of_guard h
    refine .inr (.inl (hmoves hplace nofun ?_ ?_))
    · cases outcome <;> exact nofun
    · exact fun source _ hclean => clean_afterMaxLoad hclean hpossible
  case h_11 hplace =>
    refine .inr (.inl ?_)
    split at h
    · cases h
      exact hmoves hplace nofun nofun fun _ _ _ => trivial
    · cases h
      exact hmoves hplace nofun nofun fun source _ _ => clean_store rfl source
  case h_12 result hplace =>
    cases h
    refine .inr (.inl (hmoves hplace nofun ?_
      fun source hset _ => clean_afterThrottleQuery hset result))
    unfold ThrottleContext.afterThrottleQuery
    split
    · split <;> exact nofun
    · exact nofun
  case h_13 result hplace =>
    exact .inr (.inr (.inr (.inr ⟨result, hplace, (Option.some.inj h).symm⟩)))
  case h_14 => cases h

/-- The steps of the other goroutines leave all of this alone. -/
structure SameHibernation (s s' : Throttler) : Prop where
  hibernateUntil : s'.ctx.hibernateUntil = s.ctx.hibernateUntil
  result : s'.ctx.throttleGeneralCheckResult = s.ctx.throttleGeneralCheckResult
  general : s'.general = s.general
  sleepers : s'.sleepers = s.sleepers
  period : s'.period = s.period
  generalAfter : s'.generalAfter = s.generalAfter
  check : s'.check = s.check
  within : s'.within = s.within
  returned : s'.returned = s.returned

theorem sameHibernation_command (s : Throttler) (c : ThrottleCommand) :
    SameHibernation s (s.applyServerCommand c) := by
  cases c with
  | throttle arg =>
    rw [applyServerCommand]
    split <;> constructor <;> rfl
  | noThrottle arg =>
    rw [applyServerCommand]
    split <;> constructor <;> rfl
  | _ => constructor <;> rfl

theorem sameHibernation_http {a : HTTPAction} (h : s.httpStep a = some s') :
    SameHibernation s s' := by
  unfold httpStep at h
  split at h
  · dsimp only at h
    split at h <;> (cases h; constructor <;> rfl)
  · split at h <;> (cases h; constructor <;> rfl)
  · cases h
    constructor <;> rfl
  · cases h

theorem sameHibernation_replicas {a : ReplicasAction} (h : s.replicasStep a = some s') :
    SameHibernation s s' := by
  unfold replicasStep at h
  split at h
  · split at h <;> (cases h; constructor <;> rfl)
  · dsimp only at h
    split at h <;> (cases h; constructor <;> rfl)
  · cases h
    constructor <;> rfl
  · split at h
    · cases h
      constructor <;> rfl
    · obtain ⟨-, rfl⟩ := of_guard h
      constructor <;> rfl
  · cases h
    constructor <;> rfl
  · cases h

/-! ## The hand-over -/

/-- A hibernation that starts ends at a time that fits into 64 bits. -/
def Lasts (s : Throttler) : ThrottlerAction → Prop
  | .general (.hibernate now) => 0 < s.ctx.hibernatesUntil now
  | _ => True

instance (s : Throttler) (a : ThrottlerAction) : Decidable (s.Lasts a) := by
  unfold Lasts
  split <;> infer_instance

def StoredThrottles (s : Throttler) : Prop :=
  s.ctx.throttleGeneralCheckResult.shouldThrottle = true

/-- No hibernation is in progress, or one, and then the general collector does nothing. -/
def AtMostOne (s : Throttler) : Prop :=
  (s.sleepers = [] ∧ s.ctx.hibernateUntil = 0 ∧ s.period ≠ .hibernating) ∨
    (∃ place, s.sleepers = [place] ∧ 0 < s.ctx.hibernateUntil ∧ s.period = .hibernating ∧
      s.general = .idle ∧ (place = .leaving → s.StoredThrottles))

structure HandOver (s : Throttler) : Prop where
  atMostOne : s.AtMostOne
  ended : s.period = .ended → s.StoredThrottles
  after : s.period = .ended → s.general ≠ .idle → s.generalAfter = true
  general : s.within = true → s.period ≠ .outside ∧ s.check = .general ∧ s.StoredThrottles
  returned : ∀ r ∈ s.returned, r.within = true → r.verdict.result = true

theorem HandOver.congr (h : HandOver s) (hs : SameHibernation s s') : HandOver s' := by
  have hstored : s.StoredThrottles → s'.StoredThrottles := by
    unfold StoredThrottles
    rw [hs.result]
    exact id
  constructor
  · unfold AtMostOne
    rw [hs.sleepers, hs.hibernateUntil, hs.period, hs.general]
    rcases h.atMostOne with hnone | ⟨place, h1, h2, h3, h4, h5⟩
    · exact .inl hnone
    · exact .inr ⟨place, h1, h2, h3, h4, fun hp => hstored (h5 hp)⟩
  · rw [hs.period]
    exact fun hp => hstored (h.ended hp)
  · rw [hs.period, hs.general, hs.generalAfter]
    exact h.after
  · rw [hs.within, hs.check, hs.period]
    exact fun hw => ⟨(h.general hw).1, (h.general hw).2.1, hstored (h.general hw).2.2⟩
  · rw [hs.returned]
    exact h.returned

theorem HandOver.init (flags : ThrottleContext) : HandOver (initThrottler flags) where
  atMostOne := .inl ⟨rfl, rfl, nofun⟩
  ended := nofun
  after := nofun
  general := nofun
  returned := fun _ hr => absurd hr List.not_mem_nil

theorem AtMostOne.of_le (h : s.AtMostOne) (hhib : s.ctx.hibernateUntil ≤ 0) :
    s.sleepers = [] ∧ s.ctx.hibernateUntil = 0 ∧ s.period ≠ .hibernating := by
  rcases h with hnone | ⟨-, -, hpos, -⟩
  · exact hnone
  · omega

theorem AtMostOne.of_running (h : s.AtMostOne) (hrun : s.general ≠ .idle) :
    s.sleepers = [] ∧ s.ctx.hibernateUntil = 0 ∧ s.period ≠ .hibernating := by
  rcases h with hnone | ⟨-, -, -, -, hidle, -⟩
  · exact hnone
  · exact absurd hidle hrun

theorem HandOver.generalStep {a : GeneralAction} (h : HandOver s) (hok : s.Lasts (.general a))
    (hs : s.generalStep a = some s') : HandOver s' := by
  obtain ⟨hplace, -, ⟨hhib, rfl⟩ | ⟨hhib, rfl⟩⟩ | ⟨place, hmoves, rfl⟩ |
    ⟨now, hplace, rfl, rfl⟩ | ⟨hplace, -, rfl⟩ | ⟨result, hplace, rfl⟩ :=
    generalStep_cases hs
  · -- a check that begins in a hibernation
    exact ⟨h.atMostOne, h.ended, fun _ hrun => absurd hplace hrun, h.general, h.returned⟩
  · exact ⟨.inl (h.atMostOne.of_le hhib), h.ended, fun hover _ => decide_eq_true hover, h.general,
      h.returned⟩
  · exact ⟨.inl (h.atMostOne.of_running hmoves.running), h.ended,
      fun hover _ => h.after hover hmoves.running, h.general, h.returned⟩
  · have hrun : s.general ≠ .idle := by
      rw [hplace]
      exact nofun
    have hsleepers := (h.atMostOne.of_running hrun).1
    refine ⟨.inr ⟨.sleeping, ?_, hok, rfl, rfl, nofun⟩, nofun, nofun,
      fun hw => ⟨nofun, (h.general hw).2⟩, h.returned⟩
    show s.sleepers ++ [.sleeping] = [.sleeping]
    rw [hsleepers, List.nil_append]
  · have hrun : s.general ≠ .idle := by
      rw [hplace]
      exact nofun
    exact ⟨.inl (h.atMostOne.of_running hrun), h.ended, fun _ hidle => absurd rfl hidle, h.general,
      h.returned⟩
  · have hrun : s.general ≠ .idle := by
      rw [hplace]
      exact nofun
    obtain ⟨hsleepers, hzero, hperiod⟩ := h.atMostOne.of_running hrun
    unfold storeGeneral
    cases hafter : s.generalAfter with
    | true =>
      -- the period ends here, and with it the calls that began within it
      simp only [setGeneral, hafter, if_true]
      exact ⟨.inl ⟨hsleepers, hzero, nofun⟩, nofun, nofun, nofun, h.returned⟩
    | false =>
      -- a check that began before the end of a hibernation has stored nothing since
      have hnever : s.period ≠ .ended := by
        intro hover
        rw [h.after hover hrun] at hafter
        cases hafter
      have houtside : s.period = .outside := by
        cases hp : s.period with
        | outside => rfl
        | hibernating => exact absurd hp hperiod
        | ended => exact absurd hp hnever
      simp only [setGeneral, hafter, Bool.false_eq_true, if_false]
      exact ⟨.inl ⟨hsleepers, hzero, hperiod⟩, fun hover => absurd hover hnever,
        fun hover => absurd hover hnever, fun hw => absurd houtside (h.general hw).1, h.returned⟩

theorem HandOver.wake {i : Nat} (h : HandOver s) (hs : s.wake i = some s') : HandOver s' := by
  unfold Throttler.wake at hs
  rcases h.atMostOne with ⟨hnone, -⟩ | ⟨place, hsleepers, hpos, hperiod, hidle, hplace⟩
  · rw [hnone] at hs
    cases hs
  · cases i with
    | succ i =>
      rw [hsleepers] at hs
      cases hs
    | zero =>
      rw [hsleepers, List.getElem?_cons_zero] at hs
      cases place with
      | sleeping =>
        -- the first store
        cases hs
        exact ⟨.inr ⟨.leaving, rfl, hpos, hperiod, hidle, fun _ => rfl⟩, fun _ => rfl,
          fun _ hrun => absurd hidle hrun,
          fun hw => ⟨(h.general hw).1, (h.general hw).2.1, rfl⟩, h.returned⟩
      | leaving =>
        -- the second store: the general collector begins its next check after it
        cases hs
        exact ⟨.inl ⟨rfl, rfl, nofun⟩, fun _ => hplace rfl, fun _ hrun => absurd hidle hrun,
          fun hw => ⟨nofun, (h.general hw).2⟩, h.returned⟩

/-! ## A call of `shouldThrottle` -/

theorem HandOver.returns (h : HandOver s) {verdict : ThrottleVerdict}
    (hverdict : s.within = true → verdict.result = true) : HandOver (s.returns verdict) := by
  refine ⟨h.atMostOne, h.ended, h.after, nofun, ?_⟩
  intro r hr hw
  rcases List.mem_append.mp hr with hr | hr
  · exact h.returned r hr hw
  · rw [List.mem_singleton.mp hr] at hw ⊢
    exact hverdict hw

theorem HandOver.later (h : HandOver s) (hcheck : s.check ≠ .general) : s.within = false := by
  cases hw : s.within with
  | false => rfl
  | true => exact absurd (h.general hw).2.1 hcheck

theorem HandOver.goesOn (h : HandOver s) (hw : s.within = false) (check : CheckAt) :
    HandOver { s with check } :=
  ⟨h.atMostOne, h.ended, h.after, fun hw' => absurd (hw.symm.trans hw') Bool.false_ne_true,
    h.returned⟩

theorem HandOver.checkStep (h : HandOver s) : HandOver s.checkStep := by
  unfold Throttler.checkStep
  split
  · next hcheck =>
    dsimp only
    split
    · -- the call returns at its first load
      refine ⟨h.atMostOne, h.ended, h.after, nofun, ?_⟩
      intro r hr hw
      rcases List.mem_append.mp hr with hr | hr
      · exact h.returned r hr hw
      · rw [List.mem_singleton.mp hr]
    · next hhib =>
      obtain ⟨-, -, hperiod⟩ := h.atMostOne.of_le (Int.not_lt.mp hhib)
      refine ⟨h.atMostOne, h.ended, h.after, ?_, h.returned⟩
      intro hw
      have houtside : s.period ≠ .outside := of_decide_eq_true hw
      refine ⟨houtside, rfl, h.ended ?_⟩
      cases hp : s.period with
      | outside => exact absurd hp houtside
      | hibernating => exact absurd hp hperiod
      | ended => rfl
  · next hcheck =>
    split
    · next hstored => exact h.returns fun _ => hstored
    · next hstored =>
      refine h.goesOn ?_ _
      cases hw : s.within with
      | false => rfl
      | true => exact absurd (h.general hw).2.2 hstored
  all_goals
    next hcheck =>
    have hw := h.later (by rw [hcheck]; exact nofun)
    have hreturns : ∀ verdict, HandOver (s.returns verdict) := fun verdict =>
      h.returns fun hw' => absurd (hw.symm.trans hw') Bool.false_ne_true
    first
    | exact hreturns _
    | exact h.goesOn hw _
    | split
      · exact hreturns _
      · exact h.goesOn hw _
    | split
      · exact h.goesOn hw _
      · exact hreturns _

theorem HandOver.step {a : ThrottlerAction} (h : HandOver s) (hok : s.Lasts a)
    (hs : s.step a = some s') : HandOver s' := by
  cases a with
  | command c => exact Option.some.inj hs ▸ h.congr (sameHibernation_command s c)
  | general a => exact h.generalStep hok hs
  | wake i => exact h.wake hs
  | http a => exact h.congr (sameHibernation_http hs)
  | replicas a => exact h.congr (sameHibernation_replicas hs)
  | check => exact Option.some.inj hs ▸ h.checkStep
  | setCurrentLag lag =>
    cases hs
    exact h.congr ⟨rfl, rfl, rfl, rfl, rfl, rfl, rfl, rfl, rfl⟩
  | setLockFlag flag =>
    cases hs
    exact h.congr ⟨rfl, rfl, rfl, rfl, rfl, rfl, rfl, rfl, rfl⟩

/-- **Hibernation has no gap.** When no hibernation ends beyond 64 bits, there is at most one, and
every call of `shouldThrottle` within one period has returned true. -/
theorem hibernation_has_no_gap {flags : ThrottleContext}
    (h : Reach Throttler.step Lasts (initThrottler flags) s) :
    s.sleepers.length ≤ 1 ∧ ∀ r ∈ s.returned, r.within = true → r.verdict.result = true := by
  have hinv : HandOver s :=
    h.invariant (HandOver.init flags) fun _ _ _ hs hok hstep => hs.step hok hstep
  refine ⟨?_, hinv.returned⟩
  rcases hinv.atMostOne with ⟨hnone, -⟩ | ⟨place, hone, -⟩
  · rw [hnone]
    exact Nat.zero_le 1
  · rw [hone]
    exact le_refl 1

/-- The critical load is met, and a hibernation begins at `now`. -/
def hibernates (now : Int) : List ThrottlerAction :=
  [.general .start, .general (.panicFile false), .general .read,
    .general (.load (.met "Threads_running" 150 100)), .general (.hibernate now)]

theorem hibernation_has_no_gap_small :
    let flags : ThrottleContext :=
      { criticalLoad := [("Threads_running", 100)], criticalLoadHibernateSeconds := 10 }
    ∃ s, Reach Throttler.step Lasts (initThrottler flags) s ∧
      s.returned.map (fun r => (r.within, r.verdict.reason)) =
        [(true, .hibernate 10000000005), (true, .general .leavingHibernation)] ∧
      s.sleepers.length ≤ 1 ∧ ∀ r ∈ s.returned, r.within = true → r.verdict.result = true := by
  intro flags
  exact exists_reach_of
    (fun s => s.returned.map (fun r => (r.within, r.verdict.reason)) =
      [(true, .hibernate 10000000005), (true, .general .leavingHibernation)])
    (hibernates 5 ++ [.check, .wake 0, .general .start, .wake 0, .check, .general .start, .check])
    (by decide) fun s hr hs => ⟨hs, hibernation_has_no_gap hr⟩

/-- **A hibernation of 8000000000 seconds goes unnoticed**: its end is stored as a negative number,
calls of `shouldThrottle` return false, and the next general check starts another hibernation. -/
theorem long_hibernation_unnoticed :
    let flags : ThrottleContext :=
      { criticalLoad := [("Threads_running", 100)], criticalLoadHibernateSeconds := 8000000000 }
    ∃ s, Reachable Throttler.step (initThrottler flags) s ∧
      s.returned.map (fun r => (r.within, r.verdict.result)) = [(true, false)] ∧
      s.sleepers.length = 2 := by
  intro flags
  exact exists_reach
    (hibernates 1700000000000000000 ++ List.replicate 7 .check ++ hibernates 1700000001000000000)
    (by decide)

end Throttler

end GhOst.Logic
