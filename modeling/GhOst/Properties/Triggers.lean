import GhOst.Properties.Attempts
import GhOst.Properties.TwoStep

/-!
# Triggers that a failed cut-over leaves on the ghost table

`DropTriggersFromGhost` has no caller. What `CreateTriggersOnGhost` has created when a cut-over
fails stays on the ghost table, and makes the next `CreateTriggersOnGhost` fail. So a cut-over may
only fail before its first trigger is created (`FailsUntriggered`).
-/

namespace GhOst.Logic

open Infra

/-- The first `k` of the copied triggers, under their names on the ghost table. -/
def CutOverContext.ghostTriggerNames (ctx : CutOverContext) (k : Nat) : List String :=
  (ctx.triggers.take k).map ctx.getGhostTriggerName

theorem CutOverContext.ghostTriggerNames_succ {ctx : CutOverContext} {k : Nat} {trigger : String}
    (h : ctx.triggers[k]? = some trigger) :
    ctx.ghostTriggerNames (k + 1) =
      ctx.ghostTriggerNames k ++ [ctx.getGhostTriggerName trigger] := by
  simp [ghostTriggerNames, List.take_add_one, h]

/-- `CreateTriggersOnGhost` is running. -/
def AttemptAt.creating : AttemptAt → Bool
  | .createTriggers _ => true
  | _ => false

def TwoStepAt.creating : TwoStepAt → Bool
  | .createTriggers _ _ => true
  | _ => false

/-! ## The atomic cut-over -/

namespace CutOvers

variable {ctx : CutOverContext} {s s' : CutOvers} {i : Nat} {outcome : MainOutcome}
variable {a : Attempt} {t : CutOvers}

/-- The ghost table has no copied triggers but those of the attempt that is creating them. -/
def NoTriggerLeft (ctx : CutOverContext) (s : CutOvers) : Prop :=
  match (s.attempts s.current).main with
  | .tableLocked | .lockOriginalSessionId | .waitForEventsUpToLock => s.ghostTriggers = []
  | .createTriggers k => s.ghostTriggers = ctx.ghostTriggerNames k
  | .returned => (s.attempts s.current).result = some true → s.ghostTriggers = []
  | _ => True

/-- The step makes `atomicCutOver` return an error. -/
def exits (ctx : CutOverContext) (s : CutOvers) (outcome : MainOutcome) : Bool :=
  (s.mainStep ctx outcome).any fun s' => (s'.attempts s.current).main = .returning true

/-- An attempt fails only before its first trigger is created. -/
def FailsUntriggered (ctx : CutOverContext) (s : CutOvers) : CutOversAction → Prop
  | .main outcome =>
    s.exits ctx outcome = true →
      (s.attempts s.current).created = 0 ∧
        ((s.attempts s.current).main.creating = true → outcome ≠ .lost)
  | _ => True

instance (s : CutOvers) : ∀ a : CutOversAction, Decidable (s.FailsUntriggered ctx a)
  | .main outcome => inferInstanceAs (Decidable (s.exits ctx outcome = true → _ ∧ _))
  | .lock _ _ | .rename _ _ | .retry | .executeRename _ | .endRename _ | .endLockSession _
  | .disconnectLock _ | .disconnectRename _ => .isTrue trivial

def Created (a : Attempt) : Prop :=
  match a.main with
  | .tableLocked | .lockOriginalSessionId | .waitForEventsUpToLock | .returning true =>
    a.created = 0
  | .createTriggers k => a.created = k
  | .returned => a.result = some true → a.created = 0
  | _ => True

theorem mainStep_created (hc : (s.attempts s.current).main.creating = false)
    (h : s.mainStep ctx outcome = some s') :
    ∃ a, s' = s.setAttempt s.current a ∧ a.created = (s.attempts s.current).created ∧
      (Created (s.attempts s.current) →
        (a.main = .returning true → (s.attempts s.current).created = 0) → Created a) := by
  unfold mainStep at h
  cases hm : (s.attempts s.current).main <;> simp only [hm] at h
  case tableLocked =>
    split at h
    · simp at h
    · next err rest _ =>
      refine ⟨_, (Option.some.inj h).symm, rfl, fun hcreated _ => ?_⟩
      cases err <;> simpa [Created, hm] using hcreated
  case lockOriginalSessionId =>
    split at h
    · simp at h
    · refine ⟨_, (Option.some.inj h).symm, rfl, fun hcreated _ => ?_⟩
      simpa [Created, hm] using hcreated
  case waitForEventsUpToLock =>
    split at h <;> refine ⟨_, (Option.some.inj h).symm, rfl, fun hcreated _ => ?_⟩ <;>
      simpa [Created, hm] using hcreated
  case createTriggers => simp [hm, AttemptAt.creating] at hc
  case startRename => exact ⟨_, (Option.some.inj h).symm, rfl, fun _ _ => trivial⟩
  case renameSessionId =>
    split at h
    · simp at h
    · exact ⟨_, (Option.some.inj h).symm, rfl, fun _ _ => trivial⟩
  case waitForRename =>
    split at h
    · split at h
      · exact ⟨_, (Option.some.inj h).symm, rfl, fun _ hexit => hexit rfl⟩
      · obtain ⟨-, rfl⟩ := of_guard h
        exact ⟨_, rfl, rfl, fun _ _ => trivial⟩
      · split at h
        · simp at h
        · exact ⟨_, (Option.some.inj h).symm, rfl, fun _ _ => trivial⟩
    · split at h
      · exact ⟨_, (Option.some.inj h).symm, rfl, fun _ _ => trivial⟩
      · exact ⟨_, (Option.some.inj h).symm, rfl, fun _ hexit => hexit rfl⟩
  case expectUsedLock =>
    split at h
    · obtain ⟨-, rfl⟩ := of_guard h
      exact ⟨_, rfl, rfl, fun _ _ => trivial⟩
    · exact ⟨_, (Option.some.inj h).symm, rfl, fun _ hexit => hexit rfl⟩
  case okToUnlockTable => exact ⟨_, (Option.some.inj h).symm, rfl, fun _ _ => trivial⟩
  case tableUnlocked =>
    split at h
    · simp at h
    · next err rest _ =>
      refine ⟨_, (Option.some.inj h).symm, rfl, fun _ hexit => ?_⟩
      cases err with
      | true => exact hexit rfl
      | false => trivial
  case tablesRenamed =>
    split at h
    · simp at h
    · next err rest _ =>
      refine ⟨_, (Option.some.inj h).symm, rfl, fun _ hexit => ?_⟩
      cases err with
      | true => exact hexit rfl
      | false => trivial
  case returning err =>
    refine ⟨_, (Option.some.inj h).symm, rfl, fun hcreated _ => ?_⟩
    cases err with
    | true => simpa [Created, hm] using hcreated
    | false => simp [Created]
  case returned => simp at h

theorem createTrigger_cases {k : Nat} (h : s.createTrigger ctx k outcome = some s') :
    (∃ a trigger, ctx.triggers[k]? = some trigger ∧
      s' = (s.withTriggers (s.ghostTriggers ++ [ctx.getGhostTriggerName trigger])).setAttempt
        s.current a ∧ a.main = .createTriggers (k + 1) ∧
      a.created = (s.attempts s.current).created + 1) ∨
    (∃ a, s' = s.setAttempt s.current a ∧ a.main = .startRename ∧
      a.created = (s.attempts s.current).created) ∨
    (∃ g a, s' = (s.withTriggers g).setAttempt s.current a ∧ a.main = .returning true ∧
      (outcome ≠ .lost → g = s.ghostTriggers ∧ a.created = (s.attempts s.current).created)) := by
  unfold createTrigger at h
  split at h
  · exact .inr (.inl ⟨_, (Option.some.inj h).symm, rfl, rfl⟩)
  · next trigger ht =>
    have ht : ctx.triggers[k]? = some trigger := by
      split at ht
      · exact ht
      · simp at ht
    dsimp only at h
    split at h
    · split at h
      · exact .inl ⟨_, trigger, ht, (Option.some.inj h).symm, rfl, rfl⟩
      · exact .inr (.inr ⟨_, _, (Option.some.inj h).symm, rfl, fun hlost => absurd rfl hlost⟩)
      · exact .inr (.inr ⟨s.ghostTriggers, _, (Option.some.inj h).symm, rfl, fun _ => ⟨rfl, rfl⟩⟩)
    · exact .inr (.inr ⟨s.ghostTriggers, _, (Option.some.inj h).symm, rfl, fun _ => ⟨rfl, rfl⟩⟩)

/-- The triggers on the ghost table are those that the current attempt has created. -/
structure Triggered (ctx : CutOverContext) (s : CutOvers) : Prop where
  fresh : ∀ j, s.current < j → (s.attempts j).main = .tableLocked ∧ (s.attempts j).created = 0
  running : ∀ j, (s.attempts j).main ≠ .returned → (s.attempts j).result = none
  triggers : s.ghostTriggers = ctx.ghostTriggerNames (s.attempts s.current).created
  created : Created (s.attempts s.current)

/-- What an attempt has done about the triggers is unchanged. -/
structure SameTriggers (a a' : Attempt) : Prop where
  main : a'.main = a.main
  created : a'.created = a.created
  result : a'.result = a.result

theorem Triggered.of_frame (h : s.Triggered ctx) (hg : s'.ghostTriggers = s.ghostTriggers)
    (hcurrent : s'.current = s.current)
    (hsame : ∀ j, SameTriggers (s.attempts j) (s'.attempts j)) : s'.Triggered ctx where
  fresh j hj := by
    rw [(hsame j).main, (hsame j).created]
    exact h.fresh j (hcurrent ▸ hj)
  running j hm := by
    rw [(hsame j).result]
    exact h.running j ((hsame j).main ▸ hm)
  triggers := by
    rw [hg, hcurrent, (hsame _).created]
    exact h.triggers
  created := by
    have hcreated := h.created
    unfold Created at hcreated ⊢
    rw [hcurrent, (hsame _).main, (hsame _).created, (hsame _).result]
    exact hcreated

theorem Triggered.setAttempt (h : s.Triggered ctx) (ha : SameTriggers (s.attempts i) a) :
    (s.setAttempt i a).Triggered ctx :=
  h.of_frame rfl rfl (forall_setAttempt (P := fun j b => SameTriggers (s.attempts j) b)
    (fun _ => ⟨rfl, rfl, rfl⟩) ha)

theorem Triggered.ofMain (h : s.Triggered ctx) {g : List String}
    (hrunning : a.main ≠ .returned → a.result = none) (hg : g = ctx.ghostTriggerNames a.created)
    (ha : Created a) :
    ((s.withTriggers g).setAttempt s.current a).Triggered ctx where
  fresh j hj := by
    have hj : s.current < j := hj
    rw [setAttempt_of_ne _ a (by omega)]
    exact h.fresh j hj
  running := forall_setAttempt (P := fun _ b => b.main ≠ .returned → b.result = none) h.running
    hrunning
  triggers := by
    rw [show ((s.withTriggers g).setAttempt s.current a).current = s.current from rfl,
      setAttempt_self]
    exact hg
  created := by
    rw [show ((s.withTriggers g).setAttempt s.current a).current = s.current from rfl,
      setAttempt_self]
    exact ha

theorem mainStep_running
    (h : (s.attempts s.current).main ≠ .returned → (s.attempts s.current).result = none)
    (hs : s.mainStep ctx outcome = some (t.setAttempt s.current a)) :
    a.main ≠ .returned → a.result = none := by
  obtain ⟨g, a', heq, hmove⟩ := mainStep_eq hs
  obtain rfl : a = a' := by
    have hat := congrArg (fun t => t.attempts s.current) heq
    simpa using hat
  intro hm
  cases hmove with
  | forward frame hended =>
    rw [frame]
    refine h fun hm' => ?_
    simp [hm', AttemptAt.ended] at hended
  | startRename hm' => exact h (by simp [hm'])
  | fails frame hat =>
    rw [frame]
    refine h fun hm' => ?_
    simp [hm', AttemptAt.beforeRename, AttemptAt.awaitsNothing] at hat
  | tablesRenamed _ _ hm' => exact h (by simp [hm'])
  | returned => simp at hm

theorem exits_of_main (hs : s.mainStep ctx outcome = some (t.setAttempt s.current a))
    (ha : a.main = .returning true) : s.exits ctx outcome = true := by
  simp [exits, hs, ha]

theorem Triggered.mainStep (h : s.Triggered ctx) (hok : s.FailsUntriggered ctx (.main outcome))
    (hs : s.mainStep ctx outcome = some s') : s'.Triggered ctx := by
  have hcreated := h.created
  by_cases hc : (s.attempts s.current).main.creating = true
  · cases hm : (s.attempts s.current).main <;> simp [hm, AttemptAt.creating] at hc
    next k =>
    have hk : (s.attempts s.current).created = k := by simpa [Created, hm] using hcreated
    have hcreate : s.createTrigger ctx k outcome = some s' := by
      simpa [CutOvers.mainStep, hm] using hs
    obtain ⟨a, trigger, ht, rfl, ha, hone⟩ | ⟨a, rfl, ha, hsame⟩ | ⟨g, a, rfl, ha, hfails⟩ :=
      createTrigger_cases hcreate
    · refine h.ofMain (mainStep_running (h.running _) hs) ?_ ?_
      · rw [hone, hk, CutOverContext.ghostTriggerNames_succ ht, h.triggers, hk]
      · simp [Created, ha, hone, hk]
    · exact h.ofMain (mainStep_running (h.running _) hs) (by rw [hsame]; exact h.triggers)
        (by simp [Created, ha])
    · obtain ⟨hnone, hlost⟩ := hok (exits_of_main hs ha)
      obtain ⟨rfl, hsame⟩ := hfails (hlost (by rw [hm]; rfl))
      exact h.ofMain (mainStep_running (h.running _) hs) (by rw [hsame]; exact h.triggers)
        (by simp [Created, ha, hsame, hnone])
  · obtain ⟨a, rfl, hsame, hnext⟩ := mainStep_created (Bool.eq_false_iff.2 hc) hs
    have ha : Created a := hnext hcreated fun ha => (hok (exits_of_main hs ha)).1
    exact h.ofMain (mainStep_running (h.running _) hs) (by rw [hsame]; exact h.triggers) ha

theorem Triggered.retry (h : s.Triggered ctx) (hs : s.retry = some s') : s'.Triggered ctx := by
  obtain ⟨hr, rfl⟩ := retry_eq hs
  obtain ⟨hm, hcreated⟩ := h.fresh (s.current + 1) (by omega)
  have hreturned : (s.attempts s.current).main = .returned := by
    by_contra hm'
    simp [h.running _ hm'] at hr
  have hnone : (s.attempts s.current).created = 0 := by
    have hc := h.created
    simp only [Created, hreturned] at hc
    exact hc hr
  refine ⟨fun j hj => ?_, h.running, ?_, ?_⟩
  · have hj : s.current + 1 < j := hj
    exact h.fresh j (by omega)
  · rw [h.triggers, hnone, hcreated]
  · simp [Created, hm, hcreated]

theorem LockEffect.sameTriggers (h : LockEffect s i a t) :
    t.ghostTriggers = s.ghostTriggers ∧ t.current = s.current ∧ t.attempts = s.attempts := by
  cases h <;> exact ⟨rfl, rfl, rfl⟩

theorem Triggered.step {a : CutOversAction} (h : s.Triggered ctx) (hok : s.FailsUntriggered ctx a)
    (hs : s.step ctx a = some s') : s'.Triggered ctx := by
  cases a with
  | lock i outcome =>
    simp only [CutOvers.step] at hs
    split at hs
    · obtain ⟨t, a, rfl, hl, heffect⟩ := lockStep_eq hs
      obtain ⟨hg, hcurrent, hattempts⟩ := heffect.sameTriggers
      have ht : t.Triggered ctx := h.of_frame hg hcurrent fun j => by
        rw [hattempts]
        exact ⟨rfl, rfl, rfl⟩
      refine ht.setAttempt ?_
      rw [hattempts]
      rw [hl]
      exact ⟨rfl, rfl, rfl⟩
    · simp at hs
  | rename i outcome =>
    obtain ⟨a, rfl, hmove⟩ := renameStep_eq hs
    refine h.setAttempt ?_
    cases hmove <;> exact ⟨rfl, rfl, rfl⟩
  | main outcome => exact h.mainStep hok hs
  | retry => exact h.retry hs
  | executeRename i =>
    obtain ⟨-, -, ⟨first, second, -, rfl⟩ | rfl⟩ := executeRename_eq hs
    · have ht : (s.swap first second).Triggered ctx :=
        h.of_frame rfl rfl fun _ => ⟨rfl, rfl, rfl⟩
      exact ht.setAttempt ⟨rfl, rfl, rfl⟩
    · exact h.setAttempt ⟨rfl, rfl, rfl⟩
  | endRename i =>
    obtain ⟨-, rfl⟩ := endRename_eq hs
    exact h.setAttempt ⟨rfl, rfl, rfl⟩
  | endLockSession i =>
    obtain ⟨-, rfl⟩ := of_guard hs
    have ht : (s.unlock i).Triggered ctx := h.of_frame rfl rfl fun _ => ⟨rfl, rfl, rfl⟩
    exact ht.setAttempt ⟨rfl, rfl, rfl⟩
  | disconnectLock i =>
    obtain ⟨-, rfl⟩ := of_guard hs
    exact h.setAttempt ⟨rfl, rfl, rfl⟩
  | disconnectRename i =>
    obtain ⟨-, rfl⟩ := of_guard hs
    exact h.setAttempt ⟨rfl, rfl, rfl⟩

theorem Triggered.init {old : Option Table} : Triggered ctx { names := { old } } where
  fresh _ _ := ⟨rfl, rfl⟩
  running _ _ := rfl
  triggers := rfl
  created := rfl

theorem Triggered.noTriggerLeft (h : s.Triggered ctx) : s.NoTriggerLeft ctx := by
  have hcreated := h.created
  have htriggers := h.triggers
  unfold NoTriggerLeft
  split
  · next hm =>
    simp only [Created, hm] at hcreated
    rw [htriggers, hcreated]
    rfl
  · next hm =>
    simp only [Created, hm] at hcreated
    rw [htriggers, hcreated]
    rfl
  · next hm =>
    simp only [Created, hm] at hcreated
    rw [htriggers, hcreated]
    rfl
  · next k hm =>
    simp only [Created, hm] at hcreated
    rw [htriggers, hcreated]
  · next hm =>
    intro hr
    simp only [Created, hm] at hcreated
    rw [htriggers, hcreated hr]
    rfl
  · trivial

end CutOvers

/-! ## The two-step cut-over -/

namespace TwoStep

open CutOvers (MainOutcome)

variable {ctx : CutOverContext} {s s' t : TwoStep} {outcome : MainOutcome}

/-- The ghost table has no copied triggers but those of the cut-over that is creating them. -/
def NoTriggerLeft (ctx : CutOverContext) (s : TwoStep) : Prop :=
  match s.main with
  | .lockOriginalTable _ | .waitForEventsUpToLock _ => s.ghostTriggers = []
  | .createTriggers 0 k => s.ghostTriggers = ctx.ghostTriggerNames k
  | .returned => s.result = some true → s.ghostTriggers = []
  | _ => True

/-- The cut-over fails only before its first trigger is created. -/
def FailsUntriggered (ctx : CutOverContext) (s : TwoStep) : TwoStepAction → Prop
  | .main outcome =>
    s.exits ctx outcome = true →
      s.created = 0 ∧ (s.main.creating = true → outcome ≠ .lost)
  | _ => True

instance (s : TwoStep) : ∀ a : TwoStepAction, Decidable (s.FailsUntriggered ctx a)
  | .main outcome => inferInstanceAs (Decidable (s.exits ctx outcome = true → _ ∧ _))
  | .abort | .resume | .endSession => .isTrue trivial

structure Triggered (ctx : CutOverContext) (s : TwoStep) : Prop where
  running : s.main ≠ .returned → s.result = none
  created : s.ghostTriggers.length = s.created
  left : s.NoTriggerLeft ctx

theorem Effect.triggers (he : Effect outcome s t) (h : s.ghostTriggers.length = s.created) :
    t.result = s.result ∧ t.ghostTriggers.length = t.created ∧
      (t.ghostTriggers = s.ghostTriggers ∨ s.main.creating = true ∧ outcome = .lost) := by
  cases he with
  | nothing => exact ⟨rfl, h, .inl rfl⟩
  | lock => exact ⟨rfl, h, .inl rfl⟩
  | unlock => exact ⟨rfl, h, .inl rfl⟩
  | addTrigger hlost hm name =>
    refine ⟨rfl, ?_, .inr ⟨by rw [hm]; rfl, hlost⟩⟩
    simp [TwoStep.addTrigger, h]
  | renameOriginal => exact ⟨rfl, h, .inl rfl⟩
  | renameGhost => exact ⟨rfl, h, .inl rfl⟩

theorem Triggered.exit (h : s.Triggered ctx) (hok : s.FailsUntriggered ctx (.main outcome))
    (he : Effect outcome s t) (hs : s.mainStep ctx outcome = some t.aborts) :
    t.aborts.Triggered ctx := by
  obtain ⟨-, hcreated, hsame⟩ := he.triggers h.created
  obtain ⟨hnone, hlost⟩ := hok (by simp [exits, hs, aborts])
  have hempty : t.ghostTriggers = [] := by
    rcases hsame with hsame | ⟨hm, hl⟩
    · rw [hsame]
      exact List.eq_nil_of_length_eq_zero (h.created.trans hnone)
    · exact absurd hl (hlost hm)
  exact ⟨fun hm => absurd rfl hm, hcreated, fun _ => hempty⟩

theorem Triggered.fails {n : Nat} {again : Nat → TwoStepAt} (h : s.Triggered ctx)
    (hok : s.FailsUntriggered ctx (.main outcome)) (he : Effect outcome s t)
    (hr : Retries s.main n again) (hs : s.mainStep ctx outcome = some (t.fails ctx n again)) :
    (t.fails ctx n again).Triggered ctx := by
  rcases @fails_cases ctx t n again with hagain | hexit
  · rw [hagain]
    obtain ⟨hresult, hcreated, hsame⟩ := he.triggers h.created
    refine ⟨fun _ => hresult.trans (h.running hr.ne_returned.1), hcreated, ?_⟩
    have hleft := h.left
    generalize hm : s.main = p at hr hleft
    cases hr <;> simp_all [NoTriggerLeft, TwoStepAt.creating]
  · rw [hexit] at hs ⊢
    exact h.exit hok he hs

theorem Triggered.mainStep (h : s.Triggered ctx) (hok : s.FailsUntriggered ctx (.main outcome))
    (hs : s.mainStep ctx outcome = some s') : s'.Triggered ctx := by
  have hleft := h.left
  cases mainStep_eq hs with
  | lock hm _ =>
    simp only [NoTriggerLeft, hm] at hleft
    exact ⟨fun _ => h.running (by simp [hm]), h.created, hleft⟩
  | wait hm =>
    simp only [NoTriggerLeft, hm] at hleft
    exact ⟨fun _ => h.running (by simp [hm]), h.created, hleft⟩
  | @create n k hm trigger ht =>
    refine ⟨fun _ => h.running (by simp [hm]), by simp [addTrigger, h.created], ?_⟩
    cases n with
    | zero =>
      simp only [NoTriggerLeft, hm] at hleft
      have ht : ctx.triggers[k]? = some trigger := by
        unfold triggerAt at ht
        split at ht
        · exact ht
        · simp at ht
      simp [NoTriggerLeft, addTrigger, hleft, CutOverContext.ghostTriggerNames_succ ht]
    | succ n => trivial
  | created hm => exact ⟨fun _ => h.running (by simp [hm]), h.created, trivial⟩
  | renameOriginal hm => exact ⟨fun _ => h.running (by simp [hm]), h.created, trivial⟩
  | renameGhost hm => exact ⟨fun _ => h.running (by simp [hm]), h.created, trivial⟩
  | unlock => exact ⟨fun hm => absurd rfl hm, h.created, fun hr => by simp at hr⟩
  | fails he hr => exact h.fails hok he hr hs
  | aborts => exact h.exit hok .nothing hs

theorem Triggered.step {a : TwoStepAction} (h : s.Triggered ctx) (hok : s.FailsUntriggered ctx a)
    (hs : s.step ctx a = some s') : s'.Triggered ctx := by
  cases a with
  | main outcome => exact h.mainStep hok hs
  | resume =>
    obtain ⟨hr, rfl⟩ := resume_eq hs
    have hreturned : s.main = .returned := by
      by_contra hm
      simp [h.running hm] at hr
    have hleft := h.left
    simp only [NoTriggerLeft, hreturned] at hleft
    have hempty := hleft hr
    exact ⟨fun _ => rfl, by simp [hempty], hempty⟩
  | abort | endSession =>
    cases hs
    exact ⟨h.running, h.created, h.left⟩

end TwoStep

/-- **If every cut-over fails only before its first trigger is created, then no failed cut-over
leaves a trigger on the ghost table**, and `CreateTriggersOnGhost` finds none but its own. -/
theorem no_trigger_left (ctx : CutOverContext) (old : Option Table) :
    (∀ s, Reach (CutOvers.step ctx) (CutOvers.FailsUntriggered ctx) { names := { old } } s →
      s.NoTriggerLeft ctx) ∧
    ∀ s, Reach (TwoStep.step ctx) (TwoStep.FailsUntriggered ctx) {} s →
      s.NoTriggerLeft ctx := by
  constructor
  · intro s hr
    have h : s.Triggered ctx := hr.invariant .init fun _ _ _ h hok hs => h.step hok hs
    exact h.noTriggerLeft
  · intro s hr
    have h : s.Triggered ctx :=
      hr.invariant ⟨fun _ => rfl, rfl, rfl⟩ fun _ _ _ h hok hs => h.step hok hs
    exact h.left

def twoTriggers : CutOverContext :=
  { maxRetries := 1, includeTriggers := true, triggers := ["t", "u"] }

/-- The second trigger cannot be created, and the first one stays when the attempt is over. -/
theorem failed_attempt_leaves_trigger : ∃ s,
    Reachable (CutOvers.step twoTriggers) {} s ∧
      (s.attempts 0).result = some true ∧ s.current = 0 ∧ s.lockedBy = none ∧
      s.ghostTriggers = ["t"] := by
  exact exists_reach
    [List.replicate 8 (.lock 0 .ok),
      [.main .ok, .main .ok, .main .ok, .main .ok, .main .err, .main .ok],
      List.replicate 4 (.lock 0 .ok)].flatten (by decide +kernel)

/-- The first cut-over does not get the lock, and the second one has created a trigger. -/
theorem no_trigger_left_small :
    (∃ s, Reach (CutOvers.step twoTriggers) (CutOvers.FailsUntriggered twoTriggers) {} s ∧
      (s.attempts 1).main = .createTriggers 1 ∧
      s.NoTriggerLeft twoTriggers) ∧
    ∃ s, Reach (TwoStep.step twoTriggers) (TwoStep.FailsUntriggered twoTriggers) {} s ∧
      s.main = .createTriggers 0 1 ∧
      s.NoTriggerLeft twoTriggers := by
  constructor
  · exact exists_reach_of (fun s => (s.attempts 1).main = .createTriggers 1)
      [[.lock 0 .err, .main .ok, .main .ok, .retry], List.replicate 8 (.lock 1 .ok),
        List.replicate 4 (.main .ok)].flatten (by decide +kernel)
      fun s hr hm => ⟨hm, (no_trigger_left _ none).1 s hr⟩
  · exact exists_reach_of (fun s => s.main = .createTriggers 0 1)
      [.main .err, .resume, .main .ok, .main .ok, .main .ok] (by decide +kernel)
      fun s hr hm => ⟨hm, (no_trigger_left _ none).2 s hr⟩

end GhOst.Logic
