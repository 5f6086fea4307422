import GhOst.Infra.Steps
import GhOst.Logic.Attempts

/-!
# What the attempts of the cut-over do to the tables

The locking goroutine drops whatever bears the name of the old table, and trusts that this is a
sentry table: it has seen or created one, or holds the lock under which one was. Only a `RENAME` can
make this wrong, and nothing orders the `RENAME` of one attempt after the clean-up of another
(`SentryUnmoved`).
-/

namespace GhOst.Logic

open Infra

/-- The goroutine takes the old table for a sentry table, because it has seen or created one. -/
def SentryLockAt.trusts : SentryLockAt → Bool
  | .dropLeftover | .waitTimeout | .lockTables | .dropSentry => true
  | _ => false

namespace AttemptAt

def beforeRename : AttemptAt → Bool
  | .tableLocked | .lockOriginalSessionId | .waitForEventsUpToLock | .createTriggers _
  | .startRename => true
  | _ => false

/-- An error is returned from here without waiting for the end of the `RENAME`. -/
def awaitsNothing : AttemptAt → Bool
  | .waitForRename _ | .expectUsedLock | .tableUnlocked => true
  | _ => false

def ended : AttemptAt → Bool
  | .returning _ | .returned => true
  | _ => false

end AttemptAt

namespace CutOvers

variable {ctx : CutOverContext} {s s' : CutOvers} {i : Nat}
variable {a : Attempt} {outcome : CallOutcome}

@[simp] theorem setAttempt_self (s : CutOvers) (i : Nat) (a : Attempt) :
    (s.setAttempt i a).attempts i = a :=
  Function.update_self ..

theorem setAttempt_of_ne (s : CutOvers) {i j : Nat} (a : Attempt) (h : j ≠ i) :
    (s.setAttempt i a).attempts j = s.attempts j :=
  Function.update_of_ne h ..

theorem forall_setAttempt {P : Nat → Attempt → Prop} (hs : ∀ j, P j (s.attempts j)) (ha : P i a) :
    ∀ j, P j ((s.setAttempt i a).attempts j) := by
  intro j
  by_cases h : j = i
  · rw [h, setAttempt_self]
    exact ha
  · rw [setAttempt_of_ne s a h]
    exact hs j

/-! ## What each step does -/

/-- A step of the locking goroutine leaves the main and the renaming goroutine alone. -/
def LockOnly (a a' : Attempt) : Prop :=
  a' = { a with
    lock := a'.lock, okToUnlockTable := a'.okToUnlockTable
    lockOriginalSessionIdChan := a'.lockOriginalSessionIdChan, tableLocked := a'.tableLocked
    tableUnlocked := a'.tableUnlocked, lockConnected := a'.lockConnected
    lockSession := a'.lockSession }

inductive LockEffect (s : CutOvers) (i : Nat) (a : Attempt) : CutOvers → Prop where
  | nothing (h : a.lock.trusts = true → (s.attempts i).lock.trusts = true ∨
      s.names.old = some .sentry) : LockEffect s i a s
  | dropOld (h : (s.attempts i).lock.trusts = true ∨ s.lockedBy = some i)
      (h' : a.lock.trusts = false) : LockEffect s i a s.dropOld
  | createSentry (h : s.names.old = none) : LockEffect s i a s.createSentry
  | lock (h : s.lockedBy = none) (h' : (s.attempts i).lock = .lockTables)
      (h'' : a.lock.trusts = false) : LockEffect s i a (s.lock i)
  | unlock (h : a.lock.trusts = false) : LockEffect s i a (s.unlock i)

theorem lockCall_lock {next : SentryLockAt} :
    LockOnly a (a.lockCall outcome next) ∧
      ((a.lockCall outcome next).lock = next ∨ (a.lockCall outcome next).lock = .returning) := by
  unfold Attempt.lockCall
  split
  · exact ⟨rfl, .inl rfl⟩
  · exact ⟨rfl, .inr rfl⟩

theorem lockStep_eq (h : s.lockStep i outcome = some s') :
    ∃ t a, s' = t.setAttempt i a ∧ LockOnly (s.attempts i) a ∧ LockEffect s i a t := by
  have hfails : LockEffect s i (s.attempts i).lockFails s :=
    .nothing fun hno => by simp [Attempt.lockFails, SentryLockAt.trusts] at hno
  have hframe : ∀ {a : Attempt}, some (s.setAttempt i a) = some s' → LockOnly (s.attempts i) a →
      a.lock.trusts = false → ∃ t a, s' = t.setAttempt i a ∧ LockOnly (s.attempts i) a ∧
        LockEffect s i a t := fun heq hl hno =>
    ⟨s, _, (Option.some.inj heq).symm, hl, .nothing fun ht => by simp [hno] at ht⟩
  unfold lockStep at h
  cases hlock : (s.attempts i).lock <;> simp only [hlock] at h
  case «begin» =>
    split at h
    · exact hframe h rfl rfl
    · exact hframe h rfl rfl
  case connectionId =>
    refine ⟨s, _, (Option.some.inj h).symm, ?_, ?_⟩
    · split <;> rfl
    · split
      · exact .nothing fun hno => by simp [SentryLockAt.trusts] at hno
      · exact hfails
  case getLock =>
    obtain ⟨hl, hn | hn⟩ := @lockCall_lock (s.attempts i) outcome .lockWaitTimeout
    · exact hframe h hl (by rw [hn]; rfl)
    · exact hframe h hl (by rw [hn]; rfl)
  case lockWaitTimeout =>
    obtain ⟨hl, hn | hn⟩ := @lockCall_lock (s.attempts i) outcome .showLeftover
    · exact hframe h hl (by rw [hn]; rfl)
    · exact hframe h hl (by rw [hn]; rfl)
  case showLeftover =>
    split at h
    · next hold =>
      exact ⟨s, _, (Option.some.inj h).symm, rfl, .nothing fun _ => .inr hold⟩
    · exact ⟨s, _, (Option.some.inj h).symm, rfl, hfails⟩
    · exact hframe h rfl rfl
  case dropLeftover =>
    have htrusts : (s.attempts i).lock.trusts = true := by rw [hlock]; rfl
    split at h
    · obtain ⟨-, rfl⟩ := of_guard h
      refine ⟨s.dropOld, _, rfl, ?_, ?_⟩
      · split <;> rfl
      · split
        · exact .dropOld (.inl htrusts) rfl
        · exact .dropOld (.inl htrusts) rfl
    · exact ⟨s, _, (Option.some.inj h).symm, rfl, hfails⟩
  case createSentryTable =>
    split at h
    · next hg =>
      refine ⟨s.createSentry, _, (Option.some.inj h).symm, ?_, .createSentry hg.2⟩
      split <;> rfl
    · exact ⟨s, _, (Option.some.inj h).symm, rfl, hfails⟩
  case waitTimeout =>
    have htrusts : (s.attempts i).lock.trusts = true := by rw [hlock]; rfl
    obtain ⟨hl, -⟩ := @lockCall_lock (s.attempts i) outcome .lockTables
    exact ⟨s, _, (Option.some.inj h).symm, hl, .nothing fun _ => .inl htrusts⟩
  case lockTables =>
    split at h
    · obtain ⟨hg, rfl⟩ := of_guard h
      refine ⟨s.lock i, _, rfl, ?_, ?_⟩
      · split <;> rfl
      · split
        · exact .lock hg.1 hlock rfl
        · exact .lock hg.1 hlock rfl
    · exact ⟨s, _, (Option.some.inj h).symm, rfl, hfails⟩
  case okToUnlockTable =>
    split at h
    · exact hframe h rfl rfl
    · simp at h
  case dropSentryTable =>
    split at h
    · next hg =>
      exact ⟨s.dropOld, _, (Option.some.inj h).symm, rfl, .dropOld (.inr hg.2.2) rfl⟩
    · exact hframe h rfl rfl
  case expectMetadataLock => exact hframe h rfl rfl
  case unlockTables =>
    split at h
    · exact ⟨s.unlock i, _, (Option.some.inj h).symm, rfl, .unlock rfl⟩
    · exact hframe h rfl rfl
  case returning => exact hframe h rfl rfl
  case showSentry =>
    refine ⟨s, _, (Option.some.inj h).symm, rfl, .nothing fun ht => ?_⟩
    dsimp only at ht
    split at ht
    · next hg => exact .inr hg.2
    · simp [SentryLockAt.trusts] at ht
  case dropSentry =>
    have htrusts : (s.attempts i).lock.trusts = true := by rw [hlock]; rfl
    split at h
    · obtain ⟨-, rfl⟩ := of_guard h
      exact ⟨s.dropOld, _, rfl, rfl, .dropOld (.inl htrusts) rfl⟩
    · exact hframe h rfl rfl
  case returned => simp at h

def MainFrame (a a' : Attempt) : Prop :=
  a' = { a with
    main := a'.main, okToUnlockTable := a'.okToUnlockTable, tableLocked := a'.tableLocked
    lockOriginalSessionIdChan := a'.lockOriginalSessionIdChan, tableUnlocked := a'.tableUnlocked
    renameSessionIdChan := a'.renameSessionIdChan, renameSessionId := a'.renameSessionId
    created := a'.created }

inductive MainMove (a : Attempt) : Attempt → Prop where
  | forward {a' : Attempt} (frame : MainFrame a a') (h : a.main.ended = false)
      (h' : a'.main.ended = false)
      (hb : a'.main.beforeRename = true → a.main.beforeRename = true) : MainMove a a'
  | startRename (h : a.main = .startRename) :
      MainMove a { a with rename := .begin, main := .renameSessionId }
  | fails {a' : Attempt} (frame : MainFrame a a')
      (h : a.main.beforeRename = true ∨ a.main.awaitsNothing = true)
      (h' : a'.main = .returning true) : MainMove a a'
  | tablesRenamed (err : Bool) (rest : List Bool) (h : a.main = .tablesRenamed)
      (h' : a.tablesRenamed = err :: rest) :
      MainMove a { a with tablesRenamed := rest, main := .returning err }
  | returned (err : Bool) (h : a.main = .returning err) :
      MainMove a { a with
        okToUnlockTable := a.okToUnlockTable + 1, result := some err, main := .returned }

def withTriggers (s : CutOvers) (ghostTriggers : List String) : CutOvers := { s with ghostTriggers }

theorem createTrigger_eq {k : Nat} {outcome : MainOutcome}
    (hm : (s.attempts s.current).main = .createTriggers k)
    (h : s.createTrigger ctx k outcome = some s') :
    ∃ g a, s' = (s.withTriggers g).setAttempt s.current a ∧
      MainMove (s.attempts s.current) a := by
  have hb : (s.attempts s.current).main.beforeRename = true := by rw [hm]; rfl
  have hn : (s.attempts s.current).main.ended = false := by rw [hm]; rfl
  unfold createTrigger at h
  split at h
  · exact ⟨s.ghostTriggers, _, (Option.some.inj h).symm, .forward rfl hn rfl fun _ => hb⟩
  · dsimp only at h
    split at h
    · split at h
      · exact ⟨_, _, (Option.some.inj h).symm, .forward rfl hn rfl fun _ => hb⟩
      · exact ⟨_, _, (Option.some.inj h).symm, .fails rfl (.inl hb) rfl⟩
      · exact ⟨s.ghostTriggers, _, (Option.some.inj h).symm, .fails rfl (.inl hb) rfl⟩
    · exact ⟨s.ghostTriggers, _, (Option.some.inj h).symm, .fails rfl (.inl hb) rfl⟩

theorem mainStep_eq {outcome : MainOutcome} (h : s.mainStep ctx outcome = some s') :
    ∃ g a, s' = (s.withTriggers g).setAttempt s.current a ∧
      MainMove (s.attempts s.current) a := by
  -- the place decides which kind of move it is
  have hforward : ∀ {a : Attempt}, some (s.setAttempt s.current a) = some s' →
      MainFrame (s.attempts s.current) a → (s.attempts s.current).main.ended = false →
      a.main.ended = false → (a.main.beforeRename = true →
        (s.attempts s.current).main.beforeRename = true) →
      ∃ g a, s' = (s.withTriggers g).setAttempt s.current a ∧
        MainMove (s.attempts s.current) a :=
    fun heq hf hn hn' hb =>
      ⟨s.ghostTriggers, _, (Option.some.inj heq).symm, .forward hf hn hn' hb⟩
  have hfails : ∀ {a : Attempt}, some (s.setAttempt s.current a) = some s' →
      MainFrame (s.attempts s.current) a → a.main = .returning true →
      ((s.attempts s.current).main.beforeRename = true ∨
        (s.attempts s.current).main.awaitsNothing = true) →
      ∃ g a, s' = (s.withTriggers g).setAttempt s.current a ∧
        MainMove (s.attempts s.current) a :=
    fun heq hf hr hb => ⟨s.ghostTriggers, _, (Option.some.inj heq).symm, .fails hf hb hr⟩
  unfold mainStep at h
  cases hm : (s.attempts s.current).main <;> simp only [hm] at h hforward hfails
  case tableLocked =>
    split at h
    · simp at h
    · next err rest ht =>
      cases err with
      | true => exact hfails h rfl rfl (.inl rfl)
      | false => exact hforward h rfl rfl rfl fun _ => rfl
  case lockOriginalSessionId =>
    split at h
    · simp at h
    · exact hforward h rfl rfl rfl fun _ => rfl
  case waitForEventsUpToLock =>
    split at h
    · exact hforward h rfl rfl rfl fun _ => rfl
    · exact hfails h rfl rfl (.inl rfl)
  case createTriggers k => exact createTrigger_eq hm h
  case startRename => exact ⟨s.ghostTriggers, _, (Option.some.inj h).symm, .startRename hm⟩
  case renameSessionId =>
    split at h
    · simp at h
    · exact hforward h rfl rfl rfl nofun
  case waitForRename n =>
    split at h
    · split at h
      · exact hfails h rfl rfl (.inr rfl)
      · split at h
        · exact hforward h rfl rfl rfl nofun
        · simp at h
      · split at h
        · simp at h
        · exact hforward h rfl rfl rfl nofun
    · split at h
      · exact hforward h rfl rfl rfl nofun
      · exact hfails h rfl rfl (.inr rfl)
  case expectUsedLock =>
    split at h
    · split at h
      · exact hforward h rfl rfl rfl nofun
      · simp at h
    · exact hfails h rfl rfl (.inr rfl)
  case okToUnlockTable => exact hforward h rfl rfl rfl nofun
  case tableUnlocked =>
    split at h
    · simp at h
    · next err rest ht =>
      cases err with
      | true => exact hfails h rfl rfl (.inr rfl)
      | false => exact hforward h rfl rfl rfl nofun
  case tablesRenamed =>
    split at h
    · simp at h
    · next err rest ht =>
      exact ⟨s.ghostTriggers, _, (Option.some.inj h).symm, .tablesRenamed err rest hm ht⟩
  case returning err =>
    exact ⟨s.ghostTriggers, _, (Option.some.inj h).symm, .returned err hm⟩
  case returned => simp at h

inductive RenameMove (outcome : CallOutcome) (a : Attempt) : Attempt → Prop where
  /-- before the `RENAME` is issued -/
  | forward (rename : RenameAt) (ids : List Int)
      (hr : a.rename = .begin ∨ a.rename = .connectionId ∨ a.rename = .lockWaitTimeout)
      (hr' : rename = .connectionId ∨ rename = .lockWaitTimeout ∨ rename = .issue) :
      RenameMove outcome a { a with rename, renameSessionIdChan := ids }
  | issue (h : a.rename = .issue) (h' : outcome ≠ .err) :
      RenameMove outcome a
        { a with rename := .issued, statement := .waiting, renameConnected := outcome == .ok }
  | notIssued (h : a.rename = .issue) :
      RenameMove outcome a { a with rename := .issued, statement := .failed }
  | fails (tablesRenamed sent : List Bool) (ids : List Int)
      (heq : tablesRenamed = a.tablesRenamed ++ sent)
      (hr : a.rename = .begin ∨ a.rename = .connectionId ∨ a.rename = .lockWaitTimeout ∨
        a.rename = .issued ∧ (a.renameConnected = false ∨ a.statement = .failed))
      (ht : ∀ b ∈ sent, b = true) :
      RenameMove outcome a
        { a with
          rename := .returned
          tableRenameKnownToHaveFailed := true
          okToUnlockTable := a.okToUnlockTable + 1
          renameSessionIdChan := ids
          tablesRenamed }
  | succeeds (h : a.rename = .issued) (h' : a.statement = .succeeded) :
      RenameMove outcome a
        { { a with tablesRenamed := a.tablesRenamed ++ [false] }.renameDeferred with
          rename := .returned }

theorem renameStep_eq (h : s.renameStep i outcome = some s') :
    ∃ a, s' = s.setAttempt i a ∧ RenameMove outcome (s.attempts i) a := by
  unfold renameStep at h
  cases hr : (s.attempts i).rename <;> simp only [hr] at h
  case notStarted => simp at h
  case «begin» =>
    refine ⟨_, (Option.some.inj h).symm, ?_⟩
    split
    · exact .forward _ _ (.inl hr) (.inl rfl)
    · exact .fails _ [] _ (List.append_nil _).symm (.inl hr) (by simp)
  case connectionId =>
    refine ⟨_, (Option.some.inj h).symm, ?_⟩
    split
    · exact .forward _ _ (.inr (.inl hr)) (.inr (.inl rfl))
    · exact .fails _ [true] _ rfl (.inr (.inl hr)) (by simp)
  case lockWaitTimeout =>
    refine ⟨_, (Option.some.inj h).symm, ?_⟩
    split
    · exact .forward _ _ (.inr (.inr hr)) (.inr (.inr rfl))
    · exact .fails _ [true] _ rfl (.inr (.inr (.inl hr))) (by simp)
  case issue =>
    refine ⟨_, (Option.some.inj h).symm, ?_⟩
    split
    · next hg =>
      refine .issue hr ?_
      rintro rfl
      simp [CallOutcome.takesEffect] at hg
    · exact .notIssued hr
  case issued =>
    split at h
    · next hg =>
      refine ⟨_, (Option.some.inj h).symm, ?_⟩
      exact .fails _ [true, true] _ (List.append_assoc ..) (.inr (.inr (.inr ⟨hr, hg⟩))) (by simp)
    · obtain ⟨hst, rfl⟩ := of_guard h
      exact ⟨_, rfl, .succeeds hr hst⟩
  case returned => simp at h

theorem MainMove.lock {a' : Attempt} (h : MainMove a a') : a'.lock = a.lock := by
  cases h with
  | forward frame | fails frame => rw [frame]
  | startRename | tablesRenamed | returned => rfl

theorem RenameMove.lock {a' : Attempt} (h : RenameMove outcome a a') : a'.lock = a.lock := by
  cases h <;> rfl

theorem executeRename_eq (h : s.executeRename i = some s') :
    (s.attempts i).statement = .waiting ∧ s.lockedBy = none ∧
      ((∃ first second, s.names = { original := some first, ghost := some second, old := none } ∧
          s' = (s.swap first second).setAttempt i
            { s.attempts i with statement := .succeeded }) ∨
        s' = s.setAttempt i { s.attempts i with statement := .failed }) := by
  unfold executeRename at h
  dsimp only at h
  split at h
  · next hg =>
    refine ⟨hg.1, hg.2, ?_⟩
    split at h
    · next first second ho hgh hold =>
      refine .inl ⟨first, second, ?_, (Option.some.inj h).symm⟩
      rw [← ho, ← hgh, ← hold]
    · exact .inr (Option.some.inj h).symm
  · simp at h

theorem endRename_eq (h : s.endRename i = some s') : (s.attempts i).statement = .waiting ∧
    s' = s.setAttempt i { s.attempts i with statement := .failed } := by
  unfold endRename at h
  exact of_guard h

theorem retry_eq (h : s.retry = some s') :
    (s.attempts s.current).result = some true ∧ s' = { s with current := s.current + 1 } := by
  unfold retry at h
  exact of_guard h

/-! ## The tables that are dropped -/

/-- No `RENAME` takes effect between the moment a sentry table is seen or created and the moment it
is dropped or locked. -/
def SentryUnmoved (s : CutOvers) : CutOversAction → Prop
  | .executeRename _ => ∀ j ≤ s.current, (s.attempts j).lock.trusts = false
  | _ => True

instance (s : CutOvers) : ∀ a : CutOversAction, Decidable (s.SentryUnmoved a)
  | .executeRename _ =>
    inferInstanceAs (Decidable (∀ j ≤ s.current, (s.attempts j).lock.trusts = false))
  | .lock _ _ | .rename _ _ | .main _ | .retry | .endRename _ | .endLockSession _
  | .disconnectLock _ | .disconnectRename _ => .isTrue trivial

structure Trusted (s : CutOvers) : Prop where
  fresh : ∀ j, s.current < j → (s.attempts j).lock = .begin
  old : (∃ j, (s.attempts j).lock.trusts = true) ∨ s.lockedBy ≠ none →
    s.names.old = none ∨ s.names.old = some .sentry
  dropped : ∀ t ∈ s.dropped, t = .sentry

theorem Trusted.of_frame (h : s.Trusted) (hnames : s'.names = s.names)
    (hdropped : s'.dropped = s.dropped) (hcurrent : s.current ≤ s'.current)
    (hlocked : s'.lockedBy ≠ none → s.lockedBy ≠ none)
    (hlock : ∀ j, (s'.attempts j).lock = (s.attempts j).lock) : s'.Trusted where
  fresh j hj := by
    rw [hlock]
    exact h.fresh j (by omega)
  old ho := by
    rw [hnames]
    refine h.old (ho.imp ?_ hlocked)
    rintro ⟨j, hj⟩
    exact ⟨j, hlock j ▸ hj⟩
  dropped := by
    rw [hdropped]
    exact h.dropped

theorem Trusted.setAttempt (h : s.Trusted) (ha : a.lock = (s.attempts i).lock) :
    (s.setAttempt i a).Trusted :=
  h.of_frame rfl rfl (Nat.le_refl _) id
    (forall_setAttempt (P := fun j b => b.lock = (s.attempts j).lock) (fun _ => rfl) ha)

theorem ne_none_of_unlock (h : (s.unlock i).lockedBy ≠ none) : s.lockedBy ≠ none := by
  intro hno
  simp [unlock, hno] at h

theorem Trusted.lockStep (h : s.Trusted) (hi : i ≤ s.current)
    (hs : s.lockStep i outcome = some s') : s'.Trusted := by
  obtain ⟨t, a, rfl, -, heffect⟩ := lockStep_eq hs
  have hfresh : ∀ {t : CutOvers}, t.attempts = s.attempts → t.current = s.current →
      ∀ j, (t.setAttempt i a).current < j → ((t.setAttempt i a).attempts j).lock = .begin := by
    intro t hat hcur j hj
    have hj : s.current < j := hcur ▸ hj
    rw [setAttempt_of_ne t a (by omega), hat]
    exact h.fresh j hj
  -- another goroutine that trusts has trusted before
  have hother : ∀ {t : CutOvers}, t.attempts = s.attempts → a.lock.trusts = false →
      (∃ j, ((t.setAttempt i a).attempts j).lock.trusts = true) →
      ∃ j, (s.attempts j).lock.trusts = true := by
    rintro t hat hno ⟨j, hj⟩
    by_cases hji : j = i
    · rw [hji, setAttempt_self, hno] at hj
      simp at hj
    · rw [setAttempt_of_ne t a hji, hat] at hj
      exact ⟨j, hj⟩
  cases heffect with
  | nothing htrust =>
    refine ⟨hfresh rfl rfl, fun ho => ?_, h.dropped⟩
    by_cases ha : a.lock.trusts = true
    · rcases htrust ha with hbefore | hsentry
      · exact h.old (.inl ⟨i, hbefore⟩)
      · exact .inr hsentry
    · exact h.old (ho.imp_left (hother rfl (Bool.eq_false_iff.2 ha)))
  | dropOld htrust hno =>
    refine ⟨hfresh rfl rfl, fun _ => .inl rfl, fun t ht => ?_⟩
    rcases List.mem_append.1 ht with ht | ht
    · exact h.dropped t ht
    · -- what is dropped was trusted, or locked
      have hold := h.old (htrust.imp (fun hb => ⟨i, hb⟩) fun hl => by rw [hl]; simp)
      rw [Option.mem_toList] at ht
      rcases hold with hold | hold
      · rw [hold] at ht
        simp at ht
      · rw [hold] at ht
        exact (Option.some.inj ht).symm
  | createSentry hnone => exact ⟨hfresh rfl rfl, fun _ => .inr rfl, h.dropped⟩
  | lock hfree hlock hno =>
    refine ⟨hfresh rfl rfl, fun _ => h.old (.inl ⟨i, ?_⟩), h.dropped⟩
    rw [hlock]
    rfl
  | unlock hno =>
    refine ⟨hfresh rfl rfl, fun ho => h.old ?_, h.dropped⟩
    exact ho.imp (hother rfl hno) ne_none_of_unlock

theorem Trusted.executeRename (h : s.Trusted)
    (hok : ∀ j ≤ s.current, (s.attempts j).lock.trusts = false)
    (hs : s.executeRename i = some s') : s'.Trusted := by
  obtain ⟨-, hfree, ⟨first, second, -, rfl⟩ | rfl⟩ := executeRename_eq hs
  · have hsame : ∀ j, (((s.swap first second).setAttempt i
        { s.attempts i with statement := .succeeded }).attempts j).lock = (s.attempts j).lock :=
      forall_setAttempt (P := fun j b => b.lock = (s.attempts j).lock) (fun _ => rfl) rfl
    refine ⟨fun j hj => ?_, fun ho => ?_, h.dropped⟩
    · rw [hsame]
      exact h.fresh j hj
    · -- nobody trusts in the old table now
      exfalso
      rcases ho with ⟨j, hj⟩ | hl
      · rw [hsame] at hj
        by_cases hjc : j ≤ s.current
        · rw [hok j hjc] at hj
          simp at hj
        · rw [h.fresh j (by omega)] at hj
          simp [SentryLockAt.trusts] at hj
      · exact hl hfree
  · exact h.setAttempt rfl

theorem Trusted.step {a : CutOversAction} (h : s.Trusted) (hok : s.SentryUnmoved a)
    (hs : s.step ctx a = some s') : s'.Trusted := by
  cases a with
  | lock i outcome =>
    simp only [CutOvers.step] at hs
    split at hs
    · next hi => exact h.lockStep hi hs
    · simp at hs
  | rename i outcome =>
    obtain ⟨a, rfl, hmove⟩ := renameStep_eq hs
    exact h.setAttempt hmove.lock
  | main outcome =>
    obtain ⟨g, a, rfl, hmove⟩ := mainStep_eq hs
    have h' : (s.withTriggers g).Trusted := { h with }
    exact h'.setAttempt hmove.lock
  | retry =>
    obtain ⟨-, rfl⟩ := retry_eq hs
    exact h.of_frame rfl rfl (Nat.le_succ _) id fun _ => rfl
  | executeRename i => exact h.executeRename hok hs
  | endRename i =>
    obtain ⟨-, rfl⟩ := endRename_eq hs
    exact h.setAttempt rfl
  | endLockSession i =>
    obtain ⟨-, rfl⟩ := of_guard hs
    have h' : (s.unlock i).Trusted :=
      h.of_frame rfl rfl (Nat.le_refl _) ne_none_of_unlock fun _ => rfl
    exact h'.setAttempt rfl
  | disconnectLock i =>
    obtain ⟨-, rfl⟩ := of_guard hs
    exact h.setAttempt rfl
  | disconnectRename i =>
    obtain ⟨-, rfl⟩ := of_guard hs
    exact h.setAttempt rfl

/-- **As long as no `RENAME` takes effect behind the back of a locking goroutine, only sentry tables
are dropped.** -/
theorem drops_only_sentries {old : Option Table}
    (hr : Reach (CutOvers.step ctx) SentryUnmoved { names := { old } } s) :
    ∀ t ∈ s.dropped, t = .sentry := by
  have htrusted : s.Trusted := by
    refine hr.invariant ?_ fun _ _ _ h hok hs => h.step hok hs
    constructor <;> simp [SentryLockAt.trusts]
  exact htrusted.dropped

/-- The first attempt times out; its clean-up finds the sentry table of the second one, which swaps
the tables. -/
theorem cleanup_drops_original : ∃ s,
    Reachable (CutOvers.step { maxRetries := 1 }) {} s ∧ .original ∈ s.dropped ∧
      s.names = { original := some .ghost, ghost := none, old := none } := by
  exact exists_reach
    [List.replicate 8 (.lock 0 .ok), [.main .ok, .main .ok, .main .err, .main .ok],
      List.replicate 5 (.lock 0 .ok), [.retry], List.replicate 6 (.lock 1 .ok),
      [.lock 0 .ok, .lock 1 .ok, .lock 1 .ok], List.replicate 5 (.main .ok),
      List.replicate 4 (.rename 1 .ok), List.replicate 4 (.main .ok),
      List.replicate 4 (.lock 1 .ok), [.executeRename 1, .lock 0 .ok]].flatten (by decide +kernel)

/-- The first attempt times out and cleans up, and the second one succeeds. -/
theorem drops_only_sentries_small : ∃ s,
    Reach (CutOvers.step { maxRetries := 1 }) SentryUnmoved {} s ∧
      s.dropped.length = 2 ∧ s.names.old = some .original ∧ ∀ t ∈ s.dropped, t = .sentry := by
  refine exists_reach_of (fun s => s.dropped.length = 2 ∧ s.names.old = some .original)
    [List.replicate 8 (.lock 0 .ok), [.main .ok, .main .ok, .main .err, .main .ok],
      List.replicate 6 (.lock 0 .ok), [.retry], List.replicate 8 (.lock 1 .ok),
      List.replicate 5 (.main .ok), List.replicate 4 (.rename 1 .ok),
      List.replicate 4 (.main .ok), List.replicate 4 (.lock 1 .ok), [.executeRename 1]].flatten
    (by decide +kernel) ?_
  rintro s hr ⟨hlen, hold⟩
  exact ⟨hlen, hold, drops_only_sentries hr⟩

end CutOvers

end GhOst.Logic
