import GhOst.Properties.Channels

/-!
# Nobody is stuck in the atomic cut-over

When `Begin` of the renaming goroutine succeeds, some goroutine, or the pending `RENAME`, can always
go on, and there is only so much work to do. When it fails, the main goroutine waits for the
identifier of the renaming session for ever.
-/

namespace GhOst.Logic

open Infra

namespace CutOver

variable {s s' : CutOver} {maxRetries : Nat}

/-! ## Somebody can go on -/

/-- The capacities that the channels are made with. -/
def WithinBuffers (s : CutOver) : Prop :=
  s.okToUnlockTable ≤ 4 ∧ s.lockOriginalSessionIdChan.length ≤ 2 ∧ s.tableLocked.length ≤ 2 ∧
    s.tableUnlocked.length ≤ 2 ∧ s.renameSessionIdChan.length ≤ 2 ∧ s.tablesRenamed.length ≤ 2

theorem Counted.withinBuffers (h : s.Counted) : s.WithinBuffers := by
  have hlock : s.lock.lockedSent ≤ 2 ∧ s.lock.idsSent ≤ 2 ∧ s.lock.unlockedSent ≤ 2 := by
    cases s.lock <;> decide
  have hrename : s.rename.idsSent ≤ 2 ∧ s.rename.renamedSent ≤ 2 ∧ s.rename.oksSent ≤ 1 := by
    cases s.rename <;> decide
  have hmain : s.main.oksSent ≤ 2 := by
    cases s.main <;> simp [MainAt.oksSent]
  have := h.tableLocked
  have := h.sessionIds
  have := h.tableUnlocked
  have := h.renameSessionIds
  have := h.tablesRenamed
  have := h.okToUnlockTable
  refine ⟨?_, ?_, ?_, ?_, ?_, ?_⟩ <;> omega

/-- `atomicCutOver` and its goroutines have returned. -/
def Finished (s : CutOver) : Prop :=
  s.main = .returned ∧ s.lock = .returned ∧ (s.rename = .returned ∨ s.rename = .notStarted)

end CutOver

/-- A step of a goroutine, or of its pending `RENAME`. -/
def CutOverAction.progresses : CutOverAction → Bool
  | .lock _ | .rename _ | .main _ | .grantRename => true
  | _ => false

namespace CutOver

variable {s s' : CutOver} {maxRetries : Nat}

/-- Some goroutine, or its `RENAME`, can go on. -/
def CanProgress (maxRetries : Nat) (s : CutOver) : Prop :=
  ∃ a s', a.progresses = true ∧ s.RenameBegins a ∧ s.step maxRetries a = some s'

theorem canProgress_main (htl : s.main = .tableLocked → s.tableLocked ≠ [])
    (hid : s.main = .lockOriginalSessionId → s.lockOriginalSessionIdChan ≠ [])
    (hrid : s.main = .renameSessionId → s.renameSessionIdChan ≠ [])
    (htu : s.main = .tableUnlocked → s.tableUnlocked ≠ [])
    (htr : s.main = .tablesRenamed → s.tablesRenamed ≠ []) (hret : s.main ≠ .returned) :
    s.CanProgress maxRetries := by
  suffices h : ∃ outcome s', s.mainStep maxRetries outcome = some s' by
    obtain ⟨outcome, s', hs⟩ := h
    exact ⟨.main outcome, s', rfl, trivial, hs⟩
  unfold mainStep
  cases hm : s.main <;> simp only
  case tableLocked =>
    obtain ⟨err, rest, ht⟩ := List.exists_cons_of_ne_nil (htl hm)
    exact ⟨.ok, by simp [ht]⟩
  case lockOriginalSessionId =>
    obtain ⟨id, rest, ht⟩ := List.exists_cons_of_ne_nil (hid hm)
    exact ⟨.ok, by simp [ht]⟩
  case renameSessionId =>
    obtain ⟨id, rest, ht⟩ := List.exists_cons_of_ne_nil (hrid hm)
    exact ⟨.ok, by simp [ht]⟩
  case waitForRename i =>
    by_cases hknown : s.tableRenameKnownToHaveFailed = true
    · refine ⟨.ok, ?_⟩
      split
      · simp [hknown]
      · split <;> simp
    · refine ⟨.err, ?_⟩
      split
      · simp [hknown]
      · split <;> simp
  case tableUnlocked =>
    obtain ⟨err, rest, ht⟩ := List.exists_cons_of_ne_nil (htu hm)
    exact ⟨.ok, by simp [ht]⟩
  case tablesRenamed =>
    obtain ⟨err, rest, ht⟩ := List.exists_cons_of_ne_nil (htr hm)
    exact ⟨.ok, by simp [ht]⟩
  case returned => exact absurd hm hret
  case writeChangelogState => exact ⟨.ok, by simp⟩
  case eventsUpToLock => exact ⟨.ok, by simp⟩
  case createTriggers => exact ⟨.ok, by simp⟩
  case expectUsedLock => exact ⟨.err, by simp⟩
  all_goals exact ⟨.ok, _, rfl⟩

theorem canProgress_lock (hne : s.lock ≠ .returned)
    (hok : s.lock = .okToUnlockTable → 0 < s.okToUnlockTable) : s.CanProgress maxRetries := by
  suffices h : ∃ s', s.lockStep false = some s' by
    obtain ⟨s', hs⟩ := h
    exact ⟨.lock false, s', rfl, trivial, hs⟩
  unfold lockStep
  cases hl : s.lock <;> simp only [Bool.false_and, Bool.false_eq_true, if_false]
  case okToUnlockTable => simp [hok hl]
  case returned => exact absurd hl hne
  all_goals exact ⟨_, rfl⟩

theorem canProgress_rename (hr : s.rename ≠ .notStarted ∧ s.rename ≠ .returned)
    (hissued : s.rename = .issued → s.statement = .succeeded ∨ s.statement = .failed) :
    s.CanProgress maxRetries := by
  suffices h : ∃ s', s.renameStep true = some s' by
    obtain ⟨s', hs⟩ := h
    exact ⟨.rename true, s', rfl, fun _ => rfl, hs⟩
  unfold renameStep
  cases hrename : s.rename <;> simp only
  case notStarted => exact absurd hrename hr.1
  case returned => exact absurd hrename hr.2
  case issue => exact ⟨_, rfl⟩
  case issued =>
    rcases hissued hrename with hst | hst <;> simp only [hst] <;> exact ⟨_, rfl⟩
  all_goals split <;> exact ⟨_, rfl⟩

theorem Served.canProgress_of_holding (h : s.Served) (hl : s.lock.holding = true)
    (hr : s.rename ≠ .begin ∧ s.rename ≠ .connectionId) : s.CanProgress maxRetries := by
  by_cases hwait : s.lock = .okToUnlockTable ∧ s.okToUnlockTable = 0
  · obtain ⟨hlock, hzero⟩ := hwait
    -- nothing was sent on `okToUnlockTable`, so the main goroutine is not there yet
    have hmain : ∀ m, m = .tableUnlocked ∨ m = .tablesRenamed ∨ m = .returned → s.main ≠ m := by
      intro m hm he
      have := h.okToUnlockTableServed hlock (he ▸ hm)
      omega
    refine canProgress_main (h.tableLockedServed (by rw [hlock]; rfl))
      (fun hm => h.sessionIdServed (.inl hm)) (fun hm hnil => ?_)
      (fun hm => absurd hm (hmain _ (by simp))) (fun hm => absurd hm (hmain _ (by simp)))
      (hmain _ (by simp))
    exact (h.renameSessionIdServed hm hnil).elim hr.1 hr.2
  · refine canProgress_lock (fun hno => ?_) fun hlock => ?_
    · simp [hno, LockAt.holding] at hl
    · by_contra hzero
      exact hwait ⟨hlock, by omega⟩

theorem Served.canProgress (h : s.Served) : s.Finished ∨ s.CanProgress maxRetries := by
  by_cases hr : s.rename = .returned ∨ s.rename = .notStarted
  · have hne : s.rename ≠ .begin ∧ s.rename ≠ .connectionId := by
      rcases hr with hr | hr <;> simp [hr]
    by_cases hl : s.lock.holding = true
    · exact .inr (h.canProgress_of_holding hl hne)
    · by_cases hret : s.lock = .returned
      · by_cases hm : s.main = .returned
        · exact .inl ⟨hm, hret, hr⟩
        · refine .inr (canProgress_main (h.tableLockedServed (by rw [hret]; rfl))
            (fun hm => h.sessionIdServed (.inl hm)) (fun hm hnil => ?_) (fun hm hnil => ?_)
            (fun hm hnil => ?_) hm)
          · exact (h.renameSessionIdServed hm hnil).elim hne.1 hne.2
          · rcases h.tableUnlockedServed (.inl (by rw [hm]; rfl)) with hno | hno
            · exact hl hno
            · exact hno hnil
          · obtain ⟨hstarted, hsent⟩ := h.tablesRenamedServed (by rw [hm]; rfl)
            rcases hr with hr | hr
            · exact hsent hr hnil
            · exact hstarted hr
      · refine .inr (canProgress_lock hret fun hno => ?_)
        simp [hno, LockAt.holding] at hl
  · rw [not_or] at hr
    by_cases hissued : s.rename = .issued
    · cases hst : s.statement with
      | notIssued => exact absurd hst (h.issued hissued)
      | succeeded => exact .inr (canProgress_rename ⟨hr.2, hr.1⟩ fun _ => .inl hst)
      | failed => exact .inr (canProgress_rename ⟨hr.2, hr.1⟩ fun _ => .inr hst)
      | acquiring | waiting =>
        by_cases hlocked : s.originalLocked = true
        · exact .inr (h.canProgress_of_holding (h.originalLocked hlocked) (by simp [hissued]))
        · -- nobody keeps the server from granting it
          refine .inr ⟨.grantRename, s.executeRename, rfl, trivial, ?_⟩
          simp [CutOver.step, CutOver.grantRename, RenameStatement.pending, hst, hlocked]
    · exact .inr (canProgress_rename ⟨hr.2, hr.1⟩ fun hno => absurd hno hissued)

/-! ## There is only so much work -/

def work (maxRetries : Nat) (s : CutOver) : Nat :=
  s.main.work maxRetries + s.lock.work + s.rename.work + if s.statement.pending then 1 else 0

theorem work_lockMove {ok : Bool} (hmove : LockMove ok s s') :
    s'.work maxRetries < s.work maxRetries := by
  have hlt : s'.lock.work < s.lock.work → s'.main = s.main → s'.rename = s.rename →
      s'.statement = s.statement → s'.work maxRetries < s.work maxRetries := by
    intro hl hm hr hst
    unfold work
    rw [hm, hr, hst]
    omega
  cases hmove with
  | forward lock old hb hb' hw => exact hlt hw rfl rfl rfl
  | fails hb hno =>
    refine hlt ?_ rfl rfl rfl
    show 2 < s.lock.work
    cases hl : s.lock <;> simp [hl, LockAt.beforeLock, LockAt.work] at hb ⊢
  | holds lock old hb hb' hne hw => exact hlt hw rfl rfl rfl
  | beginFails hl => exact hlt (by simp [hl, LockAt.work]) rfl rfl rfl
  | connectionId hl => exact hlt (by simp [hl, LockAt.work]) rfl rfl rfl
  | locks hl => exact hlt (by simp [hl, LockAt.work]) rfl rfl rfl
  | told hl => exact hlt (by simp [hl, LockAt.work]) rfl rfl rfl
  | unlocks alive err hl => exact hlt (by simp [hl, LockAt.work]) rfl rfl rfl
  | returns hl => exact hlt (by simp [hl, LockAt.work]) rfl rfl rfl
  | ends old hl => exact hlt (by simp [hl, LockAt.work]) rfl rfl rfl

theorem work_renameMove {ok : Bool} (hmove : RenameMove ok s s') :
    s'.work maxRetries < s.work maxRetries := by
  have hlt : s'.rename.work < s.rename.work → s'.main = s.main → s'.lock = s.lock →
      s'.statement = s.statement → s'.work maxRetries < s.work maxRetries := by
    intro hr hm hl hst
    unfold work
    rw [hm, hl, hst]
    omega
  cases hmove with
  | begins hr => exact hlt (by simp [hr, RenameAt.work]) rfl rfl rfl
  | beginFails hr => exact hlt (by simp [hr, renameFails, RenameAt.work]) rfl rfl rfl
  | connectionId hr => exact hlt (by simp [hr, RenameAt.work]) rfl rfl rfl
  | lockWaitTimeout hr => exact hlt (by simp [hr, RenameAt.work]) rfl rfl rfl
  | fails hr =>
    refine hlt ?_ rfl rfl rfl
    rcases hr with hr | hr <;> simp [hr, renameFails, RenameAt.work]
  | issues statement hr =>
    -- the statement that is pending is work, too
    unfold work
    simp only [hr, RenameAt.work]
    split <;> split <;> omega
  | renamed hr => exact hlt (by simp [hr, RenameAt.work]) rfl rfl rfl
  | renameFails hr => exact hlt (by simp [hr, renameFails, RenameAt.work]) rfl rfl rfl

theorem work_mainMove (hmove : MainMove maxRetries s s') :
    s'.work maxRetries < s.work maxRetries := by
  have hlt : s'.main.work maxRetries < s.main.work maxRetries → s'.lock = s.lock →
      s'.rename = s.rename → s'.statement = s.statement →
      s'.work maxRetries < s.work maxRetries := by
    intro hm hl hr hst
    unfold work
    rw [hl, hr, hst]
    omega
  cases hmove with
  | tableLocked err rest hm =>
    refine hlt ?_ rfl rfl rfl
    cases err <;> simp [hm, MainAt.work]
  | sessionId id rest hm => exact hlt (by simp [hm, MainAt.work]) rfl rfl rfl
  | forward main injected hlocked hstarted hbefore hoks hne hw => exact hlt hw rfl rfl rfl
  | startRename hm =>
    unfold work
    simp only [hm, MainAt.work]
    change _ + 7 + _ + 6 + _ < _
    omega
  | renameSessionId id rest hm => exact hlt (by simp [hm, MainAt.work]) rfl rfl rfl
  | fails n hlocked =>
    refine hlt ?_ rfl rfl rfl
    show 1 < s.main.work maxRetries
    cases hm : s.main <;> simp [hm, MainAt.locked, MainAt.work] at hlocked ⊢
  | okToUnlockTable hm => exact hlt (by simp [hm, MainAt.work]) rfl rfl rfl
  | tableUnlocked err rest hm =>
    refine hlt ?_ rfl rfl rfl
    cases err <;> simp [hm, MainAt.work]
  | tablesRenamed err rest hm => exact hlt (by simp [hm, MainAt.work]) rfl rfl rfl
  | returns hm => exact hlt (by simp [hm, MainAt.work]) rfl rfl rfl

@[simp] theorem pending_failed : RenameStatement.failed.pending = false := rfl

@[simp] theorem pending_succeeded : RenameStatement.succeeded.pending = false := rfl

theorem work_executeRename_lt (hpending : s.statement.pending = true) :
    s.executeRename.work maxRetries < s.work maxRetries := by
  unfold work executeRename
  by_cases hold : s.old = .absent
  · simp [hold, hpending]
  · simp [hold, hpending]

theorem work_endRename_le : s.endRename.work maxRetries ≤ s.work maxRetries := by
  unfold work endRename
  by_cases hpending : s.statement.pending = true
  · simp [hpending]
  · simp [hpending]

theorem work_step {a : CutOverAction} (hs : s.step maxRetries a = some s') :
    (if a.progresses then 1 else 0) + s'.work maxRetries ≤ s.work maxRetries := by
  have hone : s'.work maxRetries < s.work maxRetries →
      1 + s'.work maxRetries ≤ s.work maxRetries := by
    omega
  cases a with
  | lock ok => exact hone (work_lockMove (lockStep_move hs))
  | rename ok => exact hone (work_renameMove (renameStep_move hs))
  | main outcome => exact hone (work_mainMove (mainStep_move hs))
  | grantRename =>
    simp only [CutOver.step, CutOver.grantRename] at hs
    split at hs
    · next hg =>
      rw [← Option.some.inj hs] at hone ⊢
      exact hone (work_executeRename_lt hg.1)
    · simp at hs
  | renameWaits =>
    obtain ⟨hst, rfl⟩ := of_guard hs
    simp [work, hst, RenameStatement.pending, CutOverAction.progresses]
  | renameTimeout =>
    cases hs
    show 0 + _ ≤ _
    rw [Nat.zero_add]
    exact work_endRename_le
  | killLockSession =>
    cases hs
    exact Nat.le_of_eq (Nat.zero_add _)
  | killRenameSession =>
    cases hs
    show 0 + _ ≤ _
    rw [Nat.zero_add]
    exact @work_endRename_le s maxRetries
  | applicationWrite =>
    obtain ⟨-, rfl⟩ := of_guard hs
    exact Nat.le_of_eq (Nat.zero_add _)

/-- **When `Begin` succeeds, nobody is stuck**: no send waits, and somebody can go on, for at most
`work` steps, until all have returned. -/
theorem never_stuck {old : OldTable}
    (hr : Reach (CutOver.step maxRetries) RenameBegins { old } s) :
    s.WithinBuffers ∧ (s.Finished ∨ s.CanProgress maxRetries) ∧
      ∀ as s', run (CutOver.step maxRetries) s as = some s' →
        as.countP CutOverAction.progresses + s'.work maxRetries ≤ s.work maxRetries := by
  have h : s.Served := hr.invariant (.init old) fun _ _ _ h hok hs => h.step hok hs
  refine ⟨h.toCounted.withinBuffers, h.canProgress, fun as s' hs => ?_⟩
  exact run_countP_le (I := fun _ => True) (fun _ _ _ _ _ => trivial)
    (fun _ _ _ _ hs => work_step hs) trivial hs

/-- The locking goroutine after it is told to unlock; the probes of the metadata lock fail. -/
def afterOk : List CutOverAction :=
  [.lock true, .lock true, .lock false, .lock true, .lock true, .lock true]

/-- The `RENAME` times out, and everybody returns. -/
theorem never_stuck_small :
    ∃ s, Reach (CutOver.step 1) RenameBegins { old := .absent } s ∧
      s.statement = .failed ∧ s.WithinBuffers ∧ s.Finished := by
  refine exists_reach_of
    (fun s => s.statement = .failed ∧ s.main = .returned ∧ s.lock = .returned ∧
      s.rename = .returned)
    [untilRename, [.rename true, .rename true, .main .ok, .main .ok, .renameTimeout,
      .rename true, .main .ok], afterOk, List.replicate 3 (.main .ok)].flatten (by decide) ?_
  rintro s hr ⟨hst, hm, hl, hrename⟩
  exact ⟨hst, (never_stuck hr).1, hm, hl, .inl hrename⟩

/-- The main goroutine waits on `renameSessionIdChan`, and its peer has returned without a send. -/
structure Stuck (s : CutOver) : Prop where
  main : s.main = .renameSessionId
  chan : s.renameSessionIdChan = []
  rename : s.rename = .returned

theorem Stuck.step {a : CutOverAction} (h : s.Stuck) (hs : s.step maxRetries a = some s') :
    s'.Stuck := by
  cases a with
  | lock ok =>
    have hmove := lockStep_move hs
    cases hmove <;> exact ⟨h.main, h.chan, h.rename⟩
  | rename ok => simp [CutOver.step, CutOver.renameStep, h.rename] at hs
  | main outcome => simp [CutOver.step, CutOver.mainStep, h.main, h.chan] at hs
  | grantRename =>
    obtain ⟨-, rfl⟩ := of_guard hs
    unfold executeRename
    split <;> exact ⟨h.main, h.chan, h.rename⟩
  | renameWaits =>
    obtain ⟨-, rfl⟩ := of_guard hs
    exact ⟨h.main, h.chan, h.rename⟩
  | renameTimeout =>
    cases hs
    exact ⟨h.main, h.chan, h.rename⟩
  | killLockSession =>
    cases hs
    exact ⟨h.main, h.chan, h.rename⟩
  | killRenameSession =>
    cases hs
    exact ⟨h.main, h.chan, h.rename⟩
  | applicationWrite =>
    obtain ⟨-, rfl⟩ := of_guard hs
    exact ⟨h.main, h.chan, h.rename⟩

/-- **`Begin` of the renaming goroutine fails, and `atomicCutOver` waits for ever**, although the
tables get unlocked. -/
theorem stuck_after_begin_fails :
    ∃ s, Reachable (CutOver.step 60) { old := .absent } s ∧ s.lock = .returned ∧
      ∀ s', Reachable (CutOver.step 60) s s' → s'.main = .renameSessionId := by
  refine exists_reach_of
    (fun s => s.lock = .returned ∧ s.main = .renameSessionId ∧ s.renameSessionIdChan = [] ∧
      s.rename = .returned)
    [List.replicate 8 (.lock true), List.replicate 6 (.main .ok), [.rename false],
      afterOk].flatten (by decide) ?_
  rintro s - ⟨hl, hm, hc, hrename⟩
  refine ⟨hl, fun s' hs' => ?_⟩
  have hstuck : s'.Stuck :=
    Reach.invariant hs' ⟨hm, hc, hrename⟩ fun _ _ _ h _ hs => h.step hs
  exact hstuck.main

end CutOver

end GhOst.Logic
