import GhOst.Properties.CutOverSteps

/-!
# Writes around the atomic cut-over

The sentry table keeps the `RENAME` from taking effect, and the lock keeps writes away while the
`RENAME` is on its way. Every exit of `atomicCutOver` lets the locking goroutine drop the sentry and
unlock. This is safe unless the `RENAME` is not issued yet, or waits for another table than the
original: then writes are committed to the unlocked table, and nothing stops the `RENAME`.
-/

namespace GhOst.Logic

open Infra

/-- The renaming goroutine has been started and has not issued its `RENAME`. -/
def RenameAt.underWay : RenameAt → Bool
  | .begin | .connectionId | .lockWaitTimeout | .issue => true
  | .notStarted | .issued | .returned => false

theorem LockAt.beforeLock_of_created {l : LockAt} (h : l = .waitTimeout ∨ l = .lockTables) :
    l.beforeLock = true := by
  rcases h with h | h <;> rw [h] <;> rfl

/-- The main goroutine knows that the tables are locked and has not started the rename. -/
def MainAt.preparing (m : MainAt) : Bool := m.beforeStart && m.locked

namespace CutOver

variable {s s' : CutOver} {maxRetries : Nat}

/-- The `RENAME` may still take effect, and does not wait for the original. -/
def approaching (s : CutOver) : Bool := s.rename.underWay || s.statement == .acquiring

/-- The sentry table or the lock goes, the last of the two that there is, while the `RENAME` may
still take effect. -/
def exposes (s : CutOver) : CutOverAction → Bool
  | .lock ok =>
    s.lock == .unlockTables && s.old == .absent && s.approaching ||
      s.lock == .dropSentryTableIfExists && ok && s.old == .sentry &&
        (s.approaching || s.statement == .waiting)
  | .killLockSession => s.old == .absent && s.approaching
  | _ => false

/-- Without the sentry table the tables are not unlocked until the `RENAME` waits for the original;
and a sentry table that has survived is not dropped before the `RENAME` has ended. -/
def KeepsGuard (s : CutOver) (a : CutOverAction) : Prop := s.exposes a = false

instance (a : CutOverAction) : Decidable (s.KeepsGuard a) := inferInstanceAs (Decidable (_ = _))

structure Inv (s : CutOver) : Prop where
  uninjected : s.sentinelInjected = false → s.writes = 0
  locked : s.originalLocked = true → s.writes = 0
  waiting : s.statement = .waiting → s.writes = 0 ∨ s.old ≠ .absent
  renamed : ∀ n, s.writesAtRename = some n → n = 0
  approaching : s.approaching = true → s.originalLocked = true ∨ s.old ≠ .absent
  underWay : s.rename.underWay = true → s.statement = .notIssued
  held : s.lock.holding = true → s.lockSessionAlive = true → s.originalLocked = true
  beforeLock : s.lock.beforeLock = true → s.main = .tableLocked ∧ s.tableLocked = []
  created : s.lock = .waitTimeout ∨ s.lock = .lockTables → s.old = .sentry
  start : s.main = .tableLocked → s.sentinelInjected = false
  quiet : s.main = .tableLocked ∨ s.main.preparing = true →
    s.okToUnlockTable = 0 ∧ s.rename = .notStarted ∧ s.statement = .notIssued
  guarded : s.main.preparing = true ∨ (∃ rest, s.tableLocked = false :: rest) ∧
    s.main = .tableLocked → s.lock = .okToUnlockTable ∧ s.old = .sentry

theorem Inv.init (old : OldTable) : Inv { old } := by
  constructor <;>
    simp [RenameAt.underWay, MainAt.preparing, CutOver.approaching, MainAt.locked, LockAt.holding]

/-! ## The locking goroutine -/

theorem Inv.locking (h : s.Inv) (hl : s.lock.beforeLock = true) {lock : LockAt} {old : OldTable}
    {ids : List Int} {tableLocked : List Bool} {originalLocked : Bool}
    (hbefore : lock.beforeLock = true → tableLocked = s.tableLocked)
    (hcreated : lock = .waitTimeout ∨ lock = .lockTables →
      old = .sentry ∨ s.lock = .waitTimeout ∧ old = s.old)
    (hlocked : lock.beforeLock = false → tableLocked = s.tableLocked ++ [true] ∨
      s.lock = .lockTables ∧ lock = .okToUnlockTable ∧ old = s.old)
    (hheld : lock.holding = true → originalLocked = true) :
    { s with lock, old, lockOriginalSessionIdChan := ids, tableLocked, originalLocked }.Inv := by
  obtain ⟨hmain, htl⟩ := h.beforeLock hl
  obtain ⟨-, hrename, hstatement⟩ := h.quiet (.inl hmain)
  refine { h with
    locked := fun _ => h.uninjected (h.start hmain)
    waiting := by simp [hstatement]
    approaching := by simp [CutOver.approaching, hrename, hstatement, RenameAt.underWay]
    held := fun hholding _ => hheld hholding
    beforeLock := fun hb => ⟨hmain, (hbefore hb).trans htl⟩
    created := fun hc =>
      (hcreated hc).elim id fun hwait => hwait.2.trans (h.created (.inl hwait.1))
    guarded := ?_ }
  rintro (hprep | ⟨⟨rest, hhead⟩, -⟩)
  · rw [hmain] at hprep
    simp [MainAt.preparing, MainAt.locked] at hprep
  · dsimp only at hhead
    cases hb : lock.beforeLock with
    | true => simp [hbefore hb, htl] at hhead
    | false =>
      rcases hlocked hb with hsent | ⟨hlt, hlock, hold⟩
      · simp [hsent, htl] at hhead
      · exact ⟨hlock, hold.trans (h.created (.inr hlt))⟩

theorem Inv.not_preparing (h : s.Inv) (hl : s.lock ≠ .okToUnlockTable ∨ 0 < s.okToUnlockTable) :
    ¬ s.main.preparing = true ∧
      ((∃ rest, s.tableLocked = false :: rest) → s.main ≠ .tableLocked) := by
  constructor
  · intro hprep
    rcases hl with hl | hl
    · exact hl (h.guarded (.inl hprep)).1
    · have hnone := (h.quiet (.inr hprep)).1
      omega
  · intro hhead hmain
    rcases hl with hl | hl
    · exact hl (h.guarded (.inr ⟨hhead, hmain⟩)).1
    · have hnone := (h.quiet (.inl hmain)).1
      omega

theorem Inv.unlocking (h : s.Inv) (hgone : s.lock ≠ .okToUnlockTable ∨ 0 < s.okToUnlockTable)
    {lock : LockAt} {old : OldTable} {oks : Nat} {ids : List Int}
    {tableLocked tableUnlocked : List Bool} {alive originalLocked : Bool}
    (hlock : lock.beforeLock = false) (htokens : oks ≤ s.okToUnlockTable)
    (hlocked : originalLocked = true → s.originalLocked = true)
    (hheld : lock.holding = true → alive = true → originalLocked = true)
    (hwaiting : s.statement = .waiting → s.writes = 0 ∨ old ≠ .absent)
    (happroaching : s.approaching = true → originalLocked = true ∨ old ≠ .absent)
    (htableLocked : tableLocked = s.tableLocked ∨ tableLocked = s.tableLocked ++ [true]) :
    { s with
      lock, old, okToUnlockTable := oks, lockOriginalSessionIdChan := ids, tableLocked,
      tableUnlocked, lockSessionAlive := alive, originalLocked }.Inv := by
  obtain ⟨hprep, hhead⟩ := h.not_preparing hgone
  refine { h with
    locked := fun hl => h.locked (hlocked hl)
    waiting := hwaiting
    approaching := happroaching
    held := hheld
    beforeLock := by simp [hlock]
    created := fun hc => ?_
    quiet := fun hq => ⟨?_, (h.quiet hq).2⟩
    guarded := ?_ }
  · simp [LockAt.beforeLock_of_created hc] at hlock
  · have hnone := (h.quiet hq).1
    dsimp only
    omega
  · rintro (hp | ⟨⟨rest, hsent⟩, hmain⟩)
    · exact absurd hp hprep
    · refine absurd hmain (hhead ?_)
      dsimp only at hsent
      rcases htableLocked with heq | heq
      · exact ⟨rest, heq ▸ hsent⟩
      · rw [heq] at hsent
        cases htl : s.tableLocked with
        | nil => simp [htl] at hsent
        | cons first more =>
          rw [htl, List.cons_append, List.cons.injEq] at hsent
          exact ⟨more, by rw [hsent.1]⟩

theorem KeepsGuard.unlocks {ok : Bool} (h : s.KeepsGuard (.lock ok)) (hl : s.lock = .unlockTables)
    (happroaching : s.approaching = true) : s.old ≠ .absent := by
  intro hold
  simp [KeepsGuard, exposes, hl, hold, happroaching] at h

theorem KeepsGuard.ends {ok : Bool} (h : s.KeepsGuard (.lock ok))
    (hl : s.lock = .dropSentryTableIfExists) (hdrop : ok = true ∧ s.old = .sentry) :
    s.approaching = false ∧ s.statement ≠ .waiting := by
  simpa [KeepsGuard, exposes, hl, hdrop.1, hdrop.2] using h

theorem Inv.lockMove {ok : Bool} (h : s.Inv) (hkeeps : s.KeepsGuard (.lock ok))
    (hmove : LockMove ok s s') : s'.Inv := by
  have hunlocking := @Inv.unlocking s h
  cases hmove with
  | forward lock old hb hb' hw hids hcreated =>
    refine h.locking hb (fun _ => rfl) hcreated (by simp [hb']) fun hno => ?_
    simp [(sent_of_beforeLock hb').2.2] at hno
  | beginFails hl =>
    exact h.locking (by rw [hl]; rfl) (by simp [LockAt.beforeLock]) (by simp) (fun _ => .inl rfl)
      (by simp [LockAt.holding])
  | connectionId hl =>
    exact h.locking (by rw [hl]; rfl) (fun _ => rfl) (by simp) (by simp [LockAt.beforeLock])
      (by simp [LockAt.holding])
  | fails hb =>
    exact h.locking hb (by simp [LockAt.beforeLock]) (by simp) (fun _ => .inl rfl)
      (by simp [LockAt.holding])
  | locks hl =>
    exact h.locking (by rw [hl]; rfl) (by simp [LockAt.beforeLock]) (by simp)
      (fun _ => .inr ⟨hl, rfl, rfl⟩) fun _ => rfl
  | told hl hpos =>
    exact hunlocking (.inr hpos) rfl (Nat.sub_le _ _) id (fun _ => h.held (by rw [hl]; rfl))
      h.waiting h.approaching (.inl rfl)
  | holds lock old hb hb' hno hw hold =>
    refine hunlocking (.inl hno.1) (sent_of_holding hb').2.2.2 (Nat.le_refl _) id
      (fun _ => h.held hb) ?_ ?_ (.inl rfl)
    · rcases hold with rfl | halive
      · exact h.waiting
      · exact fun _ => .inl (h.locked (h.held hb halive))
    · rcases hold with rfl | halive
      · exact h.approaching
      · exact fun _ => .inl (h.held hb halive)
  | unlocks alive err hl =>
    exact hunlocking (.inl (by simp [hl])) rfl (Nat.le_refl _) (by simp) (by simp [LockAt.holding])
      h.waiting (fun ha => .inr (hkeeps.unlocks hl ha)) (.inl rfl)
  | returns hl =>
    exact hunlocking (.inl (by simp [hl])) rfl (Nat.le_refl _) id (by simp [LockAt.holding])
      h.waiting h.approaching (.inr rfl)
  | ends old hl hold =>
    refine hunlocking (.inl (by simp [hl])) rfl (Nat.le_refl _) id (by simp [LockAt.holding])
      ?_ ?_ (.inl rfl)
    · rcases hold with rfl | hdrop
      · exact h.waiting
      · exact fun hno => absurd hno (hkeeps.ends hl hdrop).2
    · rcases hold with rfl | hdrop
      · exact h.approaching
      · exact fun hno => by simp [(hkeeps.ends hl hdrop).1] at hno

/-! ## The renaming goroutine and the server -/

theorem Inv.of_rename (h : s.Inv) (hmain : ¬ (s.main = .tableLocked ∨ s.main.preparing = true))
    {rename : RenameAt} {statement : RenameStatement} {old : OldTable}
    {writesAtRename : Option Nat} {ids : List Int} {tablesRenamed : List Bool} {failed : Bool}
    {oks : Nat} (hwaiting : statement = .waiting → s.writes = 0 ∨ old ≠ .absent)
    (hrenamed : ∀ n, writesAtRename = some n → n = 0)
    (happroaching : rename.underWay = true ∨ statement = .acquiring →
      s.approaching = true ∧ old = s.old)
    (hunder : rename.underWay = true → statement = .notIssued) :
    { s with
      rename, statement, old, writesAtRename, renameSessionIdChan := ids, tablesRenamed,
      tableRenameKnownToHaveFailed := failed, okToUnlockTable := oks }.Inv := by
  refine { h with
    waiting := hwaiting
    renamed := hrenamed
    approaching := fun ha => ?_
    underWay := hunder
    created := fun hc => absurd (.inl (h.beforeLock (LockAt.beforeLock_of_created hc)).1) hmain
    quiet := fun hq => absurd hq hmain
    guarded := fun hq => absurd (hq.elim .inr fun hq => .inl hq.2) hmain }
  obtain ⟨hbefore, rfl⟩ := happroaching (by simpa [CutOver.approaching] using ha)
  exact h.approaching hbefore

theorem Inv.renameMove {ok : Bool} (h : s.Inv) (hmove : RenameMove ok s s') : s'.Inv := by
  have hmoves : s.rename ≠ .notStarted → _ := fun hstarted =>
    @Inv.of_rename s h fun hq => hstarted (h.quiet hq).2.1
  have hunder : s.rename.underWay = true → s.approaching = true := by
    intro hu
    simp [CutOver.approaching, hu]
  -- before the `RENAME` is issued, and after it
  have hbefore : ∀ {rename : RenameAt}, s.rename.underWay = true →
      rename.underWay = true ∨ s.statement = .acquiring → s.approaching = true ∧ s.old = s.old :=
    fun hu _ => ⟨hunder hu, rfl⟩
  have hafter : ∀ {rename : RenameAt}, rename.underWay = false →
      rename.underWay = true ∨ s.statement = .acquiring → s.approaching = true ∧ s.old = s.old := by
    intro rename hno hor
    simp only [hno, Bool.false_eq_true, false_or] at hor
    simp [CutOver.approaching, hor]
  cases hmove with
  | begins hr =>
    exact hmoves (by simp [hr]) h.waiting h.renamed (hbefore (by rw [hr]; rfl))
      fun _ => h.underWay (by rw [hr]; rfl)
  | connectionId hr =>
    exact hmoves (by simp [hr]) h.waiting h.renamed (hbefore (by rw [hr]; rfl))
      fun _ => h.underWay (by rw [hr]; rfl)
  | lockWaitTimeout hr =>
    exact hmoves (by simp [hr]) h.waiting h.renamed (hbefore (by rw [hr]; rfl))
      fun _ => h.underWay (by rw [hr]; rfl)
  | beginFails hr =>
    exact hmoves (by simp [hr]) h.waiting h.renamed (hafter rfl) (by simp [RenameAt.underWay])
  | fails hr =>
    exact hmoves (by rcases hr with hr | hr <;> simp [hr]) h.waiting h.renamed (hafter rfl)
      (by simp [RenameAt.underWay])
  | issues statement hr hst =>
    refine hmoves (by simp [hr]) ?_ h.renamed (fun _ => ⟨hunder (by rw [hr]; rfl), rfl⟩)
      (by simp [RenameAt.underWay])
    rcases hst with rfl | rfl <;> simp
  | renamed hr =>
    exact hmoves (by simp [hr]) h.waiting h.renamed (hafter rfl) (by simp [RenameAt.underWay])
  | renameFails hr =>
    exact hmoves (by simp [hr]) h.waiting h.renamed (hafter rfl) (by simp [RenameAt.underWay])

theorem Inv.issued (h : s.Inv) (hst : s.statement ≠ .notIssued) :
    ¬ (s.main = .tableLocked ∨ s.main.preparing = true) ∧ s.rename.underWay = false := by
  refine ⟨fun hq => hst (h.quiet hq).2.2, ?_⟩
  by_contra hu
  exact hst (h.underWay (by simpa using hu))

/-- When a pending `RENAME` is granted the target name exists, or there were no writes. -/
theorem Inv.granted (h : s.Inv) (hpending : s.statement.pending = true)
    (hunlocked : s.originalLocked = false) : s.writes = 0 ∨ s.old ≠ .absent := by
  cases hst : s.statement with
  | waiting => exact h.waiting hst
  | acquiring =>
    have hguard := h.approaching (by simp [CutOver.approaching, hst])
    exact .inr (by simpa [hunlocked] using hguard)
  | notIssued | failed | succeeded => simp [hst, RenameStatement.pending] at hpending

theorem ne_notIssued_of_pending (h : s.statement.pending = true) : s.statement ≠ .notIssued := by
  intro hno
  simp [hno, RenameStatement.pending] at h

theorem Inv.grantRename (h : s.Inv) (hs : s.grantRename = some s') : s'.Inv := by
  unfold CutOver.grantRename at hs
  split at hs
  · next hg =>
    obtain ⟨hmain, hunder⟩ := h.issued (ne_notIssued_of_pending hg.1)
    have hgranted := h.granted hg.1 hg.2
    cases hs
    unfold executeRename
    split
    · next habsent =>
      refine h.of_rename hmain (by simp) (fun n hn => ?_) (by simp [hunder]) (by simp [hunder])
      rw [← Option.some.inj hn]
      exact hgranted.resolve_right (by simp [habsent])
    · exact h.of_rename hmain (by simp) h.renamed (by simp [hunder]) (by simp [hunder])
  · simp at hs

theorem Inv.renameWaits (h : s.Inv) (hs : s.renameWaits = some s') : s'.Inv := by
  unfold CutOver.renameWaits at hs
  split at hs
  · next hst =>
    obtain ⟨hmain, hunder⟩ := h.issued (by simp [hst])
    cases hs
    refine h.of_rename hmain (fun _ => ?_) h.renamed (by simp [hunder]) (by simp [hunder])
    exact (h.approaching (by simp [CutOver.approaching, hst])).imp_left h.locked
  · simp at hs

theorem Inv.endRename (h : s.Inv) : s.endRename.Inv := by
  unfold CutOver.endRename
  split
  · next hpending =>
    obtain ⟨hmain, hunder⟩ := h.issued (ne_notIssued_of_pending hpending)
    exact h.of_rename hmain (by simp) h.renamed (by simp [hunder]) (by simp [hunder])
  · exact { h with }

theorem Inv.killLockSession (h : s.Inv) (hkeeps : s.KeepsGuard .killLockSession) :
    { s with lockSessionAlive := false, originalLocked := false }.Inv := by
  refine { h with
    locked := by simp
    approaching := fun ha => .inr fun hold => ?_
    held := by simp }
  have ha : s.approaching = true := ha
  simp [KeepsGuard, exposes, ha, show s.old = .absent from hold] at hkeeps

theorem Inv.applicationWrite (h : s.Inv) (hs : s.applicationWrite = some s') : s'.Inv := by
  unfold CutOver.applicationWrite at hs
  obtain ⟨hg, rfl⟩ := of_guard hs
  refine { h with
    uninjected := fun hno => ?_
    locked := fun hl => absurd hl (by simp [hg.1])
    waiting := fun hw => absurd hw hg.2.1 }
  have hno : s.sentinelInjected = false := hno
  simp [hno, h.uninjected hno]

/-! ## The main goroutine -/

theorem Inv.of_late (h : s.Inv) (hbefore : s.lock.beforeLock = false) {main : MainAt} {id : Int}
    {ids renameIds : List Int} {tableLocked tableUnlocked tablesRenamed : List Bool} {oks : Nat}
    {injected : Bool} (hinj : s.sentinelInjected = true → injected = true)
    (hlate : ¬ (main = .tableLocked ∨ main.preparing = true)) :
    { s with
      main, okToUnlockTable := oks, lockOriginalSessionIdChan := ids, tableLocked, tableUnlocked,
      renameSessionIdChan := renameIds, tablesRenamed, renameSessionId := id,
      sentinelInjected := injected }.Inv :=
  { h with
    uninjected := fun hno => h.uninjected (Bool.eq_false_iff.2 fun hi => by simp_all)
    beforeLock := by simp [hbefore]
    start := fun hm => absurd (.inl hm) hlate
    quiet := fun hq => absurd hq hlate
    guarded := fun hq => absurd (hq.elim .inr fun hq => .inl hq.2) hlate }

theorem Inv.of_preparing (h : s.Inv)
    (hs : s.main.preparing = true ∨ (∃ rest, s.tableLocked = false :: rest) ∧
      s.main = .tableLocked) {main : MainAt} {ids : List Int} {tableLocked : List Bool}
    {injected : Bool} (hm : main ≠ .tableLocked)
    (hinj : s.sentinelInjected = true → injected = true) :
    { s with
      main, lockOriginalSessionIdChan := ids, tableLocked, sentinelInjected := injected }.Inv := by
  obtain ⟨hok, hsentry⟩ := h.guarded hs
  exact { h with
    uninjected := fun hno => h.uninjected (Bool.eq_false_iff.2 fun hi => by simp_all)
    beforeLock := by simp [hok, LockAt.beforeLock]
    start := fun hno => absurd hno hm
    quiet := fun _ => h.quiet (hs.elim .inr fun hs => .inl hs.2)
    guarded := fun _ => ⟨hok, hsentry⟩ }

theorem Inv.startRename (h : s.Inv) (hm : s.main = .startRename) :
    { s with rename := .begin, main := .renameSessionId }.Inv := by
  have hp : s.main.preparing = true := by rw [hm]; rfl
  obtain ⟨hok, hsentry⟩ := h.guarded (.inl hp)
  exact { h with
    approaching := fun _ => .inr (by simp [hsentry])
    underWay := fun _ => (h.quiet (.inr hp)).2.2
    beforeLock := by simp [hok, LockAt.beforeLock]
    start := by simp
    quiet := by simp [MainAt.preparing, MainAt.beforeStart]
    guarded := by simp [MainAt.preparing, MainAt.beforeStart] }

theorem Inv.mainMove (h : s.Inv) (hmove : MainMove maxRetries s s') : s'.Inv := by
  have hlocked : s.main ≠ .tableLocked → s.lock.beforeLock = false := by
    intro hm
    by_contra hb
    exact hm (h.beforeLock (by simpa using hb)).1
  cases hmove with
  | tableLocked err rest hm htl =>
    cases err with
    | true =>
      refine h.of_late ?_ id (by simp [MainAt.preparing, MainAt.locked])
      by_contra hb
      have hnil := (h.beforeLock (by simpa using hb)).2
      rw [htl] at hnil
      simp at hnil
    | false => exact h.of_preparing (.inr ⟨⟨rest, htl⟩, hm⟩) (by simp) id
  | sessionId id rest hm =>
    exact h.of_preparing (.inl (by rw [hm]; rfl)) (by simp) (fun hi => hi)
  | forward main injected hboth hstarted hbefore hoks hne hw hinj =>
    have hne : ∀ {m : MainAt}, m.locked = true → m ≠ .tableLocked := by
      rintro m hm rfl
      simp [MainAt.locked] at hm
    by_cases hp : s.main.preparing = true
    · exact h.of_preparing (.inl hp) (hne hboth.2) hinj
    · refine h.of_late (hlocked (hne hboth.1)) hinj (not_or.2 ⟨hne hboth.2, ?_⟩)
      rw [MainAt.preparing, hbefore, hboth.2]
      rw [MainAt.preparing, hboth.1] at hp
      exact hp
  | startRename hm => exact h.startRename hm
  | fails n hm =>
    refine h.of_late (hlocked fun hno => ?_) id (by simp [MainAt.preparing, MainAt.locked])
    simp [hno, MainAt.locked] at hm
  | tableUnlocked err rest hm =>
    refine h.of_late (hlocked (by simp [hm])) id ?_
    cases err <;> simp [MainAt.preparing, MainAt.locked]
  | renameSessionId _ _ hm | okToUnlockTable hm | tablesRenamed _ _ hm | returns hm =>
    exact h.of_late (hlocked (by simp [hm])) (fun hi => hi)
      (by simp [MainAt.preparing, MainAt.beforeStart])

/-! ## Runs -/

theorem Inv.step {a : CutOverAction} (h : s.Inv) (hkeeps : s.KeepsGuard a)
    (hs : s.step maxRetries a = some s') : s'.Inv := by
  cases a with
  | lock ok => exact h.lockMove hkeeps (lockStep_move hs)
  | rename ok => exact h.renameMove (renameStep_move hs)
  | main outcome => exact h.mainMove (mainStep_move hs)
  | grantRename => exact h.grantRename hs
  | renameWaits => exact h.renameWaits hs
  | renameTimeout =>
    cases hs
    exact h.endRename
  | killLockSession =>
    cases hs
    exact h.killLockSession hkeeps
  | killRenameSession =>
    cases hs
    exact { h.endRename with }
  | applicationWrite => exact h.applicationWrite hs

/-- **If the original is always guarded, by the lock or the sentry table, until the `RENAME` waits
for it, then a `RENAME` that takes effect does so before any write that follows the sentinel.** -/
theorem rename_loses_no_write {old : OldTable} {n : Nat}
    (hr : Reach (CutOver.step maxRetries) KeepsGuard { old } s)
    (hrenamed : s.writesAtRename = some n) : n = 0 := by
  have hinv : s.Inv := hr.invariant (Inv.init old) fun _ _ _ h hkeeps hs => h.step hkeeps hs
  exact hinv.renamed n hrenamed

/-- The calls up to the rename. -/
def untilRename : List CutOverAction :=
  List.replicate 8 (.lock true) ++ List.replicate 6 (.main .ok) ++ [.rename true, .rename true,
    .main .ok]

theorem rename_loses_no_write_small :
    ∃ s, Reach (CutOver.step 60) KeepsGuard { old := .absent } s ∧
      s.writesAtRename = some 0 ∧ s.main = .returned := by
  refine exists_reach_of (fun s => s.writesAtRename.isSome = true ∧ s.main = .returned)
    [untilRename, [.rename true, .rename true, .main .ok, .main .ok, .main .ok, .lock true,
      .lock true, .renameWaits, .lock true, .lock true, .grantRename, .rename true, .main .ok,
      .main .ok, .main .ok]].flatten (by decide) ?_
  rintro s hr ⟨hsome, hmain⟩
  obtain ⟨n, hn⟩ := Option.isSome_iff_exists.1 hsome
  refine ⟨?_, hmain⟩
  rw [hn, rename_loses_no_write hr hn]

/-- **A late `RENAME` loses a write.** The cut-over is given up while the renaming session is slow;
a write is committed, and then the `RENAME` is issued. -/
theorem late_rename_loses_write :
    (run (CutOver.step 1) { old := .absent }
      (untilRename ++ [.main .err, .main .err, .main .err, .lock true, .lock true, .lock false,
        .lock true, .lock true, .lock true, .applicationWrite, .rename true, .rename true,
        .grantRename])).map
      (fun s => (s.main, s.lock, s.sentinelInjected, s.statement, s.writesAtRename)) =
    some (.returned, .returned, true, .succeeded, some 1) := by
  decide

end CutOver

end GhOst.Logic
