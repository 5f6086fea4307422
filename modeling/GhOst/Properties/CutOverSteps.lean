import GhOst.Infra.Steps
import GhOst.Logic.CutOver

/-!
# The steps of the atomic cut-over

What each place says about the messages that were sent and the work that is left, and what one step
of each goroutine does (`LockMove`, `RenameMove`, `MainMove`).
-/

namespace GhOst.Logic

namespace LockAt

def beforeLock : LockAt → Bool
  | .begin | .connectionId | .getLock | .lockWaitTimeout | .dropLeftoverSentry
  | .createSentryTable | .waitTimeout | .lockTables => true
  | _ => false

/-- How much the locking goroutine has sent on `tableLocked`, at most. -/
def lockedSent : LockAt → Nat
  | .okToUnlockTable | .dropSentryTable | .expectMetadataLock | .unlockTables | .returning => 1
  | .dropSentryTableIfExists | .returned => 2
  | _ => 0

def idsSent : LockAt → Nat
  | .begin | .connectionId => 0
  | .dropSentryTableIfExists | .returned => 2
  | _ => 1

def unlockedSent : LockAt → Nat
  | .returning => 1
  | .dropSentryTableIfExists | .returned => 2
  | _ => 0

/-- The goroutine has locked the tables and has not unlocked them. -/
def holding : LockAt → Bool
  | .okToUnlockTable | .dropSentryTable | .expectMetadataLock | .unlockTables => true
  | _ => false

def work : LockAt → Nat
  | .begin => 14
  | .connectionId => 13
  | .getLock => 12
  | .lockWaitTimeout => 11
  | .dropLeftoverSentry => 10
  | .createSentryTable => 9
  | .waitTimeout => 8
  | .lockTables => 7
  | .okToUnlockTable => 6
  | .dropSentryTable => 5
  | .expectMetadataLock => 4
  | .unlockTables => 3
  | .returning => 2
  | .dropSentryTableIfExists => 1
  | .returned => 0

end LockAt

namespace RenameAt

def idsSent : RenameAt → Nat
  | .lockWaitTimeout | .issue | .issued => 1
  | .returned => 2
  | _ => 0

def renamedSent : RenameAt → Nat
  | .returned => 2
  | _ => 0

/-- How much the renaming goroutine has sent on `okToUnlockTable`, at most. -/
def oksSent : RenameAt → Nat
  | .returned => 1
  | _ => 0

def work : RenameAt → Nat
  | .notStarted => 0
  | .begin => 6
  | .connectionId => 5
  | .lockWaitTimeout => 4
  | .issue => 3
  | .issued => 1
  | .returned => 0

end RenameAt

namespace MainAt

def oksSent : MainAt → Nat
  | .tableUnlocked | .tablesRenamed | .returning => 1
  | .returned => 2
  | _ => 0

def beforeStart : MainAt → Bool
  | .tableLocked | .lockOriginalSessionId | .writeChangelogState | .eventsUpToLock
  | .createTriggers | .startRename => true
  | _ => false

/-- The renaming goroutine is started and its end may be waited for. -/
def started : MainAt → Bool
  | .renameSessionId | .waitForRename _ | .expectUsedLock | .okToUnlockTable | .tableUnlocked
  | .tablesRenamed => true
  | _ => false

/-- The tables are known to be locked and not known to be unlocked. -/
def locked : MainAt → Bool
  | .tableLocked | .tablesRenamed | .returning | .returned => false
  | _ => true

/-- Up to its start the work of the renaming goroutine is that of the main goroutine. -/
def work (maxRetries : Nat) : MainAt → Nat
  | .tableLocked => maxRetries + 19
  | .lockOriginalSessionId => maxRetries + 18
  | .writeChangelogState => maxRetries + 17
  | .eventsUpToLock => maxRetries + 16
  | .createTriggers => maxRetries + 15
  | .startRename => maxRetries + 14
  | .renameSessionId => maxRetries + 7
  | .waitForRename i => maxRetries - i + 6
  | .expectUsedLock => 5
  | .okToUnlockTable => 4
  | .tableUnlocked => 3
  | .tablesRenamed => 2
  | .returning => 1
  | .returned => 0

end MainAt

namespace CutOver

variable {s s' : CutOver} {maxRetries : Nat}

/-! ## What each step does -/

inductive LockMove (ok : Bool) (s : CutOver) : CutOver → Prop where
  | forward (lock : LockAt) (old : OldTable) (h : s.lock.beforeLock = true)
      (h' : lock.beforeLock = true) (hw : lock.work < s.lock.work)
      (hids : lock.idsSent = s.lock.idsSent)
      (hcreated : lock = .waitTimeout ∨ lock = .lockTables →
        old = .sentry ∨ s.lock = .waitTimeout ∧ old = s.old) :
      LockMove ok s { s with lock, old }
  | beginFails (h : s.lock = .begin) :
      LockMove ok s { s with tableLocked := s.tableLocked ++ [true], lock := .returned }
  | connectionId (h : s.lock = .connectionId) :
      LockMove ok s { s with
        lockOriginalSessionIdChan := s.lockOriginalSessionIdChan ++ [lockConnectionId]
        lock := .getLock }
  | fails (h : s.lock.beforeLock = true) (hno : s.lock ≠ .begin) : LockMove ok s s.lockFails
  | locks (h : s.lock = .lockTables) (hexec : s.lockSessionAlive = true) :
      LockMove ok s { s with
        originalLocked := true
        tableLocked := s.tableLocked ++ [false]
        lock := .okToUnlockTable }
  | told (h : s.lock = .okToUnlockTable) (h' : 0 < s.okToUnlockTable) :
      LockMove ok s { s with okToUnlockTable := s.okToUnlockTable - 1, lock := .dropSentryTable }
  | holds (lock : LockAt) (old : OldTable) (h : s.lock.holding = true) (h' : lock.holding = true)
      (hno : s.lock ≠ .okToUnlockTable ∧ lock ≠ .okToUnlockTable) (hw : lock.work < s.lock.work)
      (hold : old = s.old ∨ s.lockSessionAlive = true) :
      LockMove ok s { s with lock, old }
  | unlocks (alive err : Bool) (h : s.lock = .unlockTables) :
      LockMove ok s { s with
        originalLocked := false
        lockSessionAlive := alive
        tableUnlocked := s.tableUnlocked ++ [err]
        lock := .returning }
  | returns (h : s.lock = .returning) :
      LockMove ok s { s with
        lockOriginalSessionIdChan := s.lockOriginalSessionIdChan ++ [-1]
        tableLocked := s.tableLocked ++ [true]
        tableUnlocked := s.tableUnlocked ++ [true]
        lock := .dropSentryTableIfExists }
  | ends (old : OldTable) (h : s.lock = .dropSentryTableIfExists)
      (hold : old = s.old ∨ ok = true ∧ s.old = .sentry) :
      LockMove ok s { s with lock := .returned, old }

theorem lockStep_move {ok : Bool} (hs : s.lockStep ok = some s') : LockMove ok s s' := by
  -- a call before the lock goes on, or fails
  have hcall : ∀ {c : Bool} {lock : LockAt} {old : OldTable},
      (if c then some { s with lock, old } else some s.lockFails) = some s' →
      s.lock.beforeLock = true → s.lock ≠ .begin → lock.beforeLock = true →
      lock.work < s.lock.work → lock.idsSent = s.lock.idsSent →
      (lock = .waitTimeout ∨ lock = .lockTables →
        old = .sentry ∨ s.lock = .waitTimeout ∧ old = s.old) → LockMove ok s s' := by
    intro c lock old hs hb hno hb' hw hids hcreated
    split at hs <;> cases hs
    · exact .forward lock old hb hb' hw hids hcreated
    · exact .fails hb hno
  unfold lockStep at hs
  cases hlock : s.lock <;> simp only [hlock] at hs hcall
  case «begin» =>
    split at hs <;> cases hs
    · exact .forward .connectionId s.old (by rw [hlock]; rfl) rfl (by rw [hlock]; decide)
        (by rw [hlock]; rfl) (by simp)
    · exact .beginFails hlock
  case connectionId =>
    split at hs <;> cases hs
    · exact .connectionId hlock
    · exact .fails (by rw [hlock]; rfl) (by simp [hlock])
  case getLock | lockWaitTimeout | dropLeftoverSentry | createSentryTable | waitTimeout =>
    exact hcall hs rfl (by simp) rfl (by decide) rfl (by simp)
  case lockTables =>
    split at hs <;> cases hs
    · next hexec => exact .locks hlock (by simp_all)
    · exact .fails (by rw [hlock]; rfl) (by simp [hlock])
  case okToUnlockTable =>
    obtain ⟨hpos, rfl⟩ := Infra.of_guard hs
    exact .told hlock hpos
  case dropSentryTable =>
    cases hs
    refine .holds _ _ (by rw [hlock]; rfl) rfl (by simp [hlock]) (by rw [hlock]; decide) ?_
    cases ok <;> cases s.lockSessionAlive <;> simp
  case expectMetadataLock =>
    split at hs
    · simp at hs
    · cases hs
      exact .holds _ s.old (by rw [hlock]; rfl) rfl (by simp [hlock]) (by rw [hlock]; decide)
        (.inl rfl)
  case unlockTables =>
    cases hs
    exact .unlocks _ _ hlock
  case returning =>
    cases hs
    exact .returns hlock
  case dropSentryTableIfExists =>
    cases hs
    refine .ends _ hlock ?_
    cases ok <;> cases s.old <;> simp
  case returned => simp at hs

inductive RenameMove (ok : Bool) (s : CutOver) : CutOver → Prop where
  | begins (h : s.rename = .begin) : RenameMove ok s { s with rename := .connectionId }
  | beginFails (h : s.rename = .begin) (h' : (ok && s.renameSessionAlive) = false) :
      RenameMove ok s s.renameFails
  | connectionId (h : s.rename = .connectionId) :
      RenameMove ok s { s with
        renameSessionIdChan := s.renameSessionIdChan ++ [renameConnectionId]
        rename := .lockWaitTimeout }
  | lockWaitTimeout (h : s.rename = .lockWaitTimeout) : RenameMove ok s { s with rename := .issue }
  | fails (h : s.rename = .connectionId ∨ s.rename = .lockWaitTimeout) :
      RenameMove ok s s.renameDeferred.renameFails
  | issues (statement : RenameStatement) (h : s.rename = .issue)
      (h' : statement = .acquiring ∨ statement = .failed) :
      RenameMove ok s { s with rename := .issued, statement }
  | renamed (h : s.rename = .issued) :
      RenameMove ok s
        { { s with tablesRenamed := s.tablesRenamed ++ [false] }.renameDeferred with
          rename := .returned }
  | renameFails (h : s.rename = .issued) :
      RenameMove ok s
        { s with tablesRenamed := s.tablesRenamed ++ [true] }.renameDeferred.renameFails

theorem renameStep_move {ok : Bool} (hs : s.renameStep ok = some s') : RenameMove ok s s' := by
  unfold renameStep at hs
  cases hr : s.rename <;> simp only [hr] at hs
  case notStarted => simp at hs
  case «begin» =>
    split at hs <;> cases hs
    · exact .begins hr
    · next hno => exact .beginFails hr (Bool.eq_false_iff.2 hno)
  case connectionId =>
    split at hs <;> cases hs
    · exact .connectionId hr
    · exact .fails (.inl hr)
  case lockWaitTimeout =>
    split at hs <;> cases hs
    · exact .lockWaitTimeout hr
    · exact .fails (.inr hr)
  case issue =>
    cases hs
    refine .issues _ hr ?_
    split <;> simp
  case issued =>
    split at hs
    · cases hs
      exact .renamed hr
    · cases hs
      exact .renameFails hr
    · simp at hs
  case returned => simp at hs

inductive MainMove (maxRetries : Nat) (s : CutOver) : CutOver → Prop where
  | tableLocked (err : Bool) (rest : List Bool) (h : s.main = .tableLocked)
      (h' : s.tableLocked = err :: rest) :
      MainMove maxRetries s { s with
        tableLocked := rest
        main := if err then .returning else .lockOriginalSessionId }
  | sessionId (id : Int) (rest : List Int) (h : s.main = .lockOriginalSessionId)
      (h' : s.lockOriginalSessionIdChan = id :: rest) :
      MainMove maxRetries s { s with
        lockOriginalSessionIdChan := rest, main := .writeChangelogState }
  | forward (main : MainAt) (sentinelInjected : Bool)
      (hlocked : s.main.locked = true ∧ main.locked = true)
      (hstarted : main.started = s.main.started)
      (hbefore : main.beforeStart = s.main.beforeStart) (hoks : main.oksSent = s.main.oksSent)
      (hno : main ≠ .lockOriginalSessionId ∧ main ≠ .renameSessionId ∧ main ≠ .tableUnlocked)
      (hw : main.work maxRetries < s.main.work maxRetries)
      (hinjected : s.sentinelInjected = true → sentinelInjected = true) :
      MainMove maxRetries s { s with main, sentinelInjected }
  | startRename (h : s.main = .startRename) :
      MainMove maxRetries s { s with rename := .begin, main := .renameSessionId }
  | renameSessionId (id : Int) (rest : List Int) (h : s.main = .renameSessionId)
      (h' : s.renameSessionIdChan = id :: rest) :
      MainMove maxRetries s { s with
        renameSessionIdChan := rest
        renameSessionId := id
        main := .waitForRename 0 }
  /-- an error exit, after or without a send -/
  | fails (n : Nat) (h : s.main.locked = true) (h' : s.main.oksSent = 0) (hn : n ≤ 1) :
      MainMove maxRetries s { s with
        okToUnlockTable := s.okToUnlockTable + n, main := .returning }
  | okToUnlockTable (h : s.main = .okToUnlockTable) :
      MainMove maxRetries s { s with
        okToUnlockTable := s.okToUnlockTable + 1, main := .tableUnlocked }
  | tableUnlocked (err : Bool) (rest : List Bool) (h : s.main = .tableUnlocked)
      (h' : s.tableUnlocked = err :: rest) :
      MainMove maxRetries s { s with
        tableUnlocked := rest
        main := if err then .returning else .tablesRenamed }
  | tablesRenamed (err : Bool) (rest : List Bool) (h : s.main = .tablesRenamed)
      (h' : s.tablesRenamed = err :: rest) :
      MainMove maxRetries s { s with tablesRenamed := rest, main := .returning }
  | returns (h : s.main = .returning) :
      MainMove maxRetries s { s with
        okToUnlockTable := s.okToUnlockTable + 1, main := .returned }

theorem mainStep_move {outcome : Outcome} (hs : s.mainStep maxRetries outcome = some s') :
    MainMove maxRetries s s' := by
  have hforward : ∀ {main : MainAt} {b : Bool},
      { s with main, sentinelInjected := b } = s' →
      s.main.locked = true ∧ main.locked = true → main.started = s.main.started →
      main.beforeStart = s.main.beforeStart → main.oksSent = s.main.oksSent →
      main ≠ .lockOriginalSessionId ∧ main ≠ .renameSessionId ∧ main ≠ .tableUnlocked →
      main.work maxRetries < s.main.work maxRetries → b = true ∨ b = s.sentinelInjected →
      MainMove maxRetries s s' := by
    rintro main b rfl hlocked hstarted hbefore hoks hno hw hb
    refine .forward main b hlocked hstarted hbefore hoks hno hw fun hinjected => ?_
    rcases hb with hb | hb
    · exact hb
    · exact hb.trans hinjected
  have hfails : ∀ {n : Nat},
      { s with okToUnlockTable := s.okToUnlockTable + n, main := .returning } = s' →
      s.main.locked = true → s.main.oksSent = 0 → n ≤ 1 → MainMove maxRetries s s' := by
    rintro n rfl h h' hn
    exact .fails n h h' hn
  unfold mainStep at hs
  cases hm : s.main <;> simp only [hm] at hs hforward hfails
  case tableLocked =>
    split at hs
    · simp at hs
    · next err rest ht =>
      cases hs
      exact .tableLocked err rest hm ht
  case lockOriginalSessionId =>
    split at hs
    · simp at hs
    · next id rest ht =>
      cases hs
      exact .sessionId id rest hm ht
  case writeChangelogState =>
    split at hs
    · exact hforward (Option.some.inj hs) ⟨rfl, rfl⟩ rfl rfl rfl (by simp) (by simp [MainAt.work])
        (.inl rfl)
    · exact hfails (n := 0) (Option.some.inj hs) rfl rfl (by omega)
  case eventsUpToLock =>
    split at hs
    · exact hforward (b := s.sentinelInjected) (Option.some.inj hs) ⟨rfl, rfl⟩ rfl rfl rfl
        (by simp) (by simp [MainAt.work]) (.inr rfl)
    · exact hfails (n := 0) (Option.some.inj hs) rfl rfl (by omega)
  case createTriggers =>
    split at hs
    · exact hforward (b := s.sentinelInjected) (Option.some.inj hs) ⟨rfl, rfl⟩ rfl rfl rfl
        (by simp) (by simp [MainAt.work]) (.inr rfl)
    · exact hfails (n := 0) (Option.some.inj hs) rfl rfl (by omega)
  case startRename =>
    cases hs
    exact .startRename hm
  case renameSessionId =>
    split at hs
    · simp at hs
    · next id rest ht =>
      cases hs
      exact .renameSessionId id rest hm ht
  case waitForRename i =>
    have hnext : some { s with main := .expectUsedLock } = some s' → MainMove maxRetries s s' :=
      fun hs => hforward (b := s.sentinelInjected) (Option.some.inj hs) ⟨rfl, rfl⟩ rfl rfl
        rfl (by simp) (by simp [MainAt.work]) (.inr rfl)
    split at hs
    · next hi =>
      split at hs
      · exact hfails (Option.some.inj hs) rfl rfl (Nat.le_refl 1)
      · split at hs
        · exact hnext hs
        · simp at hs
      · split at hs
        · simp at hs
        · exact hforward (b := s.sentinelInjected) (Option.some.inj hs) ⟨rfl, rfl⟩ rfl rfl
            rfl (by simp) (by simp [MainAt.work]; omega) (.inr rfl)
    · split at hs
      · exact hnext hs
      · exact hfails (Option.some.inj hs) rfl rfl (Nat.le_refl 1)
  case expectUsedLock =>
    split at hs
    · split at hs
      · exact hforward (b := s.sentinelInjected) (Option.some.inj hs) ⟨rfl, rfl⟩ rfl rfl rfl
          (by simp) (by simp [MainAt.work]) (.inr rfl)
      · simp at hs
    · exact hfails (n := 0) (Option.some.inj hs) rfl rfl (by omega)
  case okToUnlockTable =>
    cases hs
    exact .okToUnlockTable hm
  case tableUnlocked =>
    split at hs
    · simp at hs
    · next err rest ht =>
      cases hs
      exact .tableUnlocked err rest hm ht
  case tablesRenamed =>
    split at hs
    · simp at hs
    · next err rest ht =>
      cases hs
      exact .tablesRenamed err rest hm ht
  case returning =>
    cases hs
    exact .returns hm
  case returned => simp at hs

theorem sent_of_beforeLock {l : LockAt} (h : l.beforeLock = true) :
    l.lockedSent = 0 ∧ l.unlockedSent = 0 ∧ l.holding = false := by
  cases l <;> simp_all [LockAt.beforeLock, LockAt.lockedSent, LockAt.unlockedSent, LockAt.holding]

theorem idsSent_of_beforeLock {l : LockAt} (h : l.beforeLock = true) : l.idsSent ≤ 1 := by
  cases l <;> simp_all [LockAt.beforeLock, LockAt.idsSent]

theorem sent_of_holding {l : LockAt} (h : l.holding = true) :
    l.lockedSent = 1 ∧ l.idsSent = 1 ∧ l.unlockedSent = 0 ∧ l.beforeLock = false := by
  cases l <;> simp_all [LockAt.beforeLock, LockAt.lockedSent, LockAt.idsSent,
    LockAt.unlockedSent, LockAt.holding]

end CutOver

end GhOst.Logic
