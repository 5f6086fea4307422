import GhOst.Properties.CutOver

/-!
# The channels of the atomic cut-over

Three goroutines and six buffered channels. What is in a channel is counted by the places of the
goroutines that send (`Counted`), and a receive that is still to be served finds its peer before the
send (`Served`). The one exception is left out by a condition: `AtomicCutoverRename` returns an
error of `Begin` before its deferred sends are in place (`RenameBegins`).
-/

namespace GhOst.Logic

namespace CutOver

variable {s s' : CutOver} {maxRetries : Nat}

/-! ## The buffers -/

structure Counted (s : CutOver) : Prop where
  unstarted : s.main.beforeStart = true → s.rename = .notStarted
  tableLocked : s.tableLocked.length ≤ s.lock.lockedSent
  sessionIds : s.lockOriginalSessionIdChan.length ≤ s.lock.idsSent
  tableUnlocked : s.tableUnlocked.length ≤ s.lock.unlockedSent
  renameSessionIds : s.renameSessionIdChan.length ≤ s.rename.idsSent
  tablesRenamed : s.tablesRenamed.length ≤ s.rename.renamedSent
  okToUnlockTable : s.okToUnlockTable ≤ s.main.oksSent + s.rename.oksSent

theorem Counted.ofLock (h : s.Counted) {lock : LockAt} {old : OldTable} {ids : List Int}
    {tableLocked tableUnlocked : List Bool} {oks : Nat} {alive originalLocked : Bool}
    (htl : tableLocked.length + s.lock.lockedSent ≤ s.tableLocked.length + lock.lockedSent)
    (hids : ids.length + s.lock.idsSent ≤ s.lockOriginalSessionIdChan.length + lock.idsSent)
    (htu : tableUnlocked.length + s.lock.unlockedSent ≤
      s.tableUnlocked.length + lock.unlockedSent) (hoks : oks ≤ s.okToUnlockTable) :
    { s with
      lock, old, okToUnlockTable := oks, lockOriginalSessionIdChan := ids, tableLocked,
      tableUnlocked, lockSessionAlive := alive, originalLocked }.Counted := by
  have htl' := h.tableLocked
  have hids' := h.sessionIds
  have htu' := h.tableUnlocked
  exact { h with
    tableLocked := by dsimp only; omega
    sessionIds := by dsimp only; omega
    tableUnlocked := by dsimp only; omega
    okToUnlockTable := Nat.le_trans hoks h.okToUnlockTable }

theorem Counted.lockMove {ok : Bool} (h : s.Counted) (hmove : LockMove ok s s') : s'.Counted := by
  have hgo := @Counted.ofLock s h
  cases hmove with
  | forward lock old hb hb' hw hsame =>
    obtain ⟨h1, h2, -⟩ := sent_of_beforeLock hb
    exact hgo (by omega) (by omega) (by omega) (Nat.le_refl _)
  | fails hb hno =>
    obtain ⟨h1, h2, -⟩ := sent_of_beforeLock hb
    rw [h1, h2] at hgo
    exact hgo (by simp [LockAt.lockedSent]) (Nat.add_le_add_left (idsSent_of_beforeLock hb) _)
      (by simp [LockAt.unlockedSent]) (Nat.le_refl _)
  | holds lock old hb hb' =>
    obtain ⟨h1, h2, h3, -⟩ := sent_of_holding hb
    obtain ⟨h1', h2', h3', -⟩ := sent_of_holding hb'
    exact hgo (by omega) (by omega) (by omega) (Nat.le_refl _)
  | beginFails hl | connectionId hl | locks hl | told hl | unlocks _ _ hl | returns hl
  | ends _ hl =>
    rw [hl] at hgo
    exact hgo (by simp [LockAt.lockedSent]) (by simp [LockAt.idsSent])
      (by simp [LockAt.unlockedSent]) (by simp)

theorem Counted.ofRename (h : s.Counted) {rename : RenameAt} {statement : RenameStatement}
    {ids : List Int} {tablesRenamed : List Bool} {failed : Bool} {oks : Nat}
    (hstarted : s.rename ≠ .notStarted)
    (hids : ids.length + s.rename.idsSent ≤ s.renameSessionIdChan.length + rename.idsSent)
    (htr : tablesRenamed.length + s.rename.renamedSent ≤
      s.tablesRenamed.length + rename.renamedSent)
    (hoks : oks + s.rename.oksSent ≤ s.okToUnlockTable + rename.oksSent) :
    { s with
      rename, statement, renameSessionIdChan := ids, tablesRenamed,
      tableRenameKnownToHaveFailed := failed, okToUnlockTable := oks }.Counted := by
  have hids' := h.renameSessionIds
  have htr' := h.tablesRenamed
  have hoks' := h.okToUnlockTable
  exact { h with
    -- the renaming goroutine is started, so the main goroutine is past its start
    unstarted := fun hb => absurd (h.unstarted hb) hstarted
    renameSessionIds := by dsimp only; omega
    tablesRenamed := by dsimp only; omega
    okToUnlockTable := by dsimp only; omega }

theorem Counted.renameMove {ok : Bool} (h : s.Counted) (hmove : RenameMove ok s s') :
    s'.Counted := by
  have hgo := @Counted.ofRename s h
  cases hmove with
  | fails hr =>
    rcases hr with hr | hr <;> rw [hr] at hgo <;>
      exact hgo nofun (by simp [renameDeferred, RenameAt.idsSent])
        (by simp [renameDeferred, RenameAt.renamedSent])
        (by simp [renameDeferred, RenameAt.oksSent])
  | begins hr | beginFails hr | connectionId hr | lockWaitTimeout hr | issues _ hr | renamed hr
  | renameFails hr =>
    rw [hr] at hgo
    exact hgo nofun (by simp [renameDeferred, RenameAt.idsSent])
      (by simp [renameDeferred, RenameAt.renamedSent]) (by simp [renameDeferred, RenameAt.oksSent])

theorem Counted.ofMain (h : s.Counted) {main : MainAt} {id : Int} {ids renameIds : List Int}
    {tableLocked tableUnlocked tablesRenamed : List Bool} {oks : Nat} {injected : Bool}
    (hstart : main.beforeStart = true → s.main.beforeStart = true)
    (hoks : oks + s.main.oksSent ≤ s.okToUnlockTable + main.oksSent)
    (htl : tableLocked.length ≤ s.tableLocked.length)
    (hids : ids.length ≤ s.lockOriginalSessionIdChan.length)
    (htu : tableUnlocked.length ≤ s.tableUnlocked.length)
    (hrids : renameIds.length ≤ s.renameSessionIdChan.length)
    (htr : tablesRenamed.length ≤ s.tablesRenamed.length) :
    { s with
      main, okToUnlockTable := oks, lockOriginalSessionIdChan := ids, tableLocked, tableUnlocked,
      renameSessionIdChan := renameIds, tablesRenamed, renameSessionId := id,
      sentinelInjected := injected }.Counted := by
  have hoks' := h.okToUnlockTable
  exact { h with
    unstarted := fun hb => h.unstarted (hstart hb)
    tableLocked := Nat.le_trans htl h.tableLocked
    sessionIds := Nat.le_trans hids h.sessionIds
    tableUnlocked := Nat.le_trans htu h.tableUnlocked
    renameSessionIds := Nat.le_trans hrids h.renameSessionIds
    tablesRenamed := Nat.le_trans htr h.tablesRenamed
    okToUnlockTable := by dsimp only; omega }

theorem Counted.mainMove (h : s.Counted) (hmove : MainMove maxRetries s s') : s'.Counted := by
  have hgo := @Counted.ofMain s h
  cases hmove with
  | forward main injected hlocked hstarted hbefore hsame =>
    exact hgo (fun hb => hbefore ▸ hb) (by omega) (by simp) (by simp) (by simp) (by simp) (by simp)
  | startRename hm =>
    have hrids := h.renameSessionIds
    have htr := h.tablesRenamed
    have hoks := h.okToUnlockTable
    rw [h.unstarted (by rw [hm]; rfl)] at hrids htr hoks
    rw [hm] at hoks
    exact { h with
      unstarted := by simp [MainAt.beforeStart]
      renameSessionIds := hrids
      tablesRenamed := htr
      okToUnlockTable := hoks }
  | fails n hlocked hzero hn =>
    rw [hzero] at hgo
    exact hgo (by simp [MainAt.beforeStart]) (by simp [hn, MainAt.oksSent])
      (by simp) (by simp) (by simp) (by simp) (by simp)
  | tableLocked err _ hm ht | tableUnlocked err _ hm ht =>
    rw [hm, ht] at hgo
    exact hgo (by cases err <;> simp [MainAt.beforeStart]) (by cases err <;> simp [MainAt.oksSent])
      (by simp) (by simp) (by simp) (by simp) (by simp)
  | sessionId _ _ hm ht | renameSessionId _ _ hm ht | tablesRenamed _ _ hm ht =>
    rw [hm, ht] at hgo
    exact hgo (by simp [MainAt.beforeStart]) (by simp [MainAt.oksSent])
      (by simp) (by simp) (by simp) (by simp) (by simp)
  | okToUnlockTable hm | returns hm =>
    rw [hm] at hgo
    exact hgo (by simp [MainAt.beforeStart]) (by simp [MainAt.oksSent])
      (by simp) (by simp) (by simp) (by simp) (by simp)

/-! ## The receives -/

/-- The main goroutine has been told, or will be, that the tables are locked. -/
def ToldLocked (s : CutOver) : Prop :=
  s.main.locked = true ∨ s.main = .tableLocked ∧ s.tableLocked.head? = some false

/-- Each receive that is still to be served finds its peer before the send. -/
structure Served (s : CutOver) : Prop extends s.Counted where
  beforeLock : s.lock.beforeLock = true → s.main = .tableLocked ∧ s.tableLocked = []
  tableLockedServed : s.lock.beforeLock = false → s.main = .tableLocked → s.tableLocked ≠ []
  sessionIdKnown : s.lock.beforeLock = true → s.lock.idsSent = 1 →
    s.lockOriginalSessionIdChan ≠ []
  sessionIdServed : s.main = .lockOriginalSessionId ∨
    s.main = .tableLocked ∧ s.tableLocked.head? = some false → s.lockOriginalSessionIdChan ≠ []
  tableUnlockedServed : s.ToldLocked → s.lock.holding = true ∨ s.tableUnlocked ≠ []
  okToUnlockTableServed : s.lock = .okToUnlockTable →
    s.main = .tableUnlocked ∨ s.main = .tablesRenamed ∨ s.main = .returned →
    0 < s.okToUnlockTable
  renameSessionIdServed : s.main = .renameSessionId → s.renameSessionIdChan = [] →
    s.rename = .begin ∨ s.rename = .connectionId
  tablesRenamedServed : s.main.started = true →
    s.rename ≠ .notStarted ∧ (s.rename = .returned → s.tablesRenamed ≠ [])
  issued : s.rename = .issued → s.statement ≠ .notIssued
  originalLocked : s.originalLocked = true → s.lock.holding = true
  connected : s.rename = .notStarted ∨ s.rename = .begin → s.renameSessionAlive = true

theorem Served.init (old : OldTable) : Served { old } := by
  refine ⟨⟨?_, ?_, ?_, ?_, ?_, ?_, ?_⟩, ?_, ?_, ?_, ?_, ?_, ?_, ?_, ?_, ?_, ?_, ?_⟩ <;>
    simp [LockAt.idsSent, ToldLocked, MainAt.locked, MainAt.started, LockAt.beforeLock]

theorem Served.lockFailed (h : s.Served) {lock : LockAt}
    (ht : s' = { s with tableLocked := s.tableLocked ++ [true], lock }) (hcounted : s'.Counted)
    (hb : s.lock.beforeLock = true) (hl : lock = .returning ∨ lock = .returned) : s'.Served := by
  subst ht
  obtain ⟨hm, htable⟩ := h.beforeLock hb
  have hb' : lock.beforeLock = false := by rcases hl with hl | hl <;> rw [hl] <;> rfl
  exact { h with
    toCounted := hcounted
    beforeLock := by simp [hb']
    tableLockedServed := by simp
    sessionIdKnown := by simp [hb']
    sessionIdServed := by simp [hm, htable]
    tableUnlockedServed := by simp [ToldLocked, hm, htable, MainAt.locked]
    okToUnlockTableServed := by rcases hl with rfl | rfl <;> simp
    originalLocked := fun ho => by
      have hholding := h.originalLocked ho
      simp [(sent_of_beforeLock hb).2.2] at hholding }

theorem Served.lockMove {ok : Bool} (h : s.Served) (hmove : LockMove ok s s') : s'.Served := by
  have hcounted := h.toCounted.lockMove hmove
  cases hmove with
  | forward lock old hb hb' hw hids =>
    obtain ⟨hm, htable⟩ := h.beforeLock hb
    exact { h with
      toCounted := hcounted
      beforeLock := fun _ => ⟨hm, htable⟩
      tableLockedServed := by simp [hb']
      sessionIdKnown := fun _ hone => h.sessionIdKnown hb (hids ▸ hone)
      tableUnlockedServed := by
        rintro (hno | ⟨-, hno⟩)
        · simp [hm, MainAt.locked] at hno
        · simp [htable] at hno
      okToUnlockTableServed := fun hno => by
        have hno : lock = .okToUnlockTable := hno
        simp [hno, LockAt.beforeLock] at hb'
      originalLocked := fun ho => by
        have := h.originalLocked ho
        simp [(sent_of_beforeLock hb).2.2] at this }
  | beginFails hl =>
    exact h.lockFailed rfl hcounted (by rw [hl]; rfl) (.inr rfl)
  | connectionId hl =>
    obtain ⟨hm, htable⟩ := h.beforeLock (by rw [hl]; rfl)
    exact { h with
      toCounted := hcounted
      beforeLock := fun _ => ⟨hm, htable⟩
      tableLockedServed := by simp [LockAt.beforeLock]
      sessionIdKnown := fun _ _ => by simp
      sessionIdServed := fun _ => by simp
      tableUnlockedServed := by
        rintro (hno | ⟨-, hno⟩)
        · simp [hm, MainAt.locked] at hno
        · simp [htable] at hno
      okToUnlockTableServed := by simp
      originalLocked := fun ho => by
        have := h.originalLocked ho
        simp [hl, LockAt.holding] at this }
  | fails hb hno =>
    exact h.lockFailed rfl hcounted hb (.inl rfl)
  | locks hl =>
    have hb : s.lock.beforeLock = true := by rw [hl]; rfl
    obtain ⟨hm, htable⟩ := h.beforeLock hb
    exact { h with
      toCounted := hcounted
      beforeLock := by simp [LockAt.beforeLock]
      tableLockedServed := fun _ _ => by simp
      sessionIdKnown := by simp [LockAt.beforeLock]
      sessionIdServed := fun _ => h.sessionIdKnown hb (by rw [hl]; rfl)
      tableUnlockedServed := fun _ => .inl rfl
      okToUnlockTableServed := fun _ hno => by simp [hm] at hno
      originalLocked := fun _ => rfl }
  | told hl hpos =>
    exact { h with
      toCounted := hcounted
      beforeLock := by simp [LockAt.beforeLock]
      tableLockedServed := fun _ => h.tableLockedServed (by rw [hl]; rfl)
      sessionIdKnown := by simp [LockAt.beforeLock]
      tableUnlockedServed := fun _ => .inl rfl
      okToUnlockTableServed := by simp
      originalLocked := fun _ => rfl }
  | holds lock old hb hb' hne =>
    obtain ⟨-, -, -, hbl⟩ := sent_of_holding hb
    obtain ⟨-, -, -, hbl'⟩ := sent_of_holding hb'
    exact { h with
      toCounted := hcounted
      beforeLock := by simp [hbl']
      tableLockedServed := fun _ => h.tableLockedServed hbl
      sessionIdKnown := by simp [hbl']
      tableUnlockedServed := fun _ => .inl hb'
      okToUnlockTableServed := fun hno => absurd hno hne.2
      originalLocked := fun _ => hb' }
  | unlocks alive err hl =>
    exact { h with
      toCounted := hcounted
      beforeLock := by simp [LockAt.beforeLock]
      tableLockedServed := fun _ => h.tableLockedServed (by rw [hl]; rfl)
      sessionIdKnown := by simp [LockAt.beforeLock]
      tableUnlockedServed := fun _ => .inr (by simp)
      okToUnlockTableServed := by simp
      originalLocked := by simp }
  | returns hl =>
    have hunlocked : s.originalLocked = false := by
      by_contra ho
      have := h.originalLocked (by simpa using ho)
      simp [hl, LockAt.holding] at this
    exact { h with
      toCounted := hcounted
      beforeLock := by simp [LockAt.beforeLock]
      tableLockedServed := fun _ _ => by simp
      sessionIdKnown := by simp [LockAt.beforeLock]
      sessionIdServed := fun _ => by simp
      tableUnlockedServed := fun _ => .inr (by simp)
      okToUnlockTableServed := by simp
      originalLocked := by simp [hunlocked] }
  | ends old hl =>
    exact { h with
      toCounted := hcounted
      beforeLock := by simp [LockAt.beforeLock]
      tableLockedServed := fun _ => h.tableLockedServed (by rw [hl]; rfl)
      sessionIdKnown := by simp [LockAt.beforeLock]
      tableUnlockedServed := fun ht => by
        rcases h.tableUnlockedServed ht with hno | hne
        · simp [hl, LockAt.holding] at hno
        · exact .inr hne
      okToUnlockTableServed := by simp
      originalLocked := fun ho => by
        have := h.originalLocked ho
        simp [hl, LockAt.holding] at this }

/-- `Begin` of the renaming goroutine succeeds, and there is no session to lose before it. -/
def RenameBegins (s : CutOver) : CutOverAction → Prop
  | .rename ok => s.rename = .begin → ok = true
  | .killRenameSession => s.rename ≠ .notStarted ∧ s.rename ≠ .begin
  | _ => True

instance (s : CutOver) (a : CutOverAction) : Decidable (s.RenameBegins a) := by
  cases a <;> unfold RenameBegins <;> infer_instance

theorem Served.ofRename (h : s.Served) {rename : RenameAt} {statement : RenameStatement}
    {ids : List Int} {tablesRenamed : List Bool} {failed : Bool} {oks : Nat}
    (ht : s' = { s with
      rename, statement, renameSessionIdChan := ids, tablesRenamed,
      tableRenameKnownToHaveFailed := failed, okToUnlockTable := oks }) (hcounted : s'.Counted)
    (hoks : s.okToUnlockTable ≤ oks)
    (hids : s.main = .renameSessionId → ids = [] → rename = .begin ∨ rename = .connectionId)
    (hstarted : rename ≠ .notStarted ∧ rename ≠ .begin)
    (hsent : rename = .returned → tablesRenamed ≠ [])
    (hissued : rename = .issued → statement ≠ .notIssued) : s'.Served := by
  subst ht
  exact { h with
    toCounted := hcounted
    okToUnlockTableServed := fun hlock hmain =>
      Nat.lt_of_lt_of_le (h.okToUnlockTableServed hlock hmain) hoks
    renameSessionIdServed := hids
    tablesRenamedServed := fun _ => ⟨hstarted.1, hsent⟩
    issued := hissued
    connected := fun hno => absurd hno (not_or.2 hstarted) }

theorem Served.renameMove {ok : Bool} (h : s.Served) (hok : s.rename = .begin → ok = true)
    (hmove : RenameMove ok s s') : s'.Served := by
  have hcounted := h.toCounted.renameMove hmove
  have hlater : s.rename ≠ .begin ∧ s.rename ≠ .connectionId → s.main = .renameSessionId →
      s.renameSessionIdChan = [] → False := by
    intro hne hm hnil
    rcases h.renameSessionIdServed hm hnil with hr | hr
    · exact hne.1 hr
    · exact hne.2 hr
  cases hmove with
  | begins hr =>
    exact h.ofRename rfl hcounted (Nat.le_refl _)
      (fun _ _ => .inr rfl) (by simp) (by simp) (by simp)
  | beginFails hr hno =>
    rw [hok hr, h.connected (.inr hr)] at hno
    simp at hno
  | connectionId hr =>
    exact h.ofRename rfl hcounted (Nat.le_refl _)
      (by simp) (by simp) (by simp) (by simp)
  | lockWaitTimeout hr =>
    exact h.ofRename rfl hcounted (Nat.le_refl _)
      (fun hm hnil => (hlater (by simp [hr]) hm hnil).elim) (by simp) (by simp) (by simp)
  | fails hr =>
    exact h.ofRename rfl hcounted (Nat.le_succ _)
      (by simp [renameDeferred]) (by simp) (by simp [renameDeferred]) (by simp)
  | issues statement hr hst =>
    refine h.ofRename rfl hcounted (Nat.le_refl _)
      (fun hm hnil => (hlater (by simp [hr]) hm hnil).elim) (by simp) (by simp) fun _ => ?_
    rcases hst with rfl | rfl <;> simp
  | renamed hr =>
    exact h.ofRename rfl hcounted (Nat.le_refl _)
      (by simp [renameDeferred]) (by simp) (by simp [renameDeferred]) (by simp)
  | renameFails hr =>
    exact h.ofRename rfl hcounted (Nat.le_succ _)
      (by simp [renameDeferred]) (by simp) (by simp [renameDeferred]) (by simp)

theorem Served.not_beforeLock (h : s.Served) (hm : s.main ≠ .tableLocked ∨ s.tableLocked ≠ []) :
    s.lock.beforeLock = false := by
  by_contra hb
  obtain ⟨hm', ht'⟩ := h.beforeLock (by simpa using hb)
  rcases hm with hm | ht
  · exact hm hm'
  · exact ht ht'

theorem Served.ofMain (h : s.Served) {main : MainAt} {id : Int} {ids renameIds : List Int}
    {tableUnlocked tablesRenamed : List Bool} {oks : Nat} {injected : Bool}
    (ht : s' = { s with
      main, okToUnlockTable := oks, lockOriginalSessionIdChan := ids, tableUnlocked,
      renameSessionIdChan := renameIds, tablesRenamed, renameSessionId := id,
      sentinelInjected := injected }) (hcounted : s'.Counted) (hm : s.main ≠ .tableLocked)
    (hm' : main ≠ .tableLocked ∧ main ≠ .lockOriginalSessionId ∧ main ≠ .renameSessionId)
    (hunlocked : main.locked = true → s.main.locked = true ∧ tableUnlocked = s.tableUnlocked)
    (hoks : main = .tableUnlocked ∨ main = .tablesRenamed ∨ main = .returned →
      s.lock = .okToUnlockTable → 0 < oks)
    (hrenamed : main.started = true → s.main.started = true ∧ tablesRenamed = s.tablesRenamed) :
    s'.Served := by
  subst ht
  have hb := h.not_beforeLock (.inl hm)
  refine { h with
    toCounted := hcounted
    beforeLock := by simp [hb]
    tableLockedServed := fun _ hno => absurd hno hm'.1
    sessionIdKnown := by simp [hb]
    sessionIdServed := by simp [hm'.1, hm'.2.1]
    tableUnlockedServed := ?_
    okToUnlockTableServed := fun hlock hmain => hoks hmain hlock
    renameSessionIdServed := fun hno => absurd hno hm'.2.2
    tablesRenamedServed := fun hstarted => ?_ }
  · rintro (hlocked | ⟨hno, -⟩)
    · obtain ⟨hbefore, rfl⟩ := hunlocked hlocked
      exact h.tableUnlockedServed (.inl hbefore)
    · exact absurd hno hm'.1
  · obtain ⟨hbefore, rfl⟩ := hrenamed hstarted
    exact h.tablesRenamedServed hbefore

theorem Served.mainMove (h : s.Served) (hmove : MainMove maxRetries s s') : s'.Served := by
  have hcounted := h.toCounted.mainMove hmove
  cases hmove with
  | tableLocked err rest hm ht =>
    have hb := h.not_beforeLock (.inr (by simp [ht]))
    refine ⟨hcounted, by simp [hb], fun _ hno => ?_, by simp [hb],
      fun hm' => ?_, fun hm' => ?_, fun _ hm' => ?_, fun hm' => ?_, fun hm' => ?_, h.issued,
      h.originalLocked, h.connected⟩
    · cases err <;> simp at hno
    · cases err with
      | true => simp at hm'
      | false => exact h.sessionIdServed (.inr ⟨hm, by simp [ht]⟩)
    · cases err with
      | true => simp [ToldLocked, MainAt.locked] at hm'
      | false => exact h.tableUnlockedServed (.inr ⟨hm, by simp [ht]⟩)
    · cases err <;> simp at hm'
    · cases err <;> simp at hm'
    · cases err <;> simp [MainAt.started] at hm'
  | sessionId id rest hm ht =>
    exact h.ofMain rfl hcounted (by simp [hm]) (by simp)
      (fun _ => ⟨by rw [hm]; rfl, rfl⟩) (by simp) (by simp [MainAt.started])
  | forward main injected hlocked hstarted hbefore hoks hne =>
    have hm : s.main ≠ .tableLocked := by
      intro hm
      simp [hm, MainAt.locked] at hlocked
    have hm' : main ≠ .tableLocked ∧ main ≠ .tablesRenamed ∧ main ≠ .returned := by
      refine ⟨?_, ?_, ?_⟩ <;>
      · rintro rfl
        simp [MainAt.locked] at hlocked
    refine h.ofMain rfl hcounted hm ⟨hm'.1, hne.1, hne.2.1⟩
      (fun _ => ⟨hlocked.1, rfl⟩) ?_ (fun hs => ⟨hstarted ▸ hs, rfl⟩)
    rintro (hno | hno | hno)
    · exact absurd hno hne.2.2
    · exact absurd hno hm'.2.1
    · exact absurd hno hm'.2.2
  | startRename hm =>
    have hb := h.not_beforeLock (.inl (by simp [hm]))
    have hns := h.unstarted (by rw [hm]; rfl)
    exact { h with
      toCounted := hcounted
      beforeLock := by simp [hb]
      tableLockedServed := fun _ hno => by simp at hno
      sessionIdKnown := by simp [hb]
      sessionIdServed := by simp
      tableUnlockedServed := fun _ => h.tableUnlockedServed (.inl (by rw [hm]; rfl))
      okToUnlockTableServed := fun _ hno => by simp at hno
      renameSessionIdServed := fun _ _ => .inl rfl
      tablesRenamedServed := fun _ => by simp
      issued := by simp
      connected := fun _ => h.connected (.inl hns) }
  | renameSessionId id rest hm ht =>
    exact h.ofMain rfl hcounted (by simp [hm]) (by simp)
      (fun _ => ⟨by rw [hm]; rfl, rfl⟩) (by simp) (fun _ => ⟨by rw [hm]; rfl, rfl⟩)
  | fails n hlocked hzero hn =>
    have hm : s.main ≠ .tableLocked := by
      intro hm
      simp [hm, MainAt.locked] at hlocked
    exact h.ofMain rfl hcounted hm (by simp) (by simp [MainAt.locked])
      (by simp) (by simp [MainAt.started])
  | okToUnlockTable hm =>
    exact h.ofMain rfl hcounted (by simp [hm]) (by simp)
      (fun _ => ⟨by rw [hm]; rfl, rfl⟩) (fun _ _ => Nat.succ_pos _)
      (fun _ => ⟨by rw [hm]; rfl, rfl⟩)
  | tableUnlocked err rest hm ht =>
    refine h.ofMain rfl hcounted (by simp [hm]) ?_ ?_
      (fun _ hl => h.okToUnlockTableServed hl (.inl hm)) (fun _ => ⟨by rw [hm]; rfl, rfl⟩)
    · cases err <;> simp
    · cases err <;> simp [MainAt.locked]
  | tablesRenamed err rest hm ht =>
    exact h.ofMain rfl hcounted (by simp [hm]) (by simp)
      (by simp [MainAt.locked]) (by simp) (by simp [MainAt.started])
  | returns hm =>
    exact h.ofMain rfl hcounted (by simp [hm]) (by simp)
      (by simp [MainAt.locked]) (fun _ _ => Nat.succ_pos _) (by simp [MainAt.started])

/-! ## The server -/

theorem Served.ofServer (h : s.Served) (st : RenameStatement) (old : OldTable)
    (writesAtRename : Option Nat) (alive locked : Bool)
    (hst : st = .notIssued → s.statement = .notIssued)
    (hlocked : locked = true → s.originalLocked = true) :
    ({ s with
      statement := st
      old := old
      writesAtRename := writesAtRename
      lockSessionAlive := alive
      originalLocked := locked } : CutOver).Served :=
  { h with
    issued := fun hr hno => h.issued hr (hst hno)
    originalLocked := fun ho => h.originalLocked (hlocked ho) }

theorem executeRename_served (h : s.Served) : s.executeRename.Served := by
  unfold executeRename
  split
  · exact h.ofServer .succeeded .other (some s.writes) s.lockSessionAlive s.originalLocked
      (by simp) id
  · exact h.ofServer .failed s.old s.writesAtRename s.lockSessionAlive s.originalLocked
      (by simp) id

theorem Served.endRename (h : s.Served) : s.endRename.Served := by
  refine h.ofServer _ s.old s.writesAtRename s.lockSessionAlive s.originalLocked ?_ id
  split
  · simp
  · exact id

theorem Served.step {a : CutOverAction} (h : s.Served) (hok : s.RenameBegins a)
    (hs : s.step maxRetries a = some s') : s'.Served := by
  cases a with
  | lock ok => exact h.lockMove (lockStep_move hs)
  | rename ok => exact h.renameMove hok (renameStep_move hs)
  | main outcome => exact h.mainMove (mainStep_move hs)
  | grantRename =>
    obtain ⟨-, rfl⟩ := Infra.of_guard hs
    exact executeRename_served h
  | renameWaits =>
    obtain ⟨-, rfl⟩ := Infra.of_guard hs
    exact h.ofServer .waiting s.old s.writesAtRename s.lockSessionAlive s.originalLocked
      (by simp) id
  | renameTimeout =>
    cases hs
    exact h.endRename
  | killLockSession =>
    cases hs
    exact h.ofServer s.statement s.old s.writesAtRename false false id (by simp)
  | killRenameSession =>
    cases hs
    have h' := h.endRename
    exact { h' with connected := fun hno => absurd hno (not_or.2 hok) }
  | applicationWrite =>
    obtain ⟨-, rfl⟩ := Infra.of_guard hs
    exact { h with }

end CutOver

end GhOst.Logic
