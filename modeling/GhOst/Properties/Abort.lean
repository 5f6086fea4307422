import GhOst.Logic.Abort
import GhOst.Properties.Progress

/-!
# The error that `Migrate` returns after an abort

From the moment an error is stored `Migrate` is on its way to return it, the first that was stored
(`Inv.heeds`, `Owes`), in runs in which no error is stored at a place that does not look at it any
more, and a call that ends while one is stored fails with it or leaves it to the retrier
(`Observed`).
-/

namespace GhOst.Logic

open Infra

def AborterAt.stores : AborterAt → Option String
  | .setAbortError err => some err
  | _ => none

def DispatcherAt.stores : DispatcherAt → Option String
  | .setAbortError err => some err
  | _ => none

def MigrateOutcome.fails : MigrateOutcome → Bool
  | .err _ => true
  | _ => false

/-- A step of `Migrate`, or of the goroutines that it waits for after the cancellation. -/
def MigrateAction.progresses : MigrateAction → Bool
  | .main _ | .collect => true
  | .cutOver a => a.progresses
  | _ => false

namespace MigratePlace

/-- The attempt that the cut-over proper is. -/
def attempt : MigratePlace → Option Nat
  | .atomicCutOver i | .cutOverTwoStep i => some i
  | _ => none

/-- From here `Migrate` can still return `err` when it is stored. -/
def heeds (resume : Bool) (err : String) : MigratePlace → Bool
  -- the receive from `ghostTableMigrated` does not look at the context
  | .createFlagFiles | .ghostTableMigrated => resume
  | .panicAbort own => own == err
  -- `Migrate` returns nil when `finalCleanup` fails
  | .finalCleanup => false
  | _ => true

/-- The steps that are left once the error is stored and the context cancelled. -/
def work : MigratePlace → Nat
  | .initiateInspector => 19
  | .initiateStreaming => 18
  | .initiateApplier => 17
  | .createFlagFiles => 16
  | .ghostTableMigrated => 15
  | .prepare => 14
  | .firstThrottlingCollected n => n + 7
  | .onBeforeRowCopy => 6
  | .rowCopyComplete => 5
  | .rowCopyCheckAbort => 4
  | .onBeforeCutOver => 3
  | .retry _ => 2
  | .throttle _ => 6
  | .sleepWhileTrue _ => 5
  | .atomicCutOver _ => 4
  | .cutOverTwoStep _ => 4
  | .panicAbort _ => 1
  | .finalCleanup => 3
  | .onSuccess => 2
  | .checkAbort => 1
  | .returned => 0

end MigratePlace

namespace MigrateRun

variable {ctx : MigrateContext} {s s' t : MigrateRun} {a : MigrateAction} {outcome : MigrateOutcome}
variable {err : String} {done : Bool} {i : Nat}

/-- What a goroutine that is at `SetAbortError` stores. -/
def stores (s : MigrateRun) : MigrateAction → Option String
  | .listener => s.listenOnPanicAbort.stores
  | .drain => s.drain.stores
  | .dispatcher => s.dispatcher.stores
  | _ => none

/-- A call that ends while `err` is stored fails with `err`, if it fails; an attempt of the cut-over
fails, and with another error it is not the last one. -/
def leaves (ctx : MigrateContext) (s : MigrateRun) (outcome : MigrateOutcome) (err : String) :
    Bool :=
  outcome == .err err ||
    match s.main.attempt with
    | some i => outcome.fails && decide (i + 1 < ctx.maxRetries)
    | none => !outcome.fails

/-- The first error is stored where `Migrate` looks at it, what `Migrate` calls leaves it, and the
renaming session is begun. -/
def Observed (ctx : MigrateContext) (s : MigrateRun) (a : MigrateAction) : Prop :=
  (∀ err ∈ s.stores a, s.abortError = none → s.main.heeds ctx.resume err = true) ∧
    match a with
    | .main outcome => ∀ err ∈ s.abortError, s.leaves ctx outcome err = true
    | .cutOver b => s.cutOver.RenameBegins b
    | _ => True

instance : Decidable (s.Observed ctx a) := by
  cases a <;> unfold Observed <;> infer_instance

/-- A goroutine is between `SetAbortError` and `CancelContext`. -/
def Aborting (s : MigrateRun) : Prop :=
  s.listenOnPanicAbort = .cancelContext ∨ s.drain = .cancelContext ∨
    s.dispatcher = .cancelContext

def cutOverWork (ctx : MigrateContext) (s : MigrateRun) : Nat :=
  match s.main with
  | .atomicCutOver _ => s.cutOver.work ctx.maxRetries
  | _ => 0

def work (ctx : MigrateContext) (s : MigrateRun) : Nat :=
  s.main.work + s.collectors + s.cutOverWork ctx

structure Aborted (s : MigrateRun) : Prop where
  cancelled : s.cancelled = true
  stored : s.abortError.isSome = true ∨ s.main = .returned

/-! ## What the goroutines do to `Migrate` -/

def Frame (s s' : MigrateRun) : Prop :=
  s' = { s with
    listenOnPanicAbort := s'.listenOnPanicAbort, streamer := s'.streamer
    dispatcher := s'.dispatcher, applyEventsQueue := s'.applyEventsQueue
    iterateChunks := s'.iterateChunks, executeWriteFuncs := s'.executeWriteFuncs
    hasNoFurtherRangeFlag := s'.hasNoFurtherRangeFlag
    rowCopyCompleteFlag := s'.rowCopyCompleteFlag, drain := s'.drain }

theorem Frame.trans (h : Frame s t) (h' : Frame t s') : Frame s s' :=
  Eq.trans h' (by rw [h])

/-- Nobody comes to `CancelContext`, and a dispatcher that has stopped does not come back. -/
structure Quiet (s s' : MigrateRun) : Prop where
  aborting : s'.Aborting → s.Aborting
  stopped : s.dispatcher = .returned → s'.dispatcher = .returned

theorem Quiet.of_same (h : Quiet s t)
    (hsame : s'.listenOnPanicAbort = t.listenOnPanicAbort ∧ s'.drain = t.drain ∧
      s'.dispatcher = t.dispatcher) : Quiet s s' := by
  obtain ⟨hl, hdrain, hd⟩ := hsame
  refine ⟨fun hab => h.aborting ?_, fun hr => hd.trans (h.stopped hr)⟩
  rw [Aborting, hl, hdrain, hd] at hab
  exact hab

inductive PeerMove (s : MigrateRun) (a : MigrateAction) : MigrateRun → Prop where
  | quiet {s' : MigrateRun} (frame : Frame s s') (quiet : Quiet s s') : PeerMove s a s'
  | stores {s' : MigrateRun} (err : String) (ha : s.stores a = some err)
      (frame : Frame (s.setAbortError err) s')
      (stopped : s.dispatcher = .returned → s'.dispatcher = .returned) : PeerMove s a s'
  | cancels {s' : MigrateRun} (ha : s.Aborting) (frame : Frame s.cancelContext s')
      (stopped : s.dispatcher = .returned → s'.dispatcher = .returned) : PeerMove s a s'
  | ghostTableMigrated {s' : MigrateRun} (hm : s.main = .ghostTableMigrated)
      (frame : Frame { s with main := .prepare } s') (quiet : Quiet s s')
      (hd : s.dispatcher ≠ .returned) : PeerMove s a s'
  | rowCopyComplete {s' : MigrateRun} (hm : s.main = .rowCopyComplete)
      (frame : Frame { s with main := .rowCopyCheckAbort } s') (quiet : Quiet s s') :
      PeerMove s a s'
  | rowCopyFailed {s' : MigrateRun} (err : String) (hm : s.main = .rowCopyComplete)
      (frame : Frame { (s.setAbortError err).cancelContext with main := .rowCopyCheckAbort } s') :
      PeerMove s a s'

theorem sendPanicAbort_quiet (h : s.sendPanicAbort err done = some s') :
    Frame s s' ∧ Quiet s s' := by
  unfold sendPanicAbort at h
  split at h
  · obtain ⟨-, rfl⟩ := of_guard h
    exact ⟨rfl, id, id⟩
  · obtain ⟨-, rfl⟩ := of_guard h
    refine ⟨rfl, ?_, id⟩
    rintro (hno | hab)
    · simp at hno
    · exact .inr hab

theorem PeerMove.panicAbort (h : s.sendPanicAbort err done = some t) (frame : Frame t s')
    (hsame : s'.listenOnPanicAbort = t.listenOnPanicAbort ∧ s'.drain = t.drain ∧
      s'.dispatcher = t.dispatcher) : PeerMove s a s' := by
  obtain ⟨hf, hq⟩ := sendPanicAbort_quiet h
  exact .quiet (hf.trans frame) (hq.of_same hsame)

theorem PeerMove.of_frame (ht : some t = some s') (frame : Frame s t)
    (hl : t.listenOnPanicAbort = s.listenOnPanicAbort ∧ t.drain = s.drain)
    (hd : t.dispatcher = s.dispatcher ∨ s.dispatcher ≠ .returned ∧ t.dispatcher ≠ .cancelContext) :
    PeerMove s a s' := by
  obtain rfl := Option.some.inj ht
  rcases hd with hd | ⟨hd, hd'⟩
  · exact .quiet frame (Quiet.of_same ⟨id, id⟩ ⟨hl.1, hl.2, hd⟩)
  · refine .quiet frame ⟨fun hab => ?_, fun hr => absurd hr hd⟩
    rw [Aborting, hl.1, hl.2] at hab
    rcases hab with hab | hab | hno
    · exact .inl hab
    · exact .inr (.inl hab)
    · exact absurd hno hd'

theorem quiet_drain {rowCopyCompleteFlag : Bool} {main : MigratePlace} {drain : AborterAt}
    (h : drain ≠ .cancelContext) : Quiet s { s with main, rowCopyCompleteFlag, drain } := by
  refine ⟨?_, id⟩
  rintro (hab | hno | hab)
  · exact .inl hab
  · exact absurd hno h
  · exact .inr (.inr hab)

theorem PeerMove.rowCopy {err : Option String} (h : s.sendRowCopyComplete err done = some t)
    (frame : Frame t s')
    (hsame : s'.listenOnPanicAbort = t.listenOnPanicAbort ∧ s'.drain = t.drain ∧
      s'.dispatcher = t.dispatcher) : PeerMove s a s' := by
  unfold sendRowCopyComplete at h
  split at h
  · obtain ⟨-, rfl⟩ := of_guard h
    exact .quiet frame (Quiet.of_same ⟨id, id⟩ hsame)
  · unfold receiveRowCopyComplete at h
    split at h
    · next hm =>
      split at h
      · next err =>
        cases h
        exact .rowCopyFailed err hm frame
      · cases h
        exact .rowCopyComplete hm (Frame.trans (by rfl) frame)
          ((quiet_drain (by simp)).of_same hsame)
    · split at h
      · split at h
        · cases h
          exact .quiet (Frame.trans (by rfl) frame) ((quiet_drain (by simp)).of_same hsame)
        · cases h
          exact .quiet frame (Quiet.of_same ⟨id, id⟩ hsame)
      · simp at h

theorem iterate_move (h : s.iterateSends done = some s') : PeerMove s a s' := by
  unfold iterateSends at h
  split at h
  · split at h
    · split at h
      · exact .of_frame h rfl ⟨rfl, rfl⟩ (.inl rfl)
      · simp at h
    · split at h
      · exact .of_frame h rfl ⟨rfl, rfl⟩ (.inl rfl)
      · simp at h
  · obtain ⟨t, ht, rfl⟩ := Option.map_eq_some_iff.1 h
    exact .rowCopy ht rfl ⟨rfl, rfl, rfl⟩
  · simp at h

theorem writerSends_move (h : s.writerSends done = some s') : PeerMove s a s' := by
  unfold writerSends at h
  split at h
  · obtain ⟨t, ht, rfl⟩ := Option.map_eq_some_iff.1 h
    exact .panicAbort ht rfl ⟨rfl, rfl, rfl⟩
  · obtain ⟨t, ht, rfl⟩ := Option.map_eq_some_iff.1 h
    exact .rowCopy ht rfl ⟨rfl, rfl, rfl⟩
  · simp at h

theorem writerStep_eq (h : s.writerStep outcome = some s') :
    ∃ executeWriteFuncs applyEventsQueue hasNoFurtherRangeFlag,
      s' = { s with executeWriteFuncs, applyEventsQueue, hasNoFurtherRangeFlag } := by
  unfold writerStep at h
  split at h
  · split at h <;> exact ⟨_, _, _, (Option.some.inj h).symm⟩
  · split at h <;> exact ⟨_, _, _, (Option.some.inj h).symm⟩
  · split at h
    · exact ⟨_, _, _, (Option.some.inj h).symm⟩
    · exact ⟨_, _, _, (Option.some.inj h).symm⟩
    · exact ⟨_, _, _, (Option.some.inj h).symm⟩
    · simp at h
  · split at h
    · exact ⟨_, _, _, (Option.some.inj h).symm⟩
    · exact ⟨_, _, _, (Option.some.inj h).symm⟩
    · split at h <;> exact ⟨_, _, _, (Option.some.inj h).symm⟩
    · exact ⟨_, _, _, (Option.some.inj h).symm⟩
  · exact ⟨_, _, _, (Option.some.inj h).symm⟩
  · simp at h

theorem notifyListeners_move {entry : EntryKind}
    (h : s.notifyListeners ctx entry = some s') : PeerMove s a s' := by
  unfold notifyListeners at h
  split at h
  · next hd =>
    split at h
    · exact .of_frame h rfl ⟨rfl, rfl⟩ (.inr (by simp [hd]))
    · split at h
      · split at h
        · exact .of_frame h rfl ⟨rfl, rfl⟩ (.inr (by simp [hd]))
        · simp at h
      · exact .of_frame h rfl ⟨rfl, rfl⟩ (.inr (by simp [hd]))
      · exact .of_frame h rfl ⟨rfl, rfl⟩ (.inl rfl)
      · exact .of_frame h rfl ⟨rfl, rfl⟩ (.inr (by simp [hd]))
  · simp at h

theorem dispatcherSends_move (h : s.dispatcherSends ctx done = some s') : PeerMove s a s' := by
  unfold dispatcherSends at h
  split at h
  · next hd =>
    split at h
    · split at h
      · exact .of_frame h rfl ⟨rfl, rfl⟩ (.inr (by simp [hd]))
      · simp at h
    · obtain ⟨hm, rfl⟩ := of_guard h
      refine .ghostTableMigrated hm rfl ⟨?_, fun hr => ?_⟩ (by simp [hd])
      · rintro (hl | hdrain | hno)
        · exact .inl hl
        · exact .inr (.inl hdrain)
        · simp at hno
      · simp [hd] at hr
  · next hd =>
    split at h
    · split at h
      · exact .of_frame h rfl ⟨rfl, rfl⟩ (.inr (by simp [hd]))
      · simp at h
    · split at h
      · exact .of_frame h rfl ⟨rfl, rfl⟩ (.inr (by simp [hd]))
      · simp at h
  · simp at h

theorem peer_move (h : s.step ctx a = some s') (hmain : ∀ o, a ≠ .main o)
    (hcut : ∀ b, a ≠ .cutOver b) (hcollect : a ≠ .collect) : PeerMove s a s' := by
  cases a with
  | main o => exact absurd rfl (hmain o)
  | cutOver b => exact absurd rfl (hcut b)
  | collect => exact absurd rfl hcollect
  | listener =>
    simp only [MigrateRun.step, aborterStep] at h
    split at h
    · next err hl =>
      cases h
      exact .stores err (by simp [stores, hl, AborterAt.stores]) rfl id
    · next hl =>
      cases h
      exact .cancels (.inl hl) rfl id
    · simp at h
  | drain =>
    simp only [MigrateRun.step, aborterStep] at h
    split at h
    · next err hl =>
      cases h
      exact .stores err (by simp [stores, hl, AborterAt.stores]) rfl id
    · next hl =>
      cases h
      exact .cancels (.inr (.inl hl)) rfl id
    · simp at h
  | fatal err => exact .panicAbort h rfl ⟨rfl, rfl, rfl⟩
  | streamerFails err =>
    simp only [MigrateRun.step, MigrateRun.streamerFails] at h
    split at h
    · exact .of_frame h rfl ⟨rfl, rfl⟩ (.inl rfl)
    · simp at h
  | streamerSends done =>
    simp only [MigrateRun.step, MigrateRun.streamerSends] at h
    split at h
    · obtain ⟨t, ht, rfl⟩ := Option.map_eq_some_iff.1 h
      exact .panicAbort ht rfl ⟨rfl, rfl, rfl⟩
    · simp at h
  | notifyListeners entry => exact notifyListeners_move h
  | dispatcherSends done => exact dispatcherSends_move h
  | dispatcher =>
    simp only [MigrateRun.step, dispatcherStep] at h
    split at h
    · next hd =>
      split at h
      · exact .of_frame h rfl ⟨rfl, rfl⟩ (.inr (by simp [hd]))
      · simp at h
    · next err hd =>
      cases h
      exact .stores err (by simp [stores, hd, DispatcherAt.stores]) rfl (by simp [hd])
    · next hd =>
      cases h
      exact .cancels (.inr (.inr hd)) rfl (by simp [hd])
    · simp at h
  | iterate =>
    simp only [MigrateRun.step, iterateStep] at h
    split at h
    · split at h
      · exact .of_frame h rfl ⟨rfl, rfl⟩ (.inl rfl)
      · exact .of_frame h rfl ⟨rfl, rfl⟩ (.inl rfl)
    · simp at h
  | iterateSends done => exact iterate_move h
  | writer outcome =>
    obtain ⟨_, _, _, rfl⟩ := writerStep_eq h
    exact .of_frame rfl rfl ⟨rfl, rfl⟩ (.inl rfl)
  | writerSends done => exact writerSends_move h

/-! ## What `Migrate` does -/

theorem checkAbort_of_stored (h : s.abortError = some err) : s.checkAbort = some err := by
  unfold checkAbort
  rw [h]

theorem not_stored_of_checkAbort (h : s.checkAbort = none) : s.abortError ≠ some err := by
  intro hstored
  simp [checkAbort_of_stored hstored] at h

theorem Aborted.checkAbort (h : s.Aborted) (hm : s.main ≠ .returned) : s.checkAbort ≠ none := by
  obtain ⟨err, herr⟩ := Option.isSome_iff_exists.1 (h.stored.resolve_right hm)
  simp [checkAbort_of_stored herr]

theorem leaves_err {own : String} (hm : s.main.attempt = some i)
    (h : s.leaves ctx outcome err = true) (hown : outcome = .err own) :
    own = err ∨ i + 1 < ctx.maxRetries := by
  subst hown
  simpa [leaves, hm, MigrateOutcome.fails] using h

theorem leaves_fails (h : s.leaves ctx outcome err = true) (hm : s.main.attempt ≠ none) :
    ∃ own, outcome = .err own := by
  unfold leaves at h
  cases outcome with
  | err own => exact ⟨own, rfl⟩
  | ok | again | warnings =>
    cases hi : s.main.attempt with
    | none => exact absurd hi hm
    | some i => simp [hi, MigrateOutcome.fails] at h

theorem leaves_call {own : String} (hm : s.main.attempt = none)
    (h : s.leaves ctx (.err own) err = true) : own = err := by
  simpa [leaves, hm, MigrateOutcome.fails] using h

/-- With `err` stored, and left by what `Migrate` calls. -/
def Stored (ctx : MigrateContext) (s : MigrateRun) (outcome : MigrateOutcome) (err : String) :
    Prop :=
  s.abortError = some err ∧ s.main.heeds ctx.resume err = true ∧ s.leaves ctx outcome err = true

def Collects (s : MigrateRun) : Prop :=
  ∀ n, s.main = .firstThrottlingCollected n → n ≤ s.firstThrottlingCollected + s.collectors

inductive MainMove (ctx : MigrateContext) (s : MigrateRun) (outcome : MigrateOutcome) :
    MigrateRun → Prop where
  | returns {t : MigrateRun} (result : Option String) (frame : Frame s t)
      (haborting : t.Aborting → s.Aborting) (hm : s.main ≠ .returned)
      (hresult : ∀ err, s.Stored ctx outcome err → result = some err) :
      MainMove ctx s outcome (t.returns result)
  | goes {s' : MigrateRun}
      (hsame : s'.result = s.result ∧ s'.abortError = s.abortError ∧ s'.cancelled = s.cancelled ∧
        s'.faults = s.faults) (haborting : s'.Aborting → s.Aborting)
      (hm : s.main ≠ .returned ∧ s'.main ≠ .returned)
      (hheeds : ∀ err, s.Stored ctx outcome err → s'.main.heeds ctx.resume err = true)
      (hresumed : ctx.resume = true → s'.main ≠ .ghostTableMigrated)
      (hcollects : s.Collects → s'.Collects)
      (hcut : ∀ i, s'.main = .atomicCutOver i → s'.cutOver.Served)
      (hwork : s.Aborted → s'.work ctx < s.work ctx) : MainMove ctx s outcome s'

theorem work_to_lt (hm : s'.main.work < s.main.work) (hcollectors : s'.collectors = s.collectors)
    (hcut : ∀ i, s'.main ≠ .atomicCutOver i) : s'.work ctx < s.work ctx := by
  have hzero : s'.cutOverWork ctx = 0 := by
    unfold cutOverWork
    split
    · next i hi => exact absurd hi (hcut i)
    · rfl
  unfold work
  omega

/-- A place that is no end, and at which nothing is waited for that others count. -/
def simple : MigratePlace → Bool
  | .ghostTableMigrated | .firstThrottlingCollected _ | .atomicCutOver _ | .returned => false
  | _ => true

theorem MainMove.to
    (hsame : s'.result = s.result ∧ s'.abortError = s.abortError ∧ s'.cancelled = s.cancelled ∧
      s'.faults = s.faults) (haborting : s'.Aborting → s.Aborting)
    (hcollectors : s'.collectors = s.collectors) (hm : s.main ≠ .returned)
    (hsimple : simple s'.main = true)
    (hcheck : s.checkAbort ≠ none →
      (∀ err, s.Stored ctx outcome err → s'.main.heeds ctx.resume err = true) ∧
        s'.main.work < s.main.work) : MainMove ctx s outcome s' := by
  have hne : ∀ m, simple m = false → s'.main ≠ m := by
    rintro m hno rfl
    simp [hno] at hsimple
  refine .goes hsame haborting ⟨hm, hne _ rfl⟩ (fun err h => ?_) (fun _ => hne _ rfl)
    (fun _ n hno => absurd hno (hne _ rfl)) (fun i hno => absurd hno (hne _ rfl)) fun h => ?_
  · exact (hcheck fun hc => not_stored_of_checkAbort hc h.1).1 err h
  · exact work_to_lt (hcheck (h.checkAbort hm)).2 hcollectors fun i => hne _ rfl

theorem MainMove.call {next : MigrateRun} (hs : s.call outcome next = some s')
    (hm : s.main ≠ .returned ∧ s.main.attempt = none) (hnext : MainMove ctx s outcome next) :
    MainMove ctx s outcome s' := by
  unfold MigrateRun.call at hs
  split at hs
  · cases hs
    exact hnext
  · next own =>
    cases hs
    exact .returns _ rfl id hm.1 fun err h => congrArg some (leaves_call hm.2 h.2.2)
  · simp at hs

theorem MainMove.checked {next : MigrateRun} (frame : Frame s t)
    (haborting : t.Aborting → s.Aborting) (hm : s.main ≠ .returned)
    (hnext : s.checkAbort = none → MainMove ctx s outcome next) :
    MainMove ctx s outcome (t.checked next) := by
  have hsame : t.checkAbort = s.checkAbort := by
    rw [frame]
    rfl
  unfold MigrateRun.checked
  split
  · next err hc =>
    refine .returns _ frame haborting hm fun err' h => ?_
    rw [← hc, hsame, checkAbort_of_stored h.1]
  · next hc => exact hnext (hsame ▸ hc)

theorem MainMove.endAttempt {o : MigrateOutcome} (hm : 3 < s.main.work)
    (hleft : ∀ err, s.Stored ctx outcome err →
      o = .err err ∨ ∃ own, o = .err own ∧ i + 1 < ctx.maxRetries)
    (hs : s.endAttempt ctx i o = some s') : MainMove ctx s outcome s' := by
  have hne : s.main ≠ .returned := by
    intro hno
    simp [hno, MigratePlace.work] at hm
  have hto : ∀ m, simple m = true → m.work ≤ 3 →
      (∀ err, s.Stored ctx outcome err → m.heeds ctx.resume err = true) →
      MainMove ctx s outcome { s with main := m } := by
    intro m hsimple hw hheeds
    exact .to ⟨rfl, rfl, rfl, rfl⟩ id rfl hne hsimple fun _ => ⟨hheeds, Nat.lt_of_le_of_lt hw hm⟩
  cases o with
  | ok =>
    cases hs
    exact hto _ rfl (Nat.le_refl 3) fun err h => by simpa using hleft err h
  | err own =>
    cases hs
    split
    · exact hto _ rfl (by simp [MigratePlace.work]) fun _ _ => rfl
    · next hi =>
      refine hto _ rfl (by simp [MigratePlace.work]) fun err h => ?_
      rcases hleft err h with hown | ⟨_, -, hno⟩
      · simpa [MigratePlace.heeds] using hown
      · exact absurd hno hi
  | warnings own =>
    cases hs
    exact hto _ rfl (by simp [MigratePlace.work]) fun err h => by simpa using hleft err h
  | again => simp [MigrateRun.endAttempt] at hs

theorem Stored.attempt (h : s.Stored ctx outcome err) (hm : s.main.attempt = some i) :
    outcome = .err err ∨ ∃ own, outcome = .err own ∧ i + 1 < ctx.maxRetries := by
  obtain ⟨own, rfl⟩ := leaves_fails h.2.2 (by simp [hm])
  rcases leaves_err hm h.2.2 rfl with rfl | hi
  · exact .inl rfl
  · exact .inr ⟨own, rfl, hi⟩

theorem startStreaming_aborting (h : s.startStreaming.Aborting) : s.Aborting := by
  rcases h with hl | hd | hno
  · exact .inl hl
  · exact .inr (.inl hd)
  · simp [startStreaming] at hno

theorem mainStep_move (hs : s.mainStep ctx outcome = some s') : MainMove ctx s outcome s' := by
  -- a place that heeds every error, and is nearer to the end
  have hnext : ∀ m, s.main ≠ .returned → simple m = true → (∀ err, m.heeds ctx.resume err = true) →
      m.work < s.main.work → MainMove ctx s outcome { s with main := m } := by
    intro m hm hsimple hheeds hw
    exact .to ⟨rfl, rfl, rfl, rfl⟩ id rfl hm hsimple fun _ => ⟨fun err _ => hheeds err, hw⟩
  have hunaborted : ∀ m, s.main ≠ .returned → simple m = true → s.checkAbort = none →
      MainMove ctx s outcome { s with main := m } := by
    intro m hm hsimple hc
    exact .to ⟨rfl, rfl, rfl, rfl⟩ id rfl hm hsimple fun hno => absurd hc hno
  unfold MigrateRun.mainStep at hs
  cases hm : s.main <;> simp only [hm] at hs hnext hunaborted
  case initiateInspector =>
    refine .call hs (by simp [hm, MigratePlace.attempt]) (.checked rfl id (by simp [hm]) ?_)
    exact hunaborted _ (by simp) (by split <;> rfl)
  case initiateStreaming =>
    refine .call hs (by simp [hm, MigratePlace.attempt])
      (.checked rfl startStreaming_aborting (by simp [hm]) fun hc => ?_)
    exact .to ⟨rfl, rfl, rfl, rfl⟩ (startStreaming_aborting (s := s)) rfl (by simp [hm]) rfl
      fun hno => absurd hc hno
  case initiateApplier =>
    refine .call hs (by simp [hm, MigratePlace.attempt]) (.checked rfl id (by simp [hm]) ?_)
    exact hunaborted _ (by simp) rfl
  case createFlagFiles =>
    refine .call hs (by simp [hm, MigratePlace.attempt]) ?_
    by_cases hresume : ctx.resume = true
    · rw [if_pos hresume]
      exact hnext _ (by simp) rfl (fun _ => rfl) (by decide)
    · rw [if_neg hresume]
      refine .goes ⟨rfl, rfl, rfl, rfl⟩ id (by simp [hm]) (fun err h => ?_)
        (fun hno => absurd hno hresume) (by simp [Collects]) (by simp) fun _ => ?_
      · have hheeds := h.2.1
        rw [hm] at hheeds
        exact hheeds
      · exact work_to_lt (by simp [hm, MigratePlace.work]) rfl (by simp)
  case ghostTableMigrated => simp at hs
  case prepare =>
    refine .call hs (by simp [hm, MigratePlace.attempt]) ?_
    refine .goes ?_ ?_ (by simp [hm]) (fun _ _ => rfl) (by simp) (fun _ n hn => ?_) (by simp)
      fun _ => ?_
    · split <;> exact ⟨rfl, rfl, rfl, rfl⟩
    · split
      · exact startStreaming_aborting (s := s)
      · exact id
    · obtain rfl : 3 = n := by simpa using hn
      exact Nat.le_add_left _ _
    · simp only [work, cutOverWork, hm, MigratePlace.work]
      omega
  case firstThrottlingCollected n =>
    cases n with
    | zero =>
      cases hs
      exact hnext _ (by simp) rfl (fun _ => rfl) (by simp [MigratePlace.work])
    | succ n =>
      obtain ⟨hpos, rfl⟩ := of_guard hs
      refine .goes ⟨rfl, rfl, rfl, rfl⟩ id (by simp [hm]) (fun _ _ => rfl) (by simp)
        (fun hle n' hn' => ?_) (by simp) fun _ => ?_
      · have hle := hle _ hm
        obtain rfl : n = n' := by simpa using hn'
        dsimp only
        omega
      · exact work_to_lt (by simp [hm, MigratePlace.work]) rfl (by simp)
  case onBeforeRowCopy =>
    refine .call hs (by simp [hm, MigratePlace.attempt]) ?_
    exact .to ⟨rfl, rfl, rfl, rfl⟩ id rfl (by simp [hm]) rfl
      fun _ => ⟨fun _ _ => rfl, by simp [hm, MigratePlace.work]⟩
  case rowCopyComplete =>
    obtain ⟨-, rfl⟩ := of_guard hs
    exact hnext _ (by simp) rfl (fun _ => rfl) (by decide)
  case rowCopyCheckAbort =>
    cases hs
    exact .checked rfl id (by simp [hm]) (hunaborted _ (by simp) rfl)
  case onBeforeCutOver =>
    refine .call hs (by simp [hm, MigratePlace.attempt]) ?_
    exact hnext _ (by simp) rfl (fun _ => rfl) (by simp [MigratePlace.work])
  case retry i =>
    cases hs
    exact .checked rfl id (by simp [hm]) (hunaborted _ (by simp) (by split <;> rfl))
  case throttle i =>
    split at hs
    · next hagain =>
      cases hs
      refine .goes ⟨rfl, rfl, rfl, rfl⟩ id (by simp [hm]) (fun _ _ => by rw [hm]; rfl)
        (by simp [hm]) id (by simp [hm]) fun h => ?_
      have hno := h.cancelled
      simp [hagain.2] at hno
    · cases hs
      exact hnext _ (by simp) rfl (fun _ => rfl) (by simp [MigratePlace.work])
  case sleepWhileTrue i =>
    split at hs
    · next err hc =>
      refine .endAttempt (by simp [hm, MigratePlace.work]) (fun err' h => .inl ?_) hs
      rw [checkAbort_of_stored h.1] at hc
      rw [Option.some.inj hc]
    · next hc =>
      split at hs
      · split at hs
        · cases hs
          exact hunaborted _ (by simp) rfl hc
        · cases hs
          exact .goes ⟨rfl, rfl, rfl, rfl⟩ id (by simp [hm]) (fun _ _ => rfl) (by simp)
            (by simp [Collects]) (fun _ _ => .init _)
            fun h => absurd hc (h.checkAbort (by simp [hm]))
      · cases hs
        exact .to ⟨rfl, rfl, rfl, rfl⟩ id rfl (by simp [hm]) (by rw [hm]; rfl)
          fun hno => absurd hc hno
      · exact .endAttempt (by simp [hm, MigratePlace.work])
          (fun err h => absurd h.1 (not_stored_of_checkAbort hc)) hs
  case atomicCutOver i =>
    split at hs
    · exact .endAttempt (by simp [hm, MigratePlace.work])
        (fun err h => h.attempt (by rw [hm]; rfl)) hs
    · simp at hs
  case cutOverTwoStep i =>
    exact .endAttempt (by simp [hm, MigratePlace.work])
      (fun err h => h.attempt (by rw [hm]; rfl)) hs
  case panicAbort own =>
    obtain ⟨t, ht, rfl⟩ := Option.map_eq_some_iff.1 hs
    obtain ⟨hf, hq⟩ := sendPanicAbort_quiet ht
    refine .returns _ hf hq.aborting (by simp [hm]) fun err h => ?_
    simpa [hm, MigratePlace.heeds] using h.2.1
  case finalCleanup =>
    split at hs
    · next hok =>
      cases hs
      exact hunaborted _ (by simp) rfl hok.2
    · cases hs
      refine .returns _ rfl id (by simp [hm]) fun err h => ?_
      simpa [hm, MigratePlace.heeds] using h.2.1
  case onSuccess =>
    refine .call hs (by simp [hm, MigratePlace.attempt]) ?_
    exact hnext _ (by simp) rfl (fun _ => rfl) (by decide)
  case checkAbort =>
    cases hs
    exact .returns _ rfl id (by simp [hm]) fun err h => checkAbort_of_stored h.1
  case returned => simp at hs

inductive StepMove (ctx : MigrateContext) (s : MigrateRun) : MigrateAction → MigrateRun → Prop where
  | main {s' : MigrateRun} (outcome : MigrateOutcome) (hmove : MainMove ctx s outcome s') :
      StepMove ctx s (.main outcome) s'
  | cutOver {b : CutOverAction} {i : Nat} {c : CutOver} (hm : s.main = .atomicCutOver i)
      (hs : s.cutOver.step ctx.maxRetries b = some c) :
      StepMove ctx s (.cutOver b) { s with cutOver := c }
  | collect (hpos : 0 < s.collectors) :
      StepMove ctx s .collect { s with
        collectors := s.collectors - 1
        firstThrottlingCollected := s.firstThrottlingCollected + 1 }
  | peer {a : MigrateAction} {s' : MigrateRun} (ha : a.progresses = false)
      (hmove : PeerMove s a s') : StepMove ctx s a s'

theorem step_move (hs : s.step ctx a = some s') : StepMove ctx s a s' := by
  cases a with
  | main outcome => exact .main outcome (mainStep_move hs)
  | cutOver b =>
    simp only [MigrateRun.step, MigrateRun.cutOverStep] at hs
    split at hs
    · next i hm =>
      obtain ⟨c, hc, rfl⟩ := Option.map_eq_some_iff.1 hs
      exact .cutOver hm hc
    · simp at hs
  | collect =>
    obtain ⟨hpos, rfl⟩ := of_guard hs
    exact .collect hpos
  | _ => exact .peer rfl (peer_move hs (by simp) (by simp) (by simp))

/-! ## The invariant -/

structure Inv (ctx : MigrateContext) (s : MigrateRun) : Prop where
  returned : s.main = .returned ↔ s.result.isSome = true
  cancelled : s.cancelled = true → s.abortError.isSome = true ∨ s.result.isSome = true
  aborting : s.Aborting → s.abortError.isSome = true
  first : s.abortError = s.faults.head?
  heeds : ∀ err, s.abortError = some err → s.main.heeds ctx.resume err = true
  resumed : ctx.resume = true → s.main ≠ .ghostTableMigrated
  collects : s.Collects
  cutOver : ∀ i, s.main = .atomicCutOver i → s.cutOver.Served

theorem Inv.init : Inv ctx {} := by
  constructor <;> simp [Aborting, Collects]

theorem abortError_setAbortError (s : MigrateRun) (err : String) :
    (s.setAbortError err).abortError = some (s.abortError.getD err) := by
  unfold setAbortError
  cases s.abortError <;> rfl

theorem Inv.frame (h : s.Inv ctx) (hf : Frame s s')
    (ha : s'.Aborting → s.abortError.isSome = true) : s'.Inv ctx := by
  rw [hf] at ha ⊢
  exact { h with aborting := ha }

theorem Inv.setAbortError (h : s.Inv ctx) (err : String)
    (hok : s.abortError = none → s.main.heeds ctx.resume err = true) :
    (s.setAbortError err).Inv ctx := by
  have ha := abortError_setAbortError s err
  refine ⟨h.returned, ?_, ?_, ?_, ?_, h.resumed, h.collects, h.cutOver⟩
  · intro _
    simp [ha]
  · intro _
    simp [ha]
  · rw [ha, h.first]
    show _ = (s.faults ++ [err]).head?
    cases s.faults <;> rfl
  · intro err' hstored
    rw [ha] at hstored
    cases hs : s.abortError with
    | none =>
      obtain rfl : err = err' := by simpa [hs] using hstored
      exact hok hs
    | some first =>
      obtain rfl : first = err' := by simpa [hs] using hstored
      exact h.heeds first hs

theorem Inv.cancelContext (h : s.Inv ctx) (hstored : s.abortError.isSome = true) :
    s.cancelContext.Inv ctx :=
  { h with cancelled := fun _ => .inl hstored }

theorem Inv.to (h : s.Inv ctx) (hm : s.main ≠ .returned) (m : MigratePlace)
    (hsimple : simple m = true) (hheeds : ∀ err, m.heeds ctx.resume err = true) :
    ({ s with main := m } : MigrateRun).Inv ctx := by
  have hne : ∀ m', simple m' = false → m ≠ m' := by
    rintro m' hno rfl
    simp [hno] at hsimple
  have hresult : s.result.isSome = true → False := fun hno => hm (h.returned.2 hno)
  exact { h with
    returned := ⟨fun hno => absurd hno (hne _ rfl), fun hno => (hresult hno).elim⟩
    heeds := fun err _ => hheeds err
    resumed := fun _ => hne _ rfl
    collects := fun _ hno => absurd hno (hne _ rfl)
    cutOver := fun _ hno => absurd hno (hne _ rfl) }

theorem Inv.peer (h : s.Inv ctx)
    (hok : ∀ err ∈ s.stores a, s.abortError = none → s.main.heeds ctx.resume err = true)
    (hmove : PeerMove s a s') : s'.Inv ctx := by
  have hsome : ∀ err, (s.setAbortError err).abortError.isSome = true := by
    intro err
    rw [abortError_setAbortError]
    rfl
  cases hmove with
  | quiet frame quiet => exact h.frame frame fun hab => h.aborting (quiet.aborting hab)
  | stores err ha frame => exact (h.setAbortError err (hok err ha)).frame frame fun _ => hsome err
  | cancels ha frame => exact (h.cancelContext (h.aborting ha)).frame frame fun _ => h.aborting ha
  | ghostTableMigrated hm frame quiet =>
    exact (h.to (by simp [hm]) _ rfl fun _ => rfl).frame frame
      fun hab => h.aborting (quiet.aborting hab)
  | rowCopyComplete hm frame quiet =>
    exact (h.to (by simp [hm]) _ rfl fun _ => rfl).frame frame
      fun hab => h.aborting (quiet.aborting hab)
  | rowCopyFailed err hm frame =>
    have h' := (h.setAbortError err fun _ => by rw [hm]; rfl).cancelContext (hsome err)
    have hne : s.main ≠ .returned := by simp [hm]
    exact (h'.to hne _ rfl fun _ => rfl).frame frame fun _ => hsome err

theorem Inv.main (h : s.Inv ctx) (hok : ∀ err ∈ s.abortError, s.leaves ctx outcome err = true)
    (hmove : MainMove ctx s outcome s') : s'.Inv ctx := by
  cases hmove with
  | returns result frame haborting =>
    have h' := h.frame frame fun hab => h.aborting (haborting hab)
    exact { h' with
      returned := by simp [MigrateRun.returns]
      cancelled := fun _ => .inr rfl
      heeds := fun _ _ => rfl
      resumed := by simp [MigrateRun.returns]
      collects := by simp [MigrateRun.returns, Collects]
      cutOver := by simp [MigrateRun.returns] }
  | goes hsame haborting hm hheeds hresumed hcollects hcut =>
    obtain ⟨hr, ha, hc, hf⟩ := hsame
    refine ⟨?_, ?_, ?_, ?_, ?_, hresumed, hcollects h.collects, hcut⟩
    · rw [hr, ← h.returned]
      simp [hm.1, hm.2]
    · rw [hc, ha, hr]
      exact h.cancelled
    · rw [ha]
      exact fun hab => h.aborting (haborting hab)
    · rw [ha, hf]
      exact h.first
    · rw [ha]
      exact fun err hstored => hheeds err ⟨hstored, h.heeds err hstored, hok err hstored⟩

theorem Inv.step (h : s.Inv ctx) (hok : s.Observed ctx a) (hs : s.step ctx a = some s') :
    s'.Inv ctx := by
  cases step_move hs with
  | main outcome hmove => exact h.main hok.2 hmove
  | cutOver hm hc => exact { h with cutOver := fun _ _ => (h.cutOver _ hm).step hok.2 hc }
  | collect hpos =>
    refine { h with collects := fun n hn => ?_ }
    have hle := h.collects n hn
    dsimp only
    omega
  | peer ha hmove => exact h.peer hok.1 hmove

/-- `err` is stored, and what `Migrate` returns from now on. -/
structure Owes (ctx : MigrateContext) (err : String) (s : MigrateRun) : Prop extends s.Inv ctx where
  owed : s.abortError = some err ∧ ∀ r, s.result = some r → r = some err

theorem Owes.step (h : s.Owes ctx err) (hok : s.Observed ctx a) (hs : s.step ctx a = some s') :
    s'.Owes ctx err := by
  refine ⟨h.toInv.step hok hs, ?_⟩
  have hframe : ∀ {t : MigrateRun}, Frame t s' → t.abortError = some err → t.result = s.result →
      s'.abortError = some err ∧ ∀ r, s'.result = some r → r = some err := by
    intro t hf ha hr
    rw [hf]
    exact ⟨ha, hr ▸ h.owed.2⟩
  have hset : ∀ err', (s.setAbortError err').abortError = some err := by
    intro err'
    rw [abortError_setAbortError, h.owed.1]
    rfl
  cases step_move hs with
  | main outcome hmove =>
    cases hmove with
    | returns result frame haborting hm hresult =>
      have hstored := h.owed.1
      refine ⟨?_, fun r hr => ?_⟩
      · rw [frame]
        exact hstored
      · rw [← Option.some.inj hr]
        exact hresult err ⟨hstored, h.heeds err hstored, hok.2 err hstored⟩
    | goes hsame =>
      obtain ⟨hr, ha, -⟩ := hsame
      exact ⟨ha.trans h.owed.1, hr ▸ h.owed.2⟩
  | cutOver hm hc => exact h.owed
  | collect hpos => exact h.owed
  | peer ha hmove =>
    cases hmove with
    | quiet frame => exact hframe frame h.owed.1 rfl
    | stores err' ha frame => exact hframe frame (hset err') rfl
    | cancels ha frame => exact hframe frame h.owed.1 rfl
    | ghostTableMigrated hm frame => exact hframe frame h.owed.1 rfl
    | rowCopyComplete hm frame => exact hframe frame h.owed.1 rfl
    | rowCopyFailed err' hm frame => exact hframe frame (hset err') rfl

end MigrateRun

end GhOst.Logic
