import GhOst.Properties.EventsUpToLock

/-!
# The newest sentinel

The function of a sentinel that finds the channel full takes out what is there, which is right as
long as that is older. The functions are put on `applyEventsQueue` by goroutines of their own, in
any order: the function of an attempt that has timed out may come last and throw away the sentinel
of the attempt that waits.
-/

namespace GhOst.Logic

open GhOst.Binlog GhOst.Mysql Infra

/-- The text of the sentinel whose function this is. -/
def ApplyEventStruct.sentinel : ApplyEventStruct → Option (List UInt8)
  | .func (.lockProcessed state _) => some state
  | _ => none

namespace Pipeline

variable {c : StreamContext} {s s' : Pipeline}

/-- What a step of the stream does to the queue and to a function that is being run. -/
structure Moves (a : PipelineAction) (s s' : Pipeline) : Prop where
  enqueued : s'.enqueued = s.enqueued ∨ ∃ item, s'.enqueued = s.enqueued ++ [item] ∧
    (item.sentinel = none ∨ ∃ i, a = .deliverAsync i)
  running : a ≠ .funcApplied → a ≠ .funcFailed → ∀ f, s.worker = .running f →
    s'.worker = .running f
  applied : a = .funcApplied → ∀ f, s.worker = .running f → .func f ∈ s'.done

theorem moves_step {a : PipelineAction} (h : s.RowsAhead c) (hs : s.step c a = some s') :
    Moves a s s' := by
  have hsame : ∀ {t : Pipeline}, a ≠ .funcApplied → t.enqueued = s.enqueued →
      t.worker = s.worker → Moves a s t :=
    fun ha he hw => ⟨.inl he, fun _ _ f hf => hw.trans hf, fun h => absurd h ha⟩
  have hbusy : ∀ {t : Pipeline}, t.enqueued = s.enqueued → (∀ f, s.worker ≠ .running f) →
      Moves a s t :=
    fun he hw => ⟨.inl he, fun _ _ f hf => absurd hf (hw f), fun _ f hf => absurd hf (hw f)⟩
  cases a with
  | startup =>
    obtain ⟨_, _, -, hp⟩ := startupStep_eq hs
    refine ⟨.inl (by rw [hp.frame]), fun _ _ f hf => ?_, nofun⟩
    rcases hp.worker with ⟨-, hw⟩ | ⟨hw, -⟩
    · exact hw.trans hf
    · exact absurd (hw.symm.trans hf) nofun
  | readEvent ev =>
    obtain ⟨-, _, entries, _, -, rfl⟩ := readEvent_eq hs
    exact hsame nofun rfl rfl
  | sendEntry =>
    obtain ⟨_, _, -, rfl⟩ := sendEntry_eq hs
    exact hsame nofun rfl rfl
  | sendEntryCanceled =>
    obtain ⟨-, rfl⟩ := sendEntryCanceled_eq hs
    exact hsame nofun rfl rfl
  | reconnect =>
    obtain ⟨_, _, _, _, rfl, -⟩ := reconnect_eq hs
    exact hsame nofun rfl rfl
  | receive =>
    obtain ⟨-, _, _, -, rfl | ⟨-, rfl⟩⟩ := receive_eq hs <;> exact hsame nofun rfl rfl
  | dispatcherCanceled =>
    obtain ⟨-, -, rfl⟩ := dispatcherCanceled_eq hs
    exact hsame nofun rfl rfl
  | notifyListeners =>
    obtain ⟨_, -, ⟨-, rfl⟩ | ⟨-, _, -, rfl⟩⟩ := notifyListeners_eq hs <;> exact hsame nofun rfl rfl
  | deliver =>
    obtain ⟨entry, sends, fails, hd, ⟨item, rest, hsends, rfl⟩ | ⟨-, -, rfl⟩ | ⟨-, -, rfl⟩⟩ :=
      deliver_eq hs
    · refine ⟨.inr ⟨item, rfl, .inl ?_⟩, fun _ _ f hf => hf, nofun⟩
      -- the dispatcher itself sends no sentinel
      have hnone := h.sends entry sends fails hd
      rw [hsends] at hnone
      unfold ApplyEventStruct.sentinel
      split
      · next t coords => exact absurd List.mem_cons_self (hnone t coords)
      · rfl
    · exact hsame nofun rfl rfl
    · exact hsame nofun rfl rfl
  | deliverCanceled =>
    obtain ⟨_, _, _, -, -, rfl⟩ := deliverCanceled_eq hs
    exact hsame nofun rfl rfl
  | deliverAsync i =>
    obtain ⟨item, -, rfl⟩ := deliverAsync_eq hs
    exact ⟨.inr ⟨item, rfl, .inr ⟨i, rfl⟩⟩, fun _ _ f hf => hf, nofun⟩
  | takeEvents batchSize =>
    obtain ⟨hidle, _, _, -, ⟨-, rfl⟩ | ⟨_, -, rfl⟩ | ⟨_, -, rfl⟩ | ⟨_, _, -, rfl⟩⟩ :=
      takeEvents_eq hs <;>
      exact hbusy rfl fun f => by rw [hidle]; exact nofun
  | batchApplied =>
    obtain ⟨_, hw, _, _, rfl, -⟩ := batchApplied_eq hs
    exact hbusy rfl fun f => by rw [hw]; exact nofun
  | batchFailed =>
    obtain ⟨_, hw, rfl⟩ := batchFailed_eq hs
    exact hbusy rfl fun f => by rw [hw]; exact nofun
  | funcApplied =>
    obtain ⟨writeFunc, _, hw, rfl⟩ := funcApplied_eq hs
    refine ⟨.inl rfl, fun ha => absurd rfl ha, fun _ f hf => ?_⟩
    rw [hf] at hw
    rw [Worker.running.inj hw]
    exact List.mem_append_right _ (List.mem_singleton_self _)
  | funcFailed =>
    obtain ⟨_, -, rfl⟩ := funcFailed_eq hs
    exact ⟨.inl rfl, fun _ ha => absurd rfl ha, nofun⟩
  | finishWorker =>
    obtain ⟨hw, rfl⟩ := finishWorker_eq hs
    exact hbusy rfl fun f => by rw [hw]; exact nofun
  | sampleCheckpoint =>
    obtain rfl := sampleCheckpoint_eq hs
    exact hsame nofun rfl rfl
  | writeCheckpoint =>
    obtain ⟨_, _, -, -, -, rfl⟩ := writeCheckpoint_eq hs
    exact hsame nofun rfl rfl
  | abandonCheckpoint =>
    cases hs
    exact hsame nofun rfl rfl
  | setAbortError =>
    cases hs
    exact hsame nofun rfl rfl
  | cancelContext =>
    cases hs
    exact hsame nofun rfl rfl

end Pipeline

namespace UpToLock

variable {c : StreamContext} {s s' : UpToLock}
variable {lps : LockProcessed} {a : UpToLockAction}

/-- The function of a sentinel is enqueued only while that of the latest attempt is not. -/
def SentinelsInOrder (s : UpToLock) : UpToLockAction → Prop
  | .stream (.deliverAsync _) =>
    ∀ t ∈ s.challenges.getLast?, ∀ item ∈ s.pipeline.enqueued, item.sentinel ≠ some t
  | _ => True

instance (s : UpToLock) (a : UpToLockAction) : Decidable (s.SentinelsInOrder a) := by
  unfold SentinelsInOrder
  split <;> infer_instance

structure NewestLast (s : UpToLock) : Prop where
  /-- behind the function of the latest attempt there is no other one -/
  order : ∀ t, s.challenges.getLast? = some t → ∀ front item back,
    s.pipeline.enqueued = front ++ item :: back → item.sentinel = some t →
    ∀ other ∈ back, other.sentinel = none
  sending : s.send ≠ .begin → ∃ lps, s.sending = some lps
  /-- what is in the channel comes from a function that has been run, or from the one being run -/
  channel : ∀ lps, s.allEventsUpToLockProcessed = some lps →
    (∃ item ∈ s.pipeline.done, item.sentinel = some lps.state) ∨
      s.send = .ended ∧ ∃ own, s.sending = some own ∧ own.state = lps.state

theorem sending_eq_some :
    s.sending = some lps ↔ s.pipeline.worker = .running (.lockProcessed lps.state lps.coords) := by
  unfold sending
  constructor
  · intro h
    split at h
    · next hw => rw [← Option.some.inj h, hw]
    · cases h
  · intro h
    rw [h]

/-- **The newest sentinel is not thrown away**: the function that would do so stands behind it. -/
theorem NewestLast.not_full (h : s.NewestLast) (hsound : s.Sound c)
    (hchannel : s.allEventsUpToLockProcessed = some lps)
    (hlast : s.challenges.getLast? = some lps.state) : s.send ≠ .full := by
  intro hfull
  obtain ⟨own, hown⟩ := h.sending (by rw [hfull]; exact nofun)
  rcases h.channel lps hchannel with ⟨item, hdone, hitem⟩ | ⟨hended, -⟩
  · have hsplit := hsound.pipeline.accounted.split
    rw [sending_eq_some.mp hown] at hsplit
    obtain ⟨front, back, hback⟩ := List.append_of_mem hdone
    rw [hback, List.append_assoc, List.append_assoc, List.cons_append] at hsplit
    have hnone := h.order _ hlast front item _ hsplit hitem
      (.func (.lockProcessed own.state own.coords)) (by simp [Worker.taken])
    cases hnone
  · rw [hfull] at hended
    cases hended

/-! ## The steps -/

theorem NewestLast.congr (h : s.NewestLast) (henq : s'.pipeline.enqueued = s.pipeline.enqueued)
    (hworker : s'.pipeline.worker = s.pipeline.worker) (hdone : s'.pipeline.done = s.pipeline.done)
    (hsend : s'.send = s.send) (hlast : s'.challenges = s.challenges)
    (hchannel : ∀ lps, s'.allEventsUpToLockProcessed = some lps →
      s.allEventsUpToLockProcessed = some lps) : s'.NewestLast := by
  have hsending : s'.sending = s.sending := by
    unfold UpToLock.sending
    rw [hworker]
  refine ⟨?_, ?_, fun lps hlps => ?_⟩
  · rw [henq, hlast]
    exact h.order
  · rw [hsend, hsending]
    exact h.sending
  · rw [hdone, hsend, hsending]
    exact h.channel lps (hchannel lps hlps)

theorem streamStep_send {a : PipelineAction} (h : s.streamStep c a = some s') :
    a = .funcApplied ∧ s'.send = .begin ∨
      a = .funcFailed ∧ s.send = .begin ∧ s'.send = .begin ∨
      a ≠ .funcApplied ∧ a ≠ .funcFailed ∧ s'.send = s.send := by
  cases a
  case readEvent ev => simp [UpToLock.streamStep] at h
  case funcApplied =>
    rw [UpToLock.streamStep] at h
    split at h
    · cases h
    · split at h
      · cases h
      · cases h
        exact .inl ⟨rfl, rfl⟩
  case funcFailed =>
    rw [UpToLock.streamStep] at h
    split at h
    · next hbegin =>
      split at h
      · cases h
      · cases h
        exact .inr (.inl ⟨rfl, hbegin, hbegin⟩)
    · cases h
  all_goals
    rw [UpToLock.streamStep] at h
    · split at h
      · cases h
      · cases h
        exact .inr (.inr ⟨by simp, by simp, rfl⟩)
    all_goals simp

theorem NewestLast.streamStep {a : PipelineAction} (h : s.NewestLast) (hsound : s.Sound c)
    (hok : s.SentinelsInOrder (.stream a)) (hs : s.streamStep c a = some s') :
    s'.NewestLast := by
  obtain hsend := streamStep_send hs
  obtain ⟨pipeline, send, hp, rfl, -⟩ := streamStep_eq hs
  obtain ⟨-, ⟨more, hdone⟩, -⟩ := Pipeline.step_grows hp
  have hmoves := Pipeline.moves_step hsound.ahead hp
  have hkept : a ≠ .funcApplied → a ≠ .funcFailed → ∀ own, s.sending = some own →
      UpToLock.sending { s with pipeline, send } = some own := by
    intro happlied hfailed own hown
    exact sending_eq_some.mpr (hmoves.running happlied hfailed _ (sending_eq_some.mp hown))
  refine ⟨fun t ht front item back heq hitem other hother => ?_, fun hne => ?_, fun lps hlps => ?_⟩
  · rcases hmoves.enqueued with hsame | ⟨last, hlast, hcase⟩
    · exact h.order t ht front item back (hsame ▸ heq) hitem other hother
    have heq : s.pipeline.enqueued ++ [last] = front ++ item :: back := hlast ▸ heq
    rcases List.eq_nil_or_concat back with rfl | ⟨back, x, rfl⟩
    · cases hother
    rw [List.concat_eq_append, ← List.cons_append, ← List.append_assoc] at heq
    obtain ⟨henq, hx⟩ := List.append_inj' heq rfl
    rw [List.concat_eq_append] at hother
    rcases List.mem_append.mp hother with hother | hother
    · exact h.order t ht front item back henq hitem other hother
    · rw [List.mem_singleton.mp hother, ← List.singleton_inj.mp hx]
      rcases hcase with hnone | ⟨i, rfl⟩
      · exact hnone
      · refine absurd hitem (hok t ht item ?_)
        rw [henq]
        exact List.mem_append_right _ List.mem_cons_self
  · rcases hsend with ⟨-, hbegin⟩ | ⟨-, -, hbegin⟩ | ⟨happlied, hfailed, hsame⟩
    · exact absurd hbegin hne
    · exact absurd hbegin hne
    · obtain ⟨own, hown⟩ := h.sending (hsame ▸ hne)
      exact ⟨own, hkept happlied hfailed own hown⟩
  · rcases h.channel lps hlps with ⟨item, hitem, htext⟩ | ⟨hended, own, hown, htext⟩
    · refine .inl ⟨item, ?_, htext⟩
      show item ∈ pipeline.done
      rw [hdone]
      exact List.mem_append_left _ hitem
    · rcases hsend with ⟨happlied, -⟩ | ⟨-, hbegin, -⟩ | ⟨happlied, hfailed, hsame⟩
      · have hmem := hmoves.applied happlied _ (sending_eq_some.mp hown)
        exact .inl ⟨_, hmem, congrArg some htext⟩
      · rw [hended] at hbegin
        cases hbegin
      · exact .inr ⟨hsame.trans hended, own, hkept happlied hfailed own hown, htext⟩

theorem NewestLast.start {nanos : Nat} (h : s.NewestLast) (hsound : s.Sound c)
    (hfresh : ∀ l ∈ s.log, allEventsUpToLockProcessedChallenge nanos ∉ c.stateTexts l.event)
    (hs : s.start nanos = some s') : s'.NewestLast := by
  obtain rfl := start_eq hs
  refine ⟨fun t ht front item back heq hitem => ?_, h.sending, h.channel⟩
  rw [List.getLast?_append] at ht
  -- a sentinel that is enqueued was read from the log, where the new challenge is not
  exfalso
  have hitem' : ∃ coords, item = .func (.lockProcessed t coords) := by
    unfold ApplyEventStruct.sentinel at hitem
    split at hitem
    · next t' coords => exact ⟨coords, by rw [Option.some.inj hitem]⟩
    · cases hitem
  obtain ⟨coords, rfl⟩ := hitem'
  obtain ⟨i, ⟨e, ev, he, hev, htext⟩, -⟩ := hsound.ahead.enqueued front back t coords heq
  obtain ⟨k, l, -, hl, hmem⟩ := hsound.origins i e he
  refine hfresh l (List.mem_of_getElem? hl) ?_
  have ht : allEventsUpToLockProcessedChallenge nanos = t := by simpa using ht
  rw [ht]
  exact List.mem_filterMap.mpr ⟨ev, hmem ev hev, htext⟩

theorem NewestLast.select (h : s.NewestLast) (ha : a = .trySend ∨ a = .drain ∨ a = .trySendAgain)
    (hs : s.step c a = some s') : s'.NewestLast := by
  rcases ha with rfl | rfl | rfl
  · unfold UpToLock.step trySend at hs
    dsimp only at hs
    split at hs
    · next own hown hbegin hchannel =>
      cases hs
      refine ⟨h.order, fun _ => ⟨own, hown⟩, fun lps hlps => .inr ⟨rfl, own, hown, ?_⟩⟩
      rw [Option.some.inj hlps]
    · next own held hown hbegin hchannel =>
      cases hs
      refine ⟨h.order, fun _ => ⟨own, hown⟩, fun lps hlps => .inl ?_⟩
      rcases h.channel lps hlps with hdone | ⟨hended, -⟩
      · exact hdone
      · rw [hbegin] at hended
        cases hended
    · cases hs
  · obtain rfl := drain_eq hs
    have hfull : s.send = .full := by
      by_contra hne
      unfold UpToLock.step drain at hs
      dsimp only at hs
      rw [if_neg hne] at hs
      cases hs
    exact ⟨h.order, fun _ => h.sending (by rw [hfull]; exact nofun), nofun⟩
  · unfold UpToLock.step trySendAgain at hs
    dsimp only at hs
    split at hs
    · next own hown hdrained hchannel =>
      cases hs
      refine ⟨h.order, fun _ => ⟨own, hown⟩, fun lps hlps => .inr ⟨rfl, own, hown, ?_⟩⟩
      rw [Option.some.inj hlps]
    · next own held hown hdrained hchannel =>
      cases hs
      refine ⟨h.order, fun _ => ⟨own, hown⟩, fun lps hlps => .inl ?_⟩
      rcases h.channel lps hlps with hdone | ⟨hended, -⟩
      · exact hdone
      · rw [hdrained] at hended
        cases hended
    · cases hs

theorem NewestLast.step (h : s.NewestLast) (hsound : s.Sound c) (hd : s.DistinctChallenges c a)
    (hok : s.SentinelsInOrder a) (hs : s.step c a = some s') : s'.NewestLast := by
  cases a with
  | stream a => exact h.streamStep hsound hok hs
  | readEvent =>
    obtain ⟨l, pipeline, -, hp, rfl⟩ := readEvent_eq hs
    obtain ⟨-, _, _, _, -, rfl⟩ := Pipeline.readEvent_eq hp
    exact h.congr rfl rfl rfl rfl rfl fun _ hl => hl
  | commit event =>
    cases hs
    exact h.congr rfl rfl rfl rfl rfl fun _ hl => hl
  | start nanos => exact h.start hsound hd.2 hs
  | writeChangelog written =>
    obtain ⟨main, failedWrites, rfl | ⟨n, event, -, rfl⟩⟩ := writeChangelog_eq hs <;>
      exact h.congr rfl rfl rfl rfl rfl fun _ hl => hl
  | lateWrite n event =>
    obtain ⟨-, rfl⟩ := lateWrite_eq hs
    exact h.congr rfl rfl rfl rfl rfl fun _ hl => hl
  | logChangelog ok =>
    obtain rfl := logChangelog_eq hs
    exact h.congr rfl rfl rfl rfl rfl fun _ hl => hl
  | trySend => exact h.select (.inl rfl) hs
  | drain => exact h.select (.inr (.inl rfl)) hs
  | trySendAgain => exact h.select (.inr (.inr rfl)) hs
  | receive =>
    obtain ⟨lps, -, ⟨-, rfl⟩ | rfl⟩ := receive_eq hs <;>
      exact h.congr rfl rfl rfl rfl rfl nofun
  | timeout =>
    obtain rfl := timeout_eq hs
    exact h.congr rfl rfl rfl rfl rfl fun _ hl => hl

theorem channel_kept (hs : s.step c a = some s')
    (hchannel : s.allEventsUpToLockProcessed = some lps) (hreceive : a ≠ .receive)
    (hfull : s.send ≠ .full) : s'.allEventsUpToLockProcessed = some lps := by
  cases a with
  | stream a =>
    obtain ⟨pipeline, send, -, rfl, -⟩ := streamStep_eq hs
    exact hchannel
  | readEvent =>
    obtain ⟨l, pipeline, -, -, rfl⟩ := readEvent_eq hs
    exact hchannel
  | commit event => exact Option.some.inj hs ▸ hchannel
  | start nanos =>
    obtain rfl := start_eq hs
    exact hchannel
  | writeChangelog written =>
    obtain ⟨main, failedWrites, rfl | ⟨n, event, -, rfl⟩⟩ := writeChangelog_eq hs <;>
      exact hchannel
  | lateWrite n event =>
    obtain ⟨-, rfl⟩ := lateWrite_eq hs
    exact hchannel
  | logChangelog ok =>
    obtain rfl := logChangelog_eq hs
    exact hchannel
  | trySend =>
    unfold UpToLock.step trySend at hs
    dsimp only at hs
    rw [hchannel] at hs
    split at hs
    · next hnone => cases hnone
    · exact Option.some.inj hs ▸ rfl
    · cases hs
  | drain =>
    unfold UpToLock.step drain at hs
    dsimp only at hs
    rw [if_neg hfull] at hs
    cases hs
  | trySendAgain =>
    unfold UpToLock.step trySendAgain at hs
    dsimp only at hs
    rw [hchannel] at hs
    split at hs
    · next hnone => cases hnone
    · exact Option.some.inj hs ▸ rfl
    · cases hs
  | receive => exact absurd rfl hreceive
  | timeout =>
    obtain rfl := timeout_eq hs
    exact hchannel

/-- **The sentinel of the latest attempt leaves the channel only by being received**, in every run
in which no sentinel's function is enqueued behind that of the latest attempt. -/
theorem newest_sentinel_kept {steps : List StartupStep} {useGTIDs : Bool}
    {maxReconnectAttempts : Nat} {coordinates : BinlogCoordinates} {log : List BinlogEvent}
    (hr : Reach (UpToLock.step c)
      (fun s a => s.DistinctChallenges c a ∧ s.SentinelsInOrder a)
      (initUpToLock (initPipeline steps useGTIDs maxReconnectAttempts coordinates) log) s) :
    ∀ a s' lps, s.step c a = some s' → s.allEventsUpToLockProcessed = some lps →
      s.challenges.getLast? = some lps.state → s'.allEventsUpToLockProcessed ≠ some lps →
      a = .receive := by
  let Inv : UpToLock → Prop := fun s => s.Sound c ∧ s.NewestLast
  have h0 : Inv (initUpToLock (initPipeline steps useGTIDs maxReconnectAttempts coordinates) log) :=
    ⟨Sound.init (Pipeline.Sound.init ..) rfl rfl rfl rfl log, ⟨nofun, nofun, nofun⟩⟩
  have hinv : Inv s := hr.invariant h0 fun s s' a h hok hs =>
    ⟨h.1.step hok.1 hs, h.2.step h.1 hok.1 hok.2 hs⟩
  intro a s' lps hs hchannel hlast hgone
  by_contra hreceive
  exact hgone (channel_kept hs hchannel hreceive (hinv.2.not_full hinv.1 hchannel hlast))

/-- Two attempts up to the moment when both goroutines have their function to enqueue; the first one
has timed out. -/
def twoAttempts : List UpToLockAction :=
  List.replicate 11 (.stream .startup) ++
    [.start 5, .writeChangelog (some (stateAt 200 (allEventsUpToLockProcessedChallenge 5))),
      .logChangelog true, .readEvent, .stream .sendEntry, .stream .receive,
      .stream .notifyListeners, .stream .deliver, .timeout,
      .start 6, .writeChangelog (some (stateAt 300 (allEventsUpToLockProcessedChallenge 6))),
      .logChangelog true, .readEvent, .stream .sendEntry, .stream .receive,
      .stream .notifyListeners, .stream .deliver]

theorem newest_sentinel_kept_small :
    ∃ s, Reach (UpToLock.step smallStream)
        (fun s a => s.DistinctChallenges smallStream a ∧ s.SentinelsInOrder a)
        (initUpToLock (initPipeline resumeSteps false 0 (fileAt 4)) []) s ∧
      s.allEventsUpToLockProcessed.map (·.state) = s.challenges.getLast? ∧
      s.pipeline.done.length = 2 ∧
      ∀ a s' lps, s.step smallStream a = some s' → s.allEventsUpToLockProcessed = some lps →
        s.challenges.getLast? = some lps.state → s'.allEventsUpToLockProcessed ≠ some lps →
        a = .receive := by
  refine exists_reach_of
    (fun s => s.allEventsUpToLockProcessed.map (·.state) = s.challenges.getLast? ∧
      s.pipeline.done.length = 2)
    (twoAttempts ++ [.stream (.deliverAsync 0), .stream (.deliverAsync 0),
      .stream (.takeEvents 10), .trySend, .stream .funcApplied,
      .stream (.takeEvents 10), .trySend, .drain, .trySendAgain, .stream .funcApplied])
      (by decide) ?_
  rintro s hr ⟨hchannel, hdone⟩
  exact ⟨hchannel, hdone, newest_sentinel_kept hr⟩

/-- The function of the first attempt takes the sentinel of the second one, which is faster, out of
the channel. -/
theorem older_sentinel_drains_newest :
    ∃ s s', Reach (UpToLock.step smallStream) (UpToLock.DistinctChallenges smallStream)
        (initUpToLock (initPipeline resumeSteps false 0 (fileAt 4)) []) s ∧
      s.main = .waiting ∧ s.allEventsUpToLockProcessed.map (·.state) = s.challenges.getLast? ∧
      s.challenges.getLast? = some (allEventsUpToLockProcessedChallenge 6) ∧
      s.sending.map (·.state) = some (allEventsUpToLockProcessedChallenge 5) ∧
      s.step smallStream .drain = some s' ∧ s'.allEventsUpToLockProcessed = none := by
  have hrun : ∃ s, Reach (UpToLock.step smallStream) (UpToLock.DistinctChallenges smallStream)
      (initUpToLock (initPipeline resumeSteps false 0 (fileAt 4)) []) s ∧ s.main = .waiting ∧
      s.allEventsUpToLockProcessed.map (·.state) = s.challenges.getLast? ∧
      s.challenges.getLast? = some (allEventsUpToLockProcessedChallenge 6) ∧
      s.sending.map (·.state) = some (allEventsUpToLockProcessedChallenge 5) ∧ s.send = .full :=
    exists_reach (twoAttempts ++ [.stream (.deliverAsync 1), .stream (.takeEvents 10),
      .trySend,
      .stream .funcApplied, .stream (.deliverAsync 0), .stream (.takeEvents 10), .trySend])
      (by decide)
  obtain ⟨s, hr, hmain, hchannel, hlast, hsending, hfull⟩ := hrun
  exact ⟨s, _, hr, hmain, hchannel, hlast, hsending, if_pos hfull, rfl⟩

end UpToLock

end GhOst.Logic
