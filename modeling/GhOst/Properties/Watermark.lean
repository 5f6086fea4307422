import GhOst.Infra.Steps
import GhOst.Logic.Pipeline

/-!
# What an applied transaction stands for

The entries of the reader go through two channels and a batch, always in their order (`InOrder`). So
when the worker acknowledges a marker, every row before it has left the queue; and as the worker and
the dispatcher stop for good at their first failure, each of those rows was committed (`Accounted`).
`Located`: the coordinates that a checkpoint compares are positions of the reader.
-/

namespace GhOst.Logic

open GhOst.Sql GhOst.Binlog GhOst.Mysql

def Dispatcher.entries : Dispatcher → List Emitted
  | .waiting => []
  | .received entry => [entry]
  | .notifying entry _ _ => [entry]
  | .stopped => []

def Worker.taken : Worker → List ApplyEventStruct
  | .notStarted => []
  | .idle => []
  | .applying batch => batch.taken
  | .running writeFunc => [.func writeFunc]
  | .stopped dropped => dropped

def Worker.Active (w : Worker) : Prop := ∀ dropped, w ≠ .stopped dropped

/-- The listener that hears of the entry `i` has not been reached yet. -/
def Dispatcher.Owes (i : Nat) : Dispatcher → Prop
  | .notifying entry sends fails =>
    entry.2 = i ∧ (fails = true ∨ ∃ ev, .dml entry ev ∈ sends)
  | _ => False

namespace Pipeline

variable {c : StreamContext} {s s' : Pipeline}
variable {a : PipelineAction}

/-! ## The order of the entries -/

/-- The entries that have not come to their end, from the first to the last emitted. -/
def line (s : Pipeline) : List Emitted :=
  s.enqueued.filterMap (·.source) ++ s.dispatcher.entries ++ s.eventsChannel ++ s.outbox

structure InOrder (s : Pipeline) : Prop where
  sorted : s.line.Pairwise (fun a b => a.2 ≤ b.2)
  sourced : ∀ e ∈ s.line, s.emitted[e.2]? = some e.1
  sends : ∀ entry sends fails, s.dispatcher = .notifying entry sends fails →
    ∀ item ∈ sends, item.MadeFrom entry
  asyncSends : ∀ item ∈ s.asyncSends, item.source = none
  markers : ∀ e, .transactionComplete e ∈ s.enqueued → e.1.transactionComplete = true

theorem InOrder.of_sublist (h : s.InOrder) (hline : s'.line.Sublist s.line)
    (hemitted : s'.emitted = s.emitted) (henq : s'.enqueued = s.enqueued)
    (hasync : s'.asyncSends = s.asyncSends)
    (hsends : ∀ entry sends fails, s'.dispatcher = .notifying entry sends fails →
      ∀ item ∈ sends, item.MadeFrom entry) : s'.InOrder where
  sorted := h.sorted.sublist hline
  sourced e he := by
    rw [hemitted]
    exact h.sourced e (hline.subset he)
  sends := hsends
  asyncSends := by
    rw [hasync]
    exact h.asyncSends
  markers := by
    rw [henq]
    exact h.markers

theorem InOrder.enqueue_func (h : s.InOrder) {item : ApplyEventStruct} (hi : item.source = none) :
    (s.enqueue item).InOrder := by
  have hline : (s.enqueue item).line = s.line := by simp [line, enqueue, hi]
  refine ⟨by rw [hline]; exact h.sorted, by rw [hline]; exact h.sourced, h.sends, h.asyncSends, ?_⟩
  intro e he
  rcases List.mem_append.1 he with he | he
  · exact h.markers e he
  · rw [← List.mem_singleton.1 he] at hi
    simp [ApplyEventStruct.source] at hi

theorem InOrder.enqueue (h : s.InOrder) {item : ApplyEventStruct} {entry : Emitted}
    {sends : List ApplyEventStruct} {fails : Bool}
    (hd : s.dispatcher = .notifying entry (item :: sends) fails) :
    { s.enqueue item with dispatcher := .notifying entry sends fails }.InOrder := by
  have hmade := h.sends entry _ fails hd
  have hitem := hmade item (List.mem_cons_self ..)
  have hline : ∀ e ∈ { s.enqueue item with dispatcher := .notifying entry sends fails }.line,
      e ∈ s.line := by
    intro e he
    simp only [line, Pipeline.enqueue, Dispatcher.entries, hd, List.filterMap_append,
      List.mem_append, List.mem_filterMap, List.mem_singleton] at he ⊢
    rcases he with (((he | ⟨a, rfl, ha⟩) | he) | he) | he
    · exact .inl (.inl (.inl he))
    · exact .inl (.inl (.inr (hitem.source_eq ha)))
    · exact .inl (.inl (.inr he))
    · exact .inl (.inr he)
    · exact .inr he
  refine ⟨?_, fun e he => h.sourced e (hline e he), ?_, h.asyncSends, ?_⟩
  · have hsorted := h.sorted
    simp only [line, Pipeline.enqueue, Dispatcher.entries, hd, List.filterMap_append] at hsorted ⊢
    cases hsource : item.source with
    | none => simpa [hsource] using hsorted
    | some e =>
      rw [hitem.source_eq hsource] at hsource
      simp only [List.filterMap_cons, hsource, List.filterMap_nil, List.append_assoc,
        List.singleton_append] at hsorted ⊢
      have htail := (List.pairwise_append.1 hsorted).2.1
      refine List.pairwise_append.2 ⟨(List.pairwise_append.1 hsorted).1, ?_, ?_⟩
      · refine List.pairwise_cons.2 ⟨fun e' he' => ?_, htail⟩
        rcases List.mem_cons.1 he' with rfl | he'
        · exact le_refl _
        · exact List.rel_of_pairwise_cons htail he'
      · intro a ha b hb
        refine (List.pairwise_append.1 hsorted).2.2 a ha b ?_
        simpa using hb
  · intro entry' sends' fails' heq item' hi
    cases heq
    exact hmade item' (List.mem_cons_of_mem _ hi)
  · intro e he
    rcases List.mem_append.1 he with he | he
    · exact h.markers e he
    · rw [← List.mem_singleton.1 he] at hitem
      cases hitem
      assumption

theorem InOrder.readEvent {ev : BinlogEvent} (h : s.InOrder) (hs : s.readEvent c ev = some s') :
    s'.InOrder := by
  obtain ⟨hout, reader, entries, err, -, rfl⟩ := readEvent_eq hs
  have hline : s.line = s.enqueued.filterMap (·.source) ++ s.dispatcher.entries ++
      s.eventsChannel := by
    simp [line, hout]
  have hbound : ∀ e ∈ s.line, e.2 < s.emitted.length := by
    intro e he
    exact (List.getElem?_eq_some_iff.1 (h.sourced e he)).1
  refine ⟨?_, ?_, h.sends, h.asyncSends, h.markers⟩
  · -- the new entries have the next numbers
    show (_ ++ _ ++ _ ++ entries.zipIdx s.emitted.length).Pairwise _
    rw [← hline]
    refine List.pairwise_append.2 ⟨h.sorted, ?_, ?_⟩
    · rw [← List.pairwise_map (f := Prod.snd), List.zipIdx_map_snd]
      exact List.pairwise_le_range' ..
    · intro a ha b hb
      have hlt := hbound a ha
      have hle := List.le_snd_of_mem_zipIdx hb
      omega
  · intro e he
    show (s.emitted ++ entries)[e.2]? = some e.1
    rcases List.mem_append.1 he with he | he
    · rw [List.getElem?_append_left (hbound e (by rw [hline]; exact he))]
      exact h.sourced e (by rw [hline]; exact he)
    · obtain ⟨hle, hlt, heq⟩ := List.mem_zipIdx he
      rw [List.getElem?_append_right hle]
      simp [heq]

theorem failDelivery_line (s : Pipeline) (entry : Emitted) :
    (s.failDelivery entry).line.Sublist s.line := by
  unfold line failDelivery
  refine (List.Sublist.append ?_ (List.Sublist.refl _)).append (List.Sublist.refl _)
  exact (List.Sublist.refl _).append (List.nil_sublist _)

theorem InOrder.failDelivery (h : s.InOrder) (entry : Emitted) : (s.failDelivery entry).InOrder :=
  h.of_sublist (failDelivery_line s entry) rfl rfl rfl (fun _ _ _ heq => by cases heq)

theorem InOrder.notifyListeners (h : s.InOrder) (hs : s.notifyListeners c = some s') :
    s'.InOrder := by
  obtain ⟨entry, hd, ⟨-, rfl⟩ | ⟨-, n, hn, rfl⟩⟩ := notifyListeners_eq hs
  · have h' : { s with handled := s.handledWith c entry }.InOrder := { h with }
    exact h'.failDelivery entry
  · obtain ⟨hsends, hasync⟩ := notification_madeFrom hn
    have hline : { s with
        handled := s.handledWith c entry
        dispatcher := .notifying entry n.sends n.fails
        asyncSends := s.asyncSends ++ n.asyncSends }.line = s.line := by
      simp [line, hd, Dispatcher.entries]
    refine ⟨by rw [hline]; exact h.sorted, by rw [hline]; exact h.sourced, ?_, ?_, h.markers⟩
    · intro entry' sends fails heq
      cases heq
      exact hsends
    · intro item hi
      exact (List.mem_append.1 hi).elim (h.asyncSends item) (hasync item)

theorem InOrder.deliver (h : s.InOrder) (hs : s.deliver = some s') : s'.InOrder := by
  obtain ⟨entry, sends, fails, hd, ⟨item, rest, rfl, rfl⟩ | ⟨rfl, -, rfl⟩ | ⟨rfl, -, rfl⟩⟩ :=
    deliver_eq hs
  · exact h.enqueue hd
  · exact h.failDelivery entry
  · refine h.of_sublist ?_ rfl rfl rfl (fun _ _ _ heq => by cases heq)
    simp [line, hd, Dispatcher.entries]

theorem InOrder.step (h : s.InOrder) (hs : s.step c a = some s') : s'.InOrder := by
  by_cases ha : a.downstream = true
  · obtain ⟨_, _, _, _, _, _, _, _, _, rfl⟩ := downstream_eq ha hs
    exact { h with }
  cases a with
  | startup =>
    obtain ⟨_, _, -, hp⟩ := startupStep_eq hs
    rw [hp.frame]
    exact { h with }
  | readEvent ev => exact h.readEvent hs
  | sendEntry =>
    obtain ⟨entry, rest, hout, rfl⟩ := sendEntry_eq hs
    exact h.of_sublist (by simp [line, hout]) rfl rfl rfl h.sends
  | sendEntryCanceled =>
    obtain ⟨-, rfl⟩ := sendEntryCanceled_eq hs
    refine h.of_sublist ?_ rfl rfl rfl h.sends
    exact (List.Sublist.refl _).append (List.nil_sublist _)
  | reconnect =>
    obtain ⟨_, _, _, _, rfl, -⟩ := reconnect_eq hs
    exact { h with }
  | receive =>
    obtain ⟨hd, entry, rest, hch, rfl | ⟨-, rfl⟩⟩ := receive_eq hs
    · refine h.of_sublist ?_ rfl rfl rfl (fun _ _ _ heq => by cases heq)
      simp [line, hd, hch, Dispatcher.entries]
    · refine h.of_sublist ?_ rfl rfl rfl h.sends
      unfold line
      rw [hch]
      exact (List.Sublist.append (List.Sublist.refl _) (List.sublist_cons_self ..)).append
        (List.Sublist.refl _)
  | dispatcherCanceled =>
    obtain ⟨-, hd, rfl⟩ := dispatcherCanceled_eq hs
    refine h.of_sublist ?_ rfl rfl rfl (fun _ _ _ heq => by cases heq)
    simp [line, hd, Dispatcher.entries]
  | notifyListeners => exact h.notifyListeners hs
  | deliver => exact h.deliver hs
  | deliverCanceled =>
    obtain ⟨entry, _, _, -, -, rfl⟩ := deliverCanceled_eq hs
    exact h.failDelivery entry
  | deliverAsync i =>
    obtain ⟨item, hi, rfl⟩ := deliverAsync_eq hs
    refine { h.enqueue_func (h.asyncSends item hi) with asyncSends := fun x hx => ?_ }
    exact h.asyncSends x (List.mem_of_mem_eraseIdx hx)
  | setAbortError =>
    cases hs
    exact { h with }
  | cancelContext =>
    cases hs
    exact { h with }
  | _ => exact absurd rfl ha

/-! ## Where the structs are -/

structure Accounted (s : Pipeline) : Prop where
  split : s.enqueued = s.done ++ s.worker.taken ++ s.applyEventsQueue
  completed : ∀ batch, s.worker = .applying batch → ∀ entry,
    batch.completedTransaction = some entry → .transactionComplete entry ∈ batch.collected
  applied : s.appliedTransactionCoordinates = s.acknowledged.map (·.1.coordinates)
  acknowledged : ∀ entry, s.acknowledged = some entry → .transactionComplete entry ∈ s.done
  checkpoints : ∀ chk ∈ s.checkpoints, ∃ entry, chk.marker = some entry ∧
    chk.lastTrxCoords = entry.1.coordinates ∧ .transactionComplete entry ∈ s.done
  handled : ∀ i ∈ s.handled, i ∈ s.failed ∨ s.dispatcher.Owes i ∨
    ∃ entry ev, entry.2 = i ∧ .dml entry ev ∈ s.enqueued
  failed_done : ∀ i ∈ s.failed, ∀ entry ∈ s.done.filterMap (·.source), entry.2 ≤ i
  failed_enqueued : s.worker.Active → ∀ i ∈ s.failed,
    ∀ entry ∈ s.enqueued.filterMap (·.source), entry.2 ≤ i
  failed_stopped : s.worker.Active → s.failed ≠ [] → s.dispatcher = .stopped

section Accounting

variable (h : s.Accounted)
include h

theorem Accounted.failDelivery (ho : s.InOrder) (entry : Emitted)
    (hentry : entry ∈ s.dispatcher.entries) (howes : ∀ i, s.dispatcher.Owes i → i = entry.2) :
    (s.failDelivery entry).Accounted := by
  have hafter : ∀ e ∈ s.enqueued.filterMap (·.source), e.2 ≤ entry.2 := by
    intro e he
    have hsorted := ho.sorted
    unfold line at hsorted
    rw [List.append_assoc, List.append_assoc] at hsorted
    exact (List.pairwise_append.1 hsorted).2.2 e he entry (List.mem_append_left _ hentry)
  refine { h with handled := ?_, failed_done := ?_, failed_enqueued := ?_, failed_stopped := ?_ }
  · intro i hi
    rcases h.handled i hi with hf | ho | he
    · exact .inl (List.mem_append_left _ hf)
    · rw [howes i ho]
      exact .inl (List.mem_append_right _ (List.mem_singleton.2 rfl))
    · exact .inr (.inr he)
  · intro i hi e he
    rcases List.mem_append.1 hi with hi | hi
    · exact h.failed_done i hi e he
    · rw [List.mem_singleton.1 hi]
      refine hafter e ?_
      rw [h.split, List.filterMap_append, List.filterMap_append, List.append_assoc]
      exact List.mem_append_left _ he
  · intro hw i hi e he
    rcases List.mem_append.1 hi with hi | hi
    · exact h.failed_enqueued hw i hi e he
    · rw [List.mem_singleton.1 hi]
      exact hafter e he
  · exact fun _ _ => rfl

theorem Accounted.stopWorker (ho : s.InOrder) (dropped left : List ApplyEventStruct)
    (htaken : s.worker.taken ++ s.applyEventsQueue = dropped ++ left) :
    ({ s with applyEventsQueue := left }.stopWorker dropped).Accounted := by
  have hsplit : s.enqueued = s.done ++ dropped ++ left := by
    rw [h.split, List.append_assoc, htaken, List.append_assoc]
  refine { h with
    split := hsplit, completed := fun b hb => ?_, handled := fun i hi => ?_,
    failed_done := fun i hi e he => ?_, failed_enqueued := fun hw => absurd rfl (hw dropped),
    failed_stopped := fun hw => absurd rfl (hw dropped) }
  · cases hb
  · exact (h.handled i hi).imp_left (List.mem_append_left _)
  · rcases List.mem_append.1 hi with hi | hi
    · exact h.failed_done i hi e he
    · -- what is dropped was enqueued after what is done
      obtain ⟨e', he', rfl⟩ := List.mem_map.1 hi
      have hsorted := ho.sorted
      unfold line at hsorted
      rw [hsplit, List.filterMap_append, List.filterMap_append] at hsorted
      simp only [List.append_assoc] at hsorted
      exact (List.pairwise_append.1 hsorted).2.2 e he e' (List.mem_append_left _ he')

theorem Accounted.work (worker : Worker) (done queue : List ApplyEventStruct)
    (hactive : s.worker.Active)
    (htaken : s.worker.taken ++ s.applyEventsQueue = done ++ worker.taken ++ queue)
    (hcompleted : ∀ batch, worker = .applying batch → ∀ entry,
      batch.completedTransaction = some entry → .transactionComplete entry ∈ batch.collected) :
    { s with worker, done := s.done ++ done, applyEventsQueue := queue }.Accounted := by
  have hsplit : s.enqueued = s.done ++ done ++ worker.taken ++ queue := by
    rw [h.split, List.append_assoc, htaken]
    simp only [List.append_assoc]
  refine { h with
    split := hsplit, completed := hcompleted, acknowledged := fun e he => ?_,
    checkpoints := fun chk hchk => ?_, failed_done := fun i hi e he => ?_,
    failed_enqueued := fun _ => h.failed_enqueued hactive,
    failed_stopped := fun _ => h.failed_stopped hactive }
  · exact List.mem_append_left _ (h.acknowledged e he)
  · obtain ⟨e, hm, hc, hd⟩ := h.checkpoints chk hchk
    exact ⟨e, hm, hc, List.mem_append_left _ hd⟩
  · refine h.failed_enqueued hactive i hi e ?_
    rw [hsplit, List.append_assoc, List.filterMap_append]
    exact List.mem_append_left _ he

theorem Accounted.acknowledge {entry : Emitted} (hdone : .transactionComplete entry ∈ s.done) :
    (s.acknowledge entry).Accounted := by
  refine { h with applied := rfl, acknowledged := fun e he => ?_ }
  cases he
  exact hdone

theorem Accounted.enqueue (item : ApplyEventStruct)
    (hfailed : s.worker.Active → s.failed = [] ∨ item.source = none) :
    (s.enqueue item).Accounted := by
  refine { h with
    split := ?_, handled := fun i hi => ?_, failed_enqueued := fun hw i hi e he => ?_ }
  · show s.enqueued ++ [item] = s.done ++ s.worker.taken ++ (s.applyEventsQueue ++ [item])
    rw [h.split, List.append_assoc]
  · rcases h.handled i hi with hf | ho | ⟨e, ev, hie, he⟩
    · exact .inl hf
    · exact .inr (.inl ho)
    · exact .inr (.inr ⟨e, ev, hie, List.mem_append_left _ he⟩)
  · rcases hfailed hw with hnone | hsource
    · simp [Pipeline.enqueue, hnone] at hi
    · refine h.failed_enqueued hw i hi e ?_
      simpa [Pipeline.enqueue, hsource] using he

theorem Accounted.failed_eq_nil (hw : s.worker.Active) (hd : s.dispatcher ≠ .stopped) :
    s.failed = [] := by
  by_contra hne
  exact hd (h.failed_stopped hw hne)

theorem Accounted.notifyListeners (ho : s.InOrder) (hs : s.notifyListeners c = some s') :
    s'.Accounted := by
  obtain ⟨entry, hd, hcases⟩ := notifyListeners_eq hs
  have howes : ∀ i, ¬ s.dispatcher.Owes i := by
    intro i hi
    rw [hd] at hi
    exact hi
  have hstopped : s.dispatcher ≠ .stopped := by
    rw [hd]
    simp
  rcases hcases with ⟨-, rfl⟩ | ⟨-, n, hn, rfl⟩
  · -- refused: a row that is recorded as handled is recorded as failed too
    have hfail := h.failDelivery ho entry (by rw [hd]; exact List.mem_singleton.2 rfl)
      (fun i hi => absurd hi (howes i))
    refine { hfail with handled := fun i hi => ?_ }
    have hi : i ∈ s.handledWith c entry := hi
    unfold handledWith at hi
    split at hi
    · rcases List.mem_append.1 hi with hi | hi
      · exact hfail.handled i hi
      · exact .inl (List.mem_append_right _ hi)
    · exact hfail.handled i hi
  · refine { h with
      handled := fun i hi => ?_
      failed_stopped := fun hw hne => absurd (h.failed_eq_nil hw hstopped) hne }
    have hold : i ∈ s.handled → i ∈ s.failed ∨
        (Dispatcher.notifying entry n.sends n.fails).Owes i ∨
          ∃ entry ev, entry.2 = i ∧ .dml entry ev ∈ s.enqueued := by
      intro hi
      rcases h.handled i hi with hf | ho | he
      · exact .inl hf
      · exact absurd ho (howes i)
      · exact .inr (.inr he)
    have hi : i ∈ s.handledWith c entry := hi
    unfold handledWith at hi
    split at hi
    · next hrow =>
      rcases List.mem_append.1 hi with hi | hi
      · exact hold hi
      · refine .inr (.inl ⟨(List.mem_singleton.1 hi).symm, ?_⟩)
        unfold hearsRow at hrow
        simp only [Bool.and_eq_true, Bool.not_eq_true', Option.any_eq_true] at hrow
        obtain ⟨⟨hreg, hmarker⟩, ev, hev, horig⟩ := hrow
        unfold notification at hn
        rw [if_neg (by simp [hmarker]), hev] at hn
        have hmem : Listener.dml ∈ s.listeners := by
          unfold dmlRegistered at hreg
          simpa using hreg
        exact (StreamContext.notifyRow_dml horig hmem hn).imp_right fun hm => ⟨ev, hm⟩
    · exact hold hi

theorem Accounted.deliver (ho : s.InOrder) (hs : s.deliver = some s') : s'.Accounted := by
  obtain ⟨entry, sends, fails, hd, hcases⟩ := deliver_eq hs
  have hstopped : s.dispatcher ≠ .stopped := by
    rw [hd]
    simp
  rcases hcases with ⟨item, rest, rfl, rfl⟩ | ⟨rfl, -, rfl⟩ | ⟨rfl, rfl, rfl⟩
  · have henq := h.enqueue item fun hw => .inl (h.failed_eq_nil hw hstopped)
    refine { henq with
      handled := fun i hi => ?_
      failed_stopped := fun hw hne => absurd (h.failed_eq_nil hw hstopped) hne }
    rcases henq.handled i hi with hf | ho | he
    · exact .inl hf
    · have ho : s.dispatcher.Owes i := ho
      rw [hd] at ho
      obtain ⟨hie, hfails | ⟨ev, hev⟩⟩ := ho
      · exact .inr (.inl ⟨hie, .inl hfails⟩)
      · rcases List.mem_cons.1 hev with rfl | hev
        · exact .inr (.inr ⟨entry, ev, hie, List.mem_append_right _ (List.mem_singleton.2 rfl)⟩)
        · exact .inr (.inl ⟨hie, .inr ⟨ev, hev⟩⟩)
    · exact .inr (.inr he)
  · refine h.failDelivery ho entry (by rw [hd]; exact List.mem_singleton.2 rfl) fun i hi => ?_
    rw [hd] at hi
    exact hi.1.symm
  · refine { h with
      handled := fun i hi => ?_
      failed_stopped := fun hw hne => absurd (h.failed_eq_nil hw hstopped) hne }
    rcases h.handled i hi with hf | ho | he
    · exact .inl hf
    · rw [hd] at ho
      obtain ⟨-, hf | ⟨ev, hev⟩⟩ := ho
      · simp at hf
      · simp at hev
    · exact .inr (.inr he)

theorem Accounted.takeEvents {batchSize : Int} (ho : s.InOrder)
    (hs : s.takeEvents batchSize = some s') : s'.Accounted := by
  obtain ⟨hw, item, queue, hq, hcases⟩ := takeEvents_eq hs
  have hactive : s.worker.Active := by
    rw [hw]
    intro dropped
    simp
  have htaken : s.worker.taken ++ s.applyEventsQueue = item :: queue := by
    rw [hw, hq]
    rfl
  rcases hcases with ⟨-, rfl⟩ | ⟨entry, rfl, rfl⟩ | ⟨writeFunc, rfl, rfl⟩ | ⟨batch, left, hb, rfl⟩
  · exact h.stopWorker ho [item] queue htaken
  · have hwork := h.work s.worker [.transactionComplete entry] queue hactive
      (by rw [htaken, hw]; rfl) h.completed
    exact hwork.acknowledge (List.mem_append_right _ (List.mem_singleton.2 rfl))
  · have hwork := h.work (.running writeFunc) [] queue hactive
      (by rw [htaken]; rfl) (fun b hb => by cases hb)
    exact { hwork with
      split := by simpa using hwork.split, acknowledged := h.acknowledged
      checkpoints := h.checkpoints, failed_done := h.failed_done }
  · have hwork := h.work (.applying batch) [] left hactive
      (by rw [htaken]; exact hb.taken) (fun b hb' => by cases hb'; exact hb.completed)
    exact { hwork with
      split := by simpa using hwork.split, acknowledged := h.acknowledged
      checkpoints := h.checkpoints, failed_done := h.failed_done }

end Accounting

theorem Accounted.step (h : s.Accounted) (ho : s.InOrder) (hs : s.step c a = some s') :
    s'.Accounted := by
  cases a with
  | startup =>
    obtain ⟨_, _, -, hp⟩ := startupStep_eq hs
    rw [hp.frame]
    rcases hp.worker with ⟨-, hw⟩ | ⟨hw, hw'⟩
    · rw [hw]
      exact { h with }
    · have hw : s.worker = .notStarted := hw
      have hwork := h.work .idle [] s.applyEventsQueue (by rw [hw]; intro; simp)
        (by rw [hw]; rfl) (fun b hb => by cases hb)
      rw [hw']
      exact { hwork with
        split := by simpa using hwork.split, acknowledged := h.acknowledged
        checkpoints := h.checkpoints, failed_done := h.failed_done }
  | readEvent ev =>
    obtain ⟨-, _, _, _, -, rfl⟩ := readEvent_eq hs
    exact { h with }
  | sendEntry =>
    obtain ⟨_, _, -, rfl⟩ := sendEntry_eq hs
    exact { h with }
  | sendEntryCanceled =>
    obtain ⟨-, rfl⟩ := sendEntryCanceled_eq hs
    exact { h with }
  | reconnect =>
    obtain ⟨_, _, _, _, rfl, -⟩ := reconnect_eq hs
    exact { h with }
  | receive =>
    obtain ⟨hd, entry, rest, -, rfl | ⟨-, rfl⟩⟩ := receive_eq hs
    · have hstopped : s.dispatcher ≠ .stopped := by
        rw [hd]
        simp
      refine { h with
        handled := fun i hi => ?_
        failed_stopped := fun hw hne => absurd (h.failed_eq_nil hw hstopped) hne }
      have hi := h.handled i hi
      rw [hd] at hi
      exact hi
    · exact { h with }
  | dispatcherCanceled =>
    obtain ⟨-, hd, rfl⟩ := dispatcherCanceled_eq hs
    refine { h with handled := fun i hi => ?_, failed_stopped := fun _ _ => rfl }
    have hi := h.handled i hi
    rw [hd] at hi
    exact hi
  | notifyListeners => exact h.notifyListeners ho hs
  | deliver => exact h.deliver ho hs
  | deliverCanceled =>
    obtain ⟨entry, _, _, hd, -, rfl⟩ := deliverCanceled_eq hs
    refine h.failDelivery ho entry (by rw [hd]; exact List.mem_singleton.2 rfl) fun i hi => ?_
    rw [hd] at hi
    exact hi.1.symm
  | deliverAsync i =>
    obtain ⟨item, hi, rfl⟩ := deliverAsync_eq hs
    exact { h.enqueue item fun _ => .inr (ho.asyncSends item hi) with }
  | takeEvents batchSize => exact h.takeEvents ho hs
  | batchApplied =>
    obtain ⟨batch, hw, applied, acknowledged, rfl, hack⟩ := batchApplied_eq hs
    have hwork := h.work batch.after batch.collected s.applyEventsQueue
      (by rw [hw]; intro; simp)
      (by rw [hw]; cases hn : batch.nonDmlStructToApply <;>
            simp [Batch.after, Batch.taken, Worker.taken, hn])
      (fun b hb => by unfold Batch.after at hb; split at hb <;> cases hb)
    rcases hack with ⟨rfl, rfl⟩ | ⟨entry, he, rfl, rfl⟩
    · exact { hwork with }
    · have hmem := h.completed batch hw entry he
      exact { hwork.acknowledge (List.mem_append_right _ hmem) with }
  | batchFailed =>
    obtain ⟨batch, hw, rfl⟩ := batchFailed_eq hs
    exact h.stopWorker ho batch.taken s.applyEventsQueue (by rw [hw]; rfl)
  | funcApplied =>
    obtain ⟨writeFunc, _, hw, rfl⟩ := funcApplied_eq hs
    have hwork := h.work .idle [.func writeFunc] s.applyEventsQueue (by rw [hw]; intro; simp)
      (by rw [hw]; rfl) (fun b hb => by cases hb)
    exact { hwork with }
  | funcFailed =>
    obtain ⟨writeFunc, hw, rfl⟩ := funcFailed_eq hs
    exact h.stopWorker ho [.func writeFunc] s.applyEventsQueue (by rw [hw]; rfl)
  | finishWorker =>
    obtain ⟨hw, rfl⟩ := finishWorker_eq hs
    have hstop := h.stopWorker ho [] s.applyEventsQueue (by rw [hw]; rfl)
    exact { hstop with failed_done := h.failed_done, handled := h.handled
                       failed_enqueued := fun hw => absurd rfl (hw [])
                       failed_stopped := fun hw => absurd rfl (hw []) }
  | sampleCheckpoint =>
    obtain rfl := sampleCheckpoint_eq hs
    exact { h with }
  | writeCheckpoint =>
    obtain ⟨coords, applied, -, happ, -, rfl⟩ := writeCheckpoint_eq hs
    refine { h with checkpoints := fun chk hchk => ?_ }
    rcases List.mem_append.1 hchk with hchk | hchk
    · exact h.checkpoints chk hchk
    · rw [List.mem_singleton.1 hchk]
      rw [h.applied, Option.map_eq_some_iff] at happ
      obtain ⟨entry, hentry, rfl⟩ := happ
      exact ⟨entry, hentry, rfl, h.acknowledged entry hentry⟩
  | abandonCheckpoint =>
    cases hs
    exact { h with }
  | setAbortError =>
    cases hs
    exact { h with }
  | cancelContext =>
    cases hs
    exact { h with }

/-! ## Where the coordinates come from -/

structure Located (s : Pipeline) : Prop where
  reader : s.streamer.binlogReader.currentCoordinates ∈ s.positions
  markers : ∀ e ∈ s.emitted, e.transactionComplete = true → e.coordinates ∈ s.positions
  sampled : ∀ coords, s.sampled = some coords → coords ∈ s.positions
  checkpoints : ∀ chk ∈ s.checkpoints, chk.sampled ∈ s.positions ∧
    chk.sampled.smallerThanOrEquals chk.lastTrxCoords = true

theorem Located.readEvent {ev : BinlogEvent} (h : s.Located) (hs : s.readEvent c ev = some s') :
    s'.Located := by
  obtain ⟨-, reader, entries, err, -, rfl⟩ := readEvent_eq hs
  refine ⟨List.mem_append_right _ (List.mem_cons_self ..), ?_, ?_, ?_⟩
  · intro e he hc
    rcases List.mem_append.1 he with he | he
    · exact List.mem_append_left _ (h.markers e he hc)
    · refine List.mem_append_right _ (List.mem_cons_of_mem _ (List.mem_map.2 ⟨e, ?_, rfl⟩))
      exact List.mem_filter.2 ⟨he, hc⟩
  · intro coords hcoords
    exact List.mem_append_left _ (h.sampled coords hcoords)
  · intro chk hchk
    exact (h.checkpoints chk hchk).imp_left (List.mem_append_left _)

theorem Located.step (h : s.Located) (hs : s.step c a = some s') : s'.Located := by
  cases a with
  | startup =>
    obtain ⟨_, _, -, hp⟩ := startupStep_eq hs
    rw [hp.frame]
    exact { h with }
  | readEvent ev => exact h.readEvent hs
  | sendEntry =>
    obtain ⟨_, _, -, rfl⟩ := sendEntry_eq hs
    exact { h with }
  | sendEntryCanceled =>
    obtain ⟨-, rfl⟩ := sendEntryCanceled_eq hs
    exact { h with }
  | reconnect =>
    obtain ⟨streamer, _, _, positions, rfl, ⟨rfl, rfl⟩ | rfl⟩ := reconnect_eq hs
    · exact { h with }
    · exact
      { reader := List.mem_append_right _ (List.mem_singleton.2 rfl)
        markers := fun e he hc => List.mem_append_left _ (h.markers e he hc)
        sampled := fun coords hc => List.mem_append_left _ (h.sampled coords hc)
        checkpoints := fun chk hchk =>
          (h.checkpoints chk hchk).imp_left (List.mem_append_left _) }
  | receive =>
    obtain ⟨-, _, _, -, rfl | ⟨-, rfl⟩⟩ := receive_eq hs <;> exact { h with }
  | dispatcherCanceled =>
    obtain ⟨-, -, rfl⟩ := dispatcherCanceled_eq hs
    exact { h with }
  | notifyListeners =>
    obtain ⟨_, -, ⟨-, rfl⟩ | ⟨-, _, -, rfl⟩⟩ := notifyListeners_eq hs <;> exact { h with }
  | deliver =>
    obtain ⟨_, _, _, -, ⟨_, _, -, rfl⟩ | ⟨-, -, rfl⟩ | ⟨-, -, rfl⟩⟩ := deliver_eq hs <;>
      exact { h with }
  | deliverCanceled =>
    obtain ⟨_, _, _, -, -, rfl⟩ := deliverCanceled_eq hs
    exact { h with }
  | deliverAsync i =>
    obtain ⟨_, -, rfl⟩ := deliverAsync_eq hs
    exact { h with }
  | takeEvents batchSize =>
    obtain ⟨-, _, _, -, ⟨-, rfl⟩ | ⟨_, -, rfl⟩ | ⟨_, -, rfl⟩ | ⟨_, _, -, rfl⟩⟩ :=
      takeEvents_eq hs <;>
      exact { h with }
  | batchApplied =>
    obtain ⟨_, -, _, _, rfl, -⟩ := batchApplied_eq hs
    exact { h with }
  | batchFailed =>
    obtain ⟨_, -, rfl⟩ := batchFailed_eq hs
    exact { h with }
  | funcApplied =>
    obtain ⟨_, _, -, rfl⟩ := funcApplied_eq hs
    exact { h with }
  | funcFailed =>
    obtain ⟨_, -, rfl⟩ := funcFailed_eq hs
    exact { h with }
  | finishWorker =>
    obtain ⟨-, rfl⟩ := finishWorker_eq hs
    exact { h with }
  | sampleCheckpoint =>
    obtain rfl := sampleCheckpoint_eq hs
    refine { h with sampled := fun coords hc => ?_ }
    cases hc
    exact h.reader
  | writeCheckpoint =>
    obtain ⟨coords, applied, hsampled, -, hle, rfl⟩ := writeCheckpoint_eq hs
    refine { h with sampled := fun _ hc => by simp at hc, checkpoints := fun chk hchk => ?_ }
    rcases List.mem_append.1 hchk with hchk | hchk
    · exact h.checkpoints chk hchk
    · rw [List.mem_singleton.1 hchk]
      exact ⟨h.sampled coords hsampled, hle⟩
  | abandonCheckpoint =>
    cases hs
    exact { h with sampled := fun _ hc => by simp at hc }
  | setAbortError =>
    cases hs
    exact { h with }
  | cancelContext =>
    cases hs
    exact { h with }

/-! ## Boundaries -/

/-- Every row before the marker that the dispatcher handled with the DML listener registered is
committed, and nothing before it has failed. -/
structure Boundary (s : Pipeline) (marker : Emitted) : Prop where
  emitted : s.emitted[marker.2]? = some marker.1
  complete : marker.1.transactionComplete = true
  committed : ∀ i ∈ s.handled, i < marker.2 → ∃ entry ev, entry.2 = i ∧ .dml entry ev ∈ s.done
  unfailed : ∀ i ∈ s.failed, ¬ i < marker.2

theorem Accounted.boundary (h : s.Accounted) (ho : s.InOrder) {marker : Emitted}
    (hdone : .transactionComplete marker ∈ s.done) : s.Boundary marker := by
  have hsource : marker ∈ s.done.filterMap (·.source) := List.mem_filterMap.2 ⟨_, hdone, rfl⟩
  have henq : .transactionComplete marker ∈ s.enqueued := by
    rw [h.split, List.append_assoc]
    exact List.mem_append_left _ hdone
  have hline : marker ∈ s.line := by
    unfold line
    simp only [List.append_assoc]
    exact List.mem_append_left _ (List.mem_filterMap.2 ⟨_, henq, rfl⟩)
  have hunfailed : ∀ i ∈ s.failed, ¬ i < marker.2 := by
    intro i hi
    have hle := h.failed_done i hi marker hsource
    omega
  refine ⟨ho.sourced marker hline, ho.markers marker henq, ?_, hunfailed⟩
  intro i hi hlt
  -- the numbers of the line ascend: what is not done yet comes after the marker
  have hafter : ∀ entry ∈ (s.worker.taken ++ s.applyEventsQueue).filterMap (·.source) ++
      s.dispatcher.entries, marker.2 ≤ entry.2 := by
    intro entry he
    have hsorted := ho.sorted
    unfold line at hsorted
    rw [h.split] at hsorted
    simp only [List.filterMap_append, List.append_assoc] at hsorted he
    refine (List.pairwise_append.1 hsorted).2.2 marker hsource entry ?_
    simp only [List.mem_append] at he ⊢
    rcases he with he | he | he
    · exact .inl he
    · exact .inr (.inl he)
    · exact .inr (.inr (.inl he))
  rcases h.handled i hi with hf | howes | ⟨entry, ev, rfl, he⟩
  · exact absurd hlt (hunfailed i hf)
  · cases hd : s.dispatcher with
    | notifying entry sends fails =>
      rw [hd] at howes hafter
      have hle := hafter entry (List.mem_append_right _ (List.mem_singleton.2 rfl))
      have hi := howes.1
      omega
    | waiting => rw [hd] at howes; exact howes.elim
    | received entry => rw [hd] at howes; exact howes.elim
    | stopped => rw [hd] at howes; exact howes.elim
  · rw [h.split, List.append_assoc] at he
    rcases List.mem_append.1 he with he | he
    · exact ⟨entry, ev, rfl, he⟩
    · have hle := hafter entry (List.mem_append_left _ (List.mem_filterMap.2 ⟨_, he, rfl⟩))
      omega

structure Sound (s : Pipeline) : Prop where
  inOrder : s.InOrder
  accounted : s.Accounted
  located : s.Located

theorem Sound.init (steps : List StartupStep) (useGTIDs : Bool) (maxReconnectAttempts : Nat)
    (coordinates : BinlogCoordinates) :
    (initPipeline steps useGTIDs maxReconnectAttempts coordinates).Sound := by
  refine ⟨?_, ?_, ?_⟩
  · constructor <;> simp [initPipeline, line, Dispatcher.entries]
  · constructor <;> simp [initPipeline, Worker.taken]
  · constructor <;> simp [initPipeline, initStreamer, connect]

theorem Sound.step (h : s.Sound) (hs : s.step c a = some s') : s'.Sound :=
  ⟨h.inOrder.step hs, h.accounted.step h.inOrder hs, h.located.step hs⟩

/-- **Applied transactions are boundaries, and so is what a checkpoint persists.** -/
theorem applied_transaction_is_boundary {steps : List StartupStep} {useGTIDs : Bool}
    {maxReconnectAttempts : Nat} {coordinates : BinlogCoordinates}
    (hr : Infra.Reachable (Pipeline.step c)
      (initPipeline steps useGTIDs maxReconnectAttempts coordinates) s) :
    (∀ coords, s.appliedTransactionCoordinates = some coords →
      ∃ marker, s.acknowledged = some marker ∧ marker.1.coordinates = coords ∧
        s.Boundary marker) ∧
    ∀ chk ∈ s.checkpoints, ∃ marker, chk.marker = some marker ∧
      marker.1.coordinates = chk.lastTrxCoords ∧ s.Boundary marker ∧
      (s.positions.Pairwise BinlogCoordinates.NotAfter →
        BinlogCoordinates.NotAfter chk.sampled chk.lastTrxCoords) := by
  have hsound : s.Sound := hr.invariant (Sound.init ..) fun _ _ _ h _ hs => h.step hs
  obtain ⟨ho, ha, hl⟩ := hsound
  constructor
  · intro coords hcoords
    rw [ha.applied, Option.map_eq_some_iff] at hcoords
    obtain ⟨marker, hm, hmc⟩ := hcoords
    exact ⟨marker, hm, hmc, ha.boundary ho (ha.acknowledged marker hm)⟩
  · intro chk hchk
    obtain ⟨marker, hm, hmc, hdone⟩ := ha.checkpoints chk hchk
    obtain ⟨hsampled, hle⟩ := hl.checkpoints chk hchk
    have hb := ha.boundary ho hdone
    refine ⟨marker, hm, hmc.symm, hb, fun hmono => ?_⟩
    have hmarker : chk.lastTrxCoords ∈ s.positions := by
      rw [hmc]
      exact hl.markers _ (List.mem_of_getElem? hb.emitted) hb.complete
    refine BinlogCoordinates.NotAfter.of_smallerThanOrEquals hle ?_
    exact BinlogCoordinates.NotAfter.total_of_pairwise hmono hsampled hmarker

theorem applied_transaction_is_boundary_small :
    ∃ s, Infra.Reachable (Pipeline.step smallStream) (initPipeline resumeSteps false 0 (fileAt 4))
        s ∧ s.checkpoints.length = 1 ∧ s.handled = [0, 2] ∧
      ∀ chk ∈ s.checkpoints, ∃ marker, chk.marker = some marker ∧
        marker.1.coordinates = chk.lastTrxCoords ∧ s.Boundary marker ∧
        BinlogCoordinates.NotAfter chk.sampled chk.lastTrxCoords := by
  refine Infra.exists_reach_of
    (fun s => s.checkpoints.length = 1 ∧ s.handled = [0, 2] ∧
      s.positions.Pairwise BinlogCoordinates.NotAfter)
    [List.replicate 11 .startup,
      [.readEvent (insertAt 100 1), .sendEntry, .receive, .notifyListeners, .deliver, .deliver,
        .readEvent (xidAt 131), .sampleCheckpoint, .sendEntry, .receive, .notifyListeners, .deliver,
        .deliver, .readEvent (insertAt 200 2), .sendEntry, .receive, .notifyListeners, .deliver,
        .takeEvents 10, .batchApplied, .writeCheckpoint]].flatten (by decide) ?_
  rintro s hr ⟨hlen, hhandled, hmono⟩
  refine ⟨hlen, hhandled, fun chk hchk => ?_⟩
  obtain ⟨marker, hm, hc, hb, hle⟩ := (applied_transaction_is_boundary hr).2 chk hchk
  exact ⟨marker, hm, hc, hb, hle hmono⟩

end Pipeline

end GhOst.Logic
