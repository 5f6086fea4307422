import GhOst.Logic.ApplyEvents
import GhOst.Properties.Retry

/-!
# Batches and single structs

Whatever arrives while the worker runs, and however large its batches are, the structs it has taken
are done in the order of the queue. Two invariants carry this. `Accounted` follows the structs
through the worker and needs no assumption; `Single` says that the log, processed singly, gives the
state, and needs that nothing fails.
-/

namespace GhOst.Logic

open GhOst.Sql GhOst.Binlog GhOst.Mysql Infra

/-- The structs among what was done. -/
def Work.items {σ : Type} (log : List (Work σ)) : List ApplyEventStruct :=
  log.filterMap fun
    | .item eventStruct => some eventStruct
    | .copyRows _ => none

/-- What the worker has taken and not done yet. -/
def Call.held : Call → List ApplyEventStruct
  | .idle => []
  | .received item => [item]
  | .collecting batch _ _ => batch.taken
  | .applying batch => batch.taken
  | .running writeFunc => [.func writeFunc]
  | .stopped dropped => dropped

/-- The coordinates after these structs were acknowledged. -/
def acknowledged (applied : Option BinlogCoordinates) (items : List ApplyEventStruct) :
    Option BinlogCoordinates :=
  items.foldl (fun applied item =>
    match item with
    | .transactionComplete entry => some entry.1.coordinates
    | _ => applied) applied

/-- The parts of a batch agree with what was collected. -/
structure Batch.Agrees (b : Batch) : Prop where
  rows : b.dmlEvents = b.collected.filterMap ApplyEventStruct.row
  marker : ∀ applied, acknowledged applied b.collected =
    match b.completedTransaction with
    | none => applied
    | some entry => some entry.1.coordinates

namespace Batch

theorem agrees_first (entry : Emitted) (ev : BinlogDMLEvent) : (first entry ev).Agrees where
  rows := rfl
  marker _ := rfl

theorem Agrees.addRow {b : Batch} (h : b.Agrees) (entry : Emitted) (ev : BinlogDMLEvent) :
    (b.addRow entry ev).Agrees where
  rows := by
    show b.dmlEvents ++ [ev] = (b.collected ++ [ApplyEventStruct.dml entry ev]).filterMap
      ApplyEventStruct.row
    rw [List.filterMap_append, ← h.rows]
    rfl
  marker := by
    intro applied
    show acknowledged applied (b.collected ++ [.dml entry ev]) = _
    unfold acknowledged
    rw [List.foldl_append]
    exact h.marker applied

theorem Agrees.addMarker {b : Batch} (h : b.Agrees) (entry : Emitted) :
    (b.addMarker entry).Agrees where
  rows := by
    show b.dmlEvents =
      (b.collected ++ [ApplyEventStruct.transactionComplete entry]).filterMap ApplyEventStruct.row
    rw [List.filterMap_append, ← h.rows]
    exact (List.append_nil b.dmlEvents).symm
  marker := by
    intro applied
    show acknowledged applied (b.collected ++ [.transactionComplete entry]) = _
    unfold acknowledged
    rw [List.foldl_append]
    rfl

end Batch

namespace ApplyWorker

variable {σ κ : Type} [DecidableEq κ] {c : WorkerContext σ κ} {s s' : ApplyWorker σ}
variable {queue : List ApplyEventStruct} {item : ApplyEventStruct} {batchSize : Int} {batch : Batch}
  {n : Nat} {failures : List (Option Failure)} {abort : Option (Nat × String)}
  {action : WorkerAction σ} {applied : Option BinlogCoordinates}

/-! ## The structs -/

def batch? (s : ApplyWorker σ) : Option Batch :=
  match s.call with
  | .collecting batch _ _ => some batch
  | .applying batch => some batch
  | _ => none

/-- What came to the queue is still there, or held by the worker, or done. -/
structure Accounted (queue : List ApplyEventStruct) (s : ApplyWorker σ) : Prop where
  fifo : s.taken ++ s.applyEventsQueue = queue ++ s.arrived
  done : Work.items s.log ++ s.call.held = s.taken
  agrees : ∀ batch, s.batch? = some batch → batch.Agrees
  collecting : ∀ batch n batchSize, s.call = .collecting batch n batchSize →
    batch.nonDmlStructToApply = none ∧ n ≤ s.applyEventsQueue.length

theorem items_append {log more : List (Work σ)} :
    Work.items (log ++ more) = Work.items log ++ Work.items more := List.filterMap_append

theorem items_map {items : List ApplyEventStruct} :
    Work.items (items.map fun item => (.item item : Work σ)) = items := by
  unfold Work.items
  rw [List.filterMap_map]
  exact List.filterMap_some

section Collecting

variable (h : Accounted queue s)
include h

theorem Accounted.arrive (hs : s.arrive item = some s') : Accounted queue s' := by
  unfold ApplyWorker.arrive at hs
  obtain ⟨-, rfl⟩ := of_guard hs
  refine ⟨?_, h.done, h.agrees, ?_⟩
  · rw [← List.append_assoc, h.fifo, List.append_assoc]
  · intro batch n batchSize hcall
    obtain ⟨hnone, hn⟩ := h.collecting batch n batchSize hcall
    refine ⟨hnone, ?_⟩
    rw [List.length_append]
    omega

theorem Accounted.take (hs : s.take = some s') : Accounted queue s' := by
  unfold ApplyWorker.take at hs
  split at hs
  · next item rest hcall hqueue =>
    have hfifo := h.fifo
    have hdone := h.done
    rw [hqueue] at hfifo
    rw [hcall, Call.held, List.append_nil] at hdone
    cases hs
    refine ⟨?_, ?_, ?_, ?_⟩
    · rw [List.append_assoc]
      exact hfifo
    · show Work.items s.log ++ [item] = s.taken ++ [item]
      rw [hdone]
    · intro batch hbatch
      simp [batch?] at hbatch
    · intro batch n batchSize hcall
      simp at hcall
  · simp at hs

theorem Accounted.of_call (hqueue : s'.applyEventsQueue = s.applyEventsQueue)
    (harrived : s'.arrived = s.arrived) (htaken : s'.taken = s.taken)
    (hheld : Work.items s'.log ++ s'.call.held = Work.items s.log ++ s.call.held)
    (hbatch : s'.batch? = none) : Accounted queue s' where
  fifo := by rw [htaken, hqueue, harrived, h.fifo]
  done := by rw [hheld, htaken, h.done]
  agrees := by
    intro batch hb
    rw [hbatch] at hb
    simp at hb
  collecting := by
    intro batch n batchSize hcall
    unfold batch? at hbatch
    rw [hcall] at hbatch
    simp at hbatch

theorem Accounted.copyRows {write : List (Row σ) → List (Row σ)} (hs : s.copyRows write = some s') :
    Accounted queue s' := by
  unfold ApplyWorker.copyRows at hs
  obtain ⟨hidle, rfl⟩ := of_guard hs
  refine h.of_call rfl rfl rfl ?_ ?_
  · rw [items_append]
    simp [Work.items]
  · unfold batch?
    rw [hidle.1]

theorem Accounted.leave (hs : s.leave = some s') : Accounted queue s' := by
  unfold ApplyWorker.leave at hs
  obtain ⟨hidle, rfl⟩ := of_guard hs
  refine h.of_call rfl rfl rfl ?_ rfl
  rw [hidle]
  rfl

theorem Accounted.start {abort : Option String} (hs : s.start batchSize abort = some s') :
    Accounted queue s' := by
  unfold ApplyWorker.start at hs
  split at hs
  · next item text hcall =>
    cases hs
    refine h.of_call rfl rfl rfl ?_ rfl
    rw [hcall]
    rfl
  · next entry hcall =>
    cases hs
    refine h.of_call rfl rfl rfl ?_ rfl
    rw [hcall, items_append]
    exact List.append_nil _
  · next writeFunc hcall =>
    cases hs
    refine h.of_call rfl rfl rfl ?_ rfl
    rw [hcall]
    rfl
  · next entry ev hcall =>
    cases hs
    refine ⟨h.fifo, ?_, ?_, ?_⟩
    · have hdone := h.done
      rw [hcall] at hdone
      exact hdone
    · intro batch hbatch
      cases hbatch
      exact Batch.agrees_first entry ev
    · intro batch n size hcall
      rw [Call.collecting.injEq] at hcall
      rw [← hcall.1, ← hcall.2.1]
      exact ⟨rfl, le_rfl⟩
  · simp at hs

theorem Accounted.applying (hcall : s.call = .collecting batch n batchSize) :
    Accounted queue { s with call := .applying batch } where
  fifo := h.fifo
  done := by
    have hdone := h.done
    rw [hcall] at hdone
    exact hdone
  agrees := by
    intro b hb
    refine h.agrees b ?_
    unfold batch?
    rw [hcall]
    exact hb
  collecting := by
    intro b n' size hcall'
    simp at hcall'

theorem Accounted.add {rest : List ApplyEventStruct} {batch' : Batch} {call : Call}
    (hcall : s.call = .collecting batch (n + 1) batchSize)
    (hqueue : s.applyEventsQueue = item :: rest) (hheld : call.held = batch.taken ++ [item])
    (hcall' : call = .collecting batch' n batchSize ∧ batch'.nonDmlStructToApply = none ∨
      call = .applying batch') (hagrees : batch'.Agrees) :
    Accounted queue { s with applyEventsQueue := rest, taken := s.taken ++ [item], call } where
  fifo := by
    have hfifo := h.fifo
    rw [hqueue] at hfifo
    rw [List.append_assoc]
    exact hfifo
  done := by
    have hdone := h.done
    rw [hcall] at hdone
    show Work.items s.log ++ call.held = s.taken ++ [item]
    rw [hheld, ← List.append_assoc]
    exact congrArg (· ++ [item]) hdone
  agrees := by
    intro b hb
    rcases hcall' with ⟨rfl, -⟩ | rfl
    · exact Option.some.inj hb ▸ hagrees
    · exact Option.some.inj hb ▸ hagrees
  collecting := by
    intro b n' size hb
    rcases hcall' with ⟨rfl, hnone⟩ | rfl
    · rw [Call.collecting.injEq] at hb
      obtain ⟨-, hn⟩ := h.collecting batch (n + 1) batchSize hcall
      rw [hqueue, List.length_cons] at hn
      rw [← hb.1, ← hb.2.1]
      exact ⟨hnone, Nat.le_of_succ_le_succ hn⟩
    · simp at hb

theorem Accounted.collect (hs : s.collect = some s') : Accounted queue s' := by
  unfold ApplyWorker.collect at hs
  split at hs
  · next batch batchSize hcall =>
    cases hs
    exact h.applying hcall
  · next batch n batchSize hcall =>
    split at hs
    · split at hs
      · simp at hs
      · next item rest hqueue =>
        obtain ⟨hnone, -⟩ := h.collecting _ _ _ hcall
        have hagrees : batch.Agrees := by
          refine h.agrees batch ?_
          unfold batch?
          rw [hcall]
        have htaken : batch.taken = batch.collected := by
          unfold Batch.taken
          rw [hnone]
          exact List.append_nil _
        cases item with
        | transactionComplete entry =>
          cases hs
          refine h.add hcall hqueue ?_ (.inl ⟨rfl, hnone⟩) (hagrees.addMarker entry)
          rw [htaken, Call.held, Batch.taken, Batch.addMarker, hnone]
          exact List.append_nil _
        | func writeFunc =>
          cases hs
          refine h.add hcall hqueue ?_ (.inr rfl) ⟨hagrees.rows, hagrees.marker⟩
          rw [htaken]
          rfl
        | dml entry ev =>
          cases hs
          refine h.add hcall hqueue ?_ (.inl ⟨rfl, hnone⟩) (hagrees.addRow entry ev)
          rw [htaken, Call.held, Batch.taken, Batch.addRow, hnone]
          exact List.append_nil _
    · cases hs
      exact h.applying hcall
  · simp at hs

end Collecting

theorem applyBatch_eq (hs : s.applyBatch c failures abort = some s') :
    ∃ batch, s.call = .applying batch ∧
      ((∃ panicAbort after,
          s.retryBatch c batch.dmlEvents failures abort = .ok ({ err := none, panicAbort }, after) ∧
          s'.ghost = after.ghost ∧
          (s'.appliedTransactionCoordinates =
            match batch.completedTransaction with
            | none => s.appliedTransactionCoordinates
            | some entry => some entry.1.coordinates) ∧
          s'.log = s.log ++ batch.collected.map .item ∧
          s'.call = (match batch.nonDmlStructToApply with
            | none => .idle
            | some writeFunc => .running writeFunc)) ∨
        ((∀ panicAbort after, s.retryBatch c batch.dmlEvents failures abort ≠
            .ok ({ err := none, panicAbort }, after)) ∧
          s'.appliedTransactionCoordinates = s.appliedTransactionCoordinates ∧ s'.log = s.log ∧
          s'.call = .stopped batch.taken)) ∧
      s'.applyEventsQueue = s.applyEventsQueue ∧ s'.arrived = s.arrived ∧ s'.taken = s.taken := by
  unfold ApplyWorker.applyBatch at hs
  split at hs
  · next batch hcall =>
    refine ⟨batch, hcall, ?_⟩
    split at hs
    · next panicAbort after hretry =>
      cases hs
      exact ⟨.inl ⟨panicAbort, after, hretry, rfl, rfl, rfl, rfl⟩, rfl, rfl, rfl⟩
    · next hretry =>
      cases hs
      exact ⟨.inr ⟨by simp [hretry], rfl, rfl, rfl⟩, rfl, rfl, rfl⟩
    · next hretry =>
      cases hs
      exact ⟨.inr ⟨by simp [hretry], rfl, rfl, rfl⟩, rfl, rfl, rfl⟩
  · simp at hs

theorem Accounted.applyBatch (h : Accounted queue s)
    (hs : s.applyBatch c failures abort = some s') : Accounted queue s' := by
  obtain ⟨batch, hcall, houtcome, hqueue, harrived, htaken⟩ := applyBatch_eq hs
  rcases houtcome with ⟨_, after, -, -, -, hlog, hcall'⟩ | ⟨-, -, hlog, hcall'⟩
  · have hheld : s'.call.held = (batch.nonDmlStructToApply.map .func).toList := by
      rw [hcall']
      cases batch.nonDmlStructToApply with
      | none => rfl
      | some writeFunc => rfl
    refine h.of_call hqueue harrived htaken ?_ ?_
    · rw [hlog, items_append, items_map, hheld, hcall, List.append_assoc]
      rfl
    · unfold batch?
      rw [hcall']
      cases batch.nonDmlStructToApply with
      | none => rfl
      | some writeFunc => rfl
  · refine h.of_call hqueue harrived htaken ?_ ?_
    · rw [hlog, hcall', hcall]
      rfl
    · unfold batch?
      rw [hcall']

theorem Accounted.runFunc {err : Option String} (h : Accounted queue s)
    (hs : s.runFunc err = some s') : Accounted queue s' := by
  unfold ApplyWorker.runFunc at hs
  split at hs
  · next writeFunc hcall =>
    cases hs
    refine h.of_call rfl rfl rfl ?_ rfl
    rw [hcall, items_append]
    exact List.append_nil _
  · next writeFunc text hcall =>
    cases hs
    refine h.of_call rfl rfl rfl ?_ rfl
    rw [hcall]
    rfl
  · simp at hs

theorem Accounted.step (h : Accounted queue s) (hs : s.step c action = some s') :
    Accounted queue s' := by
  cases action with
  | arrive item => exact h.arrive hs
  | take => exact h.take hs
  | copyRows write => exact h.copyRows hs
  | leave => exact h.leave hs
  | start batchSize abort => exact h.start hs
  | collect => exact h.collect hs
  | applyBatch failures abort => exact h.applyBatch hs
  | runFunc err => exact h.runFunc hs

/-! ## Without failures -/

/-- One attempt at the batch from which nothing goes wrong outside. -/
def attempt (c : WorkerContext σ κ) (s : ApplyWorker σ) (dmlEvents : List BinlogDMLEvent) :
    Except Fault (Option String × BatchState σ) :=
  applyDMLEventQueries c.enc c.applier c.srv c.indexes none { dmlEvents, ghost := s.ghost }

/-- No abort is seen, the first attempt at a batch succeeds and a function returns without error. -/
def noFailure (c : WorkerContext σ κ) (s : ApplyWorker σ) : WorkerAction σ → Bool
  | .start _ abort => abort.isNone
  | .applyBatch failures abort =>
    failures.isEmpty && abort.isNone &&
      match s.call with
      | .applying batch =>
        match s.attempt c batch.dmlEvents with
        | .ok (none, _) => true
        | _ => false
      | _ => true
  | .runFunc err => err.isNone
  | _ => true

theorem retryBatch_eq {dmlEvents : List BinlogDMLEvent} {after : BatchState σ}
    (h : s.attempt c dmlEvents = .ok (none, after)) :
    s.retryBatch c dmlEvents [] none = .ok ({ err := none }, after) := by
  unfold retryBatch retryOperation
  obtain ⟨n, hn⟩ := Nat.exists_eq_succ_of_ne_zero c.maxRetries_pos.ne'
  rw [hn, retryLoop]
  unfold attempt at h
  simp only [Option.filter_none, Option.map_none, List.getElem?_nil, Option.join_none, h]

theorem processOne_row {entry : Emitted} {ev left : BinlogDMLEvent} {results : List DmlBuildResult}
    {queries : List Query} {ghost ghost' : List (Row σ)}
    (hbuild : buildDMLEventQuery c.enc c.applier ev = .ok (results, left))
    (hqueries : collectQueries results = .ok queries)
    (hexec : c.srv.execAll c.indexes ghost queries = some ghost') :
    processOne c (ghost, applied) (.item (.dml entry ev)) = some (ghost', applied) := by
  have hone : buildBatch c.enc c.applier [ev] = .ok (.ok queries, [left]) := by
    rw [buildBatch, hbuild]
    simp only [hqueries, buildBatch, List.append_nil]
  unfold processOne applyDMLEventQueries
  simp only [hone, hexec]

/-- **A batch is its structs one after the other.** -/
theorem processSingly_collected {collected : List ApplyEventStruct} {queries : List Query}
    {left : List BinlogDMLEvent} {ghost ghost' : List (Row σ)}
    (hbuild : buildBatch c.enc c.applier (collected.filterMap ApplyEventStruct.row)
      = .ok (.ok queries, left)) (hexec : c.srv.execAll c.indexes ghost queries = some ghost') :
    processSingly c (ghost, applied) (collected.map .item) =
      some (ghost', acknowledged applied collected) := by
  induction collected generalizing queries left ghost applied with
  | nil =>
    simp only [List.filterMap_nil, buildBatch, Except.ok.injEq, Prod.mk.injEq] at hbuild
    rw [← hbuild.1] at hexec
    cases hexec
    rfl
  | cons item collected ih =>
    unfold processSingly at ih ⊢
    rw [List.map_cons, List.foldlM_cons]
    cases item with
    | dml entry ev =>
      obtain ⟨results, left₁, queries₁, queries₂, left₂, hb, hq, hrest, rfl, -⟩ :=
        buildBatch_cons hbuild
      rw [Server.execAll_append, Option.bind_eq_some_iff] at hexec
      obtain ⟨ghost₁, hexec₁, hexec₂⟩ := hexec
      rw [processOne_row hb hq hexec₁]
      exact ih hrest hexec₂
    | transactionComplete entry => exact ih hbuild hexec
    | func writeFunc => exact ih hbuild hexec

/-- The log, processed singly, gives the state. -/
def Single (c : WorkerContext σ κ) (start : List (Row σ) × Option BinlogCoordinates)
    (s : ApplyWorker σ) : Prop :=
  processSingly c start s.log = some (s.ghost, s.appliedTransactionCoordinates)

theorem processSingly_append {start mid : List (Row σ) × Option BinlogCoordinates}
    {log more : List (Work σ)} (h : processSingly c start log = some mid) :
    processSingly c start (log ++ more) = processSingly c mid more := by
  unfold processSingly at h ⊢
  rw [List.foldlM_append, h]
  rfl

theorem attempt_of_noFailure (hcall : s.call = .applying batch)
    (h : s.noFailure c (.applyBatch failures abort) = true) :
    failures = [] ∧ abort = none ∧ ∃ after, s.attempt c batch.dmlEvents = .ok (none, after) := by
  unfold noFailure at h
  rw [hcall, Bool.and_eq_true, Bool.and_eq_true, List.isEmpty_iff, Option.isNone_iff_eq_none] at h
  obtain ⟨⟨hfailures, habort⟩, h⟩ := h
  refine ⟨hfailures, habort, ?_⟩
  dsimp only at h
  split at h
  · next after hattempt => exact ⟨after, hattempt⟩
  · simp at h

theorem Single.applyBatch {start : List (Row σ) × Option BinlogCoordinates} (h : Single c start s)
    (hacc : Accounted queue s) (hok : s.noFailure c (.applyBatch failures abort) = true)
    (hs : s.applyBatch c failures abort = some s') : Single c start s' := by
  obtain ⟨batch, hcall, houtcome, -⟩ := applyBatch_eq hs
  obtain ⟨rfl, rfl, after, hattempt⟩ := attempt_of_noFailure hcall hok
  rcases houtcome with ⟨panicAbort, after', hretry, hghost, happlied, hlog, -⟩ | ⟨hfails, -⟩
  · rw [retryBatch_eq hattempt, Except.ok.injEq, Prod.mk.injEq] at hretry
    have hagrees : batch.Agrees := by
      refine hacc.agrees batch ?_
      unfold batch?
      rw [hcall]
    obtain ⟨-, hbuild, hexec⟩ := applyDMLEventQueries_ok hattempt
    unfold Single
    rw [hlog, processSingly_append h, hghost, happlied, ← hretry.2, ← hagrees.marker]
    rw [hagrees.rows] at hbuild
    exact processSingly_collected hbuild hexec
  · exact absurd (retryBatch_eq hattempt) (hfails none after)

theorem Single.step {start : List (Row σ) × Option BinlogCoordinates} (h : Single c start s)
    (hacc : Accounted queue s) (hok : s.noFailure c action = true)
    (hs : s.step c action = some s') : Single c start s' := by
  -- what is done is logged
  have hdone : ∀ more, processSingly c start (s.log ++ more) =
      processSingly c (s.ghost, s.appliedTransactionCoordinates) more :=
    fun _ => processSingly_append h
  cases action with
  | arrive item =>
    rw [ApplyWorker.step, ApplyWorker.arrive] at hs
    split at hs <;> cases hs
    exact h
  | take =>
    rw [ApplyWorker.step, ApplyWorker.take] at hs
    split at hs <;> cases hs
    exact h
  | copyRows write =>
    rw [ApplyWorker.step, ApplyWorker.copyRows] at hs
    split at hs <;> cases hs
    exact hdone _
  | leave =>
    rw [ApplyWorker.step, ApplyWorker.leave] at hs
    split at hs <;> cases hs
    exact h
  | start batchSize abort =>
    rw [ApplyWorker.step] at hs
    unfold ApplyWorker.start at hs
    split at hs <;> cases hs
    · exact h
    · exact hdone _
    · exact h
    · exact h
  | collect =>
    rw [ApplyWorker.step, ApplyWorker.collect] at hs
    split at hs
    · cases hs
      exact h
    · split at hs
      · split at hs
        · cases hs
        · dsimp only at hs
          split at hs <;> cases hs <;> exact h
      · cases hs
        exact h
    · cases hs
  | applyBatch failures abort => exact h.applyBatch hacc hok hs
  | runFunc err =>
    rw [ApplyWorker.step] at hs
    unfold ApplyWorker.runFunc at hs
    split at hs <;> cases hs
    · exact hdone _
    · exact h

/-! ## A worker that has stopped -/

theorem step_of_stopped {dropped : List ApplyEventStruct} (hcall : s.call = .stopped dropped)
    (hs : s.step c action = some s') :
    s'.call = .stopped dropped ∧ s'.log = s.log ∧
      s'.appliedTransactionCoordinates = s.appliedTransactionCoordinates := by
  cases action with
  | arrive item =>
    rw [ApplyWorker.step] at hs
    unfold ApplyWorker.arrive at hs
    obtain ⟨-, rfl⟩ := of_guard hs
    exact ⟨hcall, rfl, rfl⟩
  | take => simp [ApplyWorker.step, ApplyWorker.take, hcall] at hs
  | copyRows write => simp [ApplyWorker.step, ApplyWorker.copyRows, hcall] at hs
  | leave => simp [ApplyWorker.step, ApplyWorker.leave, hcall] at hs
  | start batchSize abort => simp [ApplyWorker.step, ApplyWorker.start, hcall] at hs
  | collect => simp [ApplyWorker.step, ApplyWorker.collect, hcall] at hs
  | applyBatch failures abort => simp [ApplyWorker.step, ApplyWorker.applyBatch, hcall] at hs
  | runFunc err => simp [ApplyWorker.step, ApplyWorker.runFunc, hcall] at hs

theorem reachable_of_stopped {dropped : List ApplyEventStruct} {s'' : ApplyWorker σ}
    (hcall : s'.call = .stopped dropped) (h : Reachable (step c) s' s'') :
    s''.call = .stopped dropped ∧ s''.log = s'.log ∧
      s''.appliedTransactionCoordinates = s'.appliedTransactionCoordinates := by
  unfold Reachable at h
  induction h with
  | init => exact ⟨hcall, rfl, rfl⟩
  | next _ _ hs ih =>
    obtain ⟨hcall₁, hlog₁, happlied₁⟩ := ih
    obtain ⟨hcall₂, hlog₂, happlied₂⟩ := step_of_stopped hcall₁ hs
    exact ⟨hcall₂, hlog₂.trans hlog₁, happlied₂.trans happlied₁⟩

/-! ## The loop over the further structs -/

theorem Accounted.collect_isSome (h : Accounted queue s)
    (hcall : s.call = .collecting batch n batchSize) : s.collect.isSome := by
  obtain ⟨-, hn⟩ := h.collecting batch n batchSize hcall
  unfold ApplyWorker.collect
  rw [hcall]
  cases n with
  | zero => rfl
  | succ n =>
    dsimp only
    split
    · cases hqueue : s.applyEventsQueue with
      | nil => simp [hqueue] at hn
      | cons item rest =>
        cases item with
        | transactionComplete entry => rfl
        | func writeFunc => rfl
        | dml entry ev => rfl
    · rfl

theorem collectEvents_cons :
    collectEvents batchSize batch (item :: queue) =
      if batch.dmlEvents.length < batchSize then
        match item with
        | .transactionComplete entry => collectEvents batchSize (batch.addMarker entry) queue
        | .func writeFunc => ({ batch with nonDmlStructToApply := some writeFunc }, queue)
        | .dml entry ev => collectEvents batchSize (batch.addRow entry ev) queue
      else (batch, item :: queue) := by
  cases item with
  | transactionComplete entry => rfl
  | func writeFunc => rfl
  | dml entry ev => rfl

section Collects

/-- The worker is on its way to `target`, the result of `collectEvents`, and what has come since
`before` stands behind. -/
def CollectsTo (batchSize : Int) (target : Batch × List ApplyEventStruct)
    (before : List ApplyEventStruct) (s : ApplyWorker σ) : Prop :=
  ∃ later, s.arrived = before ++ later ∧
    ((∃ batch n, s.call = .collecting batch n batchSize ∧ n ≤ s.applyEventsQueue.length ∧
        collectEvents batchSize batch (s.applyEventsQueue.take n) = target ∧
        s.applyEventsQueue.drop n = later) ∨
      s.call = .applying target.1 ∧ s.applyEventsQueue = target.2 ++ later)

variable {batchSize : Int} {target : Batch × List ApplyEventStruct} {before : List ApplyEventStruct}

/-- **Each turn is a turn of `collectEvents`** on the structs that were there when the loop began.
-/
theorem CollectsTo.collect {batch : Batch} {n : Nat}
    (hcall : s.call = .collecting batch n batchSize) (h : CollectsTo batchSize target before s)
    (hs : s.collect = some s') : CollectsTo batchSize target before s' := by
  obtain ⟨later, harrived, ⟨batch', n', hcall', hn, rfl, rfl⟩ | ⟨hcall', -⟩⟩ := h
  swap
  · simp [hcall] at hcall'
  cases hcall.symm.trans hcall'
  unfold ApplyWorker.collect at hs
  rw [hcall] at hs
  cases n with
  | zero =>
    cases hs
    exact ⟨_, harrived, .inr ⟨rfl, rfl⟩⟩
  | succ n =>
    cases hqueue : s.applyEventsQueue with
    | nil => simp [hqueue] at hn
    | cons item rest =>
      dsimp only at hs
      rw [hqueue] at hs hn harrived
      have hrest : n ≤ rest.length := by simpa using hn
      rw [List.take_succ_cons, collectEvents_cons]
      split at hs
      · next hsize =>
        rw [if_pos hsize]
        cases item with
        | transactionComplete entry =>
          cases hs
          exact ⟨_, harrived, .inl ⟨batch.addMarker entry, n, rfl, hrest, rfl, rfl⟩⟩
        | func writeFunc =>
          cases hs
          exact ⟨_, harrived, .inr ⟨rfl, (List.take_append_drop n rest).symm⟩⟩
        | dml entry ev =>
          cases hs
          exact ⟨_, harrived, .inl ⟨batch.addRow entry ev, n, rfl, hrest, rfl, rfl⟩⟩
      · next hsize =>
        rw [if_neg hsize]
        cases hs
        refine ⟨_, harrived, .inr ⟨rfl, ?_⟩⟩
        show item :: rest = item :: rest.take n ++ rest.drop n
        rw [List.cons_append, List.take_append_drop]

theorem CollectsTo.step {action : WorkerAction σ} {batch : Batch} {n : Nat}
    (hcall : s.call = .collecting batch n batchSize) (h : CollectsTo batchSize target before s)
    (hs : s.step c action = some s') : CollectsTo batchSize target before s' := by
  cases action with
  | arrive item =>
    obtain ⟨later, harrived, ⟨batch', n', hcall', hn, htarget, hlater⟩ | ⟨hcall', -⟩⟩ := h
    swap
    · simp [hcall] at hcall'
    rw [ApplyWorker.step] at hs
    unfold ApplyWorker.arrive at hs
    obtain ⟨-, rfl⟩ := of_guard hs
    refine ⟨later ++ [item], ?_, .inl ⟨batch', n', hcall', ?_, ?_, ?_⟩⟩
    · simp [harrived]
    · exact hn.trans (by simp)
    · rw [List.take_append_of_le_length hn, htarget]
    · rw [List.drop_append_of_le_length hn, hlater]
  | collect => exact h.collect hcall hs
  | take => simp [ApplyWorker.step, ApplyWorker.take, hcall] at hs
  | copyRows write => simp [ApplyWorker.step, ApplyWorker.copyRows, hcall] at hs
  | leave => simp [ApplyWorker.step, ApplyWorker.leave, hcall] at hs
  | start batchSize abort => simp [ApplyWorker.step, ApplyWorker.start, hcall] at hs
  | applyBatch failures abort => simp [ApplyWorker.step, ApplyWorker.applyBatch, hcall] at hs
  | runFunc err => simp [ApplyWorker.step, ApplyWorker.runFunc, hcall] at hs

/-- **What the worker collects does not depend on what arrives meanwhile**: it is what
`collectEvents` takes of the queue as it was when the loop began. -/
theorem collected_batch {s₀ : ApplyWorker σ} {first : Batch} (hstart : s₀.call =
      .collecting first s₀.applyEventsQueue.length batchSize)
    (h : Reach (step c) (fun s _ => ∃ batch n, s.call = .collecting batch n batchSize) s₀ s)
    {batch : Batch} (hcall : s.call = .applying batch) :
    batch = (collectEvents batchSize first s₀.applyEventsQueue).1 ∧
      ∃ later, s.arrived = s₀.arrived ++ later ∧
        s.applyEventsQueue = (collectEvents batchSize first s₀.applyEventsQueue).2 ++ later := by
  have hcollects : CollectsTo batchSize (collectEvents batchSize first s₀.applyEventsQueue)
      s₀.arrived s := by
    refine h.invariant ⟨[], by simp, .inl ⟨first, _, hstart, le_rfl, by simp, by simp⟩⟩ ?_
    rintro s s' action hinv ⟨batch, n, hcollecting⟩ hs
    exact hinv.step hcollecting hs
  obtain ⟨later, harrived, ⟨_, _, hcall', -⟩ | ⟨hcall', hqueue⟩⟩ := hcollects
  · simp [hcall] at hcall'
  · rw [hcall, Call.applying.injEq] at hcall'
    exact ⟨hcall', later, harrived, hqueue⟩

end Collects

def initWorker (queue : List ApplyEventStruct) (ghost : List (Row σ))
    (applied : Option BinlogCoordinates) : ApplyWorker σ where
  applyEventsQueue := queue
  ghost := ghost
  appliedTransactionCoordinates := applied

theorem accounted_initWorker (queue : List ApplyEventStruct) (ghost : List (Row σ))
    (applied : Option BinlogCoordinates) : Accounted queue (initWorker queue ghost applied) where
  fifo := (List.append_nil queue).symm
  done := rfl
  agrees := by
    intro batch hbatch
    simp [batch?, initWorker] at hbatch
  collecting := by
    intro batch n batchSize hcall
    simp [initWorker] at hcall

/-- The small table, with up to three attempts at a batch. -/
def smallWorkerContext : WorkerContext Int64 Int where
  enc := noEncodings
  applier := smallApplier
  srv := bigintServer
  indexes := { uniqueKey := ["id"], further := [] }
  maxRetries := 3
  maxRetries_pos := by decide

/-- A row arrives while the end of a transaction is collected. -/
theorem collected_batch_small :
    let row (i : Int) : Emitted := ({ coordinates := .file { logFile := "log", logPos := i } }, 0)
    let first : Batch := .first (row 10) (smallInsert 1 7)
    let next : ApplyEventStruct := .dml (row 40) (smallUpdate 1 7 2 7)
    ∃ s : ApplyWorker Int64, s.arrived = [next] ∧ s.call = .applying (first.addMarker (row 20)) ∧
      first.addMarker (row 20) = (collectEvents 10 first [.transactionComplete (row 20)]).1 := by
  intro row first next
  let s₀ : ApplyWorker Int64 :=
    { initWorker [.transactionComplete (row 20)] [] none with call := .collecting first 1 10 }
  let s₁ := { s₀ with applyEventsQueue := [.transactionComplete (row 20), next], arrived := [next] }
  let s₂ := { s₁ with applyEventsQueue := [next], taken := [.transactionComplete (row 20)],
                      call := .collecting (first.addMarker (row 20)) 0 10 }
  let s₃ := { s₂ with call := .applying (first.addMarker (row 20)) }
  have h : Reach (step smallWorkerContext)
      (fun s _ => ∃ batch n, s.call = .collecting batch n 10) s₀ s₃ :=
    .next (a := .collect) (.next (a := .collect) (.next (a := .arrive next) .init ⟨_, _, rfl⟩ rfl)
      ⟨_, _, rfl⟩ rfl) ⟨_, _, rfl⟩ rfl
  have hstart : s₀.call = .collecting first s₀.applyEventsQueue.length 10 := rfl
  exact ⟨s₃, rfl, rfl, (collected_batch hstart h rfl).1⟩

end ApplyWorker

end GhOst.Logic
