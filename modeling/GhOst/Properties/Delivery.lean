import GhOst.Infra.Steps
import GhOst.Logic.Pipeline
import Mathlib.Data.Prod.Lex

/-!
# Which rows reach the queue

`Migrate` with `Resume` and `Revert` start the streaming before they register the DML listener. A
row of the original table that is read in between is not even decoded, and nothing reads it again.
The rows that are read once the listener is registered all reach `applyEventsQueue`, in the order of
the log, as long as the stream does not fail and nobody aborts: nothing else is ever between them
and the queue than steps that are enabled.
-/

namespace GhOst.Logic

open GhOst.Sql GhOst.Binlog GhOst.Mysql Infra

namespace StreamContext

variable (c : StreamContext)

/-- The rows of the original table in an event of a transaction. -/
def originalRowsOf : TransactionEvent → List BinlogDMLEvent
  | .rows dml databaseName tableName rows =>
    if c.listensTo .dml databaseName tableName then
      match rowEvents databaseName tableName dml rows with
      | .ok events => events
      | .error _ => []
    else []
  | _ => []

/-- The rows of the original table in an event of the log. -/
def originalRows (ev : BinlogEvent) : List BinlogDMLEvent :=
  match ev.body with
  | .transaction event => c.originalRowsOf event
  | .transactionPayload events => events.flatMap c.originalRowsOf
  | _ => []

/-- The row of the original table that an entry carries. -/
def rowOf (e : BinlogEntry) : Option BinlogDMLEvent :=
  if e.transactionComplete then none else e.dmlEvent.filter c.isOriginal

/-- The rows of the original table among some entries. -/
def rowsOf (entries : List BinlogEntry) : List BinlogDMLEvent := entries.filterMap c.rowOf

variable {c}
variable {r r' : GoMySQLReader} {entries : List BinlogEntry}

/-! ## The reader -/

theorem rowsOf_handleRowsEvent {databaseName tableName : String} {dml : EventDML}
    {rows : List (List Value)}
    (h : r.handleRowsEvent databaseName tableName dml rows = (r', entries, none)) :
    c.rowsOf entries = c.originalRowsOf (.rows dml databaseName tableName rows) := by
  unfold GoMySQLReader.handleRowsEvent at h
  split at h
  · simp at h
  · split at h
    · simp at h
    · next events hev =>
      cases h
      rw [originalRowsOf, hev]
      unfold rowsOf
      rw [List.filterMap_map]
      have hrow : ∀ e ∈ events,
          (c.rowOf ∘ fun e => { coordinates := r.currentCoordinates, dmlEvent := some e }) e =
            if c.listensTo .dml databaseName tableName then some e else none := by
        intro e he
        obtain ⟨hd, ht⟩ := rowEvents_table hev e he
        simp [rowOf, isOriginal, hd, ht, Option.filter]
      rw [List.filterMap_congr hrow]
      split
      · exact List.filterMap_some
      · simp

theorem shouldDecodeRowsEvent_original {listeners : List Listener}
    {databaseName tableName : String}
    (h : c.listensTo .dml databaseName tableName = true) :
    c.shouldDecodeRowsEvent listeners databaseName tableName = listeners.contains .dml := by
  have hother : c.listensTo .changelog databaseName tableName = false := by
    unfold listensTo at h ⊢
    cases hc : c.equalFold (c.tableName .changelog) tableName with
    | false => simp
    | true =>
      have hne := c.changelog_ne_original tableName hc
      rw [show c.tableName .dml = c.originalTableName from rfl, hne] at h
      simp at h
  unfold shouldDecodeRowsEvent
  induction listeners with
  | nil => rfl
  | cons l listeners ih =>
    rw [List.any_cons, List.contains_cons, ih]
    cases l with
    | changelog => rw [hother]; rfl
    | dml => rw [h]; rfl

theorem originalRowsOf_decodeRows (listeners : List Listener) (event : TransactionEvent) :
    c.originalRowsOf (c.decodeRows listeners event) =
      if listeners.contains .dml then c.originalRowsOf event else [] := by
  cases event with
  | rows dml databaseName tableName rows =>
    rw [decodeRows, originalRowsOf, originalRowsOf]
    by_cases h : c.listensTo .dml databaseName tableName = true
    · rw [if_pos h, if_pos h, shouldDecodeRowsEvent_original h]
      cases listeners.contains Listener.dml with
      | true => rfl
      | false => rfl
    · rw [if_neg h, if_neg h, ite_self]
  | xid gset => simp [decodeRows, originalRowsOf]
  | other => simp [decodeRows, originalRowsOf]

theorem rowsOf_append (l l' : List BinlogEntry) :
    c.rowsOf (l ++ l') = c.rowsOf l ++ c.rowsOf l' :=
  List.filterMap_append ..

theorem rowsOf_cons (e : BinlogEntry) (l : List BinlogEntry) :
    c.rowsOf (e :: l) = c.rowsOf [e] ++ c.rowsOf l :=
  rowsOf_append [e] l

theorem rowsOf_handleTransactionEvent {event : TransactionEvent}
    (h : r.handleTransactionEvent event = (r', entries, none)) :
    c.rowsOf entries = c.originalRowsOf event := by
  cases event with
  | rows dml databaseName tableName rows => exact rowsOf_handleRowsEvent h
  | xid gset =>
    simp only [GoMySQLReader.handleTransactionEvent, GoMySQLReader.completeTransaction,
      Prod.mk.injEq] at h
    rw [← h.2.1]
    split
    · simp [rowsOf, rowOf, originalRowsOf]
    · rfl
  | other =>
    simp only [GoMySQLReader.handleTransactionEvent] at h
    cases h
    rfl

theorem rowsOf_handlePayload : ∀ {events : List TransactionEvent} {r r' : GoMySQLReader}
    {entries : List BinlogEntry}, r.handlePayload events = (r', entries, none) →
    c.rowsOf entries = events.flatMap c.originalRowsOf
  | [], r, r', entries, h => by
    simp only [GoMySQLReader.handlePayload] at h
    cases h
    rfl
  | event :: events, r, r', entries, h => by
    rw [GoMySQLReader.handlePayload] at h
    split at h
    · simp at h
    · next first hfirst =>
      simp only [Prod.mk.injEq] at h
      obtain ⟨-, rfl, herr⟩ := h
      rw [rowsOf_append, List.flatMap_cons, rowsOf_handleTransactionEvent hfirst]
      congr 1
      exact rowsOf_handlePayload (Prod.ext rfl (Prod.ext rfl herr))

/-- **A handled event gives the rows of the original table exactly if the DML listener is
registered.** -/
theorem rowsOf_handleEvent {listeners : List Listener} {ev : BinlogEvent}
    (h : r.handleEvent (c.decode listeners ev) = (r', entries, none)) :
    c.rowsOf entries = if listeners.contains .dml then c.originalRows ev else [] := by
  unfold GoMySQLReader.handleEvent at h
  split at h
  · simp at h
  · unfold originalRows
    cases hb : ev.body with
    | gtid nextGTID =>
      have hnil : entries = [] := by
        rw [show (c.decode listeners ev).body = .gtid nextGTID by simp [decode, hb]] at h
        dsimp only at h
        split at h
        · split at h
          · simp at h
          · simp only [Prod.mk.injEq] at h
            exact h.2.1.symm
        · simp only [Prod.mk.injEq] at h
          exact h.2.1.symm
      simp [hnil, rowsOf]
    | gtidTagged nextGTID =>
      rw [show (c.decode listeners ev).body = .gtidTagged nextGTID by simp [decode, hb]] at h
      cases h
      simp [rowsOf]
    | rotate nextLogName =>
      have hnil : entries = [] := by
        rw [show (c.decode listeners ev).body = .rotate nextLogName by simp [decode, hb]] at h
        dsimp only at h
        split at h
        · simp only [Prod.mk.injEq] at h
          exact h.2.1.symm
        · split at h
          · simp at h
          · simp only [Prod.mk.injEq] at h
            exact h.2.1.symm
      simp [hnil, rowsOf]
    | transaction event =>
      rw [show (c.decode listeners ev).body = .transaction (c.decodeRows listeners event) by
        simp [decode, hb]] at h
      rw [rowsOf_handleTransactionEvent h, originalRowsOf_decodeRows]
    | transactionPayload events =>
      rw [show (c.decode listeners ev).body = .transactionPayload
        (events.map (c.decodeRows listeners)) by simp [decode, hb]] at h
      rw [rowsOf_handlePayload h, List.flatMap_map]
      simp only [originalRowsOf_decodeRows]
      split
      · rfl
      · simp

/-! ## The dispatcher -/

theorem rows_notifyRow {entry : Emitted} {ev : BinlogDMLEvent} : ∀ {listeners : List Listener}
    {n : Notification}, c.notifyRow entry ev listeners = .ok n →
    n.sends.filterMap (·.row) =
      if c.isOriginal ev then List.replicate (listeners.count .dml) ev else []
  | [], n, h => by
    cases h
    simp
  | l :: listeners, n, h => by
    cases l with
    | changelog =>
      rw [List.count_cons_of_ne (by decide)]
      rcases notifyRow_cons h with ⟨-, h⟩ | ⟨hl, one, hone, hcases⟩
      · exact rows_notifyRow h
      · have hrows : one.sends.filterMap (·.row) = [] := by
          refine List.filterMap_eq_nil_iff.2 fun item hi => ?_
          obtain ⟨f, rfl⟩ := (onChangelogEvent_sends hone).1 item hi
          rfl
        have hother : c.isOriginal ev = false := by
          simp only [listensTo, Bool.and_eq_true] at hl
          simp [isOriginal, listensTo, tableName, c.changelog_ne_original _ hl.2]
        rcases hcases with ⟨-, rfl⟩ | ⟨-, more, hmore, rfl⟩
        · rw [hrows, hother]
          rfl
        · rw [List.filterMap_append, hrows, List.nil_append]
          exact rows_notifyRow hmore
    | dml =>
      rw [List.count_cons_self]
      rcases notifyRow_cons h with ⟨hl, h⟩ | ⟨hl, one, hone, hcases⟩
      · have hother : c.isOriginal ev = false := hl
        rw [rows_notifyRow h, hother]
        rfl
      · have horig : c.isOriginal ev = true := hl
        rw [← Except.ok.inj hone] at hcases
        rcases hcases with ⟨hf, -⟩ | ⟨-, more, hmore, rfl⟩
        · simp at hf
        · rw [List.filterMap_append, rows_notifyRow hmore, horig]
          rfl

end StreamContext

/-- The rows of the original table that the dispatcher has in hand. -/
def Dispatcher.rows (c : StreamContext) : Dispatcher → List BinlogDMLEvent
  | .received entry => c.rowsOf [entry.1]
  | .notifying _ sends _ => sends.filterMap (·.row)
  | _ => []

namespace Pipeline

variable {c : StreamContext} {steps : List StartupStep} {s s' : Pipeline}

/-- The stream has not failed and nobody has aborted. -/
def Undisturbed (s : Pipeline) : Prop :=
  s.streamFailed = false ∧ s.abortError = false ∧ s.canceled = false

instance : Decidable s.Undisturbed := inferInstanceAs (Decidable (_ ∧ _ ∧ _))

/-- The rows of the original table between the reader and the queue, the first to be enqueued
first. -/
def inFlight (c : StreamContext) (s : Pipeline) : List BinlogDMLEvent :=
  s.dispatcher.rows c ++ c.rowsOf (s.eventsChannel.map (·.1)) ++ c.rowsOf (s.outbox.map (·.1))

def eventsRead (s : Pipeline) : List BinlogEvent := s.readBefore ++ s.readAfter

/-- The worker is started after the registration of the DML listener, which is the last one. -/
def RegistersFirst (steps : List StartupStep) : Prop :=
  steps.count .addDMLListener ≤ 1 ∧ ∀ l ∈ steps.tails,
    (l.head? = some .addDMLListener → .executeWriteFuncs ∈ l.tail) ∧
      (.addDMLListener ∉ l → .addChangelogListener ∉ l ∧ .addTransactionCompleteListener ∉ l)

instance : Decidable (RegistersFirst steps) := inferInstanceAs (Decidable (_ ∧ _))

structure Delivering (c : StreamContext) (steps : List StartupStep) (s : Pipeline) : Prop where
  registers : s.listeners.count .dml + s.startup.count .addDMLListener ≤ 1
  startup : s.startup <:+ steps
  starts : s.dmlRegistered = true → s.worker = .notStarted → .executeWriteFuncs ∈ s.startup
  unread : s.dmlRegistered = false → s.readAfter = []
  asyncSends : ∀ item ∈ s.asyncSends, item.row = none
  rows : s.Undisturbed → s.dispatcher ≠ .stopped ∧
    s.enqueued.filterMap (·.row) ++ s.inFlight c = s.readAfter.flatMap c.originalRows

theorem Delivering.of_rows_eq (h : s.Delivering c steps) (hstartup : s'.startup = s.startup)
    (hworker : s'.worker = s.worker) (hlisteners : s'.listeners = s.listeners)
    (hread : s'.readAfter = s.readAfter) (hasync : ∀ item ∈ s'.asyncSends, item.row = none)
    (hrows : s'.Undisturbed → s.Undisturbed ∧
      (s'.dispatcher = s.dispatcher ∨ s'.dispatcher ≠ .stopped) ∧
      s'.enqueued.filterMap (·.row) ++ s'.inFlight c =
        s.enqueued.filterMap (·.row) ++ s.inFlight c) : s'.Delivering c steps where
  registers := by
    rw [hlisteners, hstartup]
    exact h.registers
  startup := hstartup ▸ h.startup
  starts hreg hw := by
    rw [hstartup]
    unfold dmlRegistered at hreg
    rw [hlisteners] at hreg
    exact h.starts hreg (hworker ▸ hw)
  unread hno := by
    rw [hread]
    refine h.unread ?_
    unfold dmlRegistered at hno ⊢
    rw [← hlisteners]
    exact hno
  asyncSends := hasync
  rows hu := by
    obtain ⟨hu, hd, heq⟩ := hrows hu
    obtain ⟨hrun, hrows⟩ := h.rows hu
    rw [heq, hread]
    refine ⟨?_, hrows⟩
    rcases hd with hd | hd
    · rwa [hd]
    · exact hd

theorem Delivering.readEvent {ev : BinlogEvent} (h : s.Delivering c steps)
    (hs : s.readEvent c ev = some s') : s'.Delivering c steps := by
  obtain ⟨hout, reader, entries, err, hhandle, rfl⟩ := readEvent_eq hs
  refine ⟨h.registers, h.startup, h.starts, fun hno => ?_, h.asyncSends, fun hu => ?_⟩
  · have hno : s.dmlRegistered = false := hno
    show (if s.dmlRegistered then _ else _) = _
    rw [hno]
    exact h.unread hno
  · obtain ⟨hfail, habort⟩ := hu
    simp only [Bool.or_eq_false_iff, Option.isSome_eq_false_iff, Option.isNone_iff_eq_none] at hfail
    rw [hfail.2] at hhandle
    have hrows := StreamContext.rowsOf_handleEvent hhandle
    obtain ⟨hrun, hold⟩ := h.rows ⟨hfail.1, habort⟩
    refine ⟨hrun, ?_⟩
    unfold inFlight at hold ⊢
    rw [hout] at hold
    dsimp only
    rw [List.zipIdx_map_fst, hrows, ← List.append_assoc]
    rw [List.map_nil, show c.rowsOf [] = [] from rfl, List.append_nil] at hold
    rw [hold]
    unfold dmlRegistered
    split
    · rw [List.flatMap_append, List.flatMap_singleton]
    · exact List.append_nil _

theorem Delivering.notifyListeners (h : s.Delivering c steps) (hs : s.notifyListeners c = some s') :
    s'.Delivering c steps := by
  obtain ⟨entry, hd, ⟨-, rfl⟩ | ⟨-, n, hn, rfl⟩⟩ := notifyListeners_eq hs
  · refine h.of_rows_eq rfl rfl rfl rfl h.asyncSends fun hu => ?_
    have habort : true = false := hu.2.1
    simp at habort
  · refine h.of_rows_eq rfl rfl rfl rfl (fun item hi => ?_) fun hu => ?_
    · rcases List.mem_append.1 hi with hi | hi
      · exact h.asyncSends item hi
      · exact ApplyEventStruct.row_eq_none_of_source ((notification_madeFrom hn).2 item hi)
    · have hu : s.Undisturbed := hu
      refine ⟨hu, .inr (by simp), ?_⟩
      -- an entry in hand with a row of the original table was read with the listener registered
      have hrows : n.sends.filterMap (·.row) = c.rowsOf [entry.1] := by
        unfold notification at hn
        split at hn
        · next hc =>
          cases hn
          simp [StreamContext.rowsOf, StreamContext.rowOf, hc, ApplyEventStruct.row,
            List.filterMap_replicate_of_none]
        · next hc =>
          split at hn
          · simp at hn
          · next ev hev =>
            rw [StreamContext.rows_notifyRow hn]
            cases horig : c.isOriginal ev with
            | false =>
              simp [StreamContext.rowsOf, StreamContext.rowOf, hc, hev, Option.filter, horig]
            | true =>
              have hsome : c.rowsOf [entry.1] = [ev] := by
                simp [StreamContext.rowsOf, StreamContext.rowOf, hc, hev, Option.filter, horig]
              have hreg : Listener.dml ∈ s.listeners := by
                by_contra hno
                have hunread := h.unread (by unfold dmlRegistered; simpa using hno)
                obtain ⟨-, heq⟩ := h.rows hu
                rw [hunread, inFlight, hd, Dispatcher.rows, hsome] at heq
                simp at heq
              have hone : s.listeners.count .dml = 1 := by
                have hle := h.registers
                have hpos := List.count_pos_iff.2 hreg
                omega
              rw [hsome, hone]
              rfl
      unfold inFlight
      rw [hd]
      show _ ++ (n.sends.filterMap (·.row) ++ _ ++ _) = _
      rw [hrows]
      rfl

theorem Delivering.deliver (h : s.Delivering c steps) (hs : s.deliver = some s') :
    s'.Delivering c steps := by
  obtain ⟨entry, sends, fails, hd, ⟨item, rest, rfl, rfl⟩ | ⟨rfl, -, rfl⟩ | ⟨rfl, -, rfl⟩⟩ :=
    deliver_eq hs
  · refine h.of_rows_eq rfl rfl rfl rfl h.asyncSends fun hu => ⟨hu, .inr (by simp), ?_⟩
    unfold inFlight
    rw [hd]
    simp only [Pipeline.enqueue, Dispatcher.rows, List.filterMap_append, List.append_assoc]
    cases hr : item.row with
    | none => simp [hr]
    | some ev => simp [hr]
  · refine h.of_rows_eq rfl rfl rfl rfl h.asyncSends fun hu => ?_
    have habort : true = false := hu.2.1
    simp at habort
  · refine h.of_rows_eq rfl rfl rfl rfl h.asyncSends fun hu => ⟨hu, .inr (by simp), ?_⟩
    unfold inFlight
    rw [hd]
    rfl

theorem notStarted_of_downstream {a : PipelineAction} (ha : a.downstream = true)
    (hs : s.step c a = some s') (hw : s'.worker = .notStarted) : s.worker = .notStarted := by
  cases a with
  | takeEvents batchSize =>
    obtain ⟨-, _, _, -, ⟨-, rfl⟩ | ⟨_, -, rfl⟩ | ⟨_, -, rfl⟩ | ⟨_, _, -, rfl⟩⟩ := takeEvents_eq hs
    · cases hw
    · exact hw
    · cases hw
    · cases hw
  | batchApplied =>
    obtain ⟨batch, -, _, _, rfl, -⟩ := batchApplied_eq hs
    have hafter : batch.after = .notStarted := hw
    unfold Batch.after at hafter
    split at hafter <;> cases hafter
  | batchFailed =>
    obtain ⟨_, -, rfl⟩ := batchFailed_eq hs
    cases hw
  | funcApplied =>
    obtain ⟨_, _, -, rfl⟩ := funcApplied_eq hs
    cases hw
  | funcFailed =>
    obtain ⟨_, -, rfl⟩ := funcFailed_eq hs
    cases hw
  | finishWorker =>
    obtain ⟨-, rfl⟩ := finishWorker_eq hs
    cases hw
  | sampleCheckpoint =>
    obtain rfl := sampleCheckpoint_eq hs
    exact hw
  | writeCheckpoint =>
    obtain ⟨_, _, -, -, -, rfl⟩ := writeCheckpoint_eq hs
    exact hw
  | abandonCheckpoint =>
    cases hs
    exact hw
  | _ => cases ha

theorem Delivering.startupStep (hsteps : RegistersFirst steps) (h : s.Delivering c steps)
    (hs : s.startupStep c = some s') : s'.Delivering c steps := by
  obtain ⟨step, rest, hstartup, hp⟩ := startupStep_eq hs
  have hone := h.registers
  have hsuffix := h.startup
  rw [hstartup] at hone hsuffix
  have hstarts : s'.listeners.contains .dml = true → s'.worker = .notStarted →
      .executeWriteFuncs ∈ s'.startup := by
    intro hreg hw
    rcases hp.worker with ⟨hne, hsame⟩ | ⟨-, hidle⟩
    · rcases hp.startup with ⟨heq, hlisteners⟩ | ⟨-, heq, hdml⟩
      · rw [heq]
        by_cases hdml : step = .addDMLListener
        · exact (hsteps.2 _ ((List.mem_tails ..).2 hsuffix)).1 (by rw [hdml]; rfl)
        · have hin := h.starts ((hlisteners hdml).symm.trans hreg) (hsame.symm.trans hw)
          rw [hstartup] at hin
          exact (List.mem_cons.1 hin).resolve_left hne.symm
      · -- the registration fails only where the listener is not registered
        have hpos := List.count_pos_iff.2 (List.contains_iff_mem.1 hreg)
        rw [hdml, List.count_cons_self] at hone
        rw [heq] at hpos
        dsimp only at hpos
        omega
    · rw [hw] at hidle
      cases hidle
  have hregisters := hp.registers
  rw [hp.frame]
  refine ⟨le_trans hregisters hone, ?_, hstarts, fun hno => ?_, h.asyncSends, h.rows⟩
  · rcases hp.startup with ⟨heq, -⟩ | ⟨heq, -⟩
    · exact heq ▸ (List.suffix_cons step rest).trans hsuffix
    · exact heq ▸ List.nil_suffix
  · refine h.unread ?_
    have hno : s'.listeners.contains .dml = false := hno
    unfold dmlRegistered
    rcases hp.listeners with heq | ⟨-, l, heq⟩
    · rw [← hno, heq]
    · rw [heq] at hno
      simp only [List.contains_eq_mem, List.mem_append, decide_eq_false_iff_not, not_or] at hno ⊢
      exact hno.1

theorem Delivering.step (hsteps : RegistersFirst steps) {a : PipelineAction}
    (h : s.Delivering c steps) (hs : s.step c a = some s') : s'.Delivering c steps := by
  have hquiet : ∀ {t : Pipeline}, t.abortError = true ∨ t.canceled = true ∨
      t.streamFailed = true → ¬ t.Undisturbed := by
    rintro t hdisturbed ⟨h1, h2, h3⟩
    simp [h1, h2, h3] at hdisturbed
  by_cases ha : a.downstream = true
  · have hstarted := notStarted_of_downstream ha hs
    obtain ⟨_, _, _, _, _, _, _, _, _, rfl⟩ := downstream_eq ha hs
    exact { h with starts := fun hreg hw => h.starts hreg (hstarted hw) }
  cases a with
  | startup => exact h.startupStep hsteps hs
  | readEvent ev => exact h.readEvent hs
  | sendEntry =>
    obtain ⟨entry, rest, hout, rfl⟩ := sendEntry_eq hs
    refine h.of_rows_eq rfl rfl rfl rfl h.asyncSends fun hu => ⟨hu, .inl rfl, ?_⟩
    unfold inFlight
    rw [hout, List.map_cons, StreamContext.rowsOf_cons, List.map_append,
      StreamContext.rowsOf_append]
    simp only [List.map_cons, List.map_nil, List.append_assoc]
  | sendEntryCanceled =>
    obtain ⟨hc, rfl⟩ := sendEntryCanceled_eq hs
    exact h.of_rows_eq rfl rfl rfl rfl h.asyncSends fun hu => absurd hu (hquiet (.inr (.inl hc)))
  | reconnect =>
    obtain ⟨_, _, _, _, rfl, -⟩ := reconnect_eq hs
    exact h.of_rows_eq rfl rfl rfl rfl h.asyncSends fun hu => absurd hu (hquiet (.inr (.inr rfl)))
  | receive =>
    obtain ⟨hd, entry, rest, hch, rfl | ⟨hnone, rfl⟩⟩ := receive_eq hs
    · refine h.of_rows_eq rfl rfl rfl rfl h.asyncSends fun hu => ⟨hu, .inr (by simp), ?_⟩
      unfold inFlight
      rw [hd, hch, List.map_cons, StreamContext.rowsOf_cons]
      rfl
    · refine h.of_rows_eq rfl rfl rfl rfl h.asyncSends fun hu => ⟨hu, .inl rfl, ?_⟩
      unfold inFlight
      rw [hch]
      simp [StreamContext.rowsOf, StreamContext.rowOf, hnone]
  | dispatcherCanceled =>
    obtain ⟨hc, -, rfl⟩ := dispatcherCanceled_eq hs
    exact h.of_rows_eq rfl rfl rfl rfl h.asyncSends fun hu => absurd hu (hquiet (.inr (.inl hc)))
  | notifyListeners => exact h.notifyListeners hs
  | deliver => exact h.deliver hs
  | deliverCanceled =>
    obtain ⟨_, _, _, -, -, rfl⟩ := deliverCanceled_eq hs
    exact h.of_rows_eq rfl rfl rfl rfl h.asyncSends fun hu => absurd hu (hquiet (.inl rfl))
  | deliverAsync i =>
    obtain ⟨item, hi, rfl⟩ := deliverAsync_eq hs
    refine h.of_rows_eq rfl rfl rfl rfl (fun x hx => h.asyncSends x (List.mem_of_mem_eraseIdx hx))
      fun hu => ⟨hu, .inl rfl, ?_⟩
    simp [Pipeline.enqueue, inFlight, h.asyncSends item hi]
  | setAbortError =>
    cases hs
    exact h.of_rows_eq rfl rfl rfl rfl h.asyncSends fun hu => absurd hu (hquiet (.inl rfl))
  | cancelContext =>
    cases hs
    exact h.of_rows_eq rfl rfl rfl rfl h.asyncSends fun hu => absurd hu (hquiet (.inr (.inl rfl)))
  | _ => exact absurd rfl ha

theorem Delivering.init (hsteps : RegistersFirst steps) (useGTIDs : Bool)
    (maxReconnectAttempts : Nat) (coordinates : BinlogCoordinates) :
    (initPipeline steps useGTIDs maxReconnectAttempts coordinates).Delivering c steps where
  registers := by simpa [initPipeline] using hsteps.1
  startup := List.suffix_rfl
  starts h := by simp [initPipeline, dmlRegistered] at h
  unread _ := rfl
  asyncSends := by simp [initPipeline]
  rows _ := ⟨by simp [initPipeline], rfl⟩

end Pipeline

/-! ## The rows in flight can go on -/

/-- The steps of a migration that is not disturbed and reads no more. -/
def PipelineAction.goesOn : PipelineAction → Bool
  | .startup | .sendEntry | .receive | .notifyListeners | .deliver | .takeEvents _
  | .batchApplied | .funcApplied => true
  | _ => false

def Worker.left : Worker → ℕ
  | .applying _ => 2
  | .running _ => 1
  | _ => 0

namespace Pipeline

variable {c : StreamContext} {steps : List StartupStep} {s s' : Pipeline}

/-- The worker runs, or is still to be started. -/
def working (s : Pipeline) : Bool :=
  match s.worker with
  | .stopped _ => false
  | _ => true

/-- A listener panics on the entry in hand. -/
def panics (c : StreamContext) (s : Pipeline) : Bool :=
  match s.dispatcher with
  | .received entry => !(s.notification c entry).isOk
  | _ => false

/-- The entries that are still to be taken in hand, those with longer to go counted more often. -/
def toDispatch (s : Pipeline) : ℕ :=
  3 * s.outbox.length + 2 * s.eventsChannel.length +
    match s.dispatcher with
    | .received _ => 1
    | _ => 0

def toSend (s : Pipeline) : ℕ :=
  match s.dispatcher with
  | .notifying _ sends _ => sends.length + 1
  | _ => 0

/-- What the worker has to do before the queue is empty. -/
def toApply (s : Pipeline) : ℕ :=
  3 * s.applyEventsQueue.length + s.startup.length + s.worker.left

def work (s : Pipeline) : ℕ ×ₗ ℕ ×ₗ ℕ := toLex (s.toDispatch, toLex (s.toSend, s.toApply))

theorem work_lt_iff : s'.work < s.work ↔ s'.toDispatch < s.toDispatch ∨
    s'.toDispatch = s.toDispatch ∧
      (s'.toSend < s.toSend ∨ s'.toSend = s.toSend ∧ s'.toApply < s.toApply) := by
  unfold work
  rw [Prod.Lex.toLex_lt_toLex, Prod.Lex.toLex_lt_toLex]

/-- Some step leads on, to a disturbance or with less work. -/
def Progress (c : StreamContext) (s : Pipeline) : Prop :=
  ∃ a s', a.goesOn = true ∧ s.step c a = some s' ∧
    (¬ s'.Undisturbed ∨ s'.Undisturbed ∧ s'.working = true ∧ s'.work < s.work)

theorem startupStep_enabled (hsteps : RegistersFirst steps) (h : s.Delivering c steps)
    (hu : s.Undisturbed) (hreg : s.dmlRegistered = true) (hw : s.worker = .notStarted) :
    ∃ s', s.startupStep c = some s' := by
  have hin := h.starts hreg hw
  have hnone : .addDMLListener ∉ s.startup := by
    have hone := h.registers
    have hpos := List.count_pos_iff.2 (List.contains_iff_mem.1 hreg)
    exact List.count_eq_zero.1 (by omega)
  have hrest := (hsteps.2 _ ((List.mem_tails ..).2 h.startup)).2 hnone
  have habort : s.aborted = false := by simp [aborted, hu.2.1, hu.2.2]
  cases hs : s.startup with
  | nil => simp [hs] at hin
  | cons step rest =>
    rw [hs] at hnone hrest
    unfold startupStep
    rw [hs]
    cases step <;> simp_all [perform, aborted]

/-- A step that only concerns the worker and brings it further. -/
theorem progress_of_toApply {a : PipelineAction} (hs : s.step c a = some s')
    (ha : a.goesOn = true) (hu : s'.Undisturbed) (hout : s'.outbox = s.outbox)
    (hch : s'.eventsChannel = s.eventsChannel) (hd : s'.dispatcher = s.dispatcher)
    (hw : s'.working = true) (hlt : s'.toApply < s.toApply) : s.Progress c := by
  refine ⟨a, s', ha, hs, .inr ⟨hu, hw, work_lt_iff.2 (.inr ⟨?_, .inr ⟨?_, hlt⟩⟩)⟩⟩
  · simp only [toDispatch, hout, hch, hd]
  · simp only [toSend, hd]

theorem progress_of_idle (hu : s.Undisturbed) (hw : s.worker = .idle)
    (hq : s.applyEventsQueue ≠ []) : s.Progress c := by
  obtain ⟨s', hs⟩ : ∃ s', s.takeEvents 1 = some s' := by
    obtain ⟨item, queue, hqueue⟩ := List.exists_cons_of_ne_nil hq
    unfold takeEvents
    rw [hw, hqueue]
    dsimp only
    split
    · exact ⟨_, rfl⟩
    · cases item with
      | _ => exact ⟨_, rfl⟩
  have hgo := @progress_of_toApply c s s' (.takeEvents 1) hs rfl
  obtain ⟨-, item, queue, hqueue, hcases⟩ := takeEvents_eq hs
  rcases hcases with ⟨hab, -⟩ | ⟨_, -, rfl⟩ | ⟨_, -, rfl⟩ | ⟨_, left, hb, rfl⟩
  · simp [aborted, hu.2.1, hu.2.2] at hab
  · refine hgo hu rfl rfl rfl (by simp [working, acknowledge, hw]) ?_
    simp [toApply, acknowledge, hqueue]
  · refine hgo hu rfl rfl rfl rfl ?_
    simp only [toApply, hqueue, hw, Worker.left, List.length_cons]
    omega
  · refine hgo hu rfl rfl rfl rfl ?_
    have hleft := hb.left.length_le
    simp only [toApply, hqueue, hw, Worker.left, List.length_cons]
    omega

/-- The worker makes room in the queue, or the start-up comes closer to starting it. -/
theorem progress_of_worker (hsteps : RegistersFirst steps) (h : s.Delivering c steps)
    (hu : s.Undisturbed) (hreg : s.dmlRegistered = true) (hworking : s.working = true)
    (hq : s.applyEventsQueue ≠ []) : s.Progress c := by
  cases hw : s.worker with
  | notStarted =>
    obtain ⟨s', hs⟩ := startupStep_enabled hsteps h hu hreg hw
    obtain ⟨step, rest, hstartup, hp⟩ := startupStep_eq hs
    have hleft : s'.startup.length < s.startup.length := by
      rcases hp.startup with ⟨heq, -⟩ | ⟨heq, -⟩ <;> rw [heq, hstartup] <;> simp
    have hqueue : s'.applyEventsQueue = s.applyEventsQueue := by rw [hp.frame]
    have hgo := @progress_of_toApply c s s' .startup hs rfl (by rw [hp.frame]; exact hu)
      (by rw [hp.frame]) (by rw [hp.frame]) (by rw [hp.frame])
    rcases hp.worker with ⟨-, heq⟩ | ⟨-, heq⟩
    · exact hgo (by simp [working, heq, hw])
        (by simp only [toApply, Worker.left, heq, hw, hqueue]; omega)
    · exact hgo (by simp [working, heq])
        (by simp only [toApply, Worker.left, heq, hw, hqueue]; omega)
  | idle => exact progress_of_idle hu hw hq
  | applying batch =>
    obtain ⟨s', hs⟩ : ∃ s', s.batchApplied = some s' := by
      unfold batchApplied
      rw [hw]
      dsimp only
      split <;> exact ⟨_, rfl⟩
    have hgo := @progress_of_toApply c s s' .batchApplied hs rfl
    obtain ⟨batch, -, _, _, rfl, -⟩ := batchApplied_eq hs
    have hafter : batch.after = .idle ∨ ∃ f, batch.after = .running f := by
      unfold Batch.after
      split
      · exact .inl rfl
      · exact .inr ⟨_, rfl⟩
    rcases hafter with hafter | ⟨f, hafter⟩ <;>
      exact hgo hu rfl rfl rfl (by simp [working, hafter])
        (by simp [toApply, hw, Worker.left, hafter])
  | running writeFunc =>
    obtain ⟨s', hs⟩ : ∃ s', s.funcApplied = some s' := by
      unfold funcApplied
      rw [hw]
      cases writeFunc with
      | _ => exact ⟨_, rfl⟩
    have hgo := @progress_of_toApply c s s' .funcApplied hs rfl
    obtain ⟨_, _, -, rfl⟩ := funcApplied_eq hs
    exact hgo hu rfl rfl rfl rfl (by simp [toApply, hw, Worker.left])
  | stopped dropped => simp [working, hw] at hworking

theorem dmlRegistered_of_inFlight (h : s.Delivering c steps) (hu : s.Undisturbed)
    (hflight : s.inFlight c ≠ []) : s.dmlRegistered = true := by
  rw [← Bool.not_eq_false]
  intro hno
  obtain ⟨-, hrows⟩ := h.rows hu
  rw [h.unread hno, List.flatMap_nil] at hrows
  exact hflight (List.append_eq_nil_iff.1 hrows).2

/-- **While rows are in flight, some step leads on.** -/
theorem progress_of_inFlight (hsteps : RegistersFirst steps) (h : s.Delivering c steps)
    (hu : s.Undisturbed) (hworking : s.working = true) (hpanics : s.panics c = false)
    (hflight : s.inFlight c ≠ []) : s.Progress c := by
  have hreg := dmlRegistered_of_inFlight h hu hflight
  cases hd : s.dispatcher with
  | waiting =>
    cases hch : s.eventsChannel with
    | nil =>
      cases hout : s.outbox with
      | nil => simp [inFlight, hd, hch, hout, Dispatcher.rows, StreamContext.rowsOf] at hflight
      | cons entry rest =>
        refine ⟨.sendEntry, { s with outbox := rest, eventsChannel := [entry] }, rfl, ?_,
          .inr ⟨hu, hworking, work_lt_iff.2 (.inl ?_)⟩⟩
        · simp [step, sendEntry, hout, hch, eventsChannelBufferSize]
        · simp only [toDispatch, hout, hch, hd, List.length_cons, List.length_nil]
          omega
    | cons entry rest =>
      obtain ⟨s', hs⟩ : ∃ s', s.receive = some s' := by
        unfold receive
        rw [hd, hch]
        dsimp only
        split <;> exact ⟨_, rfl⟩
      obtain ⟨-, _, _, hch', rfl | ⟨-, rfl⟩⟩ := receive_eq hs <;>
        refine ⟨.receive, _, rfl, hs, .inr ⟨hu, hworking, work_lt_iff.2 (.inl ?_)⟩⟩ <;>
        simp only [toDispatch, hch', hd, List.length_cons] <;> omega
  | received entry =>
    simp only [panics, hd, Bool.not_eq_false'] at hpanics
    cases hn : s.notification c entry with
    | error f => simp [hn, Except.isOk, Except.toBool] at hpanics
    | ok n =>
      refine ⟨.notifyListeners, { s with
          handled := s.handledWith c entry
          dispatcher := .notifying entry n.sends n.fails
          asyncSends := s.asyncSends ++ n.asyncSends }, rfl, ?_,
        .inr ⟨hu, hworking, work_lt_iff.2 (.inl ?_)⟩⟩
      · simp [step, Pipeline.notifyListeners, hd, hn, aborted, hu.2.1, hu.2.2]
      · simp [toDispatch, hd]
  | notifying entry sends fails =>
    cases sends with
    | nil =>
      cases fails with
      | true =>
        refine ⟨.deliver, s.failDelivery entry, rfl, by simp [step, Pipeline.deliver, hd], .inl ?_⟩
        simp [Undisturbed, failDelivery]
      | false =>
        refine ⟨.deliver, { s with dispatcher := .waiting }, rfl,
          by simp [step, Pipeline.deliver, hd],
          .inr ⟨hu, hworking, work_lt_iff.2 (.inr ⟨by simp [toDispatch, hd], .inl ?_⟩)⟩⟩
        simp [toSend, hd]
    | cons item sends =>
      by_cases hroom : s.applyEventsQueue.length < maxEventsBatchSize
      · refine ⟨.deliver, { s.enqueue item with dispatcher := .notifying entry sends fails }, rfl,
          by simp [step, Pipeline.deliver, hd, hroom],
          .inr ⟨hu, hworking, work_lt_iff.2 (.inr ⟨by simp [toDispatch, hd, enqueue], .inl ?_⟩)⟩⟩
        simp [toSend, hd]
      · refine progress_of_worker hsteps h hu hreg hworking fun hnil => hroom ?_
        rw [hnil]
        decide
  | stopped => exact absurd hd (h.rows hu).1

theorem readAfter_of_goesOn {a : PipelineAction} (ha : a.goesOn = true)
    (hs : s.step c a = some s') : s'.readAfter = s.readAfter := by
  cases a with
  | startup =>
    obtain ⟨_, _, -, hp⟩ := startupStep_eq hs
    rw [hp.frame]
  | sendEntry =>
    obtain ⟨_, _, -, rfl⟩ := sendEntry_eq hs
    rfl
  | receive =>
    obtain ⟨-, _, _, -, rfl | ⟨-, rfl⟩⟩ := receive_eq hs <;> rfl
  | notifyListeners =>
    obtain ⟨_, -, ⟨-, rfl⟩ | ⟨-, _, -, rfl⟩⟩ := notifyListeners_eq hs <;> rfl
  | deliver =>
    obtain ⟨_, _, _, -, ⟨_, _, -, rfl⟩ | ⟨-, -, rfl⟩ | ⟨-, -, rfl⟩⟩ := deliver_eq hs <;> rfl
  | takeEvents | batchApplied | funcApplied =>
    obtain ⟨_, _, _, _, _, _, _, _, _, rfl⟩ := downstream_eq rfl hs
    rfl
  | _ => cases ha

theorem exists_reach_enqueued (hsteps : RegistersFirst steps) (h : s.Delivering c steps)
    (hu : s.Undisturbed) (hworking : s.working = true) :
    ∃ s', Reach (Pipeline.step c) (fun _ a => a.goesOn = true) s s' ∧
      (s'.inFlight c = [] ∨ ¬ s'.Undisturbed ∨ s'.panics c = true) := by
  have hprogress : ∀ t : Pipeline, t.Delivering c steps ∧ t.Undisturbed ∧ t.working = true →
      ¬ (t.inFlight c = [] ∨ ¬ t.Undisturbed ∨ t.panics c = true) →
      ∃ a t', a.goesOn = true ∧ t.step c a = some t' ∧
        ((t'.inFlight c = [] ∨ ¬ t'.Undisturbed ∨ t'.panics c = true) ∨
          (t'.Delivering c steps ∧ t'.Undisturbed ∧ t'.working = true) ∧ t'.work < t.work) := by
    rintro t ⟨hd, hu, hw⟩ hgoal
    simp only [not_or, Bool.not_eq_true] at hgoal
    obtain ⟨a, t', ha, hs, hdisturbed | ⟨hu', hw', hlt⟩⟩ :=
      progress_of_inFlight hsteps hd hu hw hgoal.2.2 hgoal.1
    · exact ⟨a, t', ha, hs, .inl (.inr (.inl hdisturbed))⟩
    · exact ⟨a, t', ha, hs, .inr ⟨⟨hd.step hsteps hs, hu', hw'⟩, hlt⟩⟩
  exact exists_reach_of_progress hprogress ⟨h, hu, hworking⟩

/-- **On resume and revert the rows that are read after the registration of the DML listener are
enqueued, in order; so none is lost exactly if none is read before it.** From every state the rest
of them can be enqueued by the steps of a migration that is not disturbed, unless one of these steps
is an abort or a panic of a listener. -/
theorem enqueued_rows_eq {useGTIDs : Bool} {maxReconnectAttempts : Nat}
    {coordinates : BinlogCoordinates} (hsteps : steps = resumeSteps ∨ steps = revertSteps)
    (hr : Reachable (Pipeline.step c)
      (initPipeline steps useGTIDs maxReconnectAttempts coordinates) s) (hu : s.Undisturbed) :
    s.enqueued.filterMap (·.row) ++ s.inFlight c = s.readAfter.flatMap c.originalRows ∧
    (s.enqueued.filterMap (·.row) ++ s.inFlight c = s.eventsRead.flatMap c.originalRows ↔
      s.readBefore.flatMap c.originalRows = []) ∧
    (s.working = true → ∃ s', Reach (Pipeline.step c) (fun _ a => a.goesOn = true) s s' ∧
      (s'.enqueued.filterMap (·.row) = s.readAfter.flatMap c.originalRows ∨
        ¬ s'.Undisturbed ∨ s'.panics c = true)) := by
  have hfirst : RegistersFirst steps := by
    rcases hsteps with rfl | rfl <;> decide
  have hdelivering : ∀ {t}, Reachable (Pipeline.step c)
      (initPipeline steps useGTIDs maxReconnectAttempts coordinates) t → t.Delivering c steps :=
    fun hr => hr.invariant (Delivering.init hfirst ..) fun _ _ _ h _ hs => h.step hfirst hs
  obtain ⟨-, hrows⟩ := (hdelivering hr).rows hu
  refine ⟨hrows, ?_, fun hworking => ?_⟩
  · rw [hrows, eventsRead, List.flatMap_append]
    constructor
    · intro heq
      exact (List.append_left_eq_self.1 heq.symm)
    · intro hnil
      rw [hnil, List.nil_append]
  · obtain ⟨t, ht, hgoal⟩ := exists_reach_enqueued hfirst (hdelivering hr) hu hworking
    refine ⟨t, ht, ?_⟩
    have hread : t.readAfter = s.readAfter := by
      clear hgoal
      induction ht with
      | init => rfl
      | next _ ha hs ih => exact (readAfter_of_goesOn ha hs).trans ih
    by_cases hut : t.Undisturbed
    · rcases hgoal with hnil | hgoal
      · obtain ⟨-, hrows⟩ := (hdelivering (.trans hr (ht.mono fun _ _ _ => trivial))).rows hut
        rw [hnil, List.append_nil, hread] at hrows
        exact .inl hrows
      · exact .inr hgoal
    · exact .inr (.inl hut)

/-- A row that is read once the start-up is over reaches the queue. -/
theorem enqueued_rows_eq_small :
    ∃ s, Reachable (Pipeline.step smallStream) (initPipeline resumeSteps false 0 (fileAt 4))
        s ∧ s.Undisturbed ∧ s.inFlight smallStream = [] ∧ s.eventsRead = [insertAt 100 1] ∧
      s.enqueued.filterMap (·.row) = smallStream.originalRows (insertAt 100 1) ∧
      s.enqueued ≠ [] := by
  refine exists_reach_of
    (fun s => s.Undisturbed ∧ s.inFlight smallStream = [] ∧ s.eventsRead = [insertAt 100 1] ∧
      s.readBefore = [] ∧ s.enqueued ≠ [])
    [List.replicate 11 .startup, [.readEvent (insertAt 100 1), .sendEntry, .receive,
      .notifyListeners, .deliver, .deliver]].flatten (by decide) ?_
  rintro s hr ⟨hu, hnil, hread, hbefore, hne⟩
  refine ⟨hu, hnil, hread, ?_, hne⟩
  have hrows := (enqueued_rows_eq (.inl rfl) hr hu).2.1.2 (by rw [hbefore]; rfl)
  rwa [hnil, hread, List.append_nil, List.flatMap_singleton] at hrows

/-- A start-up that is overtaken by the reader, which reads a transaction with one row as soon as
the streaming has begun. -/
def overtaken (steps : List StartupStep) : Option Pipeline :=
  run (Pipeline.step smallStream) (initPipeline steps false 0 (fileAt 4))
    ([.startup, .startup, .readEvent (insertAt 100 1), .readEvent (xidAt 131)] ++
      List.replicate (steps.length - 2) .startup)

/-- The start-up is over, nothing is in flight and nothing was enqueued, of a log with a row. -/
def RowLost (s : Pipeline) : Prop :=
  s.Undisturbed ∧ s.startup = [] ∧ s.inFlight smallStream = [] ∧ s.enqueued = [] ∧
    s.eventsRead.flatMap smallStream.originalRows =
      [{ databaseName := "test", tableName := "t", dml := .insertDML,
         newColumnValues := some [.int64 1] }]

instance : Decidable s.RowLost := inferInstanceAs (Decidable (_ ∧ _))

/-- **A row read before the registration is lost**, on resume and on revert. -/
theorem row_read_before_registration_is_lost :
    (overtaken resumeSteps).any (fun s => s.RowLost) = true ∧
      (overtaken revertSteps).any (fun s => s.RowLost) = true := by
  decide

end Pipeline

end GhOst.Logic
