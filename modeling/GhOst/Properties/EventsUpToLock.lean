import GhOst.Logic.EventsUpToLock
import GhOst.Properties.Delivery
import GhOst.Properties.Watermark

/-!
# What an accepted sentinel stands for

The goroutine that enqueues a sentinel is started after the dispatcher has put every earlier row on
the queue. So the rows before the sentinel stand in front of its function (`RowsAhead`), and the
worker runs it only when those are committed. `Passing`: as long as nobody cancels, a row that was
emitted is enqueued or on its way. `UpToLock.Sound`: the text of a sentinel names the call that
wrote it.
-/

namespace GhOst.Logic

open GhOst.Sql GhOst.Binlog GhOst.Mysql

/-! ## The rows of an event -/

section Reader

variable {r r' : GoMySQLReader} {entries : List BinlogEntry} {err : Option ReadError}
  {e : BinlogEntry} {row : BinlogDMLEvent}

theorem mem_transactionRows {event : TransactionEvent}
    (h : r.handleTransactionEvent event = (r', entries, err)) (he : e ∈ entries)
    (hrow : e.dmlEvent = some row) : row ∈ transactionRows event := by
  cases event with
  | rows dml databaseName tableName rows =>
    rw [GoMySQLReader.handleTransactionEvent] at h
    unfold GoMySQLReader.handleRowsEvent at h
    split at h
    · cases h
      simp at he
    · split at h
      · cases h
        simp at he
      · next events hev =>
        cases h
        rw [List.mem_map] at he
        obtain ⟨ev, hmem, rfl⟩ := he
        rw [transactionRows, hev]
        exact Option.some.inj hrow ▸ hmem
  | xid gset =>
    simp only [GoMySQLReader.handleTransactionEvent, GoMySQLReader.completeTransaction,
      Prod.mk.injEq] at h
    rw [← h.2.1] at he
    split at he
    · rw [List.mem_singleton.1 he] at hrow
      simp at hrow
    · simp at he
  | other =>
    simp only [GoMySQLReader.handleTransactionEvent] at h
    cases h
    simp at he

theorem mem_payloadRows (hrow : e.dmlEvent = some row) : ∀ {events : List TransactionEvent}
    {r r' : GoMySQLReader} {entries : List BinlogEntry} {err : Option ReadError},
    r.handlePayload events = (r', entries, err) → e ∈ entries →
    row ∈ events.flatMap transactionRows
  | [], r, r', entries, err, h, he => by
    simp only [GoMySQLReader.handlePayload, Prod.mk.injEq] at h
    simp [← h.2.1] at he
  | event :: events, r, r', entries, err, h, he => by
    rw [List.flatMap_cons, List.mem_append]
    rw [GoMySQLReader.handlePayload] at h
    split at h
    · next hfirst =>
      simp only [Prod.mk.injEq] at h
      rw [← h.2.1] at he
      exact .inl (mem_transactionRows hfirst he hrow)
    · next hfirst =>
      cases h
      rw [List.mem_append] at he
      rcases he with he | he
      · exact .inl (mem_transactionRows hfirst he hrow)
      · exact .inr (mem_payloadRows hrow rfl he)

theorem mem_eventRows {ev : BinlogEvent} (h : r.handleEvent ev = (r', entries, err))
    (he : e ∈ entries) (hrow : e.dmlEvent = some row) : row ∈ eventRows ev := by
  unfold GoMySQLReader.handleEvent at h
  split at h
  · cases h
    simp at he
  · unfold eventRows
    cases hb : ev.body with
    | gtid nextGTID =>
      rw [hb] at h
      dsimp only at h
      split at h
      · split at h <;> · simp only [Prod.mk.injEq] at h; simp [← h.2.1] at he
      · cases h
        simp at he
    | gtidTagged nextGTID =>
      rw [hb] at h
      cases h
      simp at he
    | rotate nextLogName =>
      rw [hb] at h
      dsimp only at h
      split at h
      · cases h
        simp at he
      · split at h <;> · simp only [Prod.mk.injEq] at h; simp [← h.2.1] at he
    | transaction event =>
      rw [hb] at h
      exact mem_transactionRows h he hrow
    | transactionPayload events =>
      rw [hb] at h
      exact mem_payloadRows hrow h he

end Reader

namespace StreamContext

variable {c : StreamContext} {listeners : List Listener} {row : BinlogDMLEvent}

theorem mem_transactionRows_decode {event : TransactionEvent}
    (h : row ∈ transactionRows (c.decodeRows listeners event)) :
    row ∈ transactionRows event ∧
      c.shouldDecodeRowsEvent listeners row.databaseName row.tableName = true := by
  cases event with
  | rows dml databaseName tableName rows =>
    rw [decodeRows, transactionRows] at h
    by_cases hd : c.shouldDecodeRowsEvent listeners databaseName tableName = true
    · rw [if_pos hd] at h
      refine ⟨h, ?_⟩
      split at h
      · next events hev =>
        obtain ⟨hdb, ht⟩ := rowEvents_table hev row h
        rw [hdb, ht]
        exact hd
      · simp at h
    · rw [if_neg hd] at h
      simp [rowEvents] at h
  | xid gset => simp [decodeRows, transactionRows] at h
  | other => simp [decodeRows, transactionRows] at h

theorem mem_eventRows_decode {ev : BinlogEvent} (h : row ∈ eventRows (c.decode listeners ev)) :
    row ∈ eventRows ev ∧
      c.shouldDecodeRowsEvent listeners row.databaseName row.tableName = true := by
  unfold eventRows at h ⊢
  cases hb : ev.body with
  | gtid | gtidTagged | rotate => simp [decode, hb] at h
  | transaction event =>
    simp only [decode, hb] at h
    exact mem_transactionRows_decode h
  | transactionPayload events =>
    simp only [decode, hb, List.flatMap_map, List.mem_flatMap] at h
    obtain ⟨event, hmem, h⟩ := h
    obtain ⟨hrow, hd⟩ := mem_transactionRows_decode h
    exact ⟨List.mem_flatMap.2 ⟨event, hmem, hrow⟩, hd⟩

theorem dml_mem_of_rowOf {r r' : GoMySQLReader} {entries : List BinlogEntry}
    {err : Option ReadError} {ev : BinlogEvent} {e : BinlogEntry}
    (h : r.handleEvent (c.decode listeners ev) = (r', entries, err)) (he : e ∈ entries)
    (hrow : c.rowOf e = some row) : .dml ∈ listeners := by
  unfold rowOf at hrow
  split at hrow
  · simp at hrow
  · rw [Option.filter_eq_some_iff] at hrow
    obtain ⟨hdml, horig⟩ := hrow
    obtain ⟨-, hd⟩ := mem_eventRows_decode (mem_eventRows h he hdml)
    rw [shouldDecodeRowsEvent_original horig] at hd
    exact List.contains_iff_mem.1 hd

/-! ## The listeners and the sentinels -/

variable {entry : Emitted} {ev : BinlogDMLEvent} {n : Notification}

theorem lockProcessed_of_changelog (hl : c.listensTo .changelog ev.databaseName ev.tableName = true)
    (h : c.onChangelogEvent entry ev = .ok n) :
    (∀ t coords, .func (.lockProcessed t coords) ∉ n.sends) ∧
      ∀ t coords, .func (.lockProcessed t coords) ∈ n.asyncSends → c.stateText ev = some t := by
  unfold onChangelogEvent at h
  split at h
  · simp at h
  · next hint hh =>
    split at h
    · next hstate =>
      unfold onChangelogStateEvent at h
      split at h
      · simp at h
      · next text ht =>
        have htext : c.stateText ev = some text := by simp [stateText, hl, hh, ht, hstate]
        dsimp only at h
        split at h
        · cases h
          simp
        · split at h
          · cases h
            simp
          · split at h
            · cases h
              refine ⟨by simp, fun t coords hmem => ?_⟩
              rw [List.mem_singleton] at hmem
              cases hmem
              exact htext
            · cases h
              simp
    · split at h
      · unfold onChangelogHeartbeatEvent at h
        split at h
        · simp at h
        · split at h <;>
          · cases h
            simp
      · cases h
        simp

theorem lockProcessed_of_notifyRow : ∀ {listeners : List Listener} {n : Notification},
    c.notifyRow entry ev listeners = .ok n →
    (∀ t coords, .func (.lockProcessed t coords) ∉ n.sends) ∧
      ∀ t coords, .func (.lockProcessed t coords) ∈ n.asyncSends → c.stateText ev = some t
  | [], n, h => by
    cases h
    simp
  | l :: listeners, n, h => by
    have hone : ∀ {one : Notification},
        c.listensTo l ev.databaseName ev.tableName = true → c.onDmlEvent entry ev l = .ok one →
        (∀ t coords, .func (.lockProcessed t coords) ∉ one.sends) ∧
          ∀ t coords, .func (.lockProcessed t coords) ∈ one.asyncSends →
            c.stateText ev = some t := by
      intro one hl ho
      cases l with
      | changelog => exact lockProcessed_of_changelog hl ho
      | dml =>
        cases ho
        simp
    rcases notifyRow_cons h with ⟨-, h⟩ | ⟨hl, one, ho, ⟨-, rfl⟩ | ⟨-, more, hmore, rfl⟩⟩
    · exact lockProcessed_of_notifyRow h
    · exact hone hl ho
    · obtain ⟨hs, ha⟩ := hone hl ho
      obtain ⟨hs', ha'⟩ := lockProcessed_of_notifyRow hmore
      constructor
      · intro t coords hmem
        exact (List.mem_append.1 hmem).elim (hs t coords) (hs' t coords)
      · intro t coords hmem
        exact (List.mem_append.1 hmem).elim (ha t coords) (ha' t coords)

end StreamContext

/-! ## Rows on their way to the queue -/

def Dispatcher.Carries (e : Emitted) (ev : BinlogDMLEvent) : Dispatcher → Prop
  | .received entry => entry = e
  | .notifying entry sends fails => entry = e ∧ (fails = true ∨ .dml entry ev ∈ sends)
  | _ => False

namespace Pipeline

variable {c : StreamContext} {s s' : Pipeline}

def InPlace (s : Pipeline) (e : Emitted) (ev : BinlogDMLEvent) : Prop :=
  .dml e ev ∈ s.enqueued ∨ s.dispatcher.Carries e ev ∨ e ∈ s.eventsChannel ∨ e ∈ s.outbox

structure Passing (c : StreamContext) (s : Pipeline) : Prop where
  registered : ∀ e ∈ s.emitted, ∀ ev, c.rowOf e = some ev → .dml ∈ s.listeners
  rows : s.canceled = false → ∀ (j : Nat) e ev, s.emitted[j]? = some e → c.rowOf e = some ev →
    s.InPlace (e, j) ev

theorem Passing.of_inPlace (h : s.Passing c) (hemitted : s'.emitted = s.emitted)
    (hlisteners : ∀ l ∈ s.listeners, l ∈ s'.listeners)
    (hrows : s'.canceled = false → s.canceled = false ∧ ∀ e ev, c.rowOf e.1 = some ev →
      s.InPlace e ev → s'.InPlace e ev) : s'.Passing c where
  registered e he ev hrow := by
    rw [hemitted] at he
    exact hlisteners _ (h.registered e he ev hrow)
  rows hc j e ev he hrow := by
    rw [hemitted] at he
    obtain ⟨hc, hmove⟩ := hrows hc
    exact hmove (e, j) ev hrow (h.rows hc j e ev he hrow)

theorem Passing.readEvent {ev : BinlogEvent} (h : s.Passing c) (hs : s.readEvent c ev = some s') :
    s'.Passing c := by
  obtain ⟨-, reader, entries, err, hhandle, rfl⟩ := readEvent_eq hs
  refine ⟨fun e he row hrow => ?_, fun hc j e row he hrow => ?_⟩
  · rcases List.mem_append.1 he with he | he
    · exact h.registered e he row hrow
    · exact StreamContext.dml_mem_of_rowOf hhandle he hrow
  · by_cases hj : j < s.emitted.length
    · rw [List.getElem?_append_left hj] at he
      rcases h.rows hc j e row he hrow with hi | hi | hi | hi
      · exact .inl hi
      · exact .inr (.inl hi)
      · exact .inr (.inr (.inl hi))
      · obtain ⟨hout, -⟩ := readEvent_eq hs
        rw [hout] at hi
        simp at hi
    · refine .inr (.inr (.inr ?_))
      rw [List.getElem?_append_right (Nat.le_of_not_lt hj)] at he
      refine List.mem_iff_getElem?.2 ⟨j - s.emitted.length, ?_⟩
      rw [List.getElem?_zipIdx, he, Option.map_some, Nat.add_sub_cancel' (Nat.le_of_not_lt hj)]

theorem Passing.failDelivery (h : s.Passing c) (entry : Emitted) :
    (s.failDelivery entry).Passing c :=
  h.of_inPlace rfl (fun _ hl => hl) fun hc => by
    have hc : true = false := hc
    simp at hc

theorem Passing.notifyListeners (h : s.Passing c) (hs : s.notifyListeners c = some s') :
    s'.Passing c := by
  obtain ⟨entry, hd, ⟨-, rfl⟩ | ⟨-, n, hn, rfl⟩⟩ := notifyListeners_eq hs
  · have h' : { s with handled := s.handledWith c entry }.Passing c := { h with }
    exact h'.failDelivery entry
  · refine ⟨h.registered, fun hc j e ev he hrow => ?_⟩
    rcases h.rows hc j e ev he hrow with hi | hi | hi
    · exact .inl hi
    · -- the row that is being notified goes to the DML listener
      rw [hd] at hi
      have hentry : entry = (e, j) := hi
      refine .inr (.inl ⟨hentry, ?_⟩)
      have hreg := h.registered e (List.mem_of_getElem? he) ev hrow
      unfold StreamContext.rowOf at hrow
      split at hrow
      · simp at hrow
      · next hcomplete =>
        rw [Option.filter_eq_some_iff] at hrow
        rw [hentry, notification, if_neg hcomplete, hrow.1] at hn
        rw [hentry]
        exact StreamContext.notifyRow_dml hrow.2 hreg hn
    · exact .inr (.inr hi)

theorem Passing.deliver (h : s.Passing c) (hs : s.deliver = some s') : s'.Passing c := by
  obtain ⟨entry, sends, fails, hd, ⟨item, rest, rfl, rfl⟩ | ⟨rfl, -, rfl⟩ | ⟨rfl, rfl, rfl⟩⟩ :=
    deliver_eq hs
  · refine h.of_inPlace rfl (fun _ hl => hl) fun hc => ⟨hc, fun e ev _ hi => ?_⟩
    rcases hi with hi | hi | hi
    · exact .inl (List.mem_append_left _ hi)
    · rw [hd] at hi
      obtain ⟨hentry, hf | hmem⟩ := hi
      · exact .inr (.inl ⟨hentry, .inl hf⟩)
      · rcases List.mem_cons.1 hmem with hitem | hmem
        · refine .inl (List.mem_append_right _ (List.mem_singleton.2 ?_))
          rw [← hitem, hentry]
        · exact .inr (.inl ⟨hentry, .inr hmem⟩)
    · exact .inr (.inr hi)
  · exact h.failDelivery entry
  · refine h.of_inPlace rfl (fun _ hl => hl) fun hc => ⟨hc, fun e ev _ hi => ?_⟩
    rcases hi with hi | hi | hi
    · exact .inl hi
    · rw [hd] at hi
      obtain ⟨-, hf | hmem⟩ := hi
      · simp at hf
      · simp at hmem
    · exact .inr (.inr hi)

theorem Passing.receive (h : s.Passing c) (hs : s.receive = some s') : s'.Passing c := by
  obtain ⟨hd, entry, rest, hch, rfl | ⟨hnone, rfl⟩⟩ := receive_eq hs
  · refine h.of_inPlace rfl (fun _ hl => hl) fun hc => ⟨hc, fun e ev _ hi => ?_⟩
    rcases hi with hi | hi | hi | hi
    · exact .inl hi
    · rw [hd] at hi
      exact hi.elim
    · rw [hch] at hi
      rcases List.mem_cons.1 hi with rfl | hi
      · exact .inr (.inl rfl)
      · exact .inr (.inr (.inl hi))
    · exact .inr (.inr (.inr hi))
  · refine h.of_inPlace rfl (fun _ hl => hl) fun hc => ⟨hc, fun e ev hrow hi => ?_⟩
    rcases hi with hi | hi | hi | hi
    · exact .inl hi
    · exact .inr (.inl hi)
    · rw [hch] at hi
      rcases List.mem_cons.1 hi with rfl | hi
      · simp [StreamContext.rowOf, hnone] at hrow
      · exact .inr (.inr (.inl hi))
    · exact .inr (.inr (.inr hi))

theorem Passing.of_frame (h : s.Passing c) (hemitted : s'.emitted = s.emitted)
    (hlisteners : s'.listeners = s.listeners) (henq : s'.enqueued = s.enqueued)
    (hd : s'.dispatcher = s.dispatcher) (hch : s'.eventsChannel = s.eventsChannel)
    (hout : s'.outbox = s.outbox) (hc : s'.canceled = false → s.canceled = false) :
    s'.Passing c := by
  refine h.of_inPlace hemitted (fun l hl => hlisteners ▸ hl) fun h' => ⟨hc h', ?_⟩
  intro e ev _ hi
  unfold InPlace at hi ⊢
  rw [henq, hd, hch, hout]
  exact hi

theorem Passing.step {a : PipelineAction} (h : s.Passing c) (hs : s.step c a = some s') :
    s'.Passing c := by
  by_cases ha : a.downstream = true
  · obtain ⟨_, _, _, _, _, _, _, _, _, rfl⟩ := downstream_eq ha hs
    exact h.of_frame rfl rfl rfl rfl rfl rfl id
  cases a with
  | startup =>
    obtain ⟨_, _, -, hp⟩ := startupStep_eq hs
    refine h.of_inPlace (by rw [hp.frame]) (fun l hl => ?_) fun hc => ?_
    · rcases hp.listeners with heq | ⟨-, _, heq⟩
      · rw [heq]
        exact hl
      · rw [heq]
        exact List.mem_append_left _ hl
    · rw [hp.frame] at hc ⊢
      exact ⟨hc, fun _ _ _ hi => hi⟩
  | readEvent ev => exact h.readEvent hs
  | sendEntry =>
    obtain ⟨entry, rest, hout, rfl⟩ := sendEntry_eq hs
    refine h.of_inPlace rfl (fun _ hl => hl) fun hc => ⟨hc, fun e ev _ hi => ?_⟩
    rcases hi with hi | hi | hi | hi
    · exact .inl hi
    · exact .inr (.inl hi)
    · exact .inr (.inr (.inl (List.mem_append_left _ hi)))
    · rw [hout] at hi
      rcases List.mem_cons.1 hi with rfl | hi
      · exact .inr (.inr (.inl (List.mem_append_right _ (List.mem_singleton.2 rfl))))
      · exact .inr (.inr (.inr hi))
  | sendEntryCanceled =>
    obtain ⟨hcan, rfl⟩ := sendEntryCanceled_eq hs
    refine h.of_inPlace rfl (fun _ hl => hl) fun hc => ?_
    have hc : s.canceled = false := hc
    simp [hcan] at hc
  | reconnect =>
    obtain ⟨_, _, _, _, rfl, -⟩ := reconnect_eq hs
    exact h.of_frame rfl rfl rfl rfl rfl rfl id
  | receive => exact h.receive hs
  | dispatcherCanceled =>
    obtain ⟨hcan, -, rfl⟩ := dispatcherCanceled_eq hs
    refine h.of_inPlace rfl (fun _ hl => hl) fun hc => ?_
    have hc : s.canceled = false := hc
    simp [hcan] at hc
  | notifyListeners => exact h.notifyListeners hs
  | deliver => exact h.deliver hs
  | deliverCanceled =>
    obtain ⟨entry, _, _, -, -, rfl⟩ := deliverCanceled_eq hs
    exact h.failDelivery entry
  | deliverAsync i =>
    obtain ⟨item, -, rfl⟩ := deliverAsync_eq hs
    refine h.of_inPlace rfl (fun _ hl => hl) fun hc => ⟨hc, fun e ev _ hi => ?_⟩
    exact hi.imp_left (List.mem_append_left _)
  | setAbortError =>
    cases hs
    exact h.of_frame rfl rfl rfl rfl rfl rfl id
  | cancelContext =>
    cases hs
    refine h.of_inPlace rfl (fun _ hl => hl) fun hc => ?_
    have hc : true = false := hc
    simp at hc
  | _ => exact absurd rfl ha

end Pipeline

/-! ## The rows in front of a sentinel -/

/-- The entry `i` brings the state text `t`. -/
def SentinelAt (c : StreamContext) (emitted : List BinlogEntry) (i : Nat) (t : List UInt8) : Prop :=
  ∃ e ev, emitted[i]? = some e ∧ e.dmlEvent = some ev ∧ c.stateText ev = some t

/-- The rows of the original table that were emitted before the entry `i` are among `items`. -/
def RowsIn (c : StreamContext) (emitted : List BinlogEntry) (i : Nat)
    (items : List ApplyEventStruct) : Prop :=
  ∀ j < i, ∀ e ev, emitted[j]? = some e → c.rowOf e = some ev → .dml (e, j) ev ∈ items

/-- A sentinel with the text `t`, behind the rows before it. -/
def Ahead (c : StreamContext) (emitted : List BinlogEntry) (t : List UInt8)
    (items : List ApplyEventStruct) : Prop :=
  ∃ i, SentinelAt c emitted i t ∧ RowsIn c emitted i items

theorem Ahead.append {c : StreamContext} {emitted : List BinlogEntry} {t : List UInt8}
    {items : List ApplyEventStruct} (h : Ahead c emitted t items) (entries : List BinlogEntry)
    (more : List ApplyEventStruct) : Ahead c (emitted ++ entries) t (items ++ more) := by
  obtain ⟨i, ⟨e, ev, he, hev, ht⟩, hrows⟩ := h
  have hi : i < emitted.length := (List.getElem?_eq_some_iff.1 he).1
  refine ⟨i, ⟨e, ev, ?_, hev, ht⟩, fun j hj e' ev' he' hrow => ?_⟩
  · rw [List.getElem?_append_left hi]
    exact he
  · rw [List.getElem?_append_left (by omega)] at he'
    exact List.mem_append_left _ (hrows j hj e' ev' he' hrow)

namespace Pipeline

variable {c : StreamContext} {s s' : Pipeline}

structure RowsAhead (c : StreamContext) (s : Pipeline) : Prop where
  sends : ∀ entry sends fails, s.dispatcher = .notifying entry sends fails →
    ∀ t coords, .func (.lockProcessed t coords) ∉ sends
  async : ∀ t coords, .func (.lockProcessed t coords) ∈ s.asyncSends →
    Ahead c s.emitted t s.enqueued
  enqueued : ∀ pre post t coords, s.enqueued = pre ++ .func (.lockProcessed t coords) :: post →
    Ahead c s.emitted t pre

theorem RowsAhead.enqueue (h : s.RowsAhead c) {item : ApplyEventStruct}
    (hitem : ∀ t coords, item = .func (.lockProcessed t coords) → Ahead c s.emitted t s.enqueued) :
    (s.enqueue item).RowsAhead c where
  sends := h.sends
  async t coords hmem := by
    have hmore := (h.async t coords hmem).append [] [item]
    rwa [List.append_nil] at hmore
  enqueued pre post t coords heq := by
    have heq : s.enqueued ++ [item] = pre ++ .func (.lockProcessed t coords) :: post := heq
    rcases List.eq_nil_or_concat post with rfl | ⟨post, last, rfl⟩
    · obtain ⟨hpre, hlast⟩ := List.append_inj' heq rfl
      rw [← hpre]
      exact hitem t coords (List.singleton_inj.1 hlast)
    · rw [List.concat_eq_append, ← List.cons_append, ← List.append_assoc] at heq
      exact h.enqueued pre post t coords (List.append_inj' heq rfl).1

theorem RowsAhead.of_frame (h : s.RowsAhead c) (hemitted : s'.emitted = s.emitted)
    (henq : s'.enqueued = s.enqueued) (hasync : ∀ item ∈ s'.asyncSends, item ∈ s.asyncSends)
    (hsends : ∀ entry sends fails, s'.dispatcher = .notifying entry sends fails →
      ∀ t coords, .func (.lockProcessed t coords) ∉ sends) : s'.RowsAhead c where
  sends := hsends
  async t coords hmem := by
    rw [hemitted, henq]
    exact h.async t coords (hasync _ hmem)
  enqueued pre post t coords heq := by
    rw [henq] at heq
    rw [hemitted]
    exact h.enqueued pre post t coords heq

theorem RowsAhead.failDelivery (h : s.RowsAhead c) (entry : Emitted) :
    (s.failDelivery entry).RowsAhead c :=
  h.of_frame rfl rfl (fun _ hi => hi) fun _ _ _ heq => by cases heq

/-- **The goroutine of a sentinel is started behind all rows before it.** -/
theorem RowsAhead.notifyListeners (h : s.RowsAhead c) (hp : s.Passing c) (ho : s.InOrder)
    (hs : s.notifyListeners c = some s') : s'.RowsAhead c := by
  obtain ⟨entry, hd, ⟨-, rfl⟩ | ⟨hab, n, hn, rfl⟩⟩ := notifyListeners_eq hs
  · have h' : { s with handled := s.handledWith c entry }.RowsAhead c := { h with }
    exact h'.failDelivery entry
  · have hcan : s.canceled = false := (Bool.or_eq_false_iff.1 hab).2
    have hentry : s.emitted[entry.2]? = some entry.1 := by
      refine ho.sourced entry ?_
      simp [line, hd, Dispatcher.entries]
    -- what is still on its way comes after the entry
    have hlater : ∀ e ∈ s.eventsChannel ++ s.outbox, entry.2 ≤ e.2 := by
      intro e he
      have hsorted := ho.sorted
      rw [line, hd, List.append_assoc, List.append_assoc, List.pairwise_append] at hsorted
      exact List.rel_of_pairwise_cons hsorted.2.1 he
    have hrows : RowsIn c s.emitted entry.2 s.enqueued := by
      intro j hj e ev he hrow
      rcases hp.rows hcan j e ev he hrow with hi | hi | hi | hi
      · exact hi
      · rw [hd] at hi
        have hi : entry = (e, j) := hi
        rw [hi] at hj
        omega
      · have := hlater (e, j) (List.mem_append_left _ hi)
        omega
      · have := hlater (e, j) (List.mem_append_right _ hi)
        omega
    have hlock : (∀ t coords, .func (.lockProcessed t coords) ∉ n.sends) ∧
        ∀ t coords, .func (.lockProcessed t coords) ∈ n.asyncSends →
          SentinelAt c s.emitted entry.2 t := by
      unfold notification at hn
      split at hn
      · cases hn
        refine ⟨fun t coords hmem => ?_, by simp⟩
        have := List.eq_of_mem_replicate hmem
        simp at this
      · split at hn
        · simp at hn
        · next ev hev =>
          obtain ⟨hns, hna⟩ := StreamContext.lockProcessed_of_notifyRow hn
          exact ⟨hns, fun t coords hmem => ⟨entry.1, ev, hentry, hev, hna t coords hmem⟩⟩
    refine ⟨fun _ _ _ heq => ?_, fun t coords hmem => ?_, h.enqueued⟩
    · cases heq
      exact hlock.1
    · rcases List.mem_append.1 hmem with hmem | hmem
      · exact h.async t coords hmem
      · exact ⟨entry.2, hlock.2 t coords hmem, hrows⟩

theorem RowsAhead.deliver (h : s.RowsAhead c) (hs : s.deliver = some s') : s'.RowsAhead c := by
  obtain ⟨entry, sends, fails, hd, ⟨item, rest, rfl, rfl⟩ | ⟨rfl, -, rfl⟩ | ⟨rfl, -, rfl⟩⟩ :=
    deliver_eq hs
  · have hno := h.sends entry _ fails hd
    have h' : (s.enqueue item).RowsAhead c := h.enqueue fun t coords heq =>
      absurd (heq ▸ List.mem_cons_self ..) (hno t coords)
    refine { h' with sends := fun _ _ _ heq t coords hmem => ?_ }
    cases heq
    exact hno t coords (List.mem_cons_of_mem _ hmem)
  · exact h.failDelivery entry
  · exact h.of_frame rfl rfl (fun _ hi => hi) fun _ _ _ heq => by cases heq

theorem RowsAhead.step {a : PipelineAction} (h : s.RowsAhead c) (hp : s.Passing c) (ho : s.InOrder)
    (hs : s.step c a = some s') : s'.RowsAhead c := by
  by_cases ha : a.downstream = true
  · obtain ⟨_, _, _, _, _, _, _, _, _, rfl⟩ := downstream_eq ha hs
    exact { h with }
  cases a with
  | startup =>
    obtain ⟨_, _, -, hframe⟩ := startupStep_eq hs
    rw [hframe.frame]
    exact { h with }
  | readEvent ev =>
    obtain ⟨-, reader, entries, err, -, rfl⟩ := readEvent_eq hs
    refine ⟨h.sends, fun t coords hmem => ?_, fun pre post t coords heq => ?_⟩
    · simpa using (h.async t coords hmem).append entries []
    · simpa using (h.enqueued pre post t coords heq).append entries []
  | sendEntry =>
    obtain ⟨_, _, -, rfl⟩ := sendEntry_eq hs
    exact { h with }
  | sendEntryCanceled =>
    obtain ⟨-, rfl⟩ := sendEntryCanceled_eq hs
    exact { h with }
  | reconnect =>
    obtain ⟨_, _, _, _, rfl, -⟩ := reconnect_eq hs
    exact { h with }
  | receive =>
    obtain ⟨-, _, _, -, rfl | ⟨-, rfl⟩⟩ := receive_eq hs
    · exact h.of_frame rfl rfl (fun _ hi => hi) fun _ _ _ heq => by cases heq
    · exact { h with }
  | dispatcherCanceled =>
    obtain ⟨-, -, rfl⟩ := dispatcherCanceled_eq hs
    exact h.of_frame rfl rfl (fun _ hi => hi) fun _ _ _ heq => by cases heq
  | notifyListeners => exact h.notifyListeners hp ho hs
  | deliver => exact h.deliver hs
  | deliverCanceled =>
    obtain ⟨entry, _, _, -, -, rfl⟩ := deliverCanceled_eq hs
    exact h.failDelivery entry
  | deliverAsync i =>
    obtain ⟨item, hi, rfl⟩ := deliverAsync_eq hs
    have h' : (s.enqueue item).RowsAhead c :=
      h.enqueue fun t coords heq => h.async t coords (heq ▸ hi)
    exact { h' with
      async := fun t coords hmem => h'.async t coords (List.mem_of_mem_eraseIdx hmem) }
  | setAbortError =>
    cases hs
    exact { h with }
  | cancelContext =>
    cases hs
    exact { h with }
  | _ => exact absurd rfl ha

theorem step_grows {a : PipelineAction} (hs : s.step c a = some s') :
    (∃ entries, s'.emitted = s.emitted ++ entries) ∧ (∃ more, s'.done = s.done ++ more) ∧
      ((∀ ev, a ≠ .readEvent ev) → s'.emitted = s.emitted) := by
  have hsame : ∀ {t : Pipeline}, t.emitted = s.emitted → (∃ more, t.done = s.done ++ more) →
      (∃ entries, t.emitted = s.emitted ++ entries) ∧ (∃ more, t.done = s.done ++ more) ∧
        ((∀ ev, a ≠ .readEvent ev) → t.emitted = s.emitted) :=
    fun he hd => ⟨⟨[], by rw [he, List.append_nil]⟩, hd, fun _ => he⟩
  have hnone : ∃ more, s.done = s.done ++ more := ⟨[], (List.append_nil _).symm⟩
  by_cases ha : a.downstream = true
  · obtain ⟨_, _, _, _, _, _, _, _, _, rfl⟩ := downstream_eq ha hs
    exact hsame rfl ⟨_, rfl⟩
  cases a with
  | startup =>
    obtain ⟨_, _, -, hp⟩ := startupStep_eq hs
    exact hsame (by rw [hp.frame]) (by rw [hp.frame]; exact hnone)
  | readEvent ev =>
    obtain ⟨-, _, entries, _, -, rfl⟩ := readEvent_eq hs
    exact ⟨⟨entries, rfl⟩, hnone, fun h => absurd rfl (h ev)⟩
  | sendEntry =>
    obtain ⟨_, _, -, rfl⟩ := sendEntry_eq hs
    exact hsame rfl hnone
  | sendEntryCanceled =>
    obtain ⟨-, rfl⟩ := sendEntryCanceled_eq hs
    exact hsame rfl hnone
  | reconnect =>
    obtain ⟨_, _, _, _, rfl, -⟩ := reconnect_eq hs
    exact hsame rfl hnone
  | receive =>
    obtain ⟨-, _, _, -, rfl | ⟨-, rfl⟩⟩ := receive_eq hs <;> exact hsame rfl hnone
  | dispatcherCanceled =>
    obtain ⟨-, -, rfl⟩ := dispatcherCanceled_eq hs
    exact hsame rfl hnone
  | notifyListeners =>
    obtain ⟨_, -, ⟨-, rfl⟩ | ⟨-, _, -, rfl⟩⟩ := notifyListeners_eq hs <;> exact hsame rfl hnone
  | deliver =>
    obtain ⟨_, _, _, -, ⟨_, _, -, rfl⟩ | ⟨-, -, rfl⟩ | ⟨-, -, rfl⟩⟩ := deliver_eq hs <;>
      exact hsame rfl hnone
  | deliverCanceled =>
    obtain ⟨_, _, _, -, -, rfl⟩ := deliverCanceled_eq hs
    exact hsame rfl hnone
  | deliverAsync i =>
    obtain ⟨_, -, rfl⟩ := deliverAsync_eq hs
    exact hsame rfl hnone
  | setAbortError =>
    cases hs
    exact hsame rfl hnone
  | cancelContext =>
    cases hs
    exact hsame rfl hnone
  | _ => exact absurd rfl ha

end Pipeline

/-! ## Calls and their sentinels -/

namespace UpToLock

variable {c : StreamContext} {s s' : UpToLock}

structure Sound (c : StreamContext) (s : UpToLock) : Prop where
  pipeline : s.pipeline.Sound
  passing : s.pipeline.Passing c
  ahead : s.pipeline.RowsAhead c
  challenges : s.challenges.Nodup
  log : ∀ l ∈ s.log, ∀ t ∈ c.stateTexts l.event, ∀ n : Nat, s.challenges[n]? = some t →
    l.writtenBy = some n
  length : s.origins.length = s.pipeline.emitted.length
  origins : ∀ (i : Nat) e, s.pipeline.emitted[i]? = some e → ∃ (k : Nat) (l : LogEvent),
    s.origins[i]? = some k ∧ s.log[k]? = some l ∧
    ∀ ev, e.dmlEvent = some ev → ev ∈ eventRows l.event
  channel : ∀ lps, s.allEventsUpToLockProcessed = some lps →
    Ahead c s.pipeline.emitted lps.state s.pipeline.done
  accepted : ∀ a ∈ s.accepted, s.challenges[a.call]? = some a.lockProcessed.state ∧
    Ahead c s.pipeline.emitted a.lockProcessed.state s.pipeline.done

theorem Sound.sending (h : s.Sound c) {lps : LockProcessed} (hs : s.sending = some lps) :
    Ahead c s.pipeline.emitted lps.state s.pipeline.done := by
  unfold UpToLock.sending at hs
  split at hs
  · next state coords hw =>
    obtain rfl := Option.some.inj hs
    refine h.ahead.enqueued s.pipeline.done s.pipeline.applyEventsQueue state coords ?_
    rw [h.pipeline.accounted.split, hw]
    simp [Worker.taken]
  · simp at hs

theorem Sound.stream {a : PipelineAction} (h : s.Sound c) (hs : s.streamStep c a = some s') :
    s'.Sound c := by
  obtain ⟨pipeline, send, hp, rfl, hread⟩ := streamStep_eq hs
  obtain ⟨-, ⟨more, hdone⟩, hemitted⟩ := Pipeline.step_grows hp
  have hmono : ∀ t, Ahead c s.pipeline.emitted t s.pipeline.done →
      Ahead c pipeline.emitted t pipeline.done := by
    intro t ht
    rw [hemitted hread, hdone]
    have := ht.append [] more
    rwa [List.append_nil] at this
  refine { h with
    pipeline := h.pipeline.step hp
    passing := h.passing.step hp
    ahead := h.ahead.step h.passing h.pipeline.inOrder hp
    length := ?_
    origins := ?_
    channel := fun lps hl => hmono _ (h.channel lps hl)
    accepted := fun a ha => ⟨(h.accepted a ha).1, hmono _ (h.accepted a ha).2⟩ }
  · rw [hemitted hread]
    exact h.length
  · rw [hemitted hread]
    exact h.origins

theorem Sound.readEvent (h : s.Sound c) (hs : s.readEvent c = some s') : s'.Sound c := by
  obtain ⟨l, pipeline, hl, hp, rfl⟩ := readEvent_eq hs
  have hp' : s.pipeline.step c (.readEvent l.event) = some pipeline := hp
  obtain ⟨-, reader, entries, err, hhandle, rfl⟩ := Pipeline.readEvent_eq hp
  refine { h with
    pipeline := h.pipeline.step hp'
    passing := h.passing.step hp'
    ahead := h.ahead.step h.passing h.pipeline.inOrder hp'
    length := ?_
    origins := fun i e he => ?_
    channel := fun lps hlps => ?_
    accepted := fun a ha => ⟨(h.accepted a ha).1, ?_⟩ }
  · simp [h.length]
  · by_cases hi : i < s.pipeline.emitted.length
    · rw [List.getElem?_append_left hi] at he
      obtain ⟨k, l', hk, hl', hrows⟩ := h.origins i e he
      refine ⟨k, l', ?_, hl', hrows⟩
      rw [List.getElem?_append_left (by rw [h.length]; exact hi)]
      exact hk
    · -- the entry was made from the event that is read
      rw [List.getElem?_append_right (Nat.le_of_not_lt hi)] at he
      refine ⟨s.next, l, ?_, hl, fun ev hev => ?_⟩
      · have hlt := (List.getElem?_eq_some_iff.1 he).1
        rw [List.getElem?_append_right (by rw [h.length]; exact Nat.le_of_not_lt hi), h.length,
          List.length_append, Nat.add_sub_cancel_left]
        exact List.getElem?_replicate_of_lt hlt
      · exact (StreamContext.mem_eventRows_decode
          (mem_eventRows hhandle (List.mem_of_getElem? he) hev)).1
  · have := (h.channel lps hlps).append entries []
    rwa [List.append_nil] at this
  · have := (h.accepted a ha).2.append entries []
    rwa [List.append_nil] at this

theorem Sound.append_log (h : s.Sound c) {l : LogEvent}
    (hl : ∀ t ∈ c.stateTexts l.event, ∀ n : Nat, s.challenges[n]? = some t →
      l.writtenBy = some n) : { s with log := s.log ++ [l] }.Sound c where
  pipeline := h.pipeline
  passing := h.passing
  ahead := h.ahead
  challenges := h.challenges
  log l' hl' := by
    rcases List.mem_append.1 hl' with hl' | hl'
    · exact h.log l' hl'
    · rw [List.mem_singleton.1 hl']
      exact hl
  length := h.length
  origins i e he := by
    obtain ⟨k, l', hk, hl', hrows⟩ := h.origins i e he
    refine ⟨k, l', hk, ?_, hrows⟩
    rw [List.getElem?_append_left (List.getElem?_eq_some_iff.1 hl').1]
    exact hl'
  channel := h.channel
  accepted := h.accepted

theorem Sound.committed (h : s.Sound c) {n : Nat} {event : BinlogEvent}
    (hw : s.IsWriteOf c n event) : (s.committed n event).Sound c := by
  refine h.append_log fun t ht m hm => ?_
  unfold IsWriteOf at hw
  rw [Option.map_eq_some_iff] at hw
  obtain ⟨t', hn, htexts⟩ := hw
  rw [← htexts, List.mem_singleton] at ht
  rw [← ht, ← hm] at hn
  have hlt : n < s.challenges.length := by
    rw [hm] at hn
    exact (List.getElem?_eq_some_iff.1 hn).1
  exact congrArg some (List.getElem?_inj hlt h.challenges |>.1 hn)

theorem Sound.start {nanos : Nat} (h : s.Sound c)
    (hfresh : allEventsUpToLockProcessedChallenge nanos ∉ s.challenges ∧
      ∀ l ∈ s.log, allEventsUpToLockProcessedChallenge nanos ∉ c.stateTexts l.event)
    (hs : s.start nanos = some s') : s'.Sound c := by
  obtain rfl := start_eq hs
  refine { h with
    challenges := ?_
    log := fun l hl t ht n hn => ?_
    accepted := fun a ha => ⟨?_, (h.accepted a ha).2⟩ }
  · refine List.nodup_append.2 ⟨h.challenges, List.nodup_singleton _, ?_⟩
    rintro t ht t' ht' rfl
    rw [List.mem_singleton] at ht'
    exact hfresh.1 (ht' ▸ ht)
  · rcases Nat.lt_or_ge n s.challenges.length with hlt | hge
    · rw [List.getElem?_append_left hlt] at hn
      exact h.log l hl t ht n hn
    · -- the new challenge is not in the log
      rw [List.getElem?_append_right hge] at hn
      have hmem := List.mem_singleton.1 (List.mem_of_getElem? hn)
      exact absurd (hmem ▸ ht) (hfresh.2 l hl)
  · have hold := (h.accepted a ha).1
    rw [List.getElem?_append_left (List.getElem?_eq_some_iff.1 hold).1]
    exact hold

theorem Sound.receive (h : s.Sound c) (hs : s.receive = some s') : s'.Sound c := by
  obtain ⟨lps, hl, ⟨hlast, rfl⟩ | rfl⟩ := receive_eq hs
  · refine { h with channel := fun _ hno => by simp at hno, accepted := fun a ha => ?_ }
    rcases List.mem_append.1 ha with ha | ha
    · exact h.accepted a ha
    · rw [List.mem_singleton.1 ha]
      refine ⟨?_, h.channel lps hl⟩
      rw [List.getLast?_eq_getElem?] at hlast
      exact hlast
  · exact { h with channel := fun _ hno => by simp at hno }

theorem Sound.step {a : UpToLockAction} (h : s.Sound c) (hd : s.DistinctChallenges c a)
    (hs : s.step c a = some s') : s'.Sound c := by
  cases a with
  | stream a => exact h.stream hs
  | readEvent => exact h.readEvent hs
  | commit event =>
    cases hs
    exact h.append_log fun t ht n hn => absurd (List.mem_of_getElem? hn) (hd t ht)
  | start nanos => exact h.start hd hs
  | writeChangelog written =>
    obtain ⟨main, failedWrites, rfl | ⟨n, event, hw, rfl⟩⟩ := writeChangelog_eq hs
    · exact { h with }
    · exact { h.committed hw with }
  | lateWrite n event =>
    obtain ⟨hw, rfl⟩ := lateWrite_eq hs
    exact { h.committed hw with }
  | logChangelog ok =>
    obtain rfl := logChangelog_eq hs
    exact { h with }
  | trySend =>
    obtain ⟨channel, send, rfl, hch | hch⟩ := trySend_eq (.inl hs)
    · exact { h with channel := fun lps hl => h.channel lps (hch ▸ hl) }
    · exact { h with channel := fun lps hl => h.sending (hch ▸ hl) }
  | drain =>
    obtain rfl := drain_eq hs
    exact { h with channel := fun _ hno => by simp at hno }
  | trySendAgain =>
    obtain ⟨channel, send, rfl, hch | hch⟩ := trySend_eq (.inr hs)
    · exact { h with channel := fun lps hl => h.channel lps (hch ▸ hl) }
    · exact { h with channel := fun lps hl => h.sending (hch ▸ hl) }
  | receive => exact h.receive hs
  | timeout =>
    obtain rfl := timeout_eq hs
    exact { h with }

theorem Sound.init {p : Pipeline} (hsound : p.Sound) (hemitted : p.emitted = [])
    (hasync : p.asyncSends = []) (henq : p.enqueued = []) (hd : p.dispatcher = .waiting)
    (log : List BinlogEvent) : (initUpToLock p log).Sound c where
  pipeline := hsound
  passing := by
    constructor
    · intro e he
      have he : e ∈ p.emitted := he
      simp [hemitted] at he
    · intro _ j e ev he
      have he : p.emitted[j]? = some e := he
      simp [hemitted] at he
  ahead := by
    constructor
    · intro entry sends fails hn
      have hn : p.dispatcher = _ := hn
      simp [hd] at hn
    · intro t coords hmem
      have hmem : _ ∈ p.asyncSends := hmem
      simp [hasync] at hmem
    · intro pre post t coords heq
      have heq : p.enqueued = _ := heq
      simp [henq] at heq
  challenges := List.nodup_nil
  log _ _ _ _ n hn := by simp [initUpToLock] at hn
  length := by
    show 0 = p.emitted.length
    simp [hemitted]
  origins i e he := by
    have he : p.emitted[i]? = some e := he
    simp [hemitted] at he
  channel _ hl := by simp [initUpToLock] at hl
  accepted _ ha := by simp [initUpToLock] at ha

/-- The entry `i` was made from the event that the call `n` wrote, and brings the text `t`. -/
def IsSentinelOf (c : StreamContext) (s : UpToLock) (n i : Nat) (t : List UInt8) : Prop :=
  SentinelAt c s.pipeline.emitted i t ∧
    ∃ (k : Nat) (l : LogEvent), s.origins[i]? = some k ∧ s.log[k]? = some l ∧ l.writtenBy = some n

/-- **A call that returns nil has accepted its own sentinel, and every row of the original table
that was delivered before it is committed.** -/
theorem accepted_sentinel_is_own {steps : List StartupStep} {useGTIDs : Bool}
    {maxReconnectAttempts : Nat} {coordinates : BinlogCoordinates} {log : List BinlogEvent}
    (hr : Infra.Reach (UpToLock.step c) (UpToLock.DistinctChallenges c)
      (initUpToLock (initPipeline steps useGTIDs maxReconnectAttempts coordinates) log) s) :
    ∀ a ∈ s.accepted, ∃ i, s.IsSentinelOf c a.call i a.lockProcessed.state ∧
      RowsIn c s.pipeline.emitted i s.pipeline.done := by
  have hsound : s.Sound c :=
    hr.invariant (Sound.init (Pipeline.Sound.init ..) rfl rfl rfl rfl log)
      fun _ _ _ h hd hs => h.step hd hs
  intro a ha
  obtain ⟨hcall, i, hsentinel, hrows⟩ := hsound.accepted a ha
  refine ⟨i, ⟨hsentinel, ?_⟩, hrows⟩
  obtain ⟨e, ev, he, hev, ht⟩ := hsentinel
  obtain ⟨k, l, hk, hl, hmem⟩ := hsound.origins i e he
  refine ⟨k, l, hk, hl, hsound.log l (List.mem_of_getElem? hl) _ ?_ a.call hcall⟩
  exact List.mem_filterMap.2 ⟨ev, hmem ev hev, ht⟩

/-- The write of a state to the changelog table. -/
def stateAt (pos : Nat) (text : List UInt8) : BinlogEvent where
  logPos := pos
  eventSize := 40
  body := .transaction (.rows .insertDML "test" "_t_ghc"
    [[.int64 2, .string [], .string (ascii "state"), .string text]])

theorem accepted_sentinel_is_own_small :
    ∃ s, Infra.Reach (UpToLock.step smallStream) (UpToLock.DistinctChallenges smallStream)
        (initUpToLock (initPipeline resumeSteps false 0 (fileAt 4))
          [stateAt 100 (allEventsUpToLockProcessedChallenge 1)]) s ∧
      s.accepted.map (·.call) = [1] ∧ s.pipeline.emitted.length = 4 ∧
      ∀ a ∈ s.accepted, ∃ i, s.IsSentinelOf smallStream a.call i a.lockProcessed.state ∧
        RowsIn smallStream s.pipeline.emitted i s.pipeline.done := by
  refine Infra.exists_reach_of
    (fun s => s.accepted.map (·.call) = [1] ∧ s.pipeline.emitted.length = 4)
    [List.replicate 11 (.stream .startup),
      [.readEvent, .stream .sendEntry, .stream .receive, .stream .notifyListeners,
        .stream .deliver,
        .start 5, .writeChangelog (some (stateAt 200 (allEventsUpToLockProcessedChallenge 5))),
        .logChangelog true,
        .stream (.deliverAsync 0), .stream (.takeEvents 10), .trySend, .stream .funcApplied,
        .receive, .timeout,
        .commit (insertAt 250 1),
        .readEvent, .stream .sendEntry, .stream .receive, .stream .notifyListeners,
        .stream .deliver,
        .readEvent, .stream .sendEntry, .stream .receive, .stream .notifyListeners,
        .stream .deliver, .stream .deliver,
        .start 6, .writeChangelog (some (stateAt 300 (allEventsUpToLockProcessedChallenge 6))),
        .logChangelog true,
        .readEvent, .stream .sendEntry, .stream .receive, .stream .notifyListeners,
        .stream .deliver,
        .stream (.deliverAsync 1), .stream (.deliverAsync 0),
        .stream (.takeEvents 10), .stream .batchApplied, .trySend, .stream .funcApplied,
        .receive]].flatten (by decide) ?_
  rintro s hr ⟨hcalls, hlen⟩
  exact ⟨hcalls, hlen, accepted_sentinel_is_own hr⟩

end UpToLock

end GhOst.Logic
