import GhOst.Binlog.StreamEvents

/-!
# What the reader sends

The log is a list of transactions, each ended by an XID when it has rows. How the events are packed,
and which events of other kinds stand between them, is left open (`Framed`). The scan over the
events keeps one flag, which says whether a row was sent since the last XID; `framing` is that scan,
and it is related once to the code (`Read`) and once to the transactions (`framing_transactions`).
-/

namespace GhOst.Binlog

open GhOst.Sql GhOst.Mysql Infra

variable {pending : Bool}

/-! ## What the log holds -/

/-- What an entry says, without its coordinates. -/
def BinlogEntry.content (e : BinlogEntry) : Option BinlogDMLEvent × Bool :=
  (e.dmlEvent, e.transactionComplete)

def rowContent (ev : BinlogDMLEvent) : Option BinlogDMLEvent × Bool := (some ev, false)

def markerContent : Option BinlogDMLEvent × Bool := (none, true)

/-- The images of an update, before and after. -/
def imagePairs : List (List Value) → List (List Value × List Value)
  | before :: after :: rest => (before, after) :: imagePairs rest
  | _ => []

/-- The rows of an event, those of an update joined. -/
def TransactionEvent.decodedRows : TransactionEvent → List BinlogDMLEvent
  | .rows .insertDML databaseName tableName images => images.map fun row =>
      { databaseName, tableName, dml := .insertDML, newColumnValues := some row }
  | .rows .deleteDML databaseName tableName images => images.map fun row =>
      { databaseName, tableName, dml := .deleteDML, whereColumnValues := some row }
  | .rows .updateDML databaseName tableName images =>
      (imagePairs images).map fun (before, after) =>
        { databaseName, tableName, dml := .updateDML, whereColumnValues := some before,
          newColumnValues := some after }
  | _ => []

def TransactionEvent.isXid : TransactionEvent → Bool
  | .xid _ => true
  | _ => false

/-- A transaction of the log. Without rows it may end otherwise than by an XID. -/
structure Transaction where
  events : List TransactionEvent
  /-- the XID event, with the GTID set that the syncer attaches to it -/
  commit : Option (Option (Finset GTID))
  no_xid : ∀ e ∈ events, e.isXid = false
  ended : commit = none → events.flatMap TransactionEvent.decodedRows = []

namespace Transaction

def rows (trx : Transaction) : List BinlogDMLEvent :=
  trx.events.flatMap TransactionEvent.decodedRows

/-- The events of the transaction with its XID. -/
def logged (trx : Transaction) : List TransactionEvent :=
  trx.events ++ (trx.commit.map TransactionEvent.xid).toList

/-- The rows, and one marker after the last if there is any. -/
def contents (trx : Transaction) : List (Option BinlogDMLEvent × Bool) :=
  trx.rows.map rowContent ++ if trx.rows = [] then [] else [markerContent]

end Transaction

/-- The stream holds these transactions, and then the events of one that has not ended. -/
structure Framed (trxs : List Transaction) (unfinished : List TransactionEvent)
    (events : List BinlogEvent) : Prop where
  packed : events.flatMap BinlogEvent.transactionEvents =
    trxs.flatMap Transaction.logged ++ unfinished
  no_xid : ∀ e ∈ unfinished, e.isXid = false

/-- Some events of a transaction are packed into one payload. -/
def Wraps (plain wrapped : List BinlogEvent) : Prop :=
  ∃ before inner payload after, plain = before ++ inner ++ after ∧
    (∀ ev ∈ inner, ∃ event, ev.body = .transaction event) ∧
    payload.body = .transactionPayload (inner.flatMap BinlogEvent.transactionEvents) ∧
    wrapped = before ++ payload :: after

theorem Wraps.transactionEvents {plain wrapped : List BinlogEvent} (h : Wraps plain wrapped) :
    wrapped.flatMap BinlogEvent.transactionEvents =
      plain.flatMap BinlogEvent.transactionEvents := by
  obtain ⟨before, inner, payload, after, rfl, -, hpayload, rfl⟩ := h
  have : payload.transactionEvents = inner.flatMap BinlogEvent.transactionEvents := by
    unfold BinlogEvent.transactionEvents
    rw [hpayload]
    rfl
  rw [List.flatMap_append, List.flatMap_append, List.flatMap_append, List.flatMap_cons, this,
    List.append_assoc]

/-! ## The scan -/

namespace TransactionEvent

/-- What is sent for an event, with or without a row since the last XID. -/
def sends (pending : Bool) : TransactionEvent → List (Option BinlogDMLEvent × Bool)
  | .xid _ => if pending then [markerContent] else []
  | e => e.decodedRows.map rowContent

def pendingAfter (pending : Bool) : TransactionEvent → Bool
  | .xid _ => false
  | e => pending || !e.decodedRows.isEmpty

end TransactionEvent

def pendingAfter (pending : Bool) (events : List TransactionEvent) : Bool :=
  events.foldl TransactionEvent.pendingAfter pending

def framing (pending : Bool) : List TransactionEvent → List (Option BinlogDMLEvent × Bool)
  | [] => []
  | e :: es => e.sends pending ++ framing (e.pendingAfter pending) es

theorem framing_append {as bs : List TransactionEvent} :
    framing pending (as ++ bs) = framing pending as ++ framing (pendingAfter pending as) bs := by
  induction as generalizing pending with
  | nil => rfl
  | cons e es ih =>
    rw [List.cons_append, framing, framing, ih, List.append_assoc]
    rfl

theorem pendingAfter_append {as bs : List TransactionEvent} :
    pendingAfter pending (as ++ bs) = pendingAfter (pendingAfter pending as) bs :=
  List.foldl_append

theorem framing_of_no_xid {es : List TransactionEvent} (h : ∀ e ∈ es, e.isXid = false) :
    framing pending es = (es.flatMap TransactionEvent.decodedRows).map rowContent ∧
    pendingAfter pending es = (pending || !(es.flatMap TransactionEvent.decodedRows).isEmpty) := by
  induction es generalizing pending with
  | nil => simp [framing, pendingAfter]
  | cons e es ih =>
    have he := h e List.mem_cons_self
    have hsends : e.sends pending = e.decodedRows.map rowContent := by
      cases e with
      | xid gset => simp [TransactionEvent.isXid] at he
      | rows dml databaseName tableName rows => rfl
      | other => rfl
    have hpending : e.pendingAfter pending = (pending || !e.decodedRows.isEmpty) := by
      cases e with
      | xid gset => simp [TransactionEvent.isXid] at he
      | rows dml databaseName tableName rows => rfl
      | other => rfl
    obtain ⟨hframing, hafter⟩ := @ih (e.pendingAfter pending)
      (fun e' he' => h e' (List.mem_cons_of_mem e he'))
    constructor
    · rw [framing, hframing, hsends, List.flatMap_cons, List.map_append]
    · show pendingAfter (e.pendingAfter pending) es = _
      rw [hafter, hpending, List.flatMap_cons]
      cases e.decodedRows with
      | nil => simp
      | cons row rows => simp

/-- **A transaction sends its rows and, if it has any, one marker.** -/
theorem framing_logged (trx : Transaction) :
    framing false trx.logged = trx.contents ∧ pendingAfter false trx.logged = false := by
  obtain ⟨hframing, hafter⟩ := @framing_of_no_xid false trx.events trx.no_xid
  rw [Bool.false_or] at hafter
  unfold Transaction.logged Transaction.contents Transaction.rows
  cases hcommit : trx.commit with
  | none =>
    rw [trx.ended hcommit] at hframing hafter ⊢
    simpa using And.intro hframing hafter
  | some gset =>
    rw [framing_append, pendingAfter_append, hframing, hafter]
    refine ⟨?_, rfl⟩
    congr 1
    cases trx.events.flatMap TransactionEvent.decodedRows with
    | nil => rfl
    | cons row rows => rfl

/-- **The scan over whole transactions.** -/
theorem framing_transactions {trxs : List Transaction} :
    framing false (trxs.flatMap Transaction.logged) = trxs.flatMap Transaction.contents ∧
    pendingAfter false (trxs.flatMap Transaction.logged) = false := by
  induction trxs with
  | nil => exact ⟨rfl, rfl⟩
  | cons trx trxs ih =>
    obtain ⟨hfirst, hpending⟩ := framing_logged trx
    rw [List.flatMap_cons, List.flatMap_cons, framing_append, pendingAfter_append, hfirst, hpending,
      ih.1, ih.2]
    exact ⟨rfl, rfl⟩

theorem append_eq_append_cons {α : Type} {as bs xs ys : List α} {y : α}
    (h : as ++ bs = xs ++ y :: ys) :
    (∃ more, as = xs ++ y :: more ∧ ys = more ++ bs) ∨
      ∃ more, xs = as ++ more ∧ bs = more ++ y :: ys := by
  rcases List.append_eq_append_iff.1 h with ⟨more, hxs, hbs⟩ | ⟨more, has, hys⟩
  · exact .inr ⟨more, hxs, hbs⟩
  · rcases List.cons_eq_append_iff.1 hys with ⟨rfl, hbs⟩ | ⟨more, rfl, hrest⟩
    · exact .inr ⟨[], by rw [has, List.append_assoc, List.append_nil, List.append_nil], hbs⟩
    · exact .inl ⟨more, has, hrest⟩

theorem Transaction.logged_eq_xid {trx : Transaction} {read rest : List TransactionEvent}
    {gset : Option (Finset GTID)} (h : trx.logged = read ++ .xid gset :: rest) :
    trx.commit = some gset ∧ rest = [] := by
  rcases append_eq_append_cons h with ⟨more, hevents, -⟩ | ⟨more, -, hcommit⟩
  · have := trx.no_xid (.xid gset) (by rw [hevents]; simp)
    simp [TransactionEvent.isXid] at this
  · cases hc : trx.commit with
    | none => simp [hc] at hcommit
    | some g =>
      rw [hc, Option.map_some, Option.toList_some] at hcommit
      obtain ⟨-, hxid⟩ | ⟨more', -, hnil⟩ := List.cons_eq_append_iff.1 hcommit
      · rw [List.cons.injEq, TransactionEvent.xid.injEq] at hxid
        exact ⟨congrArg some hxid.1.symm, hxid.2⟩
      · simp at hnil

theorem transactions_of_xid {trxs : List Transaction} {unfinished read rest : List TransactionEvent}
    {gset : Option (Finset GTID)} (hun : ∀ e ∈ unfinished, e.isXid = false)
    (h : trxs.flatMap Transaction.logged ++ unfinished = read ++ .xid gset :: rest) :
    ∃ i trx, trxs[i]? = some trx ∧ trx.commit = some gset ∧
      (trxs.take (i + 1)).flatMap Transaction.logged = read ++ [.xid gset] := by
  induction trxs generalizing read with
  | nil =>
    have := hun (.xid gset) (by rw [List.flatMap_nil, List.nil_append] at h; rw [h]; simp)
    simp [TransactionEvent.isXid] at this
  | cons trx trxs ih =>
    rw [List.flatMap_cons, List.append_assoc] at h
    rcases append_eq_append_cons h with ⟨more, hlogged, -⟩ | ⟨more, rfl, hrest⟩
    · obtain ⟨hcommit, rfl⟩ := Transaction.logged_eq_xid hlogged
      refine ⟨0, trx, rfl, hcommit, ?_⟩
      rw [List.take_succ_cons, List.take_zero, List.flatMap_cons, List.flatMap_nil,
        List.append_nil, hlogged]
    · obtain ⟨i, trx', hget, hcommit, htake⟩ := ih hrest
      refine ⟨i + 1, trx', hget, hcommit, ?_⟩
      rw [List.take_succ_cons, List.flatMap_cons, htake, List.append_assoc]

namespace Streaming

variable {s s' : Streaming}
variable {event : TransactionEvent}

/-! ## What is sent -/

theorem rowEvents_eq_decodedRows {databaseName tableName : String} {dml : EventDML}
    {rows : List (List Value)} {events : List BinlogDMLEvent}
    (h : rowEvents databaseName tableName dml rows = .ok events) :
    events = (TransactionEvent.rows dml databaseName tableName rows).decodedRows := by
  have hcons : ∀ {first : BinlogDMLEvent} {rest : Except Fault (List BinlogDMLEvent)}
      {events : List BinlogDMLEvent}, rest.map (first :: ·) = .ok events →
      ∃ more, rest = .ok more ∧ events = first :: more := by
    intro first rest events h
    cases rest with
    | error f => simp [Except.map] at h
    | ok more => exact ⟨more, rfl, (Except.ok.inj h).symm⟩
  fun_induction rowEvents databaseName tableName dml rows generalizing events with
  | case1 =>
    cases h
    cases dml with
    | notDML => rfl
    | insertDML => rfl
    | updateDML => rfl
    | deleteDML => rfl
  | case2 => simp at h
  | case3 row new rest hd ih =>
    obtain ⟨more, hmore, rfl⟩ := hcons h
    subst hd
    rw [ih hmore]
    rfl
  | case4 row rest hd ih =>
    obtain ⟨more, hmore, rfl⟩ := hcons h
    subst hd
    rw [ih hmore]
    rfl
  | case5 row rest hd ih =>
    obtain ⟨more, hmore, rfl⟩ := hcons h
    subst hd
    rw [ih hmore]
    rfl
  | case6 row rest hd ih =>
    subst hd
    exact ih h

theorem handleTransactionEvent_sends (h : s.handleTransactionEvent event = (s', none)) :
    s'.sent.map BinlogEntry.content =
        s.sent.map BinlogEntry.content ++ event.sends s.reader.transactionHasRows ∧
      s'.reader.transactionHasRows = event.pendingAfter s.reader.transactionHasRows := by
  cases event with
  | rows dml databaseName tableName rows =>
    rw [handleTransactionEvent, handleRowsEvent] at h
    by_cases hd : dml = .notDML
    · simp [hd] at h
    · rw [if_neg hd] at h
      obtain ⟨events, hevents, hsent⟩ := sendRows_ok h
      rw [hsent.sent, hsent.reader, rowEvents_eq_decodedRows hevents, List.map_append,
        List.map_map]
      exact ⟨rfl, rfl⟩
  | xid gset =>
    obtain ⟨entries, hturn, hsent⟩ := completeTransaction_ok h
    rw [GoMySQLReader.completeTransaction, Prod.mk.injEq, Prod.mk.injEq] at hturn
    rw [hsent, List.map_append, ← hturn.1, ← hturn.2.1]
    refine ⟨?_, rfl⟩
    cases hrows : s.reader.transactionHasRows with
    | false => rfl
    | true => rfl
  | other =>
    rw [handleTransactionEvent] at h
    cases h
    simp [TransactionEvent.sends, TransactionEvent.pendingAfter, TransactionEvent.decodedRows]

/-- From one state to another the entries of these events were sent. -/
structure Sends (s : Streaming) (events : List TransactionEvent) (s' : Streaming) : Prop where
  sent : s'.sent.map BinlogEntry.content =
    s.sent.map BinlogEntry.content ++ framing s.reader.transactionHasRows events
  pending : s'.reader.transactionHasRows = pendingAfter s.reader.transactionHasRows events

theorem Sends.step {s₀ : Streaming} {events : List TransactionEvent} (h : Sends s₀ events s)
    (hstep : s.handleTransactionEvent event = (s', none)) : Sends s₀ (events ++ [event]) s' := by
  obtain ⟨hsent, hpending⟩ := handleTransactionEvent_sends hstep
  constructor
  · rw [hsent, h.sent, framing_append, h.pending, List.append_assoc, framing, framing,
      List.append_nil]
  · rw [hpending, h.pending, pendingAfter_append]
    rfl

theorem Sends.moved {s₀ : Streaming} {events : List TransactionEvent} (h : Sends s₀ events s)
    (hsent : s'.sent = s.sent) (hmoved : Moved s.reader s'.reader) : Sends s₀ events s' :=
  ⟨by rw [hsent, h.sent], by rw [hmoved.transactionHasRows, h.pending]⟩

/-! ## `LastTrxCoords` -/

theorem handleTransactionEvent_grows {err : Option StreamError}
    (h : s.handleTransactionEvent event = (s', err)) :
    Grows s s' ∨ ∃ gset, event = .xid gset ∧ err = none ∧ s.sent <+: s'.sent ∧
      s'.reader.lastTrxCoords = some (s.reader.trxCoords gset) := by
  cases event with
  | rows dml databaseName tableName rows =>
    rw [handleTransactionEvent, handleRowsEvent] at h
    split at h
    · rw [Prod.mk.injEq] at h
      exact .inl (h.1 ▸ .refl s)
    · exact .inl (.of_sendRows h)
  | xid gset =>
    cases err with
    | none =>
      obtain ⟨entries, hturn, hsent⟩ := completeTransaction_ok h
      rw [Prod.mk.injEq] at hturn
      refine .inr ⟨gset, rfl, rfl, hsent ▸ List.prefix_append _ _, ?_⟩
      rw [← hturn.1]
      rfl
    | some err =>
      rw [handleTransactionEvent, completeTransaction, andThen_eq_some] at h
      rcases h with h | ⟨s₁, -, h⟩
      · split at h
        · exact .inl (sendWithContext_error h ▸ .refl s)
        · simp at h
      · simp at h
  | other =>
    rw [handleTransactionEvent, Prod.mk.injEq] at h
    exact .inl (h.1 ▸ .refl s)

theorem handleTransactionEvent_coordinates (h : s.handleTransactionEvent event = (s', none)) :
    s'.reader.useGTIDs = s.reader.useGTIDs ∧
      s'.reader.currentCoordinates = s.reader.currentCoordinates := by
  cases event with
  | rows dml databaseName tableName rows =>
    rw [handleTransactionEvent, handleRowsEvent] at h
    split at h
    · simp at h
    · obtain ⟨events, -, hsent⟩ := sendRows_ok h
      rw [hsent.reader]
      exact ⟨rfl, rfl⟩
  | xid gset =>
    obtain ⟨entries, hturn, -⟩ := completeTransaction_ok h
    rw [Prod.mk.injEq] at hturn
    rw [← hturn.1]
    exact ⟨rfl, rfl⟩
  | other =>
    rw [handleTransactionEvent] at h
    cases h
    exact ⟨rfl, rfl⟩

theorem streamEvents_reader {events : List BinlogEvent}
    (h : s.streamEvents events = (s', none)) : s'.reader = s.reader.readEvents events := by
  induction events generalizing s with
  | nil =>
    rw [streamEvents, forEach_nil] at h
    cases h
    rfl
  | cons ev events ih =>
    rw [streamEvents, forEach_cons, andThen_eq_none] at h
    obtain ⟨s₁, hfirst, h⟩ := h
    obtain ⟨entries, hturn, -⟩ := handleEvent_ok hfirst
    rw [ih h, GoMySQLReader.readEvents, hturn]

end Streaming

/-- `c` are the coordinates of the XID event that `ev` is, or carries, when `before` is read before
`ev`: the set of the syncer, the end of the event, or the transaction that has begun. -/
structure EndsAt (useGTIDs : Bool) (start : BinlogCoordinates) (before : List BinlogEvent)
    (ev : BinlogEvent) (gset : Option (Finset GTID)) (c : BinlogCoordinates) : Prop where
  file : useGTIDs = false → c = (before ++ [ev]).foldl position start
  gtid : useGTIDs = true → gset.isSome → c = .gtid gset
  begun : useGTIDs = true → gset = none →
    c = ((connect useGTIDs start).readEvents before).currentCoordinates

namespace Streaming

variable {s s' : Streaming}

def connected (useGTIDs : Bool) (start : BinlogCoordinates) (accepts : Nat) : Streaming :=
  { reader := connect useGTIDs start, accepts }

/-- `LastTrxCoords` are the coordinates of an XID event, and all up to it was sent. -/
def Acked (useGTIDs : Bool) (start : BinlogCoordinates) (events : List BinlogEvent)
    (s : Streaming) : Prop :=
  ∀ c, s.reader.lastTrxCoords = some c → ∃ before ev after read gset rest,
    events = before ++ ev :: after ∧ ev.transactionEvents = read ++ .xid gset :: rest ∧
    EndsAt useGTIDs start before ev gset c ∧
    framing false (before.flatMap BinlogEvent.transactionEvents ++ (read ++ [.xid gset])) <+:
      s.sent.map BinlogEntry.content

section Run

variable {useGTIDs : Bool} {start : BinlogCoordinates} {accepts : Nat}
  {events before : List BinlogEvent} {ev : BinlogEvent}
variable {read : List TransactionEvent}

theorem Acked.grows (h : Acked useGTIDs start events s) (hgrows : Grows s s') :
    Acked useGTIDs start events s' := by
  intro c hc
  rw [hgrows.lastTrxCoords] at hc
  obtain ⟨before, ev, after, read, gset, rest, hevents, hev, hends, hsent⟩ := h c hc
  exact ⟨before, ev, after, read, gset, rest, hevents, hev, hends,
    hsent.trans (hgrows.sent.map BinlogEntry.content)⟩

theorem Acked.append (h : Acked useGTIDs start events s) (more : List BinlogEvent) :
    Acked useGTIDs start (events ++ more) s := by
  intro c hc
  obtain ⟨before, ev, after, read, gset, rest, hevents, hev, hends, hsent⟩ := h c hc
  refine ⟨before, ev, after ++ more, read, gset, rest, ?_, hev, hends, hsent⟩
  rw [hevents, List.append_assoc, List.cons_append]

structure Read (useGTIDs : Bool) (start : BinlogCoordinates) (accepts : Nat)
    (events : List BinlogEvent) (s : Streaming) : Prop where
  mode : s.reader.useGTIDs = useGTIDs
  file : useGTIDs = false → s.reader.currentCoordinates = events.foldl position start
  sends : Sends (connected useGTIDs start accepts)
    (events.flatMap BinlogEvent.transactionEvents) s
  acked : Acked useGTIDs start events s

/-- In a turn of the loop, after the events `read` of those that `ev` carries. -/
structure Inside (useGTIDs : Bool) (start : BinlogCoordinates) (accepts : Nat)
    (before : List BinlogEvent) (ev : BinlogEvent) (read : List TransactionEvent)
    (s : Streaming) : Prop where
  mode : s.reader.useGTIDs = useGTIDs
  file : useGTIDs = false → s.reader.currentCoordinates = (before ++ [ev]).foldl position start
  gtid : useGTIDs = true → ev.transactionEvents ≠ [] →
    s.reader.currentCoordinates = ((connect useGTIDs start).readEvents before).currentCoordinates
  sends : Sends (connected useGTIDs start accepts)
    (before.flatMap BinlogEvent.transactionEvents ++ read) s
  acked : Acked useGTIDs start (before ++ [ev]) s

theorem Inside.endsAt {gset : Option (Finset GTID)}
    (h : Inside useGTIDs start accepts before ev read s) (hev : ev.transactionEvents ≠ []) :
    EndsAt useGTIDs start before ev gset (s.reader.trxCoords gset) where
  file hf := by
    rw [GoMySQLReader.trxCoords, if_neg (by rw [h.mode, hf]; simp)]
    exact h.file hf
  gtid hg hset := by
    rw [GoMySQLReader.trxCoords, if_pos ⟨by rw [h.mode, hg], hset⟩]
  begun hg hset := by
    rw [GoMySQLReader.trxCoords, if_neg (by simp [hset])]
    exact h.gtid hg hev

theorem Inside.acked_step {rest : List TransactionEvent} {event : TransactionEvent}
    {err : Option StreamError} (h : Inside useGTIDs start accepts before ev read s)
    (hev : ev.transactionEvents = read ++ event :: rest)
    (hstep : s.handleTransactionEvent event = (s', err)) :
    Acked useGTIDs start (before ++ [ev]) s' := by
  rcases handleTransactionEvent_grows hstep with hgrows | ⟨gset, rfl, rfl, hsent, hlast⟩
  · exact h.acked.grows hgrows
  · intro c hc
    rw [hlast, Option.some.injEq] at hc
    refine ⟨before, ev, [], read, gset, rest, rfl, hev, ?_, ?_⟩
    · rw [← hc]
      exact h.endsAt (by rw [hev]; simp)
    · have hsends := (h.sends.step hstep).sent
      rw [List.append_assoc] at hsends
      exact hsends ▸ List.prefix_rfl

theorem Inside.step {rest : List TransactionEvent} {event : TransactionEvent}
    (h : Inside useGTIDs start accepts before ev read s)
    (hev : ev.transactionEvents = read ++ event :: rest)
    (hstep : s.handleTransactionEvent event = (s', none)) :
    Inside useGTIDs start accepts before ev (read ++ [event]) s' := by
  obtain ⟨hgtids, hcurrent⟩ := handleTransactionEvent_coordinates hstep
  exact {
    mode := hgtids.trans h.mode
    file := fun hf => hcurrent.trans (h.file hf)
    gtid := fun hg hne => hcurrent.trans (h.gtid hg hne)
    sends := by
      have := h.sends.step hstep
      rwa [List.append_assoc] at this
    acked := h.acked_step hev hstep }

section Reading

variable (h : Read useGTIDs start accepts events s)
  (hread : (connected useGTIDs start accepts).streamEvents events = (s, none))
include h hread

theorem Read.inside (hadv : s.advance ev = (s', none)) :
    Inside useGTIDs start accepts events ev [] s' := by
  obtain ⟨hsent, hmoved⟩ := advance_moved hadv
  exact {
    mode := hmoved.useGTIDs.trans h.mode
    file := by
      intro hf
      rw [advance_position (h.mode.trans hf) hadv, h.file hf, List.foldl_append]
      rfl
    gtid := by
      intro hg hev
      rw [advance_gtid (h.mode.trans hg) hev] at hadv
      cases hadv
      rw [streamEvents_reader hread]
      rfl
    sends := by
      rw [List.append_nil]
      exact h.sends.moved hsent hmoved
    acked := (h.acked.append [ev]).grows ⟨hsent ▸ List.prefix_rfl, hmoved.lastTrxCoords⟩ }

theorem Read.step (hstep : s.handleEvent ev = (s', none)) :
    Read useGTIDs start accepts (events ++ [ev]) s' := by
  rw [handleEvent_eq, andThen_eq_none] at hstep
  obtain ⟨s₁, hadv, hstep⟩ := hstep
  have hall : Inside useGTIDs start accepts events ev ev.transactionEvents s' := by
    refine forEach_invariant (h.inside hread hadv) ?_ hstep
    intro done event rest s₁ s₂ hev _ hdone hs
    exact hdone.step hev hs
  exact {
    mode := hall.mode
    file := hall.file
    sends := by
      rw [List.flatMap_append, List.flatMap_singleton]
      exact hall.sends
    acked := hall.acked }

theorem Read.acked_error {err : StreamError} (hstep : s.handleEvent ev = (s', some err)) :
    Acked useGTIDs start (events ++ [ev]) s' := by
  rw [handleEvent_eq, andThen_eq_some] at hstep
  rcases hstep with hadv | ⟨s₁, hadv, hstep⟩
  · obtain ⟨hsent, hmoved⟩ := advance_moved hadv
    exact (h.acked.append [ev]).grows ⟨hsent ▸ List.prefix_rfl, hmoved.lastTrxCoords⟩
  · obtain ⟨done, event, rest, mid, hev, hdone, hfail⟩ := forEach_eq_some hstep
    have hmid : Inside useGTIDs start accepts events ev done mid := by
      refine forEach_invariant (h.inside hread hadv) ?_ hdone
      intro done' event' rest' s₁ s₂ hdone' _ hinside hs
      have hev' : ev.transactionEvents = done' ++ event' :: (rest' ++ event :: rest) := by
        rw [hev, hdone', List.append_assoc, List.cons_append]
      exact hinside.step hev' hs
    exact hmid.acked_step hev hfail

end Reading

theorem read_connected (useGTIDs : Bool) (start : BinlogCoordinates) (accepts : Nat) :
    Read useGTIDs start accepts [] (connected useGTIDs start accepts) where
  mode := rfl
  file _ := rfl
  sends := ⟨rfl, rfl⟩
  acked := by
    intro c hc
    simp [connected, connect] at hc

/-- **The whole run**, as long as nothing fails. -/
theorem Read.run (h : (connected useGTIDs start accepts).streamEvents events = (s, none)) :
    Read useGTIDs start accepts events s := by
  refine forEach_invariant (read_connected useGTIDs start accepts) ?_ h
  intro done ev rest s₁ s₂ _ hread hdone hs
  exact hdone.step hread hs

/-- **However the run ends**, what `LastTrxCoords` stands for was sent. -/
theorem Acked.run {err : Option StreamError}
    (h : (connected useGTIDs start accepts).streamEvents events = (s, err)) :
    Acked useGTIDs start events s := by
  cases err with
  | none => exact (Read.run h).acked
  | some err =>
    obtain ⟨done, ev, rest, mid, rfl, hdone, hfail⟩ := forEach_eq_some h
    have := ((Read.run hdone).acked_error hdone hfail).append rest
    rwa [List.append_assoc, List.singleton_append] at this

/-! ## Payloads in GTID mode -/

theorem handleEvent_gtid {events : List TransactionEvent} (hg : s.reader.useGTIDs = true)
    (hev : ev.body = .transactionPayload events) :
    s.handleEvent ev = forEach handleTransactionEvent s events := by
  unfold handleEvent
  rw [hev, advanceFile, GoMySQLReader.advanceFile_gtid hg]
  rfl

theorem forEach_handleEvent_gtid {inner : List BinlogEvent} (hg : s.reader.useGTIDs = true)
    (hinner : ∀ ev ∈ inner, ∃ event, ev.body = .transaction event) :
    forEach handleEvent s inner =
      forEach handleTransactionEvent s (inner.flatMap BinlogEvent.transactionEvents) := by
  induction inner generalizing s with
  | nil => rfl
  | cons ev inner ih =>
    obtain ⟨event, hev⟩ := hinner ev List.mem_cons_self
    have hone : s.handleEvent ev = s.handleTransactionEvent event := by
      unfold handleEvent
      rw [hev, advanceFile, GoMySQLReader.advanceFile_gtid hg]
      rfl
    have hevents : ev.transactionEvents = [event] := by
      unfold BinlogEvent.transactionEvents
      rw [hev]
    rw [List.flatMap_cons, hevents, List.singleton_append, forEach_cons, forEach_cons, hone]
    cases hs : s.handleTransactionEvent event with
    | mk s₁ err =>
      cases err with
      | some err => rfl
      | none =>
        have hg₁ : s₁.reader.useGTIDs = true :=
          (handleTransactionEvent_coordinates hs).1.trans hg
        exact ih hg₁ (fun ev' hev' => hinner ev' (List.mem_cons_of_mem ev hev'))

theorem streamEvents_wraps {plain wrapped : List BinlogEvent} (h : Wraps plain wrapped) :
    (connected true start accepts).streamEvents wrapped =
      (connected true start accepts).streamEvents plain := by
  obtain ⟨before, inner, payload, after, rfl, hinner, hpayload, rfl⟩ := h
  unfold streamEvents
  rw [List.append_assoc, forEach_append, forEach_append]
  cases hbefore : forEach handleEvent (connected true start accepts) before with
  | mk s err =>
    cases err with
    | some err => rfl
    | none =>
      have hg : s.reader.useGTIDs = true := (Read.run hbefore).mode
      show forEach handleEvent s (payload :: after) = forEach handleEvent s (inner ++ after)
      rw [forEach_cons, forEach_append, handleEvent_gtid hg hpayload,
        forEach_handleEvent_gtid hg hinner]

theorem sent_of_framed {trxs : List Transaction} {unfinished : List TransactionEvent}
    (hframed : Framed trxs unfinished events)
    (h : (connected useGTIDs start accepts).streamEvents events = (s, none)) :
    s.sent.map BinlogEntry.content = trxs.flatMap Transaction.contents ++
      (unfinished.flatMap TransactionEvent.decodedRows).map rowContent := by
  have hsent := (Read.run h).sends.sent
  rw [hframed.packed] at hsent
  obtain ⟨hcontents, hpending⟩ := @framing_transactions trxs
  rw [hsent]
  show framing false (trxs.flatMap Transaction.logged ++ unfinished) = _
  rw [framing_append, hcontents, hpending, (framing_of_no_xid hframed.no_xid).1]

end Run

end Streaming

/-- `c` are the coordinates of the XID event that ends transaction `i` of the stream. -/
def DenotesTransaction (useGTIDs : Bool) (start : BinlogCoordinates) (trxs : List Transaction)
    (events : List BinlogEvent) (i : Nat) (c : BinlogCoordinates) : Prop :=
  ∃ trx gset before ev after read rest, trxs[i]? = some trx ∧ trx.commit = some gset ∧
    events = before ++ ev :: after ∧ ev.transactionEvents = read ++ .xid gset :: rest ∧
    (trxs.take (i + 1)).flatMap Transaction.logged =
      before.flatMap BinlogEvent.transactionEvents ++ (read ++ [.xid gset]) ∧
    EndsAt useGTIDs start before ev gset c

/-- **Reader framing.** Without an error the entries are the rows of each transaction and one marker
after them, in stream order, however the events are packed; however the reading ends,
`LastTrxCoords` denotes a transaction that was sent with all those before it. -/
theorem reader_framing {useGTIDs : Bool} {start : BinlogCoordinates} {accepts : Nat}
    {trxs : List Transaction} {unfinished : List TransactionEvent} {events : List BinlogEvent}
    {s : Streaming} {err : Option StreamError} (hframed : Framed trxs unfinished events)
    (h : (Streaming.connected useGTIDs start accepts).streamEvents events = (s, err)) :
    (err = none →
      s.sent.map BinlogEntry.content = trxs.flatMap Transaction.contents ++
        (unfinished.flatMap TransactionEvent.decodedRows).map rowContent) ∧
    (∀ wrapped, Wraps events wrapped →
      (useGTIDs = true →
        (Streaming.connected useGTIDs start accepts).streamEvents wrapped = (s, err)) ∧
      ∀ accepts' s', err = none →
        (Streaming.connected useGTIDs start accepts').streamEvents wrapped = (s', none) →
        s'.sent.map BinlogEntry.content = s.sent.map BinlogEntry.content) ∧
    ∀ c, s.reader.lastTrxCoords = some c →
      ∃ i, DenotesTransaction useGTIDs start trxs events i c ∧
        (trxs.take (i + 1)).flatMap Transaction.contents <+: s.sent.map BinlogEntry.content := by
  refine ⟨?_, ?_, ?_⟩
  · intro herr
    rw [herr] at h
    exact Streaming.sent_of_framed hframed h
  · intro wrapped hwraps
    constructor
    · intro hg
      subst hg
      rw [Streaming.streamEvents_wraps hwraps, h]
    · intro accepts' s' herr h'
      rw [herr] at h
      have hframed' : Framed trxs unfinished wrapped :=
        ⟨hwraps.transactionEvents.trans hframed.packed, hframed.no_xid⟩
      rw [Streaming.sent_of_framed hframed' h', Streaming.sent_of_framed hframed h]
  · intro c hc
    obtain ⟨before, ev, after, read, gset, rest, rfl, hev, hends, hsent⟩ :=
      Streaming.Acked.run h c hc
    have hpacked := hframed.packed
    rw [List.flatMap_append, List.flatMap_cons, hev, List.append_assoc, List.cons_append,
      ← List.append_assoc] at hpacked
    obtain ⟨i, trx, hget, hcommit, htake⟩ := transactions_of_xid hframed.no_xid hpacked.symm
    rw [List.append_assoc] at htake
    refine ⟨i, ⟨trx, gset, before, ev, after, read, rest, hget, hcommit, rfl, hev, htake, hends⟩,
      ?_⟩
    rw [← framing_transactions.1, htake]
    exact hsent

theorem reader_framing_small :
    let insert : TransactionEvent := .rows .insertDML "db" "t" [[.int 1], [.int 2]]
    let update : TransactionEvent := .rows .updateDML "db" "t" [[.int 1], [.int 3]]
    let start : BinlogCoordinates := .file { logFile := "log", logPos := 4 }
    let events : List BinlogEvent :=
      [⟨100, 96, .transaction insert⟩, ⟨120, 20, .transaction (.xid none)⟩,
        ⟨200, 80, .transactionPayload [update, .xid none]⟩]
    let s := ((Streaming.connected false start 4).streamEvents events).1
    s.sent.length = 4 ∧
      s.reader.lastTrxCoords = some (.file { logFile := "log", logPos := 120, eventSize := 20 }) ∧
      ∃ i trxs, DenotesTransaction false start trxs events i
          (.file { logFile := "log", logPos := 120, eventSize := 20 }) ∧
        (trxs.take (i + 1)).flatMap Transaction.contents <+: s.sent.map BinlogEntry.content := by
  intro insert update start events s
  let first : Transaction := ⟨[insert], some none, by decide, by decide⟩
  let second : Transaction := ⟨[update], some none, by decide, by decide⟩
  have hframed : Framed [first, second] [] events := ⟨rfl, by simp⟩
  have hlast : s.reader.lastTrxCoords =
      some (.file { logFile := "log", logPos := 120, eventSize := 20 }) := by decide
  obtain ⟨i, hdenotes, hsent⟩ := (reader_framing hframed
    (Prod.mk.eta.symm : (Streaming.connected false start 4).streamEvents events = _)).2.2 _ hlast
  exact ⟨by decide, hlast, i, [first, second], hdenotes, hsent⟩

end GhOst.Binlog
