import GhOst.Binlog.Reader
import GhOst.Infra.Loop

/-!
# The reader and its channel (`go/binlog/gomysql_reader.go`)

`GoMySQLReader.handleEvent` lists what one turn of the loop of `StreamEvents` sends. Here the sends
are made one by one: `SendWithContext` fails once the context is done, and then everything above it
returns at once, with the reader as it was left by the sends before.

A turn of this loop that does not fail is a turn of `handleEvent` (`Streaming.handleEvent_ok`).
-/

namespace GhOst.Binlog

open GhOst.Sql GhOst.Mysql Infra

inductive StreamError where
  | read (err : ReadError)
  | contextDone
deriving DecidableEq

structure Streaming where
  reader : GoMySQLReader
  /-- what was sent on `entriesChannel` -/
  sent : List BinlogEntry := []
  /-- how many more sends find a receiver before the context is done -/
  accepts : Nat
deriving DecidableEq

namespace Streaming

def sendWithContext (s : Streaming) (entry : BinlogEntry) : Streaming × Option StreamError :=
  match s.accepts with
  | 0 => (s, some .contextDone)
  | accepts + 1 => ({ s with sent := s.sent ++ [entry], accepts }, none)

/-- One turn of the loop over the rows. -/
def sendRow (s : Streaming) (currentCoords : BinlogCoordinates) (dmlEvent : BinlogDMLEvent) :
    Streaming × Option StreamError :=
  andThen (s.sendWithContext { coordinates := currentCoords, dmlEvent := some dmlEvent }) fun s =>
    ({ s with reader := { s.reader with transactionHasRows := true } }, none)

/-- The loop over the rows: an update has two images for a row. -/
def sendRows (currentCoords : BinlogCoordinates) (databaseName tableName : String)
    (dml : EventDML) (s : Streaming) : List (List Value) → Streaming × Option StreamError
  | [] => (s, none)
  | row :: rest =>
    match dml, rest with
    | .updateDML, [] => (s, some (.read (.fault .indexOutOfRange)))
    | .updateDML, new :: rest =>
      andThen (s.sendRow currentCoords
          { databaseName, tableName, dml, whereColumnValues := some row,
            newColumnValues := some new }) fun s =>
        sendRows currentCoords databaseName tableName dml s rest
    | .insertDML, rest =>
      andThen (s.sendRow currentCoords
          { databaseName, tableName, dml, newColumnValues := some row }) fun s =>
        sendRows currentCoords databaseName tableName dml s rest
    | .deleteDML, rest =>
      andThen (s.sendRow currentCoords
          { databaseName, tableName, dml, whereColumnValues := some row }) fun s =>
        sendRows currentCoords databaseName tableName dml s rest
    | .notDML, rest => sendRows currentCoords databaseName tableName dml s rest

def handleRowsEvent (s : Streaming) (databaseName tableName : String) (dml : EventDML)
    (rows : List (List Value)) : Streaming × Option StreamError :=
  if dml = .notDML then (s, some (.read (.error "unknown DML type")))
  else sendRows s.reader.currentCoordinates databaseName tableName dml s rows

/-- `completeTransaction`: `LastTrxCoords` is set when the marker has been sent. -/
def completeTransaction (s : Streaming) (gset : Option (Finset GTID)) :
    Streaming × Option StreamError :=
  let coords := s.reader.trxCoords gset
  let sendMarker : Streaming × Option StreamError :=
    if s.reader.transactionHasRows then
      s.sendWithContext { coordinates := coords, transactionComplete := true }
    else (s, none)
  andThen sendMarker fun s =>
    ({ s with
        reader :=
          { s.reader with
            transactionHasRows := false
            lastTrxCoords := some coords
            trxRead := s.reader.trxRead ++ [coords] } }, none)

def handleTransactionEvent (s : Streaming) : TransactionEvent → Streaming × Option StreamError
  | .rows dml databaseName tableName rows => s.handleRowsEvent databaseName tableName dml rows
  | .xid gset => s.completeTransaction gset
  | .other => (s, none)

def advanceFile (s : Streaming) (ev : BinlogEvent) : Streaming × Option StreamError :=
  let (reader, err) := s.reader.advanceFile ev
  ({ s with reader }, err.map .read)

/-- One turn of the loop of `StreamEvents`. -/
def handleEvent (s : Streaming) (ev : BinlogEvent) : Streaming × Option StreamError :=
  match ev.body with
  | .gtid _ | .rotate _ =>
    -- these two move the coordinates and send nothing
    let (reader, _, err) := s.reader.handleEvent ev
    ({ s with reader }, err.map .read)
  | .gtidTagged _ => s.advanceFile ev
  | .transaction event => andThen (s.advanceFile ev) fun s => s.handleTransactionEvent event
  | .transactionPayload events =>
    andThen (s.advanceFile ev) fun s => forEach handleTransactionEvent s events

/-- `StreamEvents`, on the events that `GetEvent` returns until `canStopStreaming` or an error. -/
def streamEvents (s : Streaming) (events : List BinlogEvent) : Streaming × Option StreamError :=
  forEach handleEvent s events

end Streaming

/-- The events of transactions that an event of the log carries. -/
def BinlogEvent.transactionEvents (ev : BinlogEvent) : List TransactionEvent :=
  match ev.body with
  | .transaction event => [event]
  | .transactionPayload events => events
  | _ => []

/-! ## Sends -/

namespace Streaming

variable {s s' : Streaming} {err : StreamError}
variable {coords : BinlogCoordinates} {dmlEvent : BinlogDMLEvent}

/-- What a step leaves when it has not completed a transaction: more was sent, if anything. -/
structure Grows (s s' : Streaming) : Prop where
  sent : s.sent <+: s'.sent
  lastTrxCoords : s'.reader.lastTrxCoords = s.reader.lastTrxCoords

theorem Grows.refl (s : Streaming) : Grows s s := ⟨List.prefix_rfl, rfl⟩

theorem Grows.trans {s₁ s₂ s₃ : Streaming} (h : Grows s₁ s₂) (h' : Grows s₂ s₃) : Grows s₁ s₃ :=
  ⟨h.sent.trans h'.sent, h'.lastTrxCoords.trans h.lastTrxCoords⟩

theorem sendWithContext_ok {entry : BinlogEntry} (h : s.sendWithContext entry = (s', none)) :
    s'.reader = s.reader ∧ s'.sent = s.sent ++ [entry] := by
  unfold sendWithContext at h
  cases ha : s.accepts with
  | zero => simp [ha] at h
  | succ n =>
    rw [ha] at h
    cases h
    exact ⟨rfl, rfl⟩

theorem sendWithContext_error {entry : BinlogEntry}
    (h : s.sendWithContext entry = (s', some err)) : s' = s := by
  unfold sendWithContext at h
  cases ha : s.accepts with
  | zero =>
    rw [ha, Prod.mk.injEq] at h
    exact h.1.symm
  | succ n => simp [ha] at h

theorem sendRow_ok (h : s.sendRow coords dmlEvent = (s', none)) :
    s'.reader = { s.reader with transactionHasRows := true } ∧
      s'.sent = s.sent ++ [{ coordinates := coords, dmlEvent := some dmlEvent }] := by
  unfold sendRow at h
  rw [andThen_eq_none] at h
  obtain ⟨s₁, hsend, h⟩ := h
  obtain ⟨hreader, hsent⟩ := sendWithContext_ok hsend
  cases h
  exact ⟨by rw [hreader], hsent⟩

theorem Grows.of_sendRow (h : s.sendRow coords dmlEvent = (s', none)) : Grows s s' := by
  obtain ⟨hreader, hsent⟩ := sendRow_ok h
  exact ⟨hsent ▸ List.prefix_append _ _, by rw [hreader]⟩

theorem sendRow_error (h : s.sendRow coords dmlEvent = (s', some err)) : s' = s := by
  unfold sendRow at h
  rw [andThen_eq_some] at h
  rcases h with h | ⟨s₁, -, h⟩
  · exact sendWithContext_error h
  · simp at h

/-- The entries of these rows were sent, and nothing else happened. -/
structure SentRows (coords : BinlogCoordinates) (s : Streaming) (rows : List BinlogDMLEvent)
    (s' : Streaming) : Prop where
  sent : s'.sent = s.sent ++ rows.map fun e => { coordinates := coords, dmlEvent := some e }
  reader : s'.reader =
    { s.reader with transactionHasRows := s.reader.transactionHasRows || !rows.isEmpty }

theorem SentRows.nil (coords : BinlogCoordinates) (s : Streaming) : SentRows coords s [] s :=
  ⟨by simp, by simp⟩

theorem SentRows.cons {row : BinlogDMLEvent} {rows : List BinlogDMLEvent} {s₁ : Streaming}
    (h : s.sendRow coords row = (s₁, none)) (h' : SentRows coords s₁ rows s') :
    SentRows coords s (row :: rows) s' := by
  obtain ⟨hreader, hsent⟩ := sendRow_ok h
  constructor
  · rw [h'.sent, hsent, List.append_assoc, List.map_cons, List.singleton_append]
  · rw [h'.reader, hreader]
    simp

section SendRows

variable {coords : BinlogCoordinates} {databaseName tableName : String} {dml : EventDML}
  {rows : List (List Value)}

theorem sendRows_ok (h : sendRows coords databaseName tableName dml s rows = (s', none)) :
    ∃ events, rowEvents databaseName tableName dml rows = .ok events ∧
      SentRows coords s events s' := by
  -- a row that was sent, and the rows after it
  have hcons : ∀ {first : BinlogDMLEvent} {s s₁ : Streaming}
      {rest : Except Fault (List BinlogDMLEvent)},
      s.sendRow coords first = (s₁, none) →
      (∃ events, rest = .ok events ∧ SentRows coords s₁ events s') →
      ∃ events, rest.map (first :: ·) = .ok events ∧ SentRows coords s events s' := by
    intro first s s₁ rest hfirst ⟨events, hevents, hsent⟩
    exact ⟨first :: events, by rw [hevents]; rfl, .cons hfirst hsent⟩
  fun_induction sendRows coords databaseName tableName dml s rows with
  | case1 s =>
    rw [Prod.mk.injEq] at h
    exact ⟨[], rfl, h.1 ▸ .nil coords s⟩
  | case2 s row => simp at h
  | case3 s row new rest hd ih =>
    rw [andThen_eq_none] at h
    obtain ⟨s₁, hfirst, h⟩ := h
    subst hd
    rw [rowEvents]
    exact hcons hfirst (ih s₁ h)
  | case4 s row rest hd ih =>
    rw [andThen_eq_none] at h
    obtain ⟨s₁, hfirst, h⟩ := h
    subst hd
    rw [rowEvents]
    exact hcons hfirst (ih s₁ h)
  | case5 s row rest hd ih =>
    rw [andThen_eq_none] at h
    obtain ⟨s₁, hfirst, h⟩ := h
    subst hd
    rw [rowEvents]
    exact hcons hfirst (ih s₁ h)
  | case6 s row rest hd ih =>
    subst hd
    rw [rowEvents]
    exact ih h

theorem Grows.of_sendRows {err : Option StreamError}
    (h : sendRows coords databaseName tableName dml s rows = (s', err)) : Grows s s' := by
  have hcons : ∀ {first : BinlogDMLEvent} {s : Streaming}
      {rest : Streaming → Streaming × Option StreamError},
      andThen (s.sendRow coords first) rest = (s', err) →
      (∀ s₁, rest s₁ = (s', err) → Grows s₁ s') → Grows s s' := by
    intro first s rest h ih
    cases hfirst : s.sendRow coords first with
    | mk s₁ e =>
      rw [hfirst] at h
      cases e with
      | none => exact (Grows.of_sendRow hfirst).trans (ih s₁ h)
      | some e =>
        rw [andThen] at h
        cases h
        rw [sendRow_error hfirst]
        exact .refl s
  fun_induction sendRows coords databaseName tableName dml s rows with
  | case1 s =>
    rw [Prod.mk.injEq] at h
    exact h.1 ▸ .refl s
  | case2 s row =>
    rw [Prod.mk.injEq] at h
    exact h.1 ▸ .refl s
  | case3 s row new rest _ ih => exact hcons h ih
  | case4 s row rest _ ih => exact hcons h ih
  | case5 s row rest _ ih => exact hcons h ih
  | case6 s row rest _ ih => exact ih h

end SendRows

/-! ## A turn of the loop is a turn of `GoMySQLReader.handleEvent` -/

/-- What the reader gives by itself is what was sent. -/
def Turn (s : Streaming) (result : GoMySQLReader × List BinlogEntry × Option ReadError)
    (s' : Streaming) : Prop :=
  ∃ entries, result = (s'.reader, entries, none) ∧ s'.sent = s.sent ++ entries

theorem handleRowsEvent_ok {databaseName tableName : String} {dml : EventDML}
    {rows : List (List Value)}
    (h : s.handleRowsEvent databaseName tableName dml rows = (s', none)) :
    Turn s (s.reader.handleRowsEvent databaseName tableName dml rows) s' := by
  unfold handleRowsEvent at h
  unfold GoMySQLReader.handleRowsEvent
  by_cases hd : dml = .notDML
  · simp [hd] at h
  · rw [if_neg hd] at h ⊢
    obtain ⟨events, hevents, hsent⟩ := sendRows_ok h
    rw [hevents]
    refine ⟨_, ?_, hsent.sent⟩
    simp only [hsent.reader, List.isEmpty_map]

theorem completeTransaction_ok {gset : Option (Finset GTID)}
    (h : s.completeTransaction gset = (s', none)) :
    Turn s ((s.reader.completeTransaction gset).1, (s.reader.completeTransaction gset).2, none)
      s' := by
  unfold completeTransaction at h
  rw [andThen_eq_none] at h
  obtain ⟨s₁, hmarker, h⟩ := h
  rw [Prod.mk.injEq] at h
  cases hrows : s.reader.transactionHasRows with
  | false =>
    rw [hrows, if_neg (by decide), Prod.mk.injEq] at hmarker
    refine ⟨(s.reader.completeTransaction gset).2, ?_, ?_⟩
    · rw [← h.1, ← hmarker.1]
      rfl
    · rw [← h.1, ← hmarker.1]
      simp [GoMySQLReader.completeTransaction, hrows]
  | true =>
    rw [hrows, if_pos rfl] at hmarker
    obtain ⟨hreader, hsent⟩ := sendWithContext_ok hmarker
    refine ⟨(s.reader.completeTransaction gset).2, ?_, ?_⟩
    · rw [← h.1, hreader]
      rfl
    · rw [← h.1]
      simp [GoMySQLReader.completeTransaction, hrows, hsent]

theorem handleTransactionEvent_ok {event : TransactionEvent}
    (h : s.handleTransactionEvent event = (s', none)) :
    Turn s (s.reader.handleTransactionEvent event) s' := by
  cases event with
  | rows dml databaseName tableName rows => exact handleRowsEvent_ok h
  | xid gset => exact completeTransaction_ok h
  | other =>
    rw [handleTransactionEvent, Prod.mk.injEq] at h
    exact ⟨[], by rw [← h.1]; rfl, by rw [← h.1, List.append_nil]⟩

theorem handlePayload_ok {events : List TransactionEvent}
    (h : forEach handleTransactionEvent s events = (s', none)) :
    Turn s (s.reader.handlePayload events) s' := by
  induction events generalizing s with
  | nil =>
    rw [forEach_nil, Prod.mk.injEq] at h
    exact ⟨[], by rw [← h.1]; rfl, by rw [← h.1, List.append_nil]⟩
  | cons event events ih =>
    rw [forEach_cons, andThen_eq_none] at h
    obtain ⟨s₁, hfirst, h⟩ := h
    obtain ⟨entries, hentries, hsent⟩ := handleTransactionEvent_ok hfirst
    obtain ⟨more, hmore, hsent'⟩ := ih h
    refine ⟨entries ++ more, ?_, ?_⟩
    · rw [GoMySQLReader.handlePayload, hentries]
      simp only [hmore]
    · rw [hsent', hsent, List.append_assoc]

end Streaming

/-! ## Coordinates -/

def position (coords : BinlogCoordinates) (ev : BinlogEvent) : BinlogCoordinates :=
  match coords, ev.body with
  | .file c, .rotate nextLogName =>
    .file { c with logFile := nextLogName, logPos := ev.logPos, eventSize := ev.eventSize }
  | .file c, _ => .file { c with logPos := ev.logPos, eventSize := ev.eventSize }
  | .gtid set, _ => .gtid set

structure Moved (r r' : GoMySQLReader) : Prop where
  useGTIDs : r'.useGTIDs = r.useGTIDs
  lastTrxCoords : r'.lastTrxCoords = r.lastTrxCoords
  transactionHasRows : r'.transactionHasRows = r.transactionHasRows

namespace GoMySQLReader

variable {r r' : GoMySQLReader} {ev : BinlogEvent}

theorem moved_advanceFile (r : GoMySQLReader) (ev : BinlogEvent) :
    Moved r (r.advanceFile ev).1 := by
  unfold advanceFile
  split
  · exact ⟨rfl, rfl, rfl⟩
  · split
    · exact ⟨rfl, rfl, rfl⟩
    · exact ⟨rfl, rfl, rfl⟩

theorem advanceFile_gtid (h : r.useGTIDs = true) : r.advanceFile ev = (r, none) := by
  unfold advanceFile
  rw [if_pos h]

theorem advanceFile_file (hf : r.useGTIDs = false) (h : r.advanceFile ev = (r', none)) :
    ∃ c, r.currentCoordinates = .file c ∧
      r'.currentCoordinates = .file { c with logPos := ev.logPos, eventSize := ev.eventSize } := by
  unfold advanceFile at h
  rw [if_neg (by simp [hf])] at h
  split at h
  · simp at h
  · next c hc =>
    rw [Prod.mk.injEq] at h
    rw [← h.1]
    exact ⟨c, hc, rfl⟩

theorem moved_advanceGTID {nextGTID : GTID} (h : r.advanceGTID nextGTID = .ok r') :
    Moved r r' := by
  unfold advanceGTID at h
  split at h
  · simp at h
  · cases h
    exact ⟨rfl, rfl, rfl⟩
  · cases h
    exact ⟨rfl, rfl, rfl⟩

theorem handleEvent_coordinates (r : GoMySQLReader) {ev : BinlogEvent}
    (hev : (∃ next, ev.body = .gtid next) ∨ ∃ next, ev.body = .rotate next) :
    Moved r (r.handleEvent ev).1 ∧ (r.handleEvent ev).2.1 = [] := by
  have hfile := moved_advanceFile r ev
  unfold handleEvent
  generalize r.advanceFile ev = advanced at hfile ⊢
  obtain ⟨r₁, err⟩ := advanced
  cases err with
  | some err => exact ⟨hfile, rfl⟩
  | none =>
    rcases hev with ⟨next, hev⟩ | ⟨next, hev⟩
    · simp only [hev]
      split
      · cases hg : r₁.advanceGTID next with
        | error err => exact ⟨hfile, rfl⟩
        | ok r₂ =>
          have hmoved := moved_advanceGTID hg
          exact ⟨⟨hmoved.1.trans hfile.1, hmoved.2.trans hfile.2, hmoved.3.trans hfile.3⟩, rfl⟩
      · exact ⟨hfile, rfl⟩
    · simp only [hev]
      split
      · exact ⟨hfile, rfl⟩
      · split
        · exact ⟨hfile, rfl⟩
        · exact ⟨⟨hfile.1, hfile.2, hfile.3⟩, rfl⟩

/-- In file mode the coordinates follow the events. -/
theorem handleEvent_position {entries : List BinlogEntry}
    (hev : (∃ next, ev.body = .gtid next) ∨ ∃ next, ev.body = .rotate next)
    (hf : r.useGTIDs = false) (h : r.handleEvent ev = (r', entries, none)) :
    r'.currentCoordinates = position r.currentCoordinates ev := by
  unfold handleEvent at h
  cases hadv : r.advanceFile ev with
  | mk r₁ err =>
    cases err with
    | some err => simp [hadv] at h
    | none =>
      obtain ⟨c, hc, hc₁⟩ := advanceFile_file hf hadv
      have hmoved := moved_advanceFile r ev
      rw [hadv] at hmoved
      have hf₁ : ¬ r₁.useGTIDs = true := by
        rw [hmoved.useGTIDs, hf]
        decide
      rcases hev with ⟨next, hev⟩ | ⟨next, hev⟩
      · simp only [hadv, hev] at h
        rw [if_neg hf₁] at h
        cases h
        rw [hc₁]
        unfold position
        rw [hc, hev]
      · simp only [hadv, hev, hc₁] at h
        rw [if_neg hf₁] at h
        cases h
        unfold position
        rw [hc, hev]

end GoMySQLReader

namespace Streaming

variable {s s' : Streaming} {ev : BinlogEvent}

/-- What a turn of the loop does before it looks at the events of transactions. -/
def advance (s : Streaming) (ev : BinlogEvent) : Streaming × Option StreamError :=
  match ev.body with
  | .gtid _ | .rotate _ =>
    let (reader, _, err) := s.reader.handleEvent ev
    ({ s with reader }, err.map .read)
  | _ => s.advanceFile ev

theorem handleEvent_eq (s : Streaming) (ev : BinlogEvent) :
    s.handleEvent ev =
      andThen (s.advance ev) fun s => forEach handleTransactionEvent s ev.transactionEvents := by
  unfold handleEvent advance BinlogEvent.transactionEvents
  cases ev.body with
  | gtid next =>
    obtain ⟨reader, entries, err⟩ := s.reader.handleEvent ev
    cases err with
    | none => rfl
    | some err => rfl
  | gtidTagged next =>
    dsimp only
    obtain ⟨s', err⟩ := s.advanceFile ev
    cases err with
    | none => rfl
    | some err => rfl
  | rotate next =>
    obtain ⟨reader, entries, err⟩ := s.reader.handleEvent ev
    cases err with
    | none => rfl
    | some err => rfl
  | transaction event =>
    simp only [forEach_singleton]
  | transactionPayload events => rfl

/-- A GTID or a rotate event, which carries nothing of a transaction, or one that may. -/
theorem body_cases (ev : BinlogEvent) :
    (((∃ next, ev.body = .gtid next) ∨ ∃ next, ev.body = .rotate next) ∧
        (∀ s : Streaming, s.advance ev = ({ s with reader := (s.reader.handleEvent ev).1 },
          (s.reader.handleEvent ev).2.2.map .read)) ∧ ev.transactionEvents = []) ∨
      ((∀ s : Streaming, s.advance ev = s.advanceFile ev) ∧
        ∀ c, position (.file c) ev =
          .file { c with logPos := ev.logPos, eventSize := ev.eventSize }) := by
  unfold BinlogEvent.transactionEvents advance position
  cases hev : ev.body with
  | gtid next => exact .inl ⟨.inl ⟨next, rfl⟩, fun _ => rfl, rfl⟩
  | gtidTagged next => exact .inr ⟨fun _ => rfl, fun _ => rfl⟩
  | rotate next => exact .inl ⟨.inr ⟨next, rfl⟩, fun _ => rfl, rfl⟩
  | transaction event => exact .inr ⟨fun _ => rfl, fun _ => rfl⟩
  | transactionPayload events => exact .inr ⟨fun _ => rfl, fun _ => rfl⟩

theorem advance_moved {err : Option StreamError} (h : s.advance ev = (s', err)) :
    s'.sent = s.sent ∧ Moved s.reader s'.reader := by
  rcases body_cases ev with ⟨hev, hadv, -⟩ | ⟨hadv, -⟩
  · rw [hadv] at h
    cases h
    exact ⟨rfl, (s.reader.handleEvent_coordinates hev).1⟩
  · rw [hadv, advanceFile] at h
    cases h
    exact ⟨rfl, s.reader.moved_advanceFile ev⟩

theorem advance_position (hf : s.reader.useGTIDs = false) (h : s.advance ev = (s', none)) :
    s'.reader.currentCoordinates = position s.reader.currentCoordinates ev := by
  rcases body_cases ev with ⟨hev, hadv, -⟩ | ⟨hadv, hpos⟩
  · rw [hadv, Prod.mk.injEq, Option.map_eq_none_iff] at h
    rw [← h.1]
    exact GoMySQLReader.handleEvent_position hev hf (Prod.ext rfl (Prod.ext rfl h.2))
  · rw [hadv, advanceFile, Prod.mk.injEq, Option.map_eq_none_iff] at h
    obtain ⟨c, hc, hc'⟩ := GoMySQLReader.advanceFile_file hf (Prod.ext rfl h.2)
    rw [← h.1, hc, hpos]
    exact hc'

theorem advance_gtid (hg : s.reader.useGTIDs = true) (hev : ev.transactionEvents ≠ []) :
    s.advance ev = (s, none) := by
  rcases body_cases ev with ⟨-, -, hnil⟩ | ⟨hadv, -⟩
  · exact absurd hnil hev
  · rw [hadv, advanceFile, GoMySQLReader.advanceFile_gtid hg]
    rfl

theorem advanceFile_ok (h : s.advanceFile ev = (s', none)) :
    s.reader.advanceFile ev = (s'.reader, none) ∧ s'.sent = s.sent := by
  rw [advanceFile, Prod.mk.injEq, Option.map_eq_none_iff] at h
  rw [← h.1]
  exact ⟨Prod.ext rfl h.2, rfl⟩

/-- **A turn of the loop that does not fail is a turn of `GoMySQLReader.handleEvent`.** -/
theorem handleEvent_ok (h : s.handleEvent ev = (s', none)) :
    Turn s (s.reader.handleEvent ev) s' := by
  have hcoordinates : (∃ next, ev.body = .gtid next) ∨ (∃ next, ev.body = .rotate next) →
      s.handleEvent ev = ({ s with reader := (s.reader.handleEvent ev).1 },
        (s.reader.handleEvent ev).2.2.map .read) → Turn s (s.reader.handleEvent ev) s' := by
    intro hev heq
    rw [heq, Prod.mk.injEq, Option.map_eq_none_iff] at h
    refine ⟨[], ?_, ?_⟩
    · rw [← h.1]
      exact Prod.ext rfl (Prod.ext (s.reader.handleEvent_coordinates hev).2 h.2)
    · rw [← h.1, List.append_nil]
  cases hev : ev.body with
  | gtid next =>
    refine hcoordinates (.inl ⟨next, hev⟩) ?_
    unfold handleEvent
    rw [hev]
  | gtidTagged next =>
    unfold handleEvent at h
    rw [hev] at h
    obtain ⟨hreader, hsent⟩ := advanceFile_ok h
    refine ⟨[], ?_, by rw [hsent, List.append_nil]⟩
    unfold GoMySQLReader.handleEvent
    rw [hreader, hev]
  | rotate next =>
    refine hcoordinates (.inr ⟨next, hev⟩) ?_
    unfold handleEvent
    rw [hev]
  | transaction event =>
    unfold handleEvent at h
    rw [hev, andThen_eq_none] at h
    obtain ⟨s₁, hadv, h⟩ := h
    obtain ⟨hreader, hsent⟩ := advanceFile_ok hadv
    obtain ⟨entries, hentries, hsent'⟩ := handleTransactionEvent_ok h
    refine ⟨entries, ?_, by rw [hsent', hsent]⟩
    unfold GoMySQLReader.handleEvent
    rw [hreader, hev]
    exact hentries
  | transactionPayload events =>
    unfold handleEvent at h
    rw [hev, andThen_eq_none] at h
    obtain ⟨s₁, hadv, h⟩ := h
    obtain ⟨hreader, hsent⟩ := advanceFile_ok hadv
    obtain ⟨entries, hentries, hsent'⟩ := handlePayload_ok h
    refine ⟨entries, ?_, by rw [hsent', hsent]⟩
    unfold GoMySQLReader.handleEvent
    rw [hreader, hev]
    exact hentries

end Streaming

end GhOst.Binlog
