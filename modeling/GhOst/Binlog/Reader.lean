import GhOst.Binlog.DMLEvent
import GhOst.Mysql.Coordinates

/-!
# The binary log reader (`go/binlog/gomysql_reader.go`)

`handleEvent` is one turn of the loop of `StreamEvents`: it changes the reader and gives the entries
that are sent, in order. Every send goes through `SendWithContext`, which fails only when the
migration is being aborted; the entries are therefore listed here, and sent by whoever uses the
reader. Metrics are left out.
-/

namespace GhOst.Binlog

open GhOst.Sql GhOst.Mysql

/-- A row of a table the streamer listens to, or the end of a transaction that had such rows. -/
structure BinlogEntry where
  coordinates : BinlogCoordinates
  dmlEvent : Option BinlogDMLEvent := none
  transactionComplete : Bool := false
deriving DecidableEq

/-- The events that may also stand inside a transaction payload. -/
inductive TransactionEvent where
  | rows (dml : EventDML) (databaseName tableName : String) (rows : List (List Value))
  | xid (gset : Option (Finset GTID))
  | other
deriving DecidableEq

inductive EventBody where
  | gtid (nextGTID : GTID)
  /-- a GTID with a tag, for which `StreamEvents` has no case -/
  | gtidTagged (nextGTID : GTID)
  | rotate (nextLogName : String)
  | transaction (event : TransactionEvent)
  | transactionPayload (events : List TransactionEvent)
deriving DecidableEq

/-- An event of the log, with the fields of its header that the reader uses. -/
structure BinlogEvent where
  logPos : Nat
  eventSize : Nat
  body : EventBody
deriving DecidableEq

structure GoMySQLReader where
  useGTIDs : Bool
  currentCoordinates : BinlogCoordinates
  lastTrxCoords : Option BinlogCoordinates := none
  transactionHasRows : Bool := false
  /-- the coordinates of all transactions that were read completely; a record, not a field -/
  trxRead : List BinlogCoordinates := []
deriving DecidableEq

/-- A reader after `ConnectBinlogStreamer`. -/
def connect (useGTIDs : Bool) (coordinates : BinlogCoordinates) : GoMySQLReader :=
  { useGTIDs, currentCoordinates := coordinates }

inductive ReadError where
  | error (text : String)
  | fault (f : Fault)
deriving DecidableEq

/-- The row events of a rows event: an update has two images for a row. -/
def rowEvents (databaseName tableName : String) (dml : EventDML) :
    List (List Value) → Except Fault (List BinlogDMLEvent)
  | [] => .ok []
  | row :: rest =>
    match dml, rest with
    | .updateDML, [] => .error .indexOutOfRange
    | .updateDML, new :: rest =>
      (rowEvents databaseName tableName dml rest).map
        ({ databaseName, tableName, dml, whereColumnValues := some row,
           newColumnValues := some new } :: ·)
    | .insertDML, rest =>
      (rowEvents databaseName tableName dml rest).map
        ({ databaseName, tableName, dml, newColumnValues := some row } :: ·)
    | .deleteDML, rest =>
      (rowEvents databaseName tableName dml rest).map
        ({ databaseName, tableName, dml, whereColumnValues := some row } :: ·)
    | .notDML, rest => rowEvents databaseName tableName dml rest

/-- Every row event names the table of its rows event. -/
theorem rowEvents_table {databaseName tableName : String} {dml : EventDML} :
    ∀ {rows : List (List Value)} {events : List BinlogDMLEvent},
    rowEvents databaseName tableName dml rows = .ok events →
    ∀ ev ∈ events, ev.databaseName = databaseName ∧ ev.tableName = tableName := by
  have hcons : ∀ {first : BinlogDMLEvent} {rest : Except Fault (List BinlogDMLEvent)}
      {events : List BinlogDMLEvent}, rest.map (first :: ·) = .ok events →
      (∀ {more}, rest = .ok more → ∀ ev ∈ more,
        ev.databaseName = databaseName ∧ ev.tableName = tableName) →
      first.databaseName = databaseName → first.tableName = tableName →
      ∀ ev ∈ events, ev.databaseName = databaseName ∧ ev.tableName = tableName := by
    intro first rest events h ih hd ht ev hev
    cases rest with
    | error f => simp [Except.map] at h
    | ok more =>
      rw [← Except.ok.inj h] at hev
      rcases List.mem_cons.1 hev with rfl | hev
      · exact ⟨hd, ht⟩
      · exact ih rfl ev hev
  intro rows
  fun_induction rowEvents databaseName tableName dml rows with
  | case1 =>
    intro events h ev hev
    rw [← Except.ok.inj h] at hev
    simp at hev
  | case2 => simp
  | case3 row new rest _ ih => exact fun h => hcons h ih rfl rfl
  | case4 row rest _ ih => exact fun h => hcons h ih rfl rfl
  | case5 row rest _ ih => exact fun h => hcons h ih rfl rfl
  | case6 row rest _ ih => exact ih

namespace GoMySQLReader

def handleRowsEvent (r : GoMySQLReader) (databaseName tableName : String) (dml : EventDML)
    (rows : List (List Value)) : GoMySQLReader × List BinlogEntry × Option ReadError :=
  if dml = .notDML then (r, [], some (.error "unknown DML type"))
  else
    match rowEvents databaseName tableName dml rows with
    | .error f => (r, [], some (.fault f))
    | .ok events =>
      let entries := events.map fun e =>
        { coordinates := r.currentCoordinates, dmlEvent := some e : BinlogEntry }
      ({ r with transactionHasRows := r.transactionHasRows || !entries.isEmpty }, entries, none)

/-- The coordinates of the transaction that an XID event ends. -/
def trxCoords (r : GoMySQLReader) (gset : Option (Finset GTID)) : BinlogCoordinates :=
  if r.useGTIDs ∧ gset.isSome then .gtid gset else r.currentCoordinates

def completeTransaction (r : GoMySQLReader) (gset : Option (Finset GTID)) :
    GoMySQLReader × List BinlogEntry :=
  let coords := r.trxCoords gset
  let marker : List BinlogEntry :=
    if r.transactionHasRows then [{ coordinates := coords, transactionComplete := true }] else []
  ({ r with
      transactionHasRows := false
      lastTrxCoords := some coords
      trxRead := r.trxRead ++ [coords] }, marker)

def handleTransactionEvent (r : GoMySQLReader) :
    TransactionEvent → GoMySQLReader × List BinlogEntry × Option ReadError
  | .rows dml databaseName tableName rows => r.handleRowsEvent databaseName tableName dml rows
  | .xid gset =>
    let (r, entries) := r.completeTransaction gset
    (r, entries, none)
  | .other => (r, [], none)

/-- The events inside a transaction payload, up to the first error. -/
def handlePayload (r : GoMySQLReader) :
    List TransactionEvent → GoMySQLReader × List BinlogEntry × Option ReadError
  | [] => (r, [], none)
  | event :: events =>
    match r.handleTransactionEvent event with
    | (r, entries, some err) => (r, entries, some err)
    | (r, entries, none) =>
      let (r, more, err) := r.handlePayload events
      (r, entries ++ more, err)

/-- File coordinates follow the header of every event, also of one that is then refused. -/
def advanceFile (r : GoMySQLReader) (ev : BinlogEvent) : GoMySQLReader × Option ReadError :=
  if r.useGTIDs then (r, none)
  else
    match r.currentCoordinates with
    | .gtid _ => (r, some (.fault .typeAssertion))
    | .file prev =>
      let coords := { prev with logPos := ev.logPos, eventSize := ev.eventSize }
      ({ r with currentCoordinates := .file coords },
        if coords.isLogPosOverflowBeyond4Bytes prev then
          some (.error "the binlog end_log_pos is overflow 4 bytes")
        else none)

/-- GTID coordinates are the last complete transaction and the one that begins. -/
def advanceGTID (r : GoMySQLReader) (nextGTID : GTID) : Except ReadError GoMySQLReader :=
  match r.lastTrxCoords.getD r.currentCoordinates with
  | .file _ => .error (.fault .typeAssertion)
  | .gtid none => .ok { r with currentCoordinates := .gtid (some {nextGTID}) }
  | .gtid (some set) => .ok { r with currentCoordinates := .gtid (some (insert nextGTID set)) }

/-- One turn of the loop of `StreamEvents`. -/
def handleEvent (r : GoMySQLReader) (ev : BinlogEvent) :
    GoMySQLReader × List BinlogEntry × Option ReadError :=
  match r.advanceFile ev with
  | (r, some err) => (r, [], some err)
  | (r, none) =>
    match ev.body with
    | .gtid nextGTID =>
      if r.useGTIDs then
        match r.advanceGTID nextGTID with
        | .error err => (r, [], some err)
        | .ok r => (r, [], none)
      else (r, [], none)
    | .gtidTagged _ => (r, [], none)
    | .rotate nextLogName =>
      if r.useGTIDs then (r, [], none)
      else
        match r.currentCoordinates with
        | .gtid _ => (r, [], some (.fault .typeAssertion))
        | .file c =>
          ({ r with currentCoordinates := .file { c with logFile := nextLogName } }, [], none)
    | .transaction event => r.handleTransactionEvent event
    | .transactionPayload events => r.handlePayload events

/-- A connection: events are handled until one of them is an error or no more come. -/
def readEvents (r : GoMySQLReader) : List BinlogEvent → GoMySQLReader
  | [] => r
  | ev :: events =>
    match r.handleEvent ev with
    | (r, _, some _) => r
    | (r, _, none) => r.readEvents events

/-! ## Transactions that were read completely -/

/-- `LastTrxCoords` is the last transaction that this reader has read completely. -/
def Tracked (r : GoMySQLReader) : Prop := r.lastTrxCoords = r.trxRead.getLast?

variable {r r' : GoMySQLReader}

theorem tracked_connect (useGTIDs : Bool) (coordinates : BinlogCoordinates) :
    (connect useGTIDs coordinates).Tracked := rfl

theorem Tracked.congr (h : r.Tracked) (h1 : r'.lastTrxCoords = r.lastTrxCoords)
    (h2 : r'.trxRead = r.trxRead) : r'.Tracked := by
  unfold Tracked
  rw [h1, h2]
  exact h

theorem Tracked.handleRowsEvent (h : r.Tracked) (databaseName tableName : String) (dml : EventDML)
    (rows : List (List Value)) :
    (r.handleRowsEvent databaseName tableName dml rows).1.Tracked := by
  unfold GoMySQLReader.handleRowsEvent
  by_cases hd : dml = .notDML
  · rw [if_pos hd]
    exact h
  · rw [if_neg hd]
    cases rowEvents databaseName tableName dml rows with
    | error f => exact h
    | ok events => exact h.congr rfl rfl

theorem Tracked.completeTransaction (r : GoMySQLReader) (gset : Option (Finset GTID)) :
    (r.completeTransaction gset).1.Tracked := by
  show some (r.trxCoords gset) = (r.trxRead ++ [r.trxCoords gset]).getLast?
  rw [List.getLast?_append]
  rfl

theorem Tracked.handleTransactionEvent (h : r.Tracked) (event : TransactionEvent) :
    (r.handleTransactionEvent event).1.Tracked := by
  cases event with
  | rows dml databaseName tableName rows => exact h.handleRowsEvent databaseName tableName dml rows
  | xid gset => exact Tracked.completeTransaction r gset
  | other => exact h

theorem Tracked.handlePayload : ∀ {events : List TransactionEvent} {r : GoMySQLReader},
    r.Tracked → (r.handlePayload events).1.Tracked
  | [], _, h => h
  | event :: events, r, h => by
    have hone := h.handleTransactionEvent event
    rw [GoMySQLReader.handlePayload]
    split
    · next heq =>
      rw [heq] at hone
      exact hone
    · next heq =>
      rw [heq] at hone
      exact Tracked.handlePayload hone

theorem Tracked.advanceFile (h : r.Tracked) (ev : BinlogEvent) :
    (r.advanceFile ev).1.Tracked := by
  unfold GoMySQLReader.advanceFile
  split
  · exact h
  · split
    · exact h
    · exact h.congr rfl rfl

theorem Tracked.advanceGTID {nextGTID : GTID} (h : r.Tracked)
    (hadv : r.advanceGTID nextGTID = .ok r') : r'.Tracked := by
  unfold GoMySQLReader.advanceGTID at hadv
  split at hadv
  · simp at hadv
  · cases hadv
    exact h.congr rfl rfl
  · cases hadv
    exact h.congr rfl rfl

theorem Tracked.handleEvent (h : r.Tracked) (ev : BinlogEvent) : (r.handleEvent ev).1.Tracked := by
  unfold GoMySQLReader.handleEvent
  have h' := h.advanceFile ev
  generalize r.advanceFile ev = advanced at h' ⊢
  obtain ⟨r', err⟩ := advanced
  cases err with
  | some err => exact h'
  | none =>
    cases ev.body with
    | gtid nextGTID =>
      dsimp only
      split
      · cases hg : r'.advanceGTID nextGTID with
        | error err => exact h'
        | ok r'' => exact h'.advanceGTID hg
      · exact h'
    | gtidTagged nextGTID => exact h'
    | rotate nextLogName =>
      dsimp only
      split
      · exact h'
      · split
        · exact h'
        · exact h'.congr rfl rfl
    | transaction event => exact h'.handleTransactionEvent event
    | transactionPayload events => exact h'.handlePayload

/-- **Whatever a connection reads, its `LastTrxCoords` is its last complete transaction.** -/
theorem Tracked.readEvents : ∀ {events : List BinlogEvent} {r : GoMySQLReader}, r.Tracked →
    (r.readEvents events).Tracked
  | [], _, h => h
  | ev :: events, r, h => by
    have hone := h.handleEvent ev
    rw [GoMySQLReader.readEvents]
    split
    · next heq =>
      rw [heq] at hone
      exact hone
    · next heq =>
      rw [heq] at hone
      exact Tracked.readEvents hone

end GoMySQLReader

end GhOst.Binlog
