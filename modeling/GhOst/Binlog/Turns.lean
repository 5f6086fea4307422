import GhOst.Binlog.StreamEvents

/-!
# The loop of `StreamEvents`, turn by turn

What a turn does to the coordinates and whether it fails can be told from the event: the events of
transactions leave the current coordinates alone, and an error of theirs does not depend on the
reader.
-/

namespace GhOst.Binlog

open GhOst.Sql GhOst.Mysql

/-- The error with which an event of a transaction is refused. -/
def TransactionEvent.error : TransactionEvent → Option ReadError
  | .rows dml databaseName tableName images =>
    if dml = .notDML then some (.error "unknown DML type")
    else
      match rowEvents databaseName tableName dml images with
      | .error f => some (.fault f)
      | .ok _ => none
  | .xid _ => none
  | .other => none

def EventBody.error : EventBody → Option ReadError
  | .transaction event => event.error
  | .transactionPayload events => events.findSome? TransactionEvent.error
  | .gtid _ | .gtidTagged _ | .rotate _ => none

/-- The error of an event that reaches beyond four bytes. -/
def overflowError : ReadError := .error "the binlog end_log_pos is overflow 4 bytes"

theorem TransactionEvent.error_ne_overflow (event : TransactionEvent) :
    event.error ≠ some overflowError := by
  cases event with
  | rows dml databaseName tableName rows =>
    unfold TransactionEvent.error
    dsimp only
    split
    · decide
    · split <;> exact nofun
  | xid gset => exact nofun
  | other => exact nofun

theorem EventBody.error_ne_overflow (body : EventBody) : body.error ≠ some overflowError := by
  cases body with
  | gtid | gtidTagged | rotate => exact nofun
  | transaction event => exact event.error_ne_overflow
  | transactionPayload events =>
    intro h
    obtain ⟨event, -, he⟩ := List.exists_of_findSome?_eq_some h
    exact event.error_ne_overflow he

namespace GoMySQLReader

/-- One turn after the other, up to the first error: the reader, what was sent, and the error. -/
def turns (r : GoMySQLReader) :
    List BinlogEvent → List (GoMySQLReader × List BinlogEntry × Option ReadError)
  | [] => []
  | ev :: events =>
    match r.handleEvent ev with
    | (r, entries, some err) => [(r, entries, some err)]
    | (r, entries, none) => (r, entries, none) :: r.turns events

theorem turns_cons (r : GoMySQLReader) (ev : BinlogEvent) (events : List BinlogEvent) :
    r.turns (ev :: events) =
      r.handleEvent ev ::
        (if (r.handleEvent ev).2.2 = none then (r.handleEvent ev).1.turns events else []) := by
  rw [turns]
  split
  · next heq => rw [heq, if_neg (Option.some_ne_none _)]
  · next heq => rw [heq, if_pos rfl]

structure Stays (r r' : GoMySQLReader) : Prop where
  useGTIDs : r'.useGTIDs = r.useGTIDs
  currentCoordinates : r'.currentCoordinates = r.currentCoordinates

theorem Stays.refl (r : GoMySQLReader) : Stays r r := ⟨rfl, rfl⟩

theorem Stays.trans {r₁ r₂ r₃ : GoMySQLReader} (h : Stays r₁ r₂) (h' : Stays r₂ r₃) :
    Stays r₁ r₃ :=
  ⟨h'.useGTIDs.trans h.useGTIDs, h'.currentCoordinates.trans h.currentCoordinates⟩

theorem stays_transactionEvent (r : GoMySQLReader) (event : TransactionEvent) :
    Stays r (r.handleTransactionEvent event).1 ∧
      (r.handleTransactionEvent event).2.2 = event.error := by
  cases event with
  | rows dml databaseName tableName rows =>
    unfold handleTransactionEvent TransactionEvent.error handleRowsEvent
    dsimp only
    split
    · exact ⟨.refl r, rfl⟩
    · cases rowEvents databaseName tableName dml rows with
      | error f => exact ⟨.refl r, rfl⟩
      | ok events => exact ⟨⟨rfl, rfl⟩, rfl⟩
  | xid gset => exact ⟨⟨rfl, rfl⟩, rfl⟩
  | other => exact ⟨.refl r, rfl⟩

theorem stays_payload (r : GoMySQLReader) (events : List TransactionEvent) :
    Stays r (r.handlePayload events).1 ∧
      (r.handlePayload events).2.2 = events.findSome? TransactionEvent.error := by
  induction events generalizing r with
  | nil => exact ⟨.refl r, rfl⟩
  | cons event events ih =>
    obtain ⟨hstays, herror⟩ := stays_transactionEvent r event
    rw [handlePayload, List.findSome?_cons]
    split
    · next heq =>
      rw [heq] at hstays herror
      rw [← herror]
      exact ⟨hstays, rfl⟩
    · next r' entries heq =>
      rw [heq] at hstays herror
      rw [← herror]
      exact ⟨hstays.trans (ih r').1, (ih r').2⟩

/-! ## File positions -/

section File

variable {r : GoMySQLReader} {c : FileBinlogCoordinates} {ev : BinlogEvent}

theorem overflow_iff (c : FileBinlogCoordinates) (ev : BinlogEvent) :
    ({ c with logPos := ev.logPos, eventSize := ev.eventSize } :
        FileBinlogCoordinates).isLogPosOverflowBeyond4Bytes c = true ↔
      c.logFile ≠ "" ∧ 2 ^ 32 ≤ c.logPos + ev.eventSize := by
  unfold FileBinlogCoordinates.isLogPosOverflowBeyond4Bytes
  simp

theorem handleEvent_overflow (hf : r.useGTIDs = false) (hc : r.currentCoordinates = .file c)
    (hover : c.logFile ≠ "" ∧ 2 ^ 32 ≤ c.logPos + ev.eventSize) :
    (r.handleEvent ev).2.2 = some overflowError := by
  have hadvance : (r.advanceFile ev).2 = some overflowError := by
    unfold advanceFile
    rw [if_neg (by rw [hf]; decide), hc]
    dsimp only
    rw [if_pos ((overflow_iff c ev).mpr hover)]
    rfl
  unfold handleEvent
  generalize r.advanceFile ev = advanced at hadvance ⊢
  obtain ⟨r', err⟩ := advanced
  have herr : err = some overflowError := hadvance
  rw [herr]

/-- The file of the header is the one that was known, and the name of the next one comes last. -/
theorem handleEvent_within (hf : r.useGTIDs = false) (hc : r.currentCoordinates = .file c)
    (hwithin : ¬ (c.logFile ≠ "" ∧ 2 ^ 32 ≤ c.logPos + ev.eventSize)) :
    (r.handleEvent ev).1.useGTIDs = false ∧
      (r.handleEvent ev).1.currentCoordinates = position (.file c) ev ∧
      (r.handleEvent ev).2.2 = ev.body.error := by
  obtain ⟨r', hadvance, hf', hc'⟩ : ∃ r', r.advanceFile ev = (r', none) ∧ r'.useGTIDs = false ∧
      r'.currentCoordinates = .file { c with logPos := ev.logPos, eventSize := ev.eventSize } := by
    unfold advanceFile
    rw [if_neg (by rw [hf]; decide), hc]
    dsimp only
    rw [if_neg (fun h => hwithin ((overflow_iff c ev).mp h))]
    exact ⟨_, rfl, hf, rfl⟩
  unfold handleEvent position
  rw [hadvance]
  dsimp only
  cases ev.body with
  | gtid nextGTID =>
    dsimp only
    rw [if_neg (by rw [hf']; decide)]
    exact ⟨hf', hc', rfl⟩
  | gtidTagged nextGTID => exact ⟨hf', hc', rfl⟩
  | rotate nextLogName =>
    dsimp only
    rw [if_neg (by rw [hf']; decide), hc']
    exact ⟨hf', rfl, rfl⟩
  | transaction event =>
    obtain ⟨hstays, herror⟩ := stays_transactionEvent r' event
    exact ⟨hstays.useGTIDs.trans hf', hstays.currentCoordinates.trans hc', herror⟩
  | transactionPayload events =>
    obtain ⟨hstays, herror⟩ := stays_payload r' events
    exact ⟨hstays.useGTIDs.trans hf', hstays.currentCoordinates.trans hc', herror⟩

end File

end GoMySQLReader

end GhOst.Binlog
