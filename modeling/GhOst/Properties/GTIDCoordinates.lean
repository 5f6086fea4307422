import Mathlib.Data.List.Chain
import GhOst.Binlog.Turns

/-!
# GTID coordinates of the reader

At a GTID event the current set is built anew from the set of the last transaction that an XID event
ended. A transaction that ends without one, as a DDL statement does, is in no such set: it is lost
at the next GTID event, until the next XID event brings it back. A GTID with a tag is not added at
all. The sets are those of the MySQL flavor.
-/

namespace GhOst.Binlog

open GhOst.Mysql

/-! ## The stream -/

def TransactionEvent.isXID : TransactionEvent → Bool
  | .xid _ => true
  | _ => false

def BinlogEvent.hasXID (ev : BinlogEvent) : Bool := ev.transactionEvents.any TransactionEvent.isXID

/-- The start set and the GTIDs sent up to this event. -/
def seenAfter (seen : Finset GTID) (ev : BinlogEvent) : Finset GTID :=
  match ev.body with
  | .gtid next | .gtidTagged next => insert next seen
  | _ => seen

/-- The same for each event of a stream. -/
def seenAfterEach : Finset GTID → List BinlogEvent → List (Finset GTID)
  | _, [] => []
  | seen, ev :: events => seenAfter seen ev :: seenAfterEach (seenAfter seen ev) events

/-- A server sends each transaction once; the set of an XID event is the start set with all GTIDs
sent so far. -/
def Sends : Finset GTID → List BinlogEvent → Prop
  | _, [] => True
  | seen, ev :: events =>
    (∀ next, ev.body = .gtid next ∨ ev.body = .gtidTagged next → next ∉ seen) ∧
      (∀ gset, .xid gset ∈ ev.transactionEvents → gset = some seen) ∧
      Sends (seenAfter seen ev) events

/-- No GTID has a tag. -/
def Untagged (events : List BinlogEvent) : Prop :=
  ∀ ev ∈ events, ∀ next, ev.body ≠ .gtidTagged next

/-- A GTID event is read only when the transaction before it was ended by an XID event, or no XID
event was read. -/
def EndedByXID (xidRead openTrx : Bool) : List BinlogEvent → Prop
  | [] => True
  | ev :: events =>
    match ev.body with
    | .gtid _ => ¬ (xidRead = true ∧ openTrx = true) ∧ EndedByXID xidRead true events
    | body =>
      body.error = none → EndedByXID (xidRead || ev.hasXID) (openTrx && !ev.hasXID) events

/-! ## What should be exposed -/

/-- The set that `GetCurrentBinlogCoordinates` exposes. -/
def GoMySQLReader.gtids (r : GoMySQLReader) : Finset GTID :=
  match r.currentCoordinates with
  | .gtid (some set) => set
  | _ => ∅

/-- `LastTrxCoords` of the checkpoint that `CheckpointAfterCutOver` writes when this entry is the
sentinel. -/
def checkpointAfterCutOver (entry : BinlogEntry) : Option BinlogCoordinates :=
  if entry.coordinates.isEmpty then none else some entry.coordinates

/-- The coordinates of a row have all these GTIDs, and so has the checkpoint if it is a sentinel. -/
def BinlogEntry.Covers (entry : BinlogEntry) (seen : Finset GTID) : Prop :=
  ∃ set, entry.coordinates = .gtid (some set) ∧
    checkpointAfterCutOver entry = some (.gtid (some set)) ∧ seen ⊆ set

/-- No GTID is lost from one event to the next, and the rows have the GTIDs sent so far. -/
structure GTIDsKept (r : GoMySQLReader) (seen : Finset GTID) (events : List BinlogEvent) :
    Prop where
  grow : (r :: (r.turns events).map Prod.fst).IsChain fun r r' => r.gtids ⊆ r'.gtids
  rows : ∀ x ∈ (r.turns events).zip (seenAfterEach seen events),
    ∀ entry ∈ x.1.2.1, entry.dmlEvent.isSome = true → entry.Covers x.2

namespace GoMySQLReader

variable {r : GoMySQLReader} {seen : Finset GTID} {ev : BinlogEvent} {events : List BinlogEvent}

theorem gtidsKept_nil : GTIDsKept r seen [] :=
  ⟨.singleton _, fun _ hx => nomatch hx⟩

theorem gtidsKept_cons :
    GTIDsKept r seen (ev :: events) ↔
      (r.gtids ⊆ (r.handleEvent ev).1.gtids ∧
        ∀ entry ∈ (r.handleEvent ev).2.1, entry.dmlEvent.isSome = true →
          entry.Covers (seenAfter seen ev)) ∧
      ((r.handleEvent ev).2.2 = none →
        GTIDsKept (r.handleEvent ev).1 (seenAfter seen ev) events) := by
  constructor
  · rintro ⟨hgrow, hrows⟩
    rw [turns_cons, List.map_cons, List.isChain_cons_cons] at hgrow
    rw [turns_cons, seenAfterEach, List.zip_cons_cons, List.forall_mem_cons] at hrows
    refine ⟨⟨hgrow.1, hrows.1⟩, fun hnone => ?_⟩
    rw [if_pos hnone] at hgrow hrows
    exact ⟨hgrow.2, hrows.2⟩
  · rintro ⟨⟨hgrows, hcovers⟩, hrest⟩
    refine ⟨?_, ?_⟩
    · rw [turns_cons, List.map_cons, List.isChain_cons_cons]
      refine ⟨hgrows, ?_⟩
      split
      · next hnone => exact (hrest hnone).grow
      · exact .singleton _
    · rw [turns_cons, seenAfterEach, List.zip_cons_cons, List.forall_mem_cons]
      refine ⟨hcovers, ?_⟩
      split
      · next hnone => exact (hrest hnone).rows
      · exact fun _ hx => nomatch hx

/-! ## The events of a transaction -/

theorem error_eq_findSome (ev : BinlogEvent) :
    ev.body.error = ev.transactionEvents.findSome? TransactionEvent.error := by
  unfold EventBody.error BinlogEvent.transactionEvents
  cases ev.body with
  | gtid | gtidTagged | rotate => rfl
  | transaction event =>
    show event.error = [event].findSome? TransactionEvent.error
    rw [List.findSome?_cons]
    cases event.error <;> rfl
  | transactionPayload events => rfl

theorem handleEvent_eq_payload (hg : r.useGTIDs = true) (hev : ∀ next, ev.body ≠ .gtid next) :
    r.handleEvent ev = r.handlePayload ev.transactionEvents := by
  unfold handleEvent BinlogEvent.transactionEvents
  rw [advanceFile_gtid hg]
  dsimp only
  cases hbody : ev.body with
  | gtid next => exact absurd hbody (hev next)
  | gtidTagged next => rfl
  | rotate next => exact if_pos hg
  | transaction event =>
    dsimp only
    rw [handlePayload]
    split
    · next heq => rw [heq]
    · next heq =>
      rw [heq, handlePayload]
      dsimp only
      rw [List.append_nil]
  | transactionPayload events => rfl

theorem handleEvent_gtid (hg : r.useGTIDs = true) {next : GTID} (hev : ev.body = .gtid next)
    {set : Finset GTID} (hset : r.lastTrxCoords.getD r.currentCoordinates = .gtid (some set)) :
    r.handleEvent ev =
      ({ r with currentCoordinates := .gtid (some (insert next set)) }, [], none) := by
  unfold handleEvent
  rw [advanceFile_gtid hg, hev]
  dsimp only
  rw [if_pos hg]
  unfold advanceGTID
  rw [hset]

theorem rows_transactionEvent (event : TransactionEvent) :
    ∀ entry ∈ (r.handleTransactionEvent event).2.1, entry.dmlEvent.isSome = true →
      entry.coordinates = r.currentCoordinates := by
  intro entry hentry hdml
  cases event with
  | rows dml databaseName tableName images =>
    unfold handleTransactionEvent handleRowsEvent at hentry
    dsimp only at hentry
    split at hentry
    · cases hentry
    · split at hentry
      · cases hentry
      · obtain ⟨row, -, rfl⟩ := List.mem_map.mp hentry
        rfl
  | xid gset =>
    have hmarker : entry ∈ (r.completeTransaction gset).2 := hentry
    unfold completeTransaction at hmarker
    dsimp only at hmarker
    split at hmarker
    · rw [List.mem_singleton.mp hmarker] at hdml
      cases hdml
    · cases hmarker
  | other => cases hentry

theorem rows_payload (events : List TransactionEvent) :
    ∀ entry ∈ (r.handlePayload events).2.1, entry.dmlEvent.isSome = true →
      entry.coordinates = r.currentCoordinates := by
  induction events generalizing r with
  | nil => exact fun entry hentry => nomatch hentry
  | cons event events ih =>
    intro entry hentry hdml
    have hone := @rows_transactionEvent r event entry
    obtain ⟨hstays, -⟩ := stays_transactionEvent r event
    rw [handlePayload] at hentry
    split at hentry
    · next heq =>
      rw [heq] at hone
      exact hone hentry hdml
    · next r' entries heq =>
      rw [heq] at hone hstays
      rcases List.mem_append.mp hentry with hentry | hentry
      · exact hone hentry hdml
      · rw [ih entry hentry hdml, hstays.currentCoordinates]

theorem lastTrxCoords_transactionEvent (hg : r.useGTIDs = true) (event : TransactionEvent)
    (hxid : ∀ gset, event = .xid gset → gset = some seen) :
    (r.handleTransactionEvent event).1.lastTrxCoords =
      if event.isXID then some (.gtid (some seen)) else r.lastTrxCoords := by
  cases event with
  | rows dml databaseName tableName images =>
    unfold handleTransactionEvent handleRowsEvent
    dsimp only
    split
    · rfl
    · split <;> rfl
  | xid gset =>
    rw [hxid gset rfl]
    show some (r.trxCoords (some seen)) = _
    unfold trxCoords
    rw [if_pos ⟨hg, rfl⟩]
    rfl
  | other => rfl

theorem lastTrxCoords_payload (hg : r.useGTIDs = true) {events : List TransactionEvent}
    (hxid : ∀ gset, .xid gset ∈ events → gset = some seen)
    (hok : (r.handlePayload events).2.2 = none) :
    (r.handlePayload events).1.lastTrxCoords =
      if events.any TransactionEvent.isXID then some (.gtid (some seen))
      else r.lastTrxCoords := by
  induction events generalizing r with
  | nil => rfl
  | cons event events ih =>
    obtain ⟨hstays, -⟩ := stays_transactionEvent r event
    have hone := lastTrxCoords_transactionEvent hg event fun gset h =>
      hxid gset (h ▸ List.mem_cons_self)
    rw [handlePayload] at hok ⊢
    split at hok
    · cases hok
    · next r' entries heq =>
      rw [heq] at hstays hone
      have hrest := ih (hstays.useGTIDs.trans hg)
        (fun gset h => hxid gset (List.mem_cons_of_mem _ h)) hok
      dsimp only at hrest hone ⊢
      rw [hrest, hone, List.any_cons]
      cases event.isXID <;> cases events.any TransactionEvent.isXID <;> rfl

/-! ## A whole stream -/

/-- The current set has everything, and so has the last one of an XID event unless a transaction is
open. -/
structure Follows (r : GoMySQLReader) (seen : Finset GTID) (xidRead openTrx : Bool) : Prop where
  useGTIDs : r.useGTIDs = true
  current : r.currentCoordinates = .gtid (some seen)
  unread : xidRead = false → r.lastTrxCoords = none
  last : xidRead = true → ∃ set, r.lastTrxCoords = some (.gtid (some set)) ∧
    (openTrx = false → set = seen) ∧ (openTrx = true → ∃ g ∈ seen, g ∉ set)

variable {xidRead openTrx : Bool}

theorem Follows.gtids (h : Follows r seen xidRead openTrx) : r.gtids = seen := by
  unfold GoMySQLReader.gtids
  rw [h.current]

theorem covers_of_current {entry : BinlogEntry} (h : entry.coordinates = .gtid (some seen)) :
    entry.Covers seen := by
  refine ⟨seen, h, ?_, Finset.Subset.refl _⟩
  unfold checkpointAfterCutOver
  rw [h]
  rfl

theorem Follows.payload (h : Follows r seen xidRead openTrx) (hev : ∀ next, ev.body ≠ .gtid next)
    (hxid : ∀ gset, .xid gset ∈ ev.transactionEvents → gset = some seen)
    (hok : (r.handleEvent ev).2.2 = none) :
    Follows (r.handleEvent ev).1 seen (xidRead || ev.hasXID) (openTrx && !ev.hasXID) := by
  rw [handleEvent_eq_payload h.useGTIDs hev] at hok ⊢
  obtain ⟨hstays, -⟩ := stays_payload r ev.transactionEvents
  have hlast := lastTrxCoords_payload h.useGTIDs hxid hok
  refine ⟨hstays.useGTIDs.trans h.useGTIDs, hstays.currentCoordinates.trans h.current, ?_, ?_⟩
  · intro hunread
    rw [Bool.or_eq_false_iff] at hunread
    unfold BinlogEvent.hasXID at hunread
    rw [hlast, hunread.2]
    exact h.unread hunread.1
  · intro hread
    unfold BinlogEvent.hasXID at hread ⊢
    rw [hlast]
    cases hany : ev.transactionEvents.any TransactionEvent.isXID with
    | true =>
      refine ⟨seen, rfl, fun _ => rfl, fun hopen => ?_⟩
      rw [Bool.not_true, Bool.and_false] at hopen
      cases hopen
    | false =>
      rw [hany, Bool.or_false] at hread
      rw [Bool.not_false, Bool.and_true]
      exact h.last hread

theorem Follows.begins (h : Follows r seen xidRead openTrx) {next : GTID} (hnext : next ∉ seen)
    (hev : ev.body = .gtid next) (hended : ¬ (xidRead = true ∧ openTrx = true)) :
    Follows (r.handleEvent ev).1 (insert next seen) xidRead true ∧
      (r.handleEvent ev).2 = ([], none) := by
  have hset : r.lastTrxCoords.getD r.currentCoordinates = .gtid (some seen) := by
    cases hread : xidRead with
    | false =>
      rw [h.unread hread]
      exact h.current
    | true =>
      obtain ⟨set, hlast, hended', -⟩ := h.last hread
      have hclosed : openTrx = false := Bool.eq_false_iff.mpr fun hopen => hended ⟨hread, hopen⟩
      rw [hlast, hended' hclosed]
      rfl
  rw [handleEvent_gtid h.useGTIDs hev hset]
  refine ⟨⟨h.useGTIDs, rfl, h.unread, fun hread => ?_⟩, rfl⟩
  obtain ⟨set, hlast, hended', -⟩ := h.last hread
  have hclosed : openTrx = false := Bool.eq_false_iff.mpr fun hopen => hended ⟨hread, hopen⟩
  refine ⟨set, hlast, nofun, fun _ => ⟨next, Finset.mem_insert_self next seen, ?_⟩⟩
  rw [hended' hclosed]
  exact hnext

theorem Follows.loses (h : Follows r seen true true) {next : GTID} (hnext : next ∉ seen)
    (hev : ev.body = .gtid next) : ¬ r.gtids ⊆ (r.handleEvent ev).1.gtids := by
  obtain ⟨set, hlast, -, hopen⟩ := h.last rfl
  obtain ⟨g, hg, hset⟩ := hopen rfl
  have hcurrent : r.lastTrxCoords.getD r.currentCoordinates = .gtid (some set) := by rw [hlast]; rfl
  rw [handleEvent_gtid h.useGTIDs hev hcurrent, h.gtids]
  intro hsub
  rcases Finset.mem_insert.mp (hsub hg) with rfl | hmem
  · exact hnext hg
  · exact hset hmem

theorem gtidsKept_iff (h : Follows r seen xidRead openTrx) (hs : Sends seen events)
    (hplain : Untagged events) : GTIDsKept r seen events ↔ EndedByXID xidRead openTrx events := by
  induction events generalizing r seen xidRead openTrx with
  | nil => exact iff_of_true gtidsKept_nil trivial
  | cons ev events ih =>
    obtain ⟨hnext, hxid, hs⟩ := hs
    have htag := hplain ev List.mem_cons_self
    have hplain : Untagged events := fun ev hev => hplain ev (List.mem_cons_of_mem _ hev)
    rw [gtidsKept_cons, EndedByXID]
    have hseen : seenAfter seen ev = match ev.body with
        | .gtid next => insert next seen
        | _ => seen := by
      unfold seenAfter
      cases hbody : ev.body with
      | gtidTagged next => exact absurd hbody (htag next)
      | _ => rfl
    rw [hseen] at hs ⊢
    split
    · next next hev =>
      rw [hev] at hs
      have hfresh := hnext next (.inl hev)
      by_cases hended : xidRead = true ∧ openTrx = true
      · obtain ⟨rfl, rfl⟩ := hended
        exact iff_of_false (fun hkept => h.loses hfresh hev hkept.1.1) fun hc => hc.1 ⟨rfl, rfl⟩
      · obtain ⟨hfollows, hrest⟩ := h.begins hfresh hev hended
        rw [hrest, imp_iff_right rfl, ih hfollows hs hplain]
        refine and_congr_left' (iff_of_true ⟨?_, nofun⟩ hended)
        rw [h.gtids, hfollows.gtids]
        exact Finset.subset_insert next seen
    · next hev =>
      have hs : Sends seen events := by
        split at hs
        · next next hbody => exact (hev next hbody).elim
        · exact hs
      have hpayload := handleEvent_eq_payload h.useGTIDs hev
      obtain ⟨hstays, herror⟩ := stays_payload r ev.transactionEvents
      rw [← hpayload] at hstays herror
      rw [← error_eq_findSome] at herror
      have hgrows : r.gtids ⊆ (r.handleEvent ev).1.gtids := by
        unfold gtids
        rw [hstays.currentCoordinates]
      have hcovers : ∀ entry ∈ (r.handleEvent ev).2.1, entry.dmlEvent.isSome = true →
          entry.Covers seen := by
        intro entry hentry hdml
        rw [hpayload] at hentry
        exact covers_of_current ((rows_payload _ entry hentry hdml).trans h.current)
      rw [and_iff_right ⟨hgrows, hcovers⟩, herror]
      exact imp_congr_right fun hnone => ih (h.payload hev hxid (herror.trans hnone)) hs hplain

end GoMySQLReader

def gtidEvent (next : GTID) : BinlogEvent := { logPos := 0, eventSize := 65, body := .gtid next }

def transactionEvent (event : TransactionEvent) : BinlogEvent where
  logPos := 0
  eventSize := 31
  body := .transaction event

/-- A row of the changelog table. -/
def stateRow : TransactionEvent := .rows .insertDML "db" "_t_ghc" [[.int64 1]]

end GhOst.Binlog
