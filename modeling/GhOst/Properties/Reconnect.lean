import Mathlib.Data.List.Chain
import GhOst.Infra.Steps
import GhOst.Logic.Streamer

/-!
# Where the streamer reconnects

The last complete transaction is kept by the reader, and the reader is replaced at every reconnect.
So a connection that fails before it has read a transaction completely sends the streamer back to
its initial coordinates, however far earlier connections came.
-/

namespace GhOst.Logic.EventsStreamer

open GhOst.Binlog GhOst.Mysql Infra

variable {useGTIDs : Bool} {maxReconnectAttempts : Nat} {coordinates : BinlogCoordinates}
variable {es es' : EventsStreamer} {events : List BinlogEvent}

/-- Where a streamer would be that never forgot a complete transaction. -/
def lastTrx (es : EventsStreamer) : BinlogCoordinates :=
  es.trxRead.getLast?.getD es.initialBinlogCoordinates

/-- The failing connection has read a transaction completely, or nothing is forgotten with it. -/
def Remembers (es : EventsStreamer) (events : List BinlogEvent) : Prop :=
  (es.read events).binlogReader.trxRead ≠ [] ∨ es.trxReadBefore = [] ∨
    es.trxReadBefore.getLast? = some es.initialBinlogCoordinates

/-- The server sends the transactions from the requested coordinates on, in order. -/
def ServedInOrder (es : EventsStreamer) (events : List BinlogEvent) : Prop :=
  (es.binlogReader.currentCoordinates :: (es.read events).binlogReader.trxRead).IsChain
    BinlogCoordinates.NotAfter

instance : Decidable (es.Remembers events) := by unfold Remembers; infer_instance

instance : Decidable (es.ServedInOrder events) := by unfold ServedInOrder; infer_instance

structure Fresh (coordinates : BinlogCoordinates) (es : EventsStreamer) : Prop where
  initial : es.initialBinlogCoordinates = coordinates
  tracked : es.binlogReader.Tracked
  unread : es.binlogReader.trxRead = []

theorem Fresh.init :
    Fresh coordinates (initStreamer useGTIDs maxReconnectAttempts coordinates) where
  initial := rfl
  tracked := rfl
  unread := rfl

theorem Fresh.step (h : Fresh coordinates es) (hs : es.step events = some es') :
    Fresh coordinates es' := by
  obtain ⟨hinit, hreader, -, -⟩ := step_eq hs
  constructor
  · rw [hinit]
    exact h.initial
  · rw [hreader]
    exact GoMySQLReader.tracked_connect _ _
  · rw [hreader]
    rfl

theorem Fresh.of_reach {ok : EventsStreamer → List BinlogEvent → Prop}
    (h : Reach EventsStreamer.step ok (initStreamer useGTIDs maxReconnectAttempts coordinates) es) :
    Fresh coordinates es :=
  h.invariant Fresh.init fun _ _ _ hf _ hs => hf.step hs

theorem Fresh.reconnectCoords_read (h : Fresh coordinates es) (events : List BinlogEvent) :
    (es.read events).reconnectCoords =
      (es.read events).binlogReader.trxRead.getLast?.getD coordinates := by
  have htracked : (es.read events).binlogReader.Tracked := h.tracked.readEvents
  unfold reconnectCoords
  rw [htracked]
  cases (es.read events).binlogReader.trxRead.getLast? with
  | none => exact h.initial
  | some coords => rfl

theorem Fresh.reconnectCoords_eq_lastTrx_iff (h : Fresh coordinates es) :
    (es.read events).reconnectCoords = (es.read events).lastTrx ↔ es.Remembers events := by
  rw [h.reconnectCoords_read events]
  unfold lastTrx trxRead Remembers
  show _ = (es.trxReadBefore ++ _).getLast?.getD es.initialBinlogCoordinates ↔ _
  rw [List.getLast?_append, h.initial]
  cases hread : (es.read events).binlogReader.trxRead.getLast? with
  | some coords =>
    have hne : (es.read events).binlogReader.trxRead ≠ [] := by
      rintro hnil
      rw [hnil] at hread
      simp at hread
    simp [hne]
  | none =>
    have hnil := List.getLast?_eq_none_iff.1 hread
    cases hbefore : es.trxReadBefore.getLast? with
    | none => simp [List.getLast?_eq_none_iff.1 hbefore]
    | some last =>
      have hne : es.trxReadBefore ≠ [] := by
        rintro hnil
        rw [hnil] at hbefore
        simp at hbefore
      simp [hnil, hne, eq_comm]

/-- The reader is connected at the last complete transaction, and no reconnect went back. -/
structure Ascending (coordinates : BinlogCoordinates) (es : EventsStreamer) : Prop where
  fresh : Fresh coordinates es
  connected : es.binlogReader.currentCoordinates = es.lastTrx
  last : (coordinates :: es.reconnects).getLast? = some es.lastTrx
  chain : (coordinates :: es.reconnects).IsChain BinlogCoordinates.NotAfter

theorem Ascending.init :
    Ascending coordinates (initStreamer useGTIDs maxReconnectAttempts coordinates) where
  fresh := Fresh.init
  connected := rfl
  last := rfl
  chain := .singleton _

theorem Ascending.lastTrx_read (h : Ascending coordinates es) (hserved : es.ServedInOrder events) :
    BinlogCoordinates.NotAfter es.lastTrx (es.read events).lastTrx := by
  have hlast : (es.read events).lastTrx =
      (es.read events).binlogReader.trxRead.getLast?.getD es.lastTrx := by
    unfold lastTrx trxRead
    show (es.trxReadBefore ++ _).getLast?.getD es.initialBinlogCoordinates = _
    rw [List.getLast?_append, h.fresh.unread, List.append_nil]
    cases (es.read events).binlogReader.trxRead.getLast? <;> rfl
  rw [hlast]
  unfold ServedInOrder at hserved
  rw [h.connected] at hserved
  cases hread : (es.read events).binlogReader.trxRead.getLast? with
  | none => exact BinlogCoordinates.NotAfter.refl _
  | some coords =>
    exact List.rel_of_pairwise_cons (List.isChain_iff_pairwise.1 hserved)
      (List.mem_of_getLast? hread)

theorem Ascending.step (h : Ascending coordinates es) (hok : es.Remembers events)
    (hserved : es.ServedInOrder events) (hs : es.step events = some es') :
    Ascending coordinates es' := by
  obtain ⟨hinit, hreader, hbefore, hreconnects⟩ := step_eq hs
  have hcoords := h.fresh.reconnectCoords_eq_lastTrx_iff.2 hok
  have hlast : es'.lastTrx = (es.read events).lastTrx := by
    unfold lastTrx
    rw [show es'.trxRead = es'.trxReadBefore ++ es'.binlogReader.trxRead from rfl, hbefore, hreader,
      hinit]
    show (_ ++ []).getLast?.getD _ = _
    rw [List.append_nil]
    rfl
  refine ⟨h.fresh.step hs, ?_, ?_, ?_⟩
  · rw [hreader, hlast, ← hcoords]
    rfl
  · rw [hreconnects, hcoords, hlast, ← List.cons_append, List.getLast?_append]
    rfl
  · rw [hreconnects, ← List.cons_append]
    refine h.chain.append (.singleton _) ?_
    intro x hx y hy
    rw [h.last, Option.mem_some_iff] at hx
    rw [List.head?_cons, Option.mem_some_iff] at hy
    rw [← hx, ← hy, hcoords]
    exact h.lastTrx_read hserved

/-- **A reconnect is at the last transaction ever read completely exactly when the failing
connection has read one, or none is forgotten; runs of such reconnects never go back.** -/
theorem reconnects_remember (useGTIDs : Bool) (maxReconnectAttempts : Nat)
    (coordinates : BinlogCoordinates) :
    (∀ es events es', Reachable step (initStreamer useGTIDs maxReconnectAttempts coordinates) es →
      es.step events = some es' →
      (es'.binlogReader.currentCoordinates = (es.read events).lastTrx ↔ es.Remembers events)) ∧
    ∀ es, Reach step (fun es events => es.Remembers events ∧ es.ServedInOrder events)
        (initStreamer useGTIDs maxReconnectAttempts coordinates) es →
      (coordinates :: es.reconnects).Pairwise BinlogCoordinates.NotAfter := by
  constructor
  · intro es events es' hr hs
    obtain ⟨-, hreader, -, -⟩ := step_eq hs
    rw [hreader]
    exact (Fresh.of_reach hr).reconnectCoords_eq_lastTrx_iff
  · intro es hr
    have ha : Ascending coordinates es :=
      hr.invariant Ascending.init fun _ _ _ ha hok hs => ha.step hok.1 hok.2 hs
    exact List.isChain_iff_pairwise.1 ha.chain

/-- After a transaction at 900 and a connection that fails at once, the third is made at the initial
coordinates. -/
theorem reconnect_forgets :
    (run step (initStreamer false 0 (fileAt 4)) [[xidAt 900], []]).map
        (fun es => (es.reconnects, es.trxRead)) =
      some ([fileAt 900 31, fileAt 4], [fileAt 900 31]) ∧
    (fileAt 4).smallerThan (fileAt 900 31) = true := by
  decide

theorem reconnects_remember_small :
    (∃ es, Reach step (fun es events => es.Remembers events ∧ es.ServedInOrder events)
        (initStreamer false 0 (fileAt 4)) es ∧
      es.reconnects.length = 3 ∧
      (fileAt 4 :: es.reconnects).Pairwise BinlogCoordinates.NotAfter) ∧
    ∃ es es', Reachable step (initStreamer false 0 (fileAt 4)) es ∧ es.step [] = some es' ∧
      es'.binlogReader.currentCoordinates ≠ (es.read []).lastTrx := by
  constructor
  · exact exists_reach_of (fun es => es.reconnects.length = 3)
      [[], [xidAt 900, xidAt 1200], [xidAt 1300]] (by decide)
      fun es hr hes => ⟨hes, (reconnects_remember false 0 (fileAt 4)).2 es hr⟩
  · have hnext : ∃ es, Reachable step (initStreamer false 0 (fileAt 4)) es ∧
        (es.step []).isSome = true ∧ ¬ es.Remembers [] := exists_reach [[xidAt 900]] (by decide)
    obtain ⟨es, hr, hsome, hes⟩ := hnext
    obtain ⟨es', hs⟩ := Option.isSome_iff_exists.1 hsome
    refine ⟨es, es', hr, hs, fun heq => hes ?_⟩
    exact ((reconnects_remember false 0 (fileAt 4)).1 es [] es' hr hs).1 heq

end GhOst.Logic.EventsStreamer
