import GhOst.Infra.Streak
import GhOst.Properties.Reconnect

/-!
# The limit of successive reconnects

A failure counts when the connection did not get beyond the coordinates that the next one is made
at. A connection that has read a part of a transaction is beyond them, and so is one that was made
at a transaction read before and read nothing. Such failures reset the counter, and the streamer may
reconnect for ever.
-/

namespace GhOst.Logic.EventsStreamer

open GhOst.Binlog GhOst.Mysql Infra

/-- The coordinates at which the streamer reconnects when this reader fails. -/
def target (initial : BinlogCoordinates) (r : GoMySQLReader) : BinlogCoordinates :=
  r.lastTrxCoords.getD initial

/-- The readers of one connection after the other, as their failures leave them. -/
def failedReaders (useGTIDs : Bool) (initial : BinlogCoordinates) :
    BinlogCoordinates → List (List BinlogEvent) → List GoMySQLReader
  | _, [] => []
  | connectedAt, events :: connections =>
    let r := (connect useGTIDs connectedAt).readEvents events
    r :: failedReaders useGTIDs initial (target initial r) connections

/-- The connection did not get beyond the coordinates at which the next one is made. -/
def stalled (initial : BinlogCoordinates) (r : GoMySQLReader) : Bool :=
  !(target initial r).smallerThan r.currentCoordinates

variable {es : EventsStreamer} {useGTIDs : Bool} {initial connectedAt : BinlogCoordinates}
  {limit : Nat}

theorem failedReaders_concat (connections : List (List BinlogEvent)) (next : List BinlogEvent) :
    ∃ r, failedReaders useGTIDs initial connectedAt (connections ++ [next]) =
      failedReaders useGTIDs initial connectedAt connections ++ [r] := by
  induction connections generalizing connectedAt with
  | nil => exact ⟨_, rfl⟩
  | cons events connections ih =>
    obtain ⟨r, hr⟩ := @ih (target initial ((connect useGTIDs connectedAt).readEvents events))
    refine ⟨r, ?_⟩
    rw [List.cons_append, failedReaders, failedReaders, hr]
    rfl

structure Connected (es : EventsStreamer) (useGTIDs : Bool) (limit : Nat)
    (initial connectedAt : BinlogCoordinates) : Prop where
  mode : es.useGTIDs = useGTIDs
  maxAttempts : es.binlogSyncerMaxReconnectAttempts = limit
  first : es.initialBinlogCoordinates = initial
  reader : es.binlogReader = connect useGTIDs connectedAt

theorem Connected.reconnectCoords (h : Connected es useGTIDs limit initial connectedAt)
    (events : List BinlogEvent) :
    (es.read events).reconnectCoords =
      target initial ((connect useGTIDs connectedAt).readEvents events) := by
  unfold EventsStreamer.reconnectCoords EventsStreamer.read target
  rw [h.reader, h.first]
  dsimp only
  cases ((connect useGTIDs connectedAt).readEvents events).lastTrxCoords <;> rfl

theorem Connected.step (h : Connected es useGTIDs limit initial connectedAt) (hlimit : 0 < limit)
    (events : List BinlogEvent) :
    let r := (connect useGTIDs connectedAt).readEvents events
    (limit ≤ es.successiveFailures ∨ (target initial r).isEmpty = true) ∧
        es.step events = none ∨
      ¬ limit ≤ es.successiveFailures ∧ (target initial r).isEmpty = false ∧
        ∃ es', es.step events = some es' ∧
          Connected es' useGTIDs limit initial (target initial r) ∧
          es'.successiveFailures = if stalled initial r then es.successiveFailures + 1 else 0 := by
  intro r
  have htarget : (es.read events).reconnectCoords = target initial r := h.reconnectCoords events
  have hcurrent : (es.read events).binlogReader.currentCoordinates = r.currentCoordinates := by
    show (es.binlogReader.readEvents events).currentCoordinates = _
    rw [h.reader]
  have hcount : (es.read events).successiveFailures = es.successiveFailures := rfl
  have hlimit' : (es.read events).binlogSyncerMaxReconnectAttempts = limit := h.maxAttempts
  unfold EventsStreamer.step reconnect
  rw [htarget, hcurrent, hcount, hlimit']
  by_cases hover : limit ≤ es.successiveFailures
  · exact .inl ⟨.inl hover, if_pos ⟨hlimit, hover⟩⟩
  rw [if_neg fun hc => hover hc.2]
  cases hempty : (target initial r).isEmpty with
  | true => exact .inl ⟨.inr rfl, if_pos rfl⟩
  | false =>
    rw [if_neg Bool.false_ne_true]
    refine .inr ⟨hover, rfl, _, rfl, ⟨h.mode, rfl, h.first, ?_⟩, rfl⟩
    show connect es.useGTIDs (target initial r) = _
    rw [h.mode]

theorem run_eq_none_iff (h : Connected es useGTIDs limit initial connectedAt) (hlimit : 0 < limit)
    (connections : List (List BinlogEvent)) :
    run EventsStreamer.step es connections = none ↔
      (∃ r ∈ failedReaders useGTIDs initial connectedAt connections,
        (target initial r).isEmpty = true) ∨
      reachesLimit limit es.successiveFailures
        ((failedReaders useGTIDs initial connectedAt connections).map (stalled initial)) =
          true := by
  induction connections generalizing es connectedAt with
  | nil => exact iff_of_false nofun (by simp [failedReaders, reachesLimit])
  | cons events connections ih =>
    rw [run, failedReaders, List.map_cons, reachesLimit, Bool.or_eq_true, decide_eq_true_iff,
      List.exists_mem_cons_iff]
    rcases h.step hlimit events with ⟨hgiveUp, hnone⟩ | ⟨hcount, hempty, es', hsome, h', hcount'⟩
    · rw [hnone]
      refine iff_of_true rfl ?_
      rcases hgiveUp with hover | hempty
      · exact .inr (.inl hover)
      · exact .inl (.inl hempty)
    · rw [hsome, Option.bind_some, ih h', hcount', hempty, or_iff_right hcount,
        or_iff_right Bool.false_ne_true]

theorem tracked_of_mem_failedReaders {connections : List (List BinlogEvent)} {r : GoMySQLReader}
    (h : r ∈ failedReaders useGTIDs initial connectedAt connections) : r.Tracked := by
  induction connections generalizing connectedAt with
  | nil => cases h
  | cons events connections ih =>
    rcases List.mem_cons.mp h with rfl | h
    · exact (GoMySQLReader.tracked_connect _ _).readEvents
    · exact ih h

theorem length_failedReaders (connections : List (List BinlogEvent)) :
    (failedReaders useGTIDs initial connectedAt connections).length = connections.length := by
  induction connections generalizing connectedAt with
  | nil => rfl
  | cons events connections ih =>
    rw [failedReaders, List.length_cons, List.length_cons, ih]

/-- **After `limit + 1` failures in a row without a complete transaction the streamer has given up
exactly when no connection between them got beyond the initial coordinates, or as many were stalled
before.** -/
theorem bounded_reconnects_iff (useGTIDs : Bool) (initial : BinlogCoordinates) {limit : Nat}
    (hlimit : 0 < limit) (before : List (List BinlogEvent)) (first : List BinlogEvent)
    {between : List (List BinlogEvent)} (next : List BinlogEvent)
    (hlength : between.length = limit)
    (hbetween : ∀ r ∈ (failedReaders useGTIDs initial initial
      (before ++ first :: between)).drop (before.length + 1), r.trxRead = []) :
    run EventsStreamer.step (initStreamer useGTIDs limit initial)
        (before ++ first :: between ++ [next]) = none ↔
      (∃ r ∈ failedReaders useGTIDs initial initial (before ++ first :: between ++ [next]),
        (target initial r).isEmpty = true) ∨
      List.replicate limit true <:+:
        ((failedReaders useGTIDs initial initial (before ++ first :: between)).map
          (stalled initial)).dropLast ∨
      ∀ r ∈ (failedReaders useGTIDs initial initial (before ++ first :: between)).drop
          (before.length + 1), initial.smallerThan r.currentCoordinates = false := by
  obtain ⟨last, hlast⟩ := @failedReaders_concat useGTIDs initial initial
    (before ++ first :: between) next
  have hconnected : Connected (initStreamer useGTIDs limit initial) useGTIDs limit initial
      initial :=
    ⟨rfl, rfl, rfl, rfl⟩
  have hcount : (initStreamer useGTIDs limit initial).successiveFailures = 0 := rfl
  rw [run_eq_none_iff hconnected hlimit, hcount, reachesLimit_iff hlimit (Nat.zero_le _)]
  refine or_congr Iff.rfl ?_
  rw [hlast, List.map_append, List.map_singleton, List.replicate_zero, List.nil_append,
    List.dropLast_concat]
  generalize hreaders : failedReaders useGTIDs initial initial (before ++ first :: between) =
    readers at hbetween ⊢
  have hlen : (readers.drop (before.length + 1)).length = limit := by
    rw [← hreaders, List.length_drop, length_failedReaders, List.length_append, List.length_cons]
    omega
  have hsplit : readers.map (stalled initial) =
      (readers.take (before.length + 1)).map (stalled initial) ++
        (readers.drop (before.length + 1)).map (stalled initial) := by
    rw [← List.map_append, List.take_append_drop]
  rw [hsplit, replicate_infix_iff_dropLast hlimit (by rw [List.length_map, hlen]), ← hsplit]
  refine or_congr Iff.rfl ?_
  rw [List.forall_mem_map]
  refine forall₂_congr fun r hr => ?_
  -- it has read no transaction, so the next connection is made at the initial coordinates
  have htracked : r.Tracked := tracked_of_mem_failedReaders (hreaders ▸ List.mem_of_mem_drop hr)
  have hunread : r.lastTrxCoords = none := by
    rw [htracked, hbetween r hr]
    rfl
  unfold stalled target
  rw [hunread, Option.getD_none, Bool.not_eq_true']

/-- With a limit of two, connections that read nothing at all. -/
theorem bounded_reconnects_iff_small :
    run EventsStreamer.step (initStreamer false 2 (fileAt 4)) [[], [], [], []] = none := by
  have hlimit : 0 < 2 := by decide
  have hlength : ([[], []] : List (List BinlogEvent)).length = 2 := rfl
  refine (bounded_reconnects_iff false (fileAt 4) hlimit [] [] [] hlength (by decide)).mpr ?_
  exact .inr (.inr (by decide))

/-- An event inside a transaction, that ends at `pos`. -/
def partAt (pos : Nat) : BinlogEvent where
  logPos := pos
  eventSize := 50
  body := .transaction .other

/-- With a limit of one: connections that each read a part of a transaction, and a transaction that
is read before connections that read nothing. -/
theorem reconnects_beyond_limit :
    ((run EventsStreamer.step (initStreamer false 1 (fileAt 4))
        [[partAt 200], [partAt 200], [partAt 200]]).map
      fun es => (es.reconnects, es.trxRead, es.successiveFailures)) =
      some ([fileAt 4, fileAt 4, fileAt 4], [], 0) ∧
    ((run EventsStreamer.step (initStreamer false 1 (fileAt 4))
        [[xidAt 900, partAt 1000], [], []]).map
      fun es => (es.reconnects, es.trxRead)) =
      some ([fileAt 900 31, fileAt 4, fileAt 4], [fileAt 900 31]) := by
  decide

end GhOst.Logic.EventsStreamer
