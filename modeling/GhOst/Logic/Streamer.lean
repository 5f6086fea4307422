import GhOst.Binlog.Reader

/-!
# Reconnects of the events streamer (`go/logic/streamer.go`)

One step is one turn of the loop of `EventsStreamer.StreamEvents` that ends in a failure of the
reader: the connection reads some events, fails, and a new reader is connected. The turns that end
the loop (an abort, a stop, too many failures, a failed connect) have no successor.
-/

namespace GhOst.Logic

open GhOst.Binlog GhOst.Mysql

structure EventsStreamer where
  useGTIDs : Bool
  binlogSyncerMaxReconnectAttempts : Nat
  initialBinlogCoordinates : BinlogCoordinates
  binlogReader : GoMySQLReader
  successiveFailures : Nat := 0
  /-- the transactions read completely by earlier readers, and the reconnects; two records -/
  trxReadBefore : List BinlogCoordinates := []
  reconnects : List BinlogCoordinates := []
deriving DecidableEq

/-- A streamer after `InitDBConnections`. -/
def initStreamer (useGTIDs : Bool) (maxReconnectAttempts : Nat)
    (coordinates : BinlogCoordinates) : EventsStreamer :=
  { useGTIDs, binlogSyncerMaxReconnectAttempts := maxReconnectAttempts,
    initialBinlogCoordinates := coordinates, binlogReader := connect useGTIDs coordinates }

namespace EventsStreamer

/-- All transactions that were read completely in the life of the streamer, in order. -/
def trxRead (es : EventsStreamer) : List BinlogCoordinates :=
  es.trxReadBefore ++ es.binlogReader.trxRead

/-- "Reposition at same coordinates". -/
def reconnectCoords (es : EventsStreamer) : BinlogCoordinates :=
  match es.binlogReader.lastTrxCoords with
  | some coords => coords
  | none => es.initialBinlogCoordinates

/-- The reconnect after a failure of the reader; `none` when the streamer gives up. -/
def reconnect (es : EventsStreamer) : Option EventsStreamer :=
  if 0 < es.binlogSyncerMaxReconnectAttempts ∧
      es.binlogSyncerMaxReconnectAttempts ≤ es.successiveFailures then none
  else if es.reconnectCoords.isEmpty then none -- "empty coordinates at ConnectBinlogStreamer()"
  else
    some { es with
      binlogReader := connect es.useGTIDs es.reconnectCoords
      successiveFailures :=
        if !es.reconnectCoords.smallerThan es.binlogReader.currentCoordinates then
          es.successiveFailures + 1
        else 0
      trxReadBefore := es.trxRead
      reconnects := es.reconnects ++ [es.reconnectCoords] }

/-- The streamer when its reader has read `events`. -/
def read (es : EventsStreamer) (events : List BinlogEvent) : EventsStreamer :=
  { es with binlogReader := es.binlogReader.readEvents events }

/-- A connection reads `events` and fails. -/
def step (es : EventsStreamer) (events : List BinlogEvent) : Option EventsStreamer :=
  (es.read events).reconnect

theorem step_eq {es es' : EventsStreamer} {events : List BinlogEvent}
    (h : es.step events = some es') :
    es'.initialBinlogCoordinates = es.initialBinlogCoordinates ∧
      es'.binlogReader = connect es.useGTIDs (es.read events).reconnectCoords ∧
      es'.trxReadBefore = (es.read events).trxRead ∧
      es'.reconnects = es.reconnects ++ [(es.read events).reconnectCoords] := by
  unfold step reconnect at h
  split at h
  · simp at h
  · split at h
    · simp at h
    · cases h
      exact ⟨rfl, rfl, rfl, rfl⟩

end EventsStreamer

/-! ## A small log -/

/-- An XID event that ends at `pos`. -/
def xidAt (pos : Nat) : BinlogEvent where
  logPos := pos
  eventSize := 31
  body := .transaction (.xid none)

def fileAt (pos : Int) (eventSize : Int := 0) : BinlogCoordinates :=
  .file { logFile := "binlog.000001", logPos := pos, eventSize }

end GhOst.Logic
