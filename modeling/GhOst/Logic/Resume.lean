import GhOst.Logic.CopyReplay

/-!
# Checkpoints, crashes and resuming

`Checkpoint` samples the reader's position and the last copied range, waits until an acknowledged
transaction boundary covers the position, and persists the boundary with the range. The copy and the
event application go on in between, and the process may be killed at any point. `Migrate` with
`Resume` then starts from the last checkpoint that was written. The coordinates `n` stand for those
after the first `n` changes.
-/

namespace GhOst.Logic

open GhOst.Sql

variable {σ κ : Type} [LinearOrder κ]

/-- `Checkpoint`; `id`, the time stamp, the two counters and `isCutover` are left out. -/
structure Checkpoint (κ : Type) where
  lastTrxCoords : Nat
  iterationRangeMin : List κ
  iterationRangeMax : List κ
  iteration : Nat
deriving DecidableEq, Repr

/-- What `Checkpoint` holds while it waits for the boundary. -/
structure Sample (κ : Type) where
  coords : Nat
  iterationRangeMin : List κ
  iterationRangeMax : List κ
  iteration : Nat
deriving DecidableEq, Repr

/-- A run of the migration process, with the checkpoints it has written. -/
structure Session (σ κ : Type) where
  live : State σ κ
  /-- where the transactions of the history end -/
  trxEnds : List Nat := []
  appliedTransactionCoordinates : Option Nat := none
  /-- `LastIterationRangeMinValues` and `LastIterationRangeMaxValues`, set together -/
  lastIterationRange : Option (List κ × List κ) := none
  sample : Option (Sample κ) := none
  /-- the last row of the checkpoint table -/
  lastCheckpoint : Option (Checkpoint κ) := none
deriving DecidableEq, Repr

inductive SessionAction (σ : Type) where
  | live (a : Action σ)
  /-- the applier acknowledges a transaction all of whose events are applied -/
  | acknowledge (trxEnd : Nat)
  /-- the worker records the range of the chunk that it has just copied -/
  | recordLastIterationRange
  | sampleCheckpoint (coords : Nat)
  | writeCheckpoint
  /-- the process is killed and started again with `--resume` -/
  | crashAndResume
deriving DecidableEq, Repr

/-- The state `Migrate` starts from: nothing is left but the tables and the checkpoint. -/
def State.resume (s : State σ κ) (chk : Checkpoint κ) : State σ κ :=
  { original := s.original
    history := s.history
    delivered := chk.lastTrxCoords
    applied := chk.lastTrxCoords
    ghost := s.ghost
    migrationIterationRangeMinValues := some chk.iterationRangeMin
    migrationIterationRangeMaxValues := some chk.iterationRangeMax
    iteration := chk.iteration }

def Migration.sessionStep (m : Migration σ κ) [DecidableEq σ] (s : Session σ κ) :
    SessionAction σ → Option (Session σ κ)
  | .live a =>
    match m.step s.live a with
    | none => none
    | some live =>
      let trxEnds := match a with
        | .commit _ => live.history.length :: s.trxEnds
        | _ => s.trxEnds
      some { s with live, trxEnds }
  | .acknowledge trxEnd =>
    if trxEnd ∈ s.trxEnds ∧ trxEnd ≤ s.live.applied then
      some { s with appliedTransactionCoordinates := some trxEnd }
    else none
  | .recordLastIterationRange =>
    match s.live.inChunk, s.live.migrationIterationRangeMinValues,
        s.live.migrationIterationRangeMaxValues with
    | false, some rangeMin, some rangeMax =>
      some { s with lastIterationRange := some (rangeMin, rangeMax) }
    | _, _, _ => none
  | .sampleCheckpoint coords =>
    match s.lastIterationRange with
    | some (iterationRangeMin, iterationRangeMax) =>
      some { s with
        sample := some { coords, iterationRangeMin, iterationRangeMax,
                         iteration := s.live.iteration } }
    -- "iteration range is empty, not checkpointing"
    | none => none
  | .writeCheckpoint =>
    match s.sample, s.appliedTransactionCoordinates with
    | some sample, some applied =>
      if sample.coords ≤ applied then
        some { s with
          sample := none
          lastCheckpoint := some {
            lastTrxCoords := applied
            iterationRangeMin := sample.iterationRangeMin
            iterationRangeMax := sample.iterationRangeMax
            iteration := sample.iteration } }
      else none
    | _, _ => none
  | .crashAndResume =>
    match s.lastCheckpoint with
    | some chk =>
      some { live := s.live.resume chk, trxEnds := s.trxEnds, lastCheckpoint := some chk }
    -- "no checkpoint found, unable to resume"
    | none => none

end GhOst.Logic
