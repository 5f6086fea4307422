import GhOst.Binlog.Turns

/-!
# File positions of the reader

The header of an event has the last four bytes of its end. The reader takes the position from there
and the file from the rotate events, and holds an event to be beyond four bytes when it is so
counted from the position recorded before it. A rotate event changes the file but not the position,
so the first event of the next file is counted from the end of the file that was left.
-/

namespace GhOst.Binlog

open GhOst.Mysql

/-! ## The log -/

structure LogPosition where
  file : String
  offset : Nat
deriving DecidableEq, Repr

/-- An event as it stands in a file. -/
structure LogEvent where
  size : Nat
  body : EventBody
  /-- there is at least the header -/
  header : 19 ≤ size
  named : ∀ next, body = .rotate next → next ≠ ""

namespace LogEvent

variable (e : LogEvent) (pos : LogPosition)

def rotates : Bool :=
  match e.body with
  | .rotate _ => true
  | _ => false

/-- The offset at which an event that starts at `pos` ends. -/
def ends : Nat := pos.offset + e.size

/-- Where the log goes on after it: the first event of a file starts at offset 4. -/
def after : LogPosition :=
  match e.body with
  | .rotate next => { file := next, offset := 4 }
  | _ => { file := pos.file, offset := e.ends pos }

/-- The event as it is sent, with four bytes for its end. -/
def sent : BinlogEvent := { logPos := e.ends pos % 2 ^ 32, eventSize := e.size, body := e.body }

/-- It ends within four bytes and is not refused for what it holds. -/
def accepted : Bool := e.ends pos < 2 ^ 32 ∧ e.body.error = none

end LogEvent

/-- The events of a log with their places. Events of a file are contiguous. -/
def placed : LogPosition → List LogEvent → List (LogPosition × LogEvent)
  | _, [] => []
  | pos, e :: events => (pos, e) :: placed (e.after pos) events

def sent (pos : LogPosition) (events : List LogEvent) : List BinlogEvent :=
  (placed pos events).map fun p => p.2.sent p.1

/-- The events up to the first one that is not accepted. -/
def readable (pos : LogPosition) (events : List LogEvent) : List (LogPosition × LogEvent) :=
  (placed pos events).takeWhile fun p => p.2.accepted p.1

/-- As long as events are accepted, one that follows a rotate event and seems to reach beyond four
bytes does so. -/
def RotationsFit : List (LogPosition × LogEvent) → Prop
  | p :: q :: rest =>
    p.2.accepted p.1 = true →
      (p.2.rotates = true → 2 ^ 32 ≤ p.2.ends p.1 + q.2.size → 2 ^ 32 ≤ q.2.ends q.1) ∧
        RotationsFit (q :: rest)
  | _ => True

/-! ## What should be recorded -/

def LogPosition.coordinates (pos : LogPosition) : BinlogCoordinates :=
  .file { logFile := pos.file, logPos := pos.offset }

/-- The recorded coordinates are this position. -/
def GoMySQLReader.At (r : GoMySQLReader) (pos : LogPosition) : Prop :=
  ∃ c, r.currentCoordinates = .file c ∧ c.logFile = pos.file ∧ c.logPos = pos.offset

abbrev Turn := GoMySQLReader × List BinlogEntry × Option ReadError

/-- Every turn of the loop, with the event that was read in it and its place. -/
def AllTurns (P : Turn → LogPosition × LogEvent → Prop) (r : GoMySQLReader) (pos : LogPosition)
    (events : List LogEvent) : Prop :=
  ∀ x ∈ (r.turns (sent pos events)).zip (placed pos events), P x.1 x.2

/-- The coordinates are where the log goes on, unless the event was held to be beyond four bytes. -/
def PositionExact (turn : Turn) (p : LogPosition × LogEvent) : Prop :=
  turn.2.2 ≠ some overflowError → turn.1.At (p.2.after p.1)

/-- The event is held to be beyond four bytes exactly when it is. -/
def OverflowExact (turn : Turn) (p : LogPosition × LogEvent) : Prop :=
  turn.2.2 = some overflowError ↔ 2 ^ 32 ≤ p.2.ends p.1

section Turns

variable {P : Turn → LogPosition × LogEvent → Prop} {r : GoMySQLReader} {pos : LogPosition}
  {e : LogEvent} {events : List LogEvent} {recorded : Nat}

theorem allTurns_nil : AllTurns P r pos [] := fun _ hx => absurd hx List.not_mem_nil

theorem allTurns_cons :
    AllTurns P r pos (e :: events) ↔
      P (r.handleEvent (e.sent pos)) (pos, e) ∧
        ((r.handleEvent (e.sent pos)).2.2 = none →
          AllTurns P (r.handleEvent (e.sent pos)).1 (e.after pos) events) := by
  have hsent : sent pos (e :: events) = e.sent pos :: sent (e.after pos) events := rfl
  unfold AllTurns
  rw [hsent, GoMySQLReader.turns_cons, placed, List.zip_cons_cons, List.forall_mem_cons]
  refine and_congr_right fun _ => ?_
  split
  · next hnone => exact ⟨fun h _ => h, fun h => h hnone⟩
  · next hsome => exact ⟨fun _ hnone => absurd hnone hsome, fun _ _ hx => nomatch hx⟩

/-- The reader is in this file, and has recorded this position. -/
structure Recorded (r : GoMySQLReader) (file : String) (recorded : Nat) : Prop where
  useGTIDs : r.useGTIDs = false
  coordinates : ∃ c, r.currentCoordinates = .file c ∧ c.logFile = file ∧ c.logPos = recorded
  named : file ≠ ""

theorem after_file_ne (h : pos.file ≠ "") : (e.after pos).file ≠ "" := by
  unfold LogEvent.after
  split
  · next next hbody => exact e.named next hbody
  · exact h

theorem Recorded.overflow (h : Recorded r pos.file recorded)
    (hover : 2 ^ 32 ≤ recorded + e.size) :
    (r.handleEvent (e.sent pos)).2.2 = some overflowError := by
  obtain ⟨c, hc, hfile, hpos⟩ := h.coordinates
  refine GoMySQLReader.handleEvent_overflow h.useGTIDs hc ⟨hfile ▸ h.named, ?_⟩
  show (2 ^ 32 : Int) ≤ c.logPos + (e.size : Int)
  omega

theorem Recorded.within (h : Recorded r pos.file recorded)
    (hwithin : recorded + e.size < 2 ^ 32) :
    (r.handleEvent (e.sent pos)).2.2 = e.body.error ∧
      Recorded (r.handleEvent (e.sent pos)).1 (e.after pos).file (e.ends pos % 2 ^ 32) := by
  obtain ⟨c, hc, hfile, hpos⟩ := h.coordinates
  have hnot : ¬ (c.logFile ≠ "" ∧ (2 ^ 32 : Int) ≤ c.logPos + ((e.sent pos).eventSize : Int)) := by
    rintro ⟨-, hover⟩
    have hover : (2 ^ 32 : Int) ≤ c.logPos + (e.size : Int) := hover
    omega
  obtain ⟨hf, hcoords, herror⟩ := GoMySQLReader.handleEvent_within h.useGTIDs hc hnot
  refine ⟨herror, hf, ?_, after_file_ne h.named⟩
  rw [hcoords]
  unfold position LogEvent.after
  have hbody : (e.sent pos).body = e.body := rfl
  rw [hbody]
  cases e.body with
  | rotate next => exact ⟨_, rfl, rfl, rfl⟩
  | gtid | gtidTagged | transaction | transactionPayload => exact ⟨_, rfl, hfile, rfl⟩

theorem after_offset (h : e.rotates = false) : (e.after pos).offset = e.ends pos := by
  unfold LogEvent.rotates at h
  unfold LogEvent.after
  split at h
  · cases h
  · rfl

theorem after_offset_rotates (h : e.rotates = true) : (e.after pos).offset = 4 := by
  unfold LogEvent.rotates at h
  unfold LogEvent.after
  split at h
  · rfl
  · cases h

theorem error_of_rotates (h : e.rotates = true) : e.body.error = none := by
  unfold LogEvent.rotates at h
  split at h
  · next next hbody =>
    rw [hbody]
    rfl
  · cases h

theorem Recorded.at_iff (h : Recorded r pos.file recorded) : r.At pos ↔ recorded = pos.offset := by
  obtain ⟨c, hc, hfile, hpos⟩ := h.coordinates
  constructor
  · rintro ⟨c', hc', -, hpos'⟩
    have heq : c = c' := BinlogCoordinates.file.inj (hc.symm.trans hc')
    rw [← heq] at hpos'
    omega
  · rintro rfl
    exact ⟨c, hc, hfile, hpos⟩

/-! ## Positions -/

theorem positions_exact_iff (h : Recorded r pos.file pos.offset) :
    AllTurns PositionExact r pos events ↔
      ∀ p ∈ readable pos events, p.2.rotates = false := by
  induction events generalizing r pos with
  | nil => exact iff_of_true allTurns_nil fun p hp => absurd hp List.not_mem_nil
  | cons e events ih =>
    rw [allTurns_cons]
    unfold readable placed
    rw [List.takeWhile_cons]
    by_cases hover : e.ends pos < 2 ^ 32
    · obtain ⟨herror, hrecorded⟩ := h.within hover
      rw [Nat.mod_eq_of_lt hover] at hrecorded
      have hne : (r.handleEvent (e.sent pos)).2.2 ≠ some overflowError := by
        rw [herror]
        exact e.body.error_ne_overflow
      have hexact : PositionExact (r.handleEvent (e.sent pos)) (pos, e) ↔ e.rotates = false := by
        unfold PositionExact
        rw [imp_iff_right hne, hrecorded.at_iff]
        cases hrot : e.rotates with
        | false => exact iff_of_true (after_offset hrot).symm rfl
        | true =>
          rw [after_offset_rotates hrot]
          have hheader := e.header
          refine iff_of_false ?_ nofun
          unfold LogEvent.ends
          omega
      rw [hexact, herror]
      cases hbody : e.body.error with
      | some err =>
        have hrefused : e.accepted pos = false := by
          unfold LogEvent.accepted
          rw [hbody]
          simp
        have hrot : e.rotates = false := by
          by_contra hrot
          rw [error_of_rotates (Bool.eq_true_of_not_eq_false hrot)] at hbody
          cases hbody
        rw [if_neg (by rw [hrefused]; decide)]
        exact iff_of_true ⟨hrot, nofun⟩ fun p hp => absurd hp List.not_mem_nil
      | none =>
        have haccepted : e.accepted pos = true := decide_eq_true ⟨hover, hbody⟩
        rw [if_pos haccepted, List.forall_mem_cons, imp_iff_right rfl]
        refine and_congr_right fun hrot => ?_
        rw [← after_offset hrot] at hrecorded
        exact ih hrecorded
    · have hrefused : e.accepted pos = false := decide_eq_false fun hc => hover hc.1
      have herror := h.overflow (Nat.not_lt.mp hover)
      rw [if_neg (by rw [hrefused]; decide), herror]
      exact iff_of_true ⟨fun hne => absurd herror hne, nofun⟩ fun p hp => absurd hp List.not_mem_nil

/-! ## Overflows -/

theorem rotationsFit_cons {p : LogPosition × LogEvent} {rest : List (LogPosition × LogEvent)} :
    RotationsFit (p :: rest) ↔ (p.2.accepted p.1 = true →
      (p.2.rotates = true → ∀ q ∈ rest.head?,
        2 ^ 32 ≤ p.2.ends p.1 + q.2.size → 2 ^ 32 ≤ q.2.ends q.1) ∧ RotationsFit rest) := by
  cases rest with
  | nil => exact iff_of_true trivial fun _ => ⟨nofun, trivial⟩
  | cons q rest =>
    rw [RotationsFit]
    refine imp_congr_right fun _ => and_congr (imp_congr_right fun _ => ?_) Iff.rfl
    exact ⟨fun h q' hq' => Option.some.inj hq' ▸ h, fun h => h q rfl⟩

theorem head_placed {q : LogPosition × LogEvent} (h : q ∈ (placed pos events).head?) :
    q.1 = pos := by
  cases events with
  | nil => cases h
  | cons e events => rw [← Option.some.inj h]

theorem overflows_exact_iff (h : Recorded r pos.file recorded) (hle : pos.offset ≤ recorded) :
    AllTurns OverflowExact r pos events ↔
      (∀ q ∈ (placed pos events).head?, 2 ^ 32 ≤ recorded + q.2.size → 2 ^ 32 ≤ q.2.ends q.1) ∧
        RotationsFit (placed pos events) := by
  induction events generalizing r pos recorded with
  | nil => exact iff_of_true allTurns_nil ⟨nofun, trivial⟩
  | cons e events ih =>
    rw [allTurns_cons, placed, rotationsFit_cons, List.head?_cons]
    have hexact : OverflowExact (r.handleEvent (e.sent pos)) (pos, e) ↔
        (2 ^ 32 ≤ recorded + e.size → 2 ^ 32 ≤ e.ends pos) := by
      unfold OverflowExact
      by_cases hover : 2 ^ 32 ≤ recorded + e.size
      · rw [imp_iff_right hover]
        exact iff_iff_eq.mpr (by simp [h.overflow hover])
      · have hends : ¬ 2 ^ 32 ≤ e.ends pos := by
          unfold LogEvent.ends
          omega
        refine iff_of_true (iff_of_false ?_ hends) fun hc => absurd hc hover
        rw [(h.within (Nat.not_le.mp hover)).1]
        exact e.body.error_ne_overflow
    have hhead : (∀ q ∈ some (pos, e), 2 ^ 32 ≤ recorded + q.2.size → 2 ^ 32 ≤ q.2.ends q.1) ↔
        (2 ^ 32 ≤ recorded + e.size → 2 ^ 32 ≤ e.ends pos) :=
      ⟨fun h => h _ rfl, fun h q hq => Option.some.inj hq ▸ h⟩
    rw [hexact, hhead]
    refine and_congr_right fun hfits => ?_
    by_cases hover : 2 ^ 32 ≤ recorded + e.size
    · have hrefused : e.accepted pos = false :=
        decide_eq_false fun hc => absurd (hfits hover) (Nat.not_le.mpr hc.1)
      rw [h.overflow hover, hrefused]
      exact iff_of_true nofun nofun
    have hwithin := Nat.not_le.mp hover
    have hends : e.ends pos < 2 ^ 32 := lt_of_le_of_lt (Nat.add_le_add_right hle _) hwithin
    obtain ⟨herror, hrecorded⟩ := h.within hwithin
    rw [Nat.mod_eq_of_lt hends] at hrecorded
    rw [herror]
    have haccepted : e.accepted pos = true ↔ e.body.error = none := by
      unfold LogEvent.accepted
      rw [decide_eq_true_iff, and_iff_right hends]
    rw [haccepted]
    refine imp_congr_right fun _ => ?_
    cases hrot : e.rotates with
    | true =>
      have hle' : (e.after pos).offset ≤ e.ends pos := by
        rw [after_offset_rotates hrot]
        have hheader := e.header
        unfold LogEvent.ends
        omega
      rw [ih hrecorded hle', imp_iff_right rfl]
    | false =>
      -- the next event starts where this one ends
      have hoffset : (e.after pos).offset = e.ends pos := after_offset hrot
      rw [ih hrecorded (le_of_eq hoffset)]
      refine and_congr (iff_of_true (fun q hq hover => ?_) nofun) Iff.rfl
      unfold LogEvent.ends
      rw [head_placed hq, hoffset]
      exact hover

end Turns

theorem recorded_connect {start : LogPosition} (h : start.file ≠ "") :
    Recorded (connect false start.coordinates) start.file start.offset :=
  ⟨rfl, ⟨_, rfl, rfl, rfl⟩, h⟩

/-- **The recorded position is true after every event exactly when no rotate event is read; events
are refused exactly when they end beyond four bytes if and only if the rotations fit.** -/
theorem file_positions_iff {start : LogPosition} (hstart : start.file ≠ "")
    (events : List LogEvent) :
    (AllTurns PositionExact (connect false start.coordinates) start events ↔
      ∀ p ∈ readable start events, p.2.rotates = false) ∧
    (AllTurns OverflowExact (connect false start.coordinates) start events ↔
      RotationsFit (placed start events)) := by
  have hrecorded := recorded_connect hstart
  refine ⟨positions_exact_iff hrecorded, ?_⟩
  rw [overflows_exact_iff hrecorded (le_refl _)]
  refine and_iff_right fun q hq hover => ?_
  unfold LogEvent.ends
  rw [head_placed hq]
  exact hover

/-- An event that holds nothing for the reader. -/
def plainEvent (size : Nat) (h : 19 ≤ size := by decide) : LogEvent where
  size
  body := .transaction .other
  header := h
  named := nofun

def rotateEvent (next : String) (hnext : next ≠ "" := by decide) : LogEvent where
  size := 47
  body := .rotate next
  header := by decide
  named := fun _ h => EventBody.rotate.inj h ▸ hnext

/-- Two events near the end of four bytes, the second one ends beyond them. -/
theorem file_positions_iff_small :
    let start : LogPosition := { file := "binlog.000001", offset := 4294967000 }
    let events := [plainEvent 100, plainEvent 200]
    AllTurns PositionExact (connect false start.coordinates) start events ∧
      AllTurns OverflowExact (connect false start.coordinates) start events ∧
      ((connect false start.coordinates).turns (sent start events)).map (fun t => t.2.2) =
        [none, some overflowError] := by
  intro start events
  have hstart : start.file ≠ "" := by decide
  have h := file_positions_iff hstart events
  exact ⟨h.1.mpr (by decide), h.2.mpr fun _ => ⟨nofun, trivial⟩, by decide⟩

/-- After a rotate event near the end of four bytes, the first event of the next file is refused. -/
theorem rotation_keeps_offset :
    let start : LogPosition := { file := "binlog.000001", offset := 4294967200 }
    let events := [rotateEvent "binlog.000002", plainEvent 119]
    ((connect false start.coordinates).turns (sent start events)).map
        (fun t => (t.1.currentCoordinates, t.2.2)) =
      [(.file { logFile := "binlog.000002", logPos := 4294967247, eventSize := 47 }, none),
        (.file { logFile := "binlog.000002", logPos := 123, eventSize := 119 },
          some overflowError)] ∧
    (placed start events).map (fun p => p.2.after p.1) =
      [{ file := "binlog.000002", offset := 4 }, { file := "binlog.000002", offset := 123 }] := by
  decide

end GhOst.Binlog
