import GhOst.Logic.Applier
import GhOst.Logic.Streamer

/-!
# The listeners of the events streamer (`go/logic/streamer.go`, `go/logic/migrator.go`)

What is decoded of an event and what is made of an entry depend on the listeners that are registered
when they are handled. A listener puts structs on `applyEventsQueue`; what it sends is listed here
and sent by the dispatcher of `GhOst.Logic.Pipeline`.
-/

namespace GhOst.Logic

open GhOst.Sql GhOst.Binlog GhOst.Mysql

/-- The names of the migration, with the library functions the streamer calls. -/
structure StreamContext where
  databaseName : String
  originalTableName : String
  changelogTableName : String
  equalFold : String → String → Bool
  /-- `fmt.Sprintf` of a column value that is not a string -/
  sprintf : Value → List UInt8
  /-- whether `time.Parse(time.RFC3339Nano, …)` succeeds -/
  parsesTime : List UInt8 → Bool
  changelog_ne_original : ∀ tableName, equalFold changelogTableName tableName = true →
    equalFold originalTableName tableName = false

/-- An entry with its number. -/
abbrev Emitted := BinlogEntry × Nat

inductive TableWriteFunc where
  | heartbeat (coords : BinlogCoordinates)
  | lockProcessed (state : List UInt8) (coords : BinlogCoordinates)
deriving DecidableEq

/-- The three kinds of `applyEventStruct` that are built. -/
inductive ApplyEventStruct where
  | dml (entry : Emitted) (dmlEvent : BinlogDMLEvent)
  | transactionComplete (entry : Emitted)
  | func (writeFunc : TableWriteFunc)
deriving DecidableEq

namespace ApplyEventStruct

def source : ApplyEventStruct → Option Emitted
  | .dml entry _ => some entry
  | .transactionComplete entry => some entry
  | .func _ => none

def row : ApplyEventStruct → Option BinlogDMLEvent
  | .dml _ ev => some ev
  | _ => none

theorem row_eq_none_of_source {item : ApplyEventStruct} (h : item.source = none) :
    item.row = none := by
  cases item with
  | dml entry ev => simp [source] at h
  | transactionComplete entry => rfl
  | func writeFunc => rfl

end ApplyEventStruct

/-- The listeners that are ever registered, both synchronous. -/
inductive Listener where
  | changelog
  | dml
deriving DecidableEq

/-- What the listeners send to `applyEventsQueue`, by themselves and in a new goroutine, and whether
the last one has failed. -/
structure Notification where
  sends : List ApplyEventStruct := []
  asyncSends : List ApplyEventStruct := []
  fails : Bool := false
deriving DecidableEq

def ascii (s : String) : List UInt8 := s.toList.map fun c => UInt8.ofNat c.toNat

/-- `ReadChangelogState`: the text before the first colon. -/
def readChangelogState (s : List UInt8) : List UInt8 := s.takeWhile (· != 58)

namespace StreamContext

variable (c : StreamContext)

def stringColumn (values : Option (List Value)) (index : Nat) : Except Fault (List UInt8) :=
  match values with
  | none => .error .nilPointer
  | some values =>
    match values[index]? with
    | none => .error .indexOutOfRange
    | some (.string s) => .ok s
    | some value => .ok (c.sprintf value)

/-- The send to `ghostTableMigrated`, whose result is ignored, is left out. -/
def onChangelogStateEvent (entry : Emitted) (ev : BinlogDMLEvent) : Except Fault Notification :=
  match c.stringColumn ev.newColumnValues 3 with
  | .error f => .error f
  | .ok text =>
    let state := readChangelogState text
    if state = ascii "Migrated" ∨ state = ascii "ReadMigrationRangeValues" then .ok {}
    else if state = ascii "GhostTableMigrated" then .ok {}
    else if state = ascii "AllEventsUpToLockProcessed" then
      .ok { asyncSends := [.func (.lockProcessed text entry.1.coordinates)] }
    else .ok { fails := true } -- "unknown changelog state"

def onChangelogHeartbeatEvent (entry : Emitted) (ev : BinlogDMLEvent) :
    Except Fault Notification :=
  match c.stringColumn ev.newColumnValues 3 with
  | .error f => .error f
  | .ok text =>
    if c.parsesTime text then .ok { sends := [.func (.heartbeat entry.1.coordinates)] }
    else .ok { fails := true }

def onChangelogEvent (entry : Emitted) (ev : BinlogDMLEvent) : Except Fault Notification :=
  match c.stringColumn ev.newColumnValues 2 with
  | .error f => .error f
  | .ok hint =>
    if hint = ascii "state" then c.onChangelogStateEvent entry ev
    else if hint = ascii "heartbeat" then c.onChangelogHeartbeatEvent entry ev
    else .ok {}

def onDmlEvent (entry : Emitted) (ev : BinlogDMLEvent) : Listener → Except Fault Notification
  | .changelog => c.onChangelogEvent entry ev
  | .dml => .ok { sends := [.dml entry ev] }

def tableName : Listener → String
  | .changelog => c.changelogTableName
  | .dml => c.originalTableName

/-- The test of `shouldDecodeRowsEvent` and of `notifyListeners`. -/
def listensTo (l : Listener) (databaseName tableName : String) : Bool :=
  c.equalFold c.databaseName databaseName && c.equalFold (c.tableName l) tableName

/-- The rows of the original table, by the test of the DML listener. -/
def isOriginal (ev : BinlogDMLEvent) : Bool := c.listensTo .dml ev.databaseName ev.tableName

def shouldDecodeRowsEvent (listeners : List Listener) (databaseName tableName : String) : Bool :=
  listeners.any fun l => c.listensTo l databaseName tableName

/-- `newRowsEventDecodeFunc`: the rows of a table nobody listens to are not decoded. -/
def decodeRows (listeners : List Listener) : TransactionEvent → TransactionEvent
  | .rows dml databaseName tableName rows =>
    .rows dml databaseName tableName
      (if c.shouldDecodeRowsEvent listeners databaseName tableName then rows else [])
  | .xid gset => .xid gset
  | .other => .other

def decode (listeners : List Listener) (ev : BinlogEvent) : BinlogEvent :=
  { ev with
    body :=
      match ev.body with
      | .transaction event => .transaction (c.decodeRows listeners event)
      | .transactionPayload events => .transactionPayload (events.map (c.decodeRows listeners))
      | body => body }

/-- The loop of `notifyListeners` over the listeners. -/
def notifyRow (entry : Emitted) (ev : BinlogDMLEvent) :
    List Listener → Except Fault Notification
  | [] => .ok {}
  | l :: listeners =>
    if c.listensTo l ev.databaseName ev.tableName then
      match c.onDmlEvent entry ev l with
      | .error f => .error f
      | .ok n =>
        if n.fails then .ok n
        else
          match notifyRow entry ev listeners with
          | .error f => .error f
          | .ok more =>
            .ok { sends := n.sends ++ more.sends, asyncSends := n.asyncSends ++ more.asyncSends,
                  fails := more.fails }
    else notifyRow entry ev listeners

end StreamContext

/-- A struct that a listener makes of an entry. -/
inductive ApplyEventStruct.MadeFrom (entry : Emitted) : ApplyEventStruct → Prop where
  | dml (ev : BinlogDMLEvent) : MadeFrom entry (.dml entry ev)
  | transactionComplete (h : entry.1.transactionComplete = true) :
      MadeFrom entry (.transactionComplete entry)
  | func (writeFunc : TableWriteFunc) : MadeFrom entry (.func writeFunc)

theorem ApplyEventStruct.MadeFrom.source_eq {entry e : Emitted} {item : ApplyEventStruct}
    (h : item.MadeFrom entry) (hs : item.source = some e) : e = entry := by
  cases h with
  | dml ev => exact (Option.some.inj hs).symm
  | transactionComplete _ => exact (Option.some.inj hs).symm
  | func writeFunc => simp [source] at hs

/-! ## What the listeners send -/

namespace StreamContext

variable {c : StreamContext} {entry : Emitted} {ev : BinlogDMLEvent} {n : Notification}

theorem onChangelogStateEvent_sends (h : c.onChangelogStateEvent entry ev = .ok n) :
    n.sends = [] ∧ ∀ item ∈ n.asyncSends, item.source = none := by
  unfold onChangelogStateEvent at h
  split at h
  · simp at h
  · dsimp only at h
    split at h
    · cases h
      simp
    · split at h
      · cases h
        simp
      · split at h
        · cases h
          simp [ApplyEventStruct.source]
        · cases h
          simp

theorem onChangelogHeartbeatEvent_sends (h : c.onChangelogHeartbeatEvent entry ev = .ok n) :
    (∀ item ∈ n.sends, ∃ f, item = .func f) ∧ n.asyncSends = [] := by
  unfold onChangelogHeartbeatEvent at h
  split at h
  · simp at h
  · split at h
    · cases h
      simp
    · cases h
      simp

theorem onChangelogEvent_sends (h : c.onChangelogEvent entry ev = .ok n) :
    (∀ item ∈ n.sends, ∃ f, item = .func f) ∧ ∀ item ∈ n.asyncSends, item.source = none := by
  unfold onChangelogEvent at h
  split at h
  · simp at h
  · split at h
    · obtain ⟨hs, ha⟩ := onChangelogStateEvent_sends h
      exact ⟨by simp [hs], ha⟩
    · split at h
      · obtain ⟨hs, ha⟩ := onChangelogHeartbeatEvent_sends h
        exact ⟨hs, by simp [ha]⟩
      · cases h
        simp

theorem onDmlEvent_sends {l : Listener} (h : c.onDmlEvent entry ev l = .ok n) :
    (∀ item ∈ n.sends, item.MadeFrom entry) ∧ ∀ item ∈ n.asyncSends, item.source = none := by
  cases l with
  | changelog =>
    obtain ⟨hs, ha⟩ := onChangelogEvent_sends h
    refine ⟨fun item hi => ?_, ha⟩
    obtain ⟨f, rfl⟩ := hs item hi
    exact .func f
  | dml =>
    cases h
    refine ⟨fun item hi => ?_, by simp⟩
    rw [List.mem_singleton.1 hi]
    exact .dml ev

theorem notifyRow_cons {l : Listener} {listeners : List Listener}
    (h : c.notifyRow entry ev (l :: listeners) = .ok n) :
    (c.listensTo l ev.databaseName ev.tableName = false ∧ c.notifyRow entry ev listeners = .ok n) ∨
      c.listensTo l ev.databaseName ev.tableName = true ∧
        ∃ one, c.onDmlEvent entry ev l = .ok one ∧
          ((one.fails = true ∧ n = one) ∨
            one.fails = false ∧ ∃ more, c.notifyRow entry ev listeners = .ok more ∧
              n = { sends := one.sends ++ more.sends,
                    asyncSends := one.asyncSends ++ more.asyncSends, fails := more.fails }) := by
  rw [notifyRow] at h
  split at h
  · next hl =>
    refine .inr ⟨hl, ?_⟩
    split at h
    · simp at h
    · next one hone =>
      refine ⟨one, hone, ?_⟩
      split at h
      · next hf => exact .inl ⟨hf, (Except.ok.inj h).symm⟩
      · next hf =>
        split at h
        · simp at h
        · next more hmore =>
          exact .inr ⟨Bool.eq_false_iff.2 hf, more, hmore, (Except.ok.inj h).symm⟩
  · next hl => exact .inl ⟨Bool.eq_false_iff.2 hl, h⟩

theorem notifyRow_sends : ∀ {listeners : List Listener} {n : Notification},
    c.notifyRow entry ev listeners = .ok n →
    (∀ item ∈ n.sends, item.MadeFrom entry) ∧ ∀ item ∈ n.asyncSends, item.source = none
  | [], n, h => by
    cases h
    simp
  | l :: listeners, n, h => by
    rcases notifyRow_cons h with ⟨-, h⟩ | ⟨-, one, hone, ⟨-, rfl⟩ | ⟨-, more, hmore, rfl⟩⟩
    · exact notifyRow_sends h
    · exact onDmlEvent_sends hone
    · obtain ⟨hs, ha⟩ := onDmlEvent_sends hone
      obtain ⟨hs', ha'⟩ := notifyRow_sends hmore
      constructor
      · intro item hi
        exact (List.mem_append.1 hi).elim (hs item) (hs' item)
      · intro item hi
        exact (List.mem_append.1 hi).elim (ha item) (ha' item)

/-- The DML listener gets every row of its table, unless a listener before it fails. -/
theorem notifyRow_dml (hrow : c.isOriginal ev = true) : ∀ {listeners : List Listener}
    {n : Notification}, .dml ∈ listeners → c.notifyRow entry ev listeners = .ok n →
    n.fails = true ∨ .dml entry ev ∈ n.sends
  | l :: listeners, n, hmem, h => by
    rcases notifyRow_cons h with ⟨hno, h⟩ | ⟨-, one, hone, ⟨hf, rfl⟩ | ⟨-, more, hmore, rfl⟩⟩
    · rcases List.mem_cons.1 hmem with rfl | hmem
      · unfold isOriginal at hrow
        rw [hrow] at hno
        simp at hno
      · exact notifyRow_dml hrow hmem h
    · exact .inl hf
    · rcases List.mem_cons.1 hmem with rfl | hmem
      · cases hone
        exact .inr (by simp)
      · exact (notifyRow_dml hrow hmem hmore).imp_right (List.mem_append_right _)

end StreamContext

end GhOst.Logic
