import GhOst.Infra.Steps
import GhOst.Sql.Types

/-!
# Column lists and their positions

`Ordinals` is made once, for the columns a list is made with. The setters keep every column in its
place. `FilterBy` takes the positions over for the columns it selects, and they are off as soon as
it drops one: it is never put right, since no operation makes the positions anew.
-/

namespace GhOst.Sql

open Infra

inductive Setter where
  | setUnsigned
  | setCharset (charset : String)
  | setColumnType (columnType : ColumnType)
  | setConvertDatetimeToTimestamp (toTimezone : String)
  | setEnumToTextConversion
  | setEnumValues (enumValues : String)
  | setCharsetConversion (fromCharset toCharset : String)

def Setter.write : Setter → Column → Column
  | setUnsigned, c => { c with isUnsigned := true }
  | setCharset charset, c => { c with charset }
  | setColumnType columnType, c => { c with type := columnType }
  | setConvertDatetimeToTimestamp toTimezone, c => { c with timezoneConversion := some toTimezone }
  | setEnumToTextConversion, c => { c with enumToTextConversion := true }
  | setEnumValues enumValues, c => { c with enumValues }
  | setCharsetConversion fromCharset toCharset, c =>
    { c with charsetConversion := some { toCharset, fromCharset } }

theorem Setter.name_write (setter : Setter) (c : Column) : (setter.write c).name = c.name := by
  cases setter <;> rfl

inductive ListOperation where
  | filterBy (f : Column → Bool)
  | set (columnName : String) (setter : Setter)

namespace ColumnList

/-- One operation; `none` is a panic. -/
def apply (cl : ColumnList) : ListOperation → Option ColumnList
  | .filterBy f => some (cl.filterBy f)
  | .set columnName setter => (cl.setColumn columnName setter.write).toOption

inductive Source where
  | newColumnList (names : List String)
  | parseColumnList (names : String)

namespace Source

def names : Source → List String
  | newColumnList names => names
  | parseColumnList names => (names.toList.splitOn ',').map String.ofList

def list : Source → ColumnList
  | newColumnList names => Sql.newColumnList names
  | parseColumnList names => Sql.parseColumnList names

theorem list_eq (source : Source) : source.list = Sql.newColumnList source.names := by
  cases source <;> rfl

end Source

/-- The lists that come from distinct names. -/
def Obtained (cl : ColumnList) : Prop :=
  ∃ (source : Source) (ops : List ListOperation),
    source.names.Nodup ∧ run apply source.list ops = some cl

/-- What the representation is for. -/
structure Represents (cl : ColumnList) : Prop where
  ordinals : ∀ name i, cl.ordinals.lookup name = some i ↔ cl.names[i]? = some name
  getColumn : ∀ name, cl.getColumn name = .ok (cl.columns.find? fun c => c.name = name)
  isSubsetOf : ∀ sub : ColumnList, sub.Obtained →
    (sub.isSubsetOf cl = true ↔ sub.names ⊆ cl.names)

/-- No `FilterBy` of the sequence drops a column of the list it is given. -/
def KeepsAll : ColumnList → List ListOperation → Prop
  | _, [] => True
  | cl, op :: ops =>
    (∀ f, op = .filterBy f → ∀ c ∈ cl.columns, f c = true) ∧
      ∀ cl', cl.apply op = some cl' → KeepsAll cl' ops

/-! ## One operation -/

variable {cl cl' : ColumnList} {op : ListOperation} {ops : List ListOperation}

theorem setColumn_cases {name : String} {f : Column → Column}
    (h : cl.setColumn name f = .ok cl') :
    ∃ i c, cl.columns[i]? = some c ∧ cl' = { cl with columns := cl.columns.set i (f c) } := by
  unfold setColumn at h
  split at h
  · cases h
  · next i _ =>
    split at h
    · next c hc => exact ⟨i, c, hc, (Except.ok.inj h).symm⟩
    · cases h

theorem apply_cases (h : cl.apply op = some cl') :
    (∃ f, op = .filterBy f ∧ cl' = cl.filterBy f) ∨
    (∃ name setter, op = .set name setter ∧ cl'.ordinals = cl.ordinals ∧ cl'.names = cl.names) := by
  cases op with
  | filterBy f => exact .inl ⟨f, rfl, (Option.some.inj h).symm⟩
  | set name setter =>
    refine .inr ⟨name, setter, rfl, ?_⟩
    rw [apply] at h
    cases hset : cl.setColumn name setter.write with
    | error fault => rw [hset] at h; cases h
    | ok written =>
      rw [hset] at h
      obtain ⟨i, c, hc, hwritten⟩ := setColumn_cases hset
      obtain rfl : written = cl' := Option.some.inj h
      rw [hwritten]
      exact ⟨rfl, names_set hc (setter.name_write c)⟩

theorem apply_ordinals (h : cl.apply op = some cl') : cl'.ordinals = cl.ordinals := by
  rcases apply_cases h with ⟨f, -, rfl⟩ | ⟨name, setter, -, hordinals, -⟩
  · rfl
  · exact hordinals

theorem apply_names_sublist (h : cl.apply op = some cl') : cl'.names.Sublist cl.names := by
  rcases apply_cases h with ⟨f, -, rfl⟩ | ⟨name, setter, -, -, hnames⟩
  · exact (List.filter_sublist).map _
  · rw [hnames]

theorem apply_names_eq_iff (h : cl.apply op = some cl') :
    cl'.names = cl.names ↔ ∀ f, op = .filterBy f → ∀ c ∈ cl.columns, f c = true := by
  rcases apply_cases h with ⟨f, rfl, rfl⟩ | ⟨name, setter, rfl, -, hnames⟩
  · constructor
    · intro hnames g hg
      cases hg
      have hlen := congrArg List.length hnames
      unfold names filterBy at hlen
      rw [List.length_map, List.length_map] at hlen
      exact List.length_filter_eq_length_iff.mp hlen
    · intro hall
      unfold names filterBy
      rw [List.filter_eq_self.mpr (hall f rfl)]
  · exact ⟨fun _ f hf => (nomatch hf), fun _ => hnames⟩

/-! ## A sequence of operations -/

theorem run_ordinals (h : run apply cl ops = some cl') : cl'.ordinals = cl.ordinals := by
  induction ops generalizing cl with
  | nil => rw [Option.some.inj h]
  | cons op ops ih =>
    obtain ⟨next, hop, hrest⟩ := Option.bind_eq_some_iff.mp h
    exact (ih hrest).trans (apply_ordinals hop)

theorem run_names_sublist (h : run apply cl ops = some cl') : cl'.names.Sublist cl.names := by
  induction ops generalizing cl with
  | nil => rw [Option.some.inj h]
  | cons op ops ih =>
    obtain ⟨next, hop, hrest⟩ := Option.bind_eq_some_iff.mp h
    exact (ih hrest).trans (apply_names_sublist hop)

theorem run_names_eq_iff (h : run apply cl ops = some cl') :
    cl'.names = cl.names ↔ KeepsAll cl ops := by
  induction ops generalizing cl with
  | nil =>
    rw [Option.some.inj h]
    exact iff_of_true rfl trivial
  | cons op ops ih =>
    obtain ⟨next, hop, hrest⟩ := Option.bind_eq_some_iff.mp h
    have hnext := apply_names_sublist hop
    have hlast := run_names_sublist hrest
    have htail : (∀ other, cl.apply op = some other → KeepsAll other ops) ↔ KeepsAll next ops := by
      rw [hop]
      simp
    rw [KeepsAll, htail, ← ih hrest, ← apply_names_eq_iff hop]
    constructor
    · intro hnames
      have hle : cl.names.length ≤ next.names.length := hnames ▸ hlast.length_le
      have heq : next.names = cl.names := hnext.eq_of_length_le hle
      exact ⟨heq, hnames.trans heq.symm⟩
    · rintro ⟨heq, hnames⟩
      exact hnames.trans heq

/-! ## The representation -/

theorem Source.wellFormed {source : Source} (h : source.names.Nodup) : source.list.WellFormed := by
  rw [list_eq]
  exact newColumnList_wellFormed h

theorem WellFormed.represents (h : cl.WellFormed) : cl.Represents where
  ordinals := h.ordinals
  getColumn := h.getColumn_eq
  isSubsetOf := by
    intro sub _
    unfold isSubsetOf
    rw [List.all_eq_true]
    constructor
    · intro hall name hname
      obtain ⟨c, hc, rfl⟩ := List.mem_map.mp hname
      exact (h.lookup_isSome c.name).mp (hall c hc)
    · intro hsub c hc
      exact (h.lookup_isSome c.name).mpr (hsub (List.mem_map_of_mem hc))

/-- **Positions, `GetColumn` and `IsSubsetOf` are right for a list exactly if none of the filters it
went through dropped a column.** -/
theorem column_list_iff {source : Source} (hnodup : source.names.Nodup)
    (hrun : run apply source.list ops = some cl) :
    cl.Represents ↔ KeepsAll source.list ops := by
  have hstart := Source.wellFormed hnodup
  rw [← run_names_eq_iff hrun]
  constructor
  · intro h
    refine List.ext_getElem? fun i => Option.ext fun name => ?_
    rw [← h.ordinals name i, run_ordinals hrun, hstart.ordinals]
  · intro hnames
    exact (hstart.congr hnames (run_ordinals hrun)).represents

def smallList : ColumnList where
  columns := [{ name := "a" }, { name := "b", isUnsigned := true }]
  ordinals := [("b", 1), ("a", 0)]

theorem column_list_iff_small : smallList.Represents := by
  have hrun : run apply (Source.newColumnList ["a", "b"]).list
      [.set "b" .setUnsigned, .filterBy fun c => c.name.length = 1] = some smallList := by decide
  refine (column_list_iff (by decide) hrun).mpr ⟨nofun, fun cl' hset => ⟨?_, fun _ _ => trivial⟩⟩
  obtain rfl : smallList = cl' := Option.some.inj hset
  intro f hf
  cases hf
  decide

/-- A list of two columns whose first is dropped. -/
def withoutFirst : ColumnList := (newColumnList ["a", "b"]).filterBy fun c => c.name ≠ "a"

/-- `GetColumn` of the dropped name finds the other column, and of the other one panics. -/
theorem filtered_column_list_wrong :
    withoutFirst.names = ["b"] ∧
    withoutFirst.ordinals.lookup "a" = some 0 ∧ withoutFirst.ordinals.lookup "b" = some 1 ∧
    withoutFirst.getColumn "a" = .ok (some { name := "b" }) ∧
    withoutFirst.getColumn "b" = .error .indexOutOfRange ∧
    (newColumnList ["a"]).isSubsetOf withoutFirst = true := by
  decide

end ColumnList

end GhOst.Sql
