import GhOst.Properties.Values

/-!
# The two write paths on rows

The row that the `insert` built from the image of a row writes, and the values that the `update`
sets, against the row that the copy of a chunk writes. For the context that the inspection gives,
they are equal exactly when the two paths agree on each shared value (`write_paths_agree_iff`).
-/

namespace GhOst.Logic

open GhOst.Sql GhOst.Binlog

namespace Migration

variable {σ κ : Type} {m : Migration σ κ} {row old : Row σ}

/-- The row that the `insert` built from the image of a row writes. -/
def insertedRow (m : Migration σ κ) (row : Row σ) : Option (Row σ) :=
  match m.apl.dmlInsertQueryBuilder.buildQuery m.enc (m.image row) with
  | .ok (.insertIgnore _ _ columns values, args) => some (m.srv.assigned (columns.zip values) args)
  | _ => none

/-- The values that the `update` built from the images of a row, old and new, sets. -/
def updatedValues (m : Migration σ κ) (old row : Row σ) : Option (Row σ) :=
  match m.apl.dmlUpdateQueryBuilder.buildQuery m.enc (m.image row) (m.image old) with
  | .ok (.update _ _ set _, args) => some (m.srv.assigned set args)
  | _ => none

theorem Built.insertedRow_eq (hm : m.Built) (h : m.Admits row) :
    m.insertedRow row = some (m.srv.assigned
      (m.apl.migrationContext.mappedSharedColumns.columns.map fun c => (c.name, c.valueToken))
      (m.argsOf m.apl.migrationContext.sharedColumns.columns row)) := by
  have hb := congrArg Applier.dmlInsertQueryBuilder (prepareQueries_ok hm.prepared).2
  unfold insertedRow
  simp only [hb, DMLInsertQueryBuilder.buildQuery, image_length h, ne_eq, not_true_eq_false,
    if_false, hm.convertedArgs_shared h]
  unfold ColumnList.names buildColumnsPreparedValues
  rw [List.zip_map']

theorem Built.convertedArgs_uniqueKey (hm : m.Built) (h : m.Admits old) :
    ∃ args, convertedArgs m.enc m.apl.migrationContext.originalTableColumns (m.image old)
      m.apl.migrationContext.uniqueKey.columns.columns = .ok args := by
  refine ⟨_, convertedArgs_eq fun c _ => ?_⟩
  rw [image_length h]
  have hpos : 0 < m.apl.migrationContext.originalTableColumns.len := by
    obtain ⟨c, hc⟩ := List.exists_mem_of_ne_nil _ (prepareQueries_shared_ne_nil hm.prepared)
    have hall := List.all_eq_true.mp (prepareQueries_ok hm.prepared).1 c hc
    exact Nat.zero_lt_of_lt
      (hm.tableColumns.ordinal_lt ((hm.tableColumns.lookup_isSome c.name).mp hall))
  by_cases hn : c.name ∈ m.apl.migrationContext.originalTableColumns.names
  · exact hm.tableColumns.ordinal_lt hn
  · have hnone : m.apl.migrationContext.originalTableColumns.ordinals.lookup c.name = none := by
      rw [← Option.not_isSome_iff_eq_none, hm.tableColumns.lookup_isSome]
      exact hn
    unfold ColumnList.ordinal
    rw [hnone]
    exact hpos

theorem Built.updatedValues_eq (hm : m.Built) (h : m.Admits row) (ho : m.Admits old) :
    m.updatedValues old row = some (m.srv.assigned
      (m.apl.migrationContext.mappedSharedColumns.columns.map fun c => (c.name, c.valueToken))
      (m.argsOf m.apl.migrationContext.sharedColumns.columns row)) := by
  have hb := congrArg Applier.dmlUpdateQueryBuilder (prepareQueries_ok hm.prepared).2
  obtain ⟨keyArgs, hkey⟩ := hm.convertedArgs_uniqueKey ho
  unfold updatedValues
  simp only [hb, DMLUpdateQueryBuilder.buildQuery, hm.convertedArgs_shared h, hkey,
    hm.assigned_append]

theorem Built.assigned_eq_project_iff (hm : m.Built) (h : m.Admits row) :
    m.srv.assigned
        (m.apl.migrationContext.mappedSharedColumns.columns.map fun c => (c.name, c.valueToken))
        (m.argsOf m.apl.migrationContext.sharedColumns.columns row) = m.project row ↔
      ∀ p ∈ m.pairs, ∀ v, row.lookup p.1.name = some v →
        m.srv.bind p.2.name p.2.valueToken (p.1.convertArg m.enc (m.srv.image p.1.name v))
          = m.srv.select p.1.name p.2.name v := by
  have hvalue : ∀ p ∈ m.pairs, ∃ v, row.lookup p.1.name = some v := by
    intro p hp
    obtain ⟨v, hv, _⟩ := h.lookup (hm.shared_mem hp)
    exact ⟨v, hv⟩
  rw [assigned_shared, ← List.filterMap_eq_map']
  unfold project
  show _ = m.pairs.filterMap _ ↔ _
  rw [Infra.filterMap_eq_filterMap_iff (fun _ _ => rfl) fun p hp => by
    obtain ⟨v, hv⟩ := hvalue p hp
    rw [hv]
    rfl]
  refine forall₂_congr fun p hp => ?_
  obtain ⟨v, hv⟩ := hvalue p hp
  rw [hv, hm.image_ordinal h hv]
  simp

end Migration

/-! ## Inspected tables -/

section Inspected

variable {τ : Type} {d : Dialect τ} {isp : Inspection} {original ghost : List (ColumnDef d)}

/-- Each shared column is paired with a column of the ghost of a handled type, under the name the
inspection expects. -/
def HandledColumns (isp : Inspection) (original ghost : List (ColumnDef d)) : Prop :=
  ∀ name ∈ isp.sharedNames, ∃ source target, typeOf original name = some source ∧
    typeOf ghost (isp.columnNames.mappedName name) = some target ∧ Handled source target

/-- The two write paths agree on the shared values of a row. -/
def AgreesOn (isp : Inspection) (original ghost : List (ColumnDef d)) (row : Row Stored) : Prop :=
  ∀ name ∈ isp.sharedNames, ∀ source target v, typeOf original name = some source →
    typeOf ghost (isp.columnNames.mappedName name) = some target → row.lookup name = some v →
    Agrees d (decide (name ≠ isp.columnNames.mappedName name)) source target v

def migrationOf (d : Dialect τ) (original ghost : List (ColumnDef d)) (apl : Applier)
    (ix : Indexes) : Migration Stored Stored :=
  { enc := d.enc, apl, srv := serverOf d original ghost, ix }

theorem typeOf_eq_some {columns : List (ColumnDef d)} {name : String} {type : SqlType τ}
    (h : typeOf columns name = some type) :
    ∃ c ∈ columns, c.name = name ∧ c.type = type := by
  unfold typeOf at h
  obtain ⟨c, hc, rfl⟩ := Option.map_eq_some_iff.mp h
  exact ⟨c, List.mem_of_find?_eq_some hc, by simpa using List.find?_some hc, rfl⟩

theorem typed_eq_column {columns : List (ColumnDef d)} (hn : (columns.map ColumnDef.name).Nodup)
    {c : ColumnDef d} (hc : c ∈ columns) :
    typed (columns.map ColumnDef.info) { name := c.name } = c.column := by
  refine typed_of_mem ?_ (List.mem_map_of_mem hc) rfl
  rw [List.map_map]
  exact hn

theorem sharedPair_eq (hd : isp.Describes original ghost) {source target : ColumnDef d}
    (hs : source ∈ original) (ht : target ∈ ghost)
    (hname : isp.columnNames.mappedName source.name = target.name) :
    isp.sharedPair source.name = (convertedShared source.column target.column,
      convertedMapped isp.applierTimeZone source.column target.column) := by
  unfold Inspection.sharedPair
  rw [hd.originalInfos, hd.ghostInfos, hname, typed_eq_column hd.originalNames hs,
    typed_eq_column hd.ghostNames ht]

theorem sharedPair_names (isp : Inspection) (name : String) :
    (isp.sharedPair name).1.name = name ∧
      (isp.sharedPair name).2.name = isp.columnNames.mappedName name := by
  unfold Inspection.sharedPair
  exact ⟨(convertedShared_name _ _).trans (typed_name _ _),
    (convertedMapped_name _ _ _).trans (typed_name _ _)⟩

variable {ctx : MigrationContext} {apl : Applier} {ix : Indexes} {row old : Row Stored}

theorem migrationContext_of_prepared (hp : prepareQueries ctx = .ok apl) :
    apl.migrationContext = ctx := by
  rw [(prepareQueries_ok hp).2]

theorem bind_of_inspection (hd : isp.Describes original ghost) {name : String}
    {source target : SqlType τ} (hs : typeOf original name = some source)
    (ht : typeOf ghost (isp.columnNames.mappedName name) = some target)
    (hh : Handled source target) {v : Stored} (hv : source.admits v = true) :
    (serverOf d original ghost).bind (isp.sharedPair name).2.name
        (isp.sharedPair name).2.valueToken ((isp.sharedPair name).1.convertArg d.enc
          ((serverOf d original ghost).image (isp.sharedPair name).1.name v))
      = written d (decide (name ≠ isp.columnNames.mappedName name)) source target v := by
  obtain ⟨hname, hname'⟩ := sharedPair_names isp name
  rw [hname, hname']
  simp only [serverOf, hs, ht, Option.map_some, Option.getD_some]
  obtain ⟨c, hc, hcn, hct⟩ := typeOf_eq_some hs
  obtain ⟨c', hc', hcn', hct'⟩ := typeOf_eq_some ht
  subst hcn hct hct'
  rw [sharedPair_eq hd hc hc' hcn'.symm, ← hcn']
  exact bind_eq_written hh (prepared_of_handled isp.applierTimeZone hh) hv

theorem bind_eq_select_of_inspection (hd : isp.Describes original ghost) {name : String}
    {source target : SqlType τ} (hs : typeOf original name = some source)
    (ht : typeOf ghost (isp.columnNames.mappedName name) = some target)
    (hh : Handled source target) {v : Stored} (hv : source.admits v = true) :
    (serverOf d original ghost).bind (isp.sharedPair name).2.name
        (isp.sharedPair name).2.valueToken ((isp.sharedPair name).1.convertArg d.enc
          ((serverOf d original ghost).image (isp.sharedPair name).1.name v))
        = (serverOf d original ghost).select (isp.sharedPair name).1.name
            (isp.sharedPair name).2.name v ↔
      Agrees d (decide (name ≠ isp.columnNames.mappedName name)) source target v := by
  rw [bind_of_inspection hd hs ht hh hv, (sharedPair_names isp name).1,
    (sharedPair_names isp name).2]
  simp only [serverOf, hs, ht]
  exact written_eq_select_iff hh hv

section Accepted

variable (hd : isp.Describes original ghost)
  (hmapped : (isp.sharedNames.map isp.columnNames.mappedName).Nodup)
  (hi : inspectOriginalAndGhostTables isp = .ok ctx) (hp : prepareQueries ctx = .ok apl)
include hd hmapped hi hp

theorem pairs_of_inspection :
    (migrationOf d original ghost apl ix).pairs = isp.sharedNames.map isp.sharedPair := by
  have hn : isp.originalTableColumns.names.Nodup := by
    rw [hd.originalColumns]
    exact (newColumnList_wellFormed hd.originalNames).nodup
  obtain ⟨chosen, haccepts⟩ := inspectOriginalAndGhostTables_ok hi
  obtain ⟨hs, hm, -⟩ := inspectSharedColumns_eq hn hmapped haccepts.sharedColumns
  show apl.migrationContext.sharedColumns.columns.zip
    apl.migrationContext.mappedSharedColumns.columns = _
  rw [migrationContext_of_prepared hp, hs, hm, List.zip_map']

/-- **The queries of an inspected migration are built from distinct columns, paired by position.**
-/
theorem built_of_inspection : (migrationOf d original ghost apl ix).Built := by
  have hctx := migrationContext_of_prepared hp
  have hw : isp.originalTableColumns.WellFormed := by
    rw [hd.originalColumns]
    exact newColumnList_wellFormed hd.originalNames
  obtain ⟨chosen, haccepts⟩ := inspectOriginalAndGhostTables_ok hi
  obtain ⟨hs, hm, -⟩ := inspectSharedColumns_eq hw.nodup hmapped haccepts.sharedColumns
  have htable := haccepts.tableColumns
  rw [applyColumnTypes_eq hw, Except.ok.injEq] at htable
  exact {
    prepared := by
      show prepareQueries apl.migrationContext = .ok apl
      rw [hctx, hp]
    tableColumns := by
      show apl.migrationContext.originalTableColumns.WellFormed
      rw [hctx, ← htable]
      exact typedList_wellFormed hw _
    length := by
      show apl.migrationContext.sharedColumns.columns.length
        = apl.migrationContext.mappedSharedColumns.columns.length
      rw [hctx, hs, hm, List.length_map, List.length_map]
    mappedNames := by
      show apl.migrationContext.mappedSharedColumns.names.Nodup
      have hnames : isp.sharedNames.map (Column.name ∘ fun n => (isp.sharedPair n).2)
          = isp.sharedNames.map isp.columnNames.mappedName :=
        List.map_congr_left fun n _ => (sharedPair_names isp n).2
      unfold ColumnList.names
      rw [hctx, hm, List.map_map, hnames]
      exact hmapped }

theorem assigned_eq_project_iff_agreesOn (hh : HandledColumns isp original ghost)
    (h : (migrationOf d original ghost apl ix).Admits row) :
    (migrationOf d original ghost apl ix).srv.assigned
        (apl.migrationContext.mappedSharedColumns.columns.map fun c => (c.name, c.valueToken))
        ((migrationOf d original ghost apl ix).argsOf apl.migrationContext.sharedColumns.columns
          row)
        = (migrationOf d original ghost apl ix).project row ↔
      AgreesOn isp original ghost row := by
  refine ((built_of_inspection hd hmapped hi hp).assigned_eq_project_iff h).trans ?_
  rw [pairs_of_inspection hd hmapped hi hp, List.forall_mem_map]
  refine forall₂_congr fun name hname => ?_
  obtain ⟨source, target, hs, ht, hhandled⟩ := hh name hname
  -- a value of the row is one that the column admits
  have hadmits : ∀ v, row.lookup name = some v → source.admits v = true := by
    intro v hv
    have := h.2 _ (Infra.mem_of_assoc_lookup hv)
    simpa [migrationOf, serverOf, hs] using this
  rw [(sharedPair_names isp name).1]
  constructor
  · intro hall source' target' v hs' ht' hv
    rw [hs, Option.some.injEq] at hs'
    rw [ht, Option.some.injEq] at ht'
    subst hs' ht'
    refine (bind_eq_select_of_inspection hd hs ht hhandled (hadmits v hv)).mp ?_
    rw [(sharedPair_names isp name).1]
    exact hall v hv
  · intro hall v hv
    have := (bind_eq_select_of_inspection hd hs ht hhandled (hadmits v hv)).mpr
      (hall source target v hs ht hv)
    rwa [(sharedPair_names isp name).1] at this

end Accepted

/-- **The two write paths agree exactly on agreeing values** (`Agrees`): what the `insert` and the
`update` built from the image of a row store is what the copy of its chunk stores. -/
theorem write_paths_agree_iff (hd : isp.Describes original ghost)
    (hmapped : (isp.sharedNames.map isp.columnNames.mappedName).Nodup)
    (hi : inspectOriginalAndGhostTables isp = .ok ctx) (hp : prepareQueries ctx = .ok apl)
    (hh : HandledColumns isp original ghost)
    (h : (migrationOf d original ghost apl ix).Admits row) :
    ((migrationOf d original ghost apl ix).insertedRow row
        = some ((migrationOf d original ghost apl ix).project row) ↔
      AgreesOn isp original ghost row) ∧
    ∀ old, (migrationOf d original ghost apl ix).Admits old →
      ((migrationOf d original ghost apl ix).updatedValues old row
          = some ((migrationOf d original ghost apl ix).project row) ↔
        AgreesOn isp original ghost row) := by
  have hm : (migrationOf d original ghost apl ix).Built := built_of_inspection hd hmapped hi hp
  have hiff := assigned_eq_project_iff_agreesOn hd hmapped hi hp hh h
  refine ⟨?_, fun old hold => ?_⟩
  · rw [hm.insertedRow_eq h, Option.some.injEq]
    exact hiff
  · rw [hm.updatedValues_eq h hold, Option.some.injEq]
    exact hiff

end Inspected

/-! ## Small tables -/

/-- Characters up to U+00FF in UTF-8. -/
def encodeWestern (c : UInt8) : List UInt8 :=
  if c < 128 then [c] else [UInt8.ofNat (192 + c.toNat / 64), UInt8.ofNat (128 + c.toNat % 64)]

def decodeWestern : List UInt8 → List UInt8
  | [] => []
  | [b] => [b]
  | b :: c :: rest =>
    if b < 128 then b :: decodeWestern (c :: rest)
    else UInt8.ofNat ((b.toNat - 192) * 64 + (c.toNat - 128)) :: decodeWestern rest

theorem decodeWestern_ascii {b : UInt8} (h : b < 128) (rest : List UInt8) :
    decodeWestern (b :: rest) = b :: decodeWestern rest := by
  cases rest with
  | nil => rfl
  | cons c rest => rw [decodeWestern, if_pos h]

theorem decodeWestern_encodeWestern (s : List UInt8) :
    decodeWestern (s.flatMap encodeWestern) = s := by
  induction s with
  | nil => rfl
  | cons c s ih =>
    rw [List.flatMap_cons, encodeWestern]
    split
    · next h => rw [List.singleton_append, decodeWestern_ascii h, ih]
    · next h =>
      have hc := c.toNat_lt
      have hge : 128 ≤ c.toNat := by
        by_contra hlt
        exact h (UInt8.lt_iff_toNat_lt.mpr (by simpa using hlt))
      have hfirst : (UInt8.ofNat (192 + c.toNat / 64)).toNat = 192 + c.toNat / 64 := by
        rw [UInt8.toNat_ofNat']
        omega
      have hsecond : (UInt8.ofNat (128 + c.toNat % 64)).toNat = 128 + c.toNat % 64 := by
        rw [UInt8.toNat_ofNat']
        omega
      have hback : (192 + c.toNat / 64 - 192) * 64 + (128 + c.toNat % 64 - 128) = c.toNat := by
        omega
      have hnot : ¬ UInt8.ofNat (192 + c.toNat / 64) < 128 := by
        rw [UInt8.lt_iff_toNat_lt, hfirst]
        show ¬ 192 + c.toNat / 64 < 128
        omega
      rw [List.cons_append, List.cons_append, List.nil_append, decodeWestern, if_neg hnot, ih,
        hfirst, hsecond, hback, UInt8.ofNat_toNat]

/-- The literals of a list without escapes. -/
def literalsFrom : List Char → Option (List UInt8) → List (List UInt8)
  | [], _ => []
  | c :: cs, none => literalsFrom cs (if c = '\'' then some [] else none)
  | c :: cs, some s =>
    if c = '\'' then s :: literalsFrom cs none
    else literalsFrom cs (some (s ++ [UInt8.ofNat c.toNat]))

/-- `windows-1252` of the library for the characters up to U+00FF: five bytes have none. -/
def decodeWindows1252 (c : UInt8) : List UInt8 :=
  if c ∈ [0x81, 0x8D, 0x8F, 0x90, 0x9D] then [0xEF, 0xBF, 0xBD] else encodeWestern c

/-- A dialect for the characters up to U+00FF. -/
def western : Dialect UInt8 where
  decode charset b := if charset = .utf8mb4 then decodeWestern b else b
  encode charset s :=
    match charset with
    | .latin1 => s
    | .gbk => s.map fun c => if c < 128 then c else 63
    | .utf8mb4 => s.flatMap encodeWestern
  literals text := literalsFrom text.toList none
  enc :=
    { windows1252 := fun b => b.flatMap decodeWindows1252
      gbk := fun b => b.flatMap encodeWestern }
  assignEnum _ _ arg := .enum arg.number.toNat
  cast _ _ v := v
  evaluate _ arg := arg
  readsAs b i := (parseUint (b.takeWhile fun c => 48 ≤ c ∧ c ≤ 57) : Int) = i
  decode_encode := decodeWestern_encodeWestern

def idColumn : ColumnDef western where
  name := "id"
  type := .integer .mediumint true
  columnType := "mediumint unsigned"
  renders := ⟨by decide, by decide, by decide⟩

def varcharColumn (name : String) (charset : Charset) : ColumnDef western where
  name := name
  type := .text charset false
  columnType := "varchar(20)"
  renders := by
    show PlainType "varchar(20)"
    decide

def enumColumn (name : String) : ColumnDef western where
  name := name
  type := .enum [[110, 101, 119], [111, 108, 100]] .latin1
  columnType := "enum('new','old')"
  renders := ⟨"'new','old'", rfl, by decide, by decide⟩

/-- The inspection of two tables with the key `id`. -/
def inspectionOf (original ghost : List (ColumnDef western))
    (columnRenameMap : List (String × String)) : Inspection where
  databaseName := "db"
  originalTableName := "t"
  ghostTableName := "_t_gho"
  originalTableColumns := newColumnList (original.map ColumnDef.name)
  originalTableColumnsOnApplier := newColumnList (original.map ColumnDef.name)
  originalTableVirtualColumns := newColumnList []
  originalTableUniqueKeys := [{ name := "PRIMARY", columns := newColumnList ["id"] }]
  ghostTableColumns := newColumnList (ghost.map ColumnDef.name)
  ghostTableVirtualColumns := newColumnList []
  ghostTableUniqueKeys := [{ name := "PRIMARY", columns := newColumnList ["id"] }]
  originalColumnInfos := original.map ColumnDef.info
  ghostColumnInfos := ghost.map ColumnDef.info
  columnRenameMap := columnRenameMap
  droppedColumnsMap := []
  nullableUniqueKeyAllowed := false
  applierTimeZone := "+00:00"
  equalFold := fun a b => a = b

/-- The migration of two tables with the key `id`. -/
def smallTables (original ghost : List (ColumnDef western)) (apl : Applier) :
    Migration Stored Stored :=
  migrationOf western original ghost apl { uniqueKey := ["id"], further := [] }

/-- A table that keeps its names, while `ENUM` and `latin1` columns become `utf8mb4`. -/
def keptOriginal : List (ColumnDef western) :=
  [idColumn, enumColumn "status", varcharColumn "name" .latin1]

def keptGhost : List (ColumnDef western) :=
  [idColumn, varcharColumn "status" .utf8mb4, varcharColumn "name" .utf8mb4]

def keptRow : Row Stored :=
  [("id", .int 16777215), ("status", .enum 2), ("name", .bytes [0xE9])]

theorem write_paths_agree_iff_kept :
    ∃ ctx apl, inspectOriginalAndGhostTables (inspectionOf keptOriginal keptGhost []) = .ok ctx ∧
      prepareQueries ctx = .ok apl ∧
      (smallTables keptOriginal keptGhost apl).insertedRow keptRow
        = some ((smallTables keptOriginal keptGhost apl).project keptRow) := by
  refine ⟨_, _, rfl, rfl, ?_⟩
  have hd : (inspectionOf keptOriginal keptGhost []).Describes keptOriginal keptGhost :=
    ⟨rfl, rfl, rfl, by decide, by decide⟩
  have hnames : (inspectionOf keptOriginal keptGhost []).sharedNames =
      ["id", "status", "name"] := by
    decide
  have hname : ∀ name ∈ (inspectionOf keptOriginal keptGhost []).sharedNames,
      name = "id" ∨ name = "status" ∨ name = "name" := by
    intro name h
    rw [hnames] at h
    simpa using h
  refine (write_paths_agree_iff hd (by decide) rfl rfl ?_ (by decide)).1.mpr ?_
  · intro name h
    rcases hname name h with rfl | rfl | rfl
    · exact ⟨_, _, rfl, rfl, trivial⟩
    · exact ⟨_, _, rfl, rfl, trivial⟩
    · exact ⟨_, _, rfl, rfl, trivial⟩
  · intro name h source target v hs ht hv
    rcases hname name h with rfl | rfl | rfl
    · cases hs
      cases ht
      trivial
    · cases hs
      cases ht
      cases hv
      show (2 : Nat) ≠ 0
      omega
    · cases hs
      cases ht
      cases hv
      exact .inr rfl

/-- A row with a byte that the library does not know. -/
def unknownRow : Row Stored := [("id", .int 1), ("status", .null), ("name", .bytes [0x81])]

/-- A table whose `latin1` column `name` becomes the `utf8mb4` column `title`. -/
def renamedOriginal : List (ColumnDef western) := [idColumn, varcharColumn "name" .latin1]

def renamedGhost : List (ColumnDef western) := [idColumn, varcharColumn "title" .utf8mb4]

/-- **A renamed column is not converted.** The row copy turns the letter `é` into two bytes, the
other path writes the one of `latin1`. Where the name is kept, a byte that the library does not know
is written as U+FFFD. -/
theorem renamed_text_not_converted :
    (∃ ctx apl, inspectOriginalAndGhostTables (inspectionOf keptOriginal keptGhost []) = .ok ctx ∧
      prepareQueries ctx = .ok apl ∧
      (smallTables keptOriginal keptGhost apl).Admits unknownRow ∧
      (smallTables keptOriginal keptGhost apl).project unknownRow
        = [("id", .int 1), ("status", .null), ("name", .bytes [0xC2, 0x81])] ∧
      (smallTables keptOriginal keptGhost apl).insertedRow unknownRow
        = some [("id", .int 1), ("status", .null), ("name", .bytes [0xEF, 0xBF, 0xBD])]) ∧
    ∃ ctx apl,
      inspectOriginalAndGhostTables (inspectionOf renamedOriginal renamedGhost [("name", "title")])
        = .ok ctx ∧
      prepareQueries ctx = .ok apl ∧
      (smallTables renamedOriginal renamedGhost apl).Admits
        [("id", .int 1), ("name", .bytes [0xE9])] ∧
      (smallTables renamedOriginal renamedGhost apl).project
          [("id", .int 1), ("name", .bytes [0xE9])]
        = [("id", .int 1), ("title", .bytes [0xC3, 0xA9])] ∧
      (smallTables renamedOriginal renamedGhost apl).insertedRow
          [("id", .int 1), ("name", .bytes [0xE9])]
        = some [("id", .int 1), ("title", .bytes [0xE9])] ∧
      (smallTables renamedOriginal renamedGhost apl).updatedValues
          [("id", .int 1), ("name", .null)] [("id", .int 1), ("name", .bytes [0xE9])]
        = some [("id", .int 1), ("title", .bytes [0xE9])] := by
  constructor
  · refine ⟨_, _, rfl, rfl, ?_⟩
    decide
  · refine ⟨_, _, rfl, rfl, ?_⟩
    decide

end GhOst.Logic
