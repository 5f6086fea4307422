import GhOst.Properties.SharedKeys
import GhOst.Properties.WritePaths

/-!
# The row that `delete` and `update` address

The `where` clause compares the columns of the ghost that have the names of the key columns of the
original with the values of the original, without conversions. `insert` writes the mapped columns,
with the conversions of the shared columns. The two meet on the same row exactly when each key
column of the ghost holds what it is compared with (`where_addresses_iff`).
-/

namespace GhOst.Logic

open GhOst.Sql GhOst.Binlog

namespace Migration

variable {σ κ : Type}

/-- Whether the `delete` built from the image of a row selects a row of the ghost. -/
def deleteSelects (m : Migration σ κ) (row q : Row σ) : Bool :=
  match m.apl.dmlDeleteQueryBuilder.buildQuery m.enc (m.image row) with
  | .ok (.delete _ _ whereColumns, args) => m.srv.matchesWhere whereColumns args q
  | _ => false

/-- Whether the `update` built from the images of a row, old and new, selects a row of the ghost. -/
def updateSelects (m : Migration σ κ) (new row q : Row σ) : Bool :=
  match m.apl.dmlUpdateQueryBuilder.buildQuery m.enc (m.image new) (m.image row) with
  | .ok (.update _ _ set whereColumns, args) =>
    m.srv.matchesWhere whereColumns (args.drop set.length) q
  | _ => false

/-- What the `insert` built from a row has written is selected for that row, and not what another
row has written. -/
def Addresses (m : Migration σ κ) (selects : Row σ → Row σ → Bool) (row other : Row σ) : Prop :=
  (m.insertedRow row).any (selects row) = true ∧ (m.insertedRow other).any (selects row) = false

variable {m : Migration σ κ} {row new : Row σ}

section Where

variable (hm : m.Built) (hkey : ∀ name ∈ m.apl.migrationContext.uniqueKey.columns.names,
  name ∈ m.apl.migrationContext.originalTableColumns.names)
include hm hkey

theorem Built.convertedArgs_key_mem (h : m.Admits row) :
    convertedArgs m.enc m.apl.migrationContext.originalTableColumns (m.image row)
        m.apl.migrationContext.uniqueKey.columns.columns
      = .ok (m.argsOf m.apl.migrationContext.uniqueKey.columns.columns row) :=
  hm.convertedArgs_of_mem h fun _ hc => hkey _ (List.mem_map_of_mem hc)

theorem Built.deleteSelects_eq (h : m.Admits row) (q : Row σ) :
    m.deleteSelects row q = m.srv.matchesWhere m.apl.migrationContext.uniqueKey.columns.names
      (m.argsOf m.apl.migrationContext.uniqueKey.columns.columns row) q := by
  have hb := congrArg Applier.dmlDeleteQueryBuilder (prepareQueries_ok hm.prepared).2
  unfold deleteSelects
  simp only [hb, DMLDeleteQueryBuilder.buildQuery, image_length h, ne_eq, not_true_eq_false,
    if_false, hm.convertedArgs_key_mem hkey h]

theorem Built.updateSelects_eq (hnew : m.Admits new) (h : m.Admits row) (q : Row σ) :
    m.updateSelects new row q = m.srv.matchesWhere m.apl.migrationContext.uniqueKey.columns.names
      (m.argsOf m.apl.migrationContext.uniqueKey.columns.columns row) q := by
  have hb := congrArg Applier.dmlUpdateQueryBuilder (prepareQueries_ok hm.prepared).2
  have hlen : (m.apl.migrationContext.mappedSharedColumns.columns.map
        fun c => (c.name, c.valueToken)).length
      = (m.argsOf m.apl.migrationContext.sharedColumns.columns new).length := by
    rw [argsOf, List.length_map, List.length_map, hm.length]
  unfold updateSelects
  simp only [hb, DMLUpdateQueryBuilder.buildQuery, hm.convertedArgs_shared hnew,
    hm.convertedArgs_key_mem hkey h, hlen, List.drop_left]

end Where

theorem Built.lookup_inserted (hm : m.Built) (h : m.Admits row) {q : Row σ}
    (hq : m.insertedRow row = some q) {p : Column × Column} (hp : p ∈ m.pairs) {v : σ}
    (hv : row.lookup p.1.name = some v) :
    q.lookup p.2.name = some
      (m.srv.bind p.2.name p.2.valueToken (p.1.convertArg m.enc (m.srv.image p.1.name v))) := by
  rw [hm.insertedRow_eq h, Option.some.injEq, assigned_shared] at hq
  subst hq
  refine Infra.lookup_of_mem ?_ ?_
  · have hnames : (m.pairs.map Prod.snd).map Column.name
        = m.apl.migrationContext.mappedSharedColumns.names := by
      unfold pairs
      rw [List.map_snd_zip (Nat.le_of_eq hm.length.symm)]
      rfl
    rw [List.map_map]
    rw [List.map_map] at hnames
    exact hnames ▸ hm.mappedNames
  · refine List.mem_map.mpr ⟨p, hp, ?_⟩
    rw [hm.image_ordinal h hv, Option.getD_some]

end Migration

/-! ## What a key column is compared with -/

/-- What stands in the `where` clause for a value: an unsigned `BIGINT` is sent as a string. -/
inductive Comparand where
  | null
  | number (i : Int)
  | digits (n : Nat)
  | bytes (b : List UInt8)
deriving DecidableEq, Repr

variable {τ : Type} {d : Dialect τ}

/-- The images of `BIGINT` and `ENUM` are of the type `int64`. -/
def ColumnDef.sentAsDigits (c : ColumnDef d) : Bool :=
  contains c.columnType "unsigned" &&
    match c.type with
    | .integer .bigint _ | .enum _ _ => true
    | _ => false

/-- What the value of a key column of the original is sent as. No conversion is asked for. -/
def ColumnDef.comparand (c : ColumnDef d) : Stored → Comparand
  | .null => .null
  | .int i => if c.sentAsDigits then .digits i.toNat else .number i
  | .enum i => if c.sentAsDigits then .digits i else .number i
  | .bytes b => .bytes b

/-- Whether a value that a column of the ghost stores is equal to it. -/
def Comparand.meets (d : Dialect τ) (type : SqlType τ) : Comparand → Stored → Bool
  | .number j, .int i => i = j
  | .digits n, .int i => i = n
  | .bytes b, .int i => d.readsAs b i
  | .number j, .bytes b => d.readsAs b j
  | .digits n, .bytes b => b = d.inColumn type (formatUint n)
  | .bytes a, .bytes b => b = a
  | _, _ => false

inductive Sends : Comparand → Value → Prop where
  | null : Sends .null .null
  | number {arg : Value} : arg ≠ .null → arg.asBytes = none → Sends (.number arg.number) arg
  | digits (n : Nat) : Sends (.digits n) (.string (formatUint n))
  | bytes (b : List UInt8) : Sends (.bytes b) (.bytes b)

/-- **A comparison sees only the comparand.** -/
theorem Sends.equals {comparand : Comparand} {arg : Value} (h : Sends comparand arg)
    (d : Dialect τ) (type : SqlType τ) {v : Stored} (hv : ∀ i, v ≠ .enum i) :
    d.equals type v arg = comparand.meets d type v := by
  cases h with
  | null => cases v <;> rfl
  | number hne hbytes =>
    cases v with
    | null => rfl
    | enum i => exact absurd rfl (hv i)
    | int i =>
      cases arg with
      | null => exact absurd rfl hne
      | bytes b => simp [Value.asBytes] at hbytes
      | _ => simp [Dialect.equals, Comparand.meets, eq_comm]
    | bytes b =>
      cases arg with
      | null => exact absurd rfl hne
      | bytes b => simp [Value.asBytes] at hbytes
      | string s => simp [Value.asBytes] at hbytes
      | _ => rfl
  | digits n =>
    cases v with
    | null => rfl
    | enum i => exact absurd rfl (hv i)
    | int i =>
      show decide (((parseUint (formatUint n) : Nat) : Int) = i) = decide (i = n)
      rw [parseUint_formatUint]
      exact decide_eq_decide.mpr eq_comm
    | bytes b => rfl
  | bytes b =>
    cases v with
    | null => rfl
    | enum i => exact absurd rfl (hv i)
    | int i => rfl
    | bytes a => rfl

theorem ColumnDef.column_isUnsigned (c : ColumnDef d) :
    c.column.isUnsigned = contains c.columnType "unsigned" :=
  Bool.false_or _

theorem convertArg_imageInt (enc : Encodings) {cl : Column} {w : IntWidth} {i : Int}
    (hm : cl.type = .mediumInt ↔ w = .mediumint)
    (ha : (SqlType.integer w cl.isUnsigned : SqlType τ).admits (.int i) = true) :
    if cl.isUnsigned = true ∧ w = .bigint then
      cl.convertArg enc (SqlType.imageInt w i) = .string (formatUint i.toNat)
    else (cl.convertArg enc (SqlType.imageInt w i)).asBytes = none := by
  have hnumber : (cl.convertArg enc (SqlType.imageInt w i)).number = i :=
    SqlType.number_convertArg hm ha
  have harg : cl.convertArg enc (SqlType.imageInt w i) =
      if cl.isUnsigned then cl.convertUnsigned (SqlType.imageInt w i)
      else SqlType.imageInt w i := by
    rw [Column.convertArg, SqlType.asBytes_imageInt]
  by_cases hu : cl.isUnsigned = true
  · rw [if_pos hu] at harg
    cases w with
    | bigint =>
      rw [if_pos ⟨hu, rfl⟩, harg]
      rw [harg] at hnumber
      have hdigits : ((Int64.ofInt i).toUInt64.toNat : Int) = i := by
        have hparse : ((parseUint (formatUint (Int64.ofInt i).toUInt64.toNat) : Nat) : Int) = i :=
          hnumber
        rwa [parseUint_formatUint] at hparse
      show Value.string (formatUint (Int64.ofInt i).toUInt64.toNat) = _
      rw [← hdigits, Int.toNat_natCast, hdigits]
    | mediumint =>
      rw [if_neg (by simp), harg, SqlType.imageInt, Column.convertUnsigned, if_pos (hm.mpr rfl)]
      split <;> rfl
    | int =>
      rw [if_neg (by simp), harg, SqlType.imageInt, Column.convertUnsigned]
      split
      · split <;> rfl
      · rfl
    | tinyint =>
      rw [if_neg (by simp), harg]
      rfl
    | smallint =>
      rw [if_neg (by simp), harg]
      rfl
  · rw [if_neg hu] at harg
    rw [if_neg (fun h => hu h.1), harg, SqlType.asBytes_imageInt]

theorem ColumnDef.sends (c : ColumnDef d) {v : Stored} (hv : c.type.admits v = true) :
    Sends (c.comparand v) (c.column.convertArg d.enc (c.type.image v)) := by
  have hdescribes := c.describes
  have hunsigned := c.column_isUnsigned
  cases v with
  | null =>
    rw [image_null, convertArg_null]
    exact .null
  | int i =>
    cases ht : c.type with
    | integer w u =>
      rw [ht] at hv hdescribes
      obtain ⟨rfl, -, hm⟩ := hdescribes
      have hshape := convertArg_imageInt d.enc hm hv
      have hnumber : (c.column.convertArg d.enc (SqlType.imageInt w i)).number = i :=
        SqlType.number_convertArg hm hv
      have hdigits : c.sentAsDigits = true ↔ c.column.isUnsigned = true ∧ w = .bigint := by
        unfold sentAsDigits
        rw [ht, hunsigned]
        cases w <;> simp
      show Sends (if c.sentAsDigits then .digits i.toNat else .number i) _
      by_cases hsent : c.sentAsDigits = true
      · rw [if_pos (hdigits.mp hsent)] at hshape
        rw [if_pos hsent]
        exact hshape ▸ .digits i.toNat
      · rw [if_neg fun h => hsent (hdigits.mpr h)] at hshape
        rw [if_neg hsent]
        have hsends := Sends.number (convertArg_imageInt_ne_null w i) hshape
        rwa [hnumber] at hsends
    | _ => simp [ht, SqlType.admits] at hv
  | enum i =>
    cases ht : c.type with
    | enum labels charset =>
      rw [ht, SqlType.admits, decide_eq_true_iff] at hv
      have hdigits : c.sentAsDigits = c.column.isUnsigned := by
        unfold sentAsDigits
        rw [ht, hunsigned, Bool.and_true]
      show Sends (if c.sentAsDigits then .digits i else .number i)
        (c.column.convertArg d.enc (.int64 (Int64.ofNat i)))
      unfold Column.convertArg
      dsimp only [Value.asBytes]
      rw [hdigits]
      by_cases hu : c.column.isUnsigned = true
      · rw [if_pos hu, if_pos hu, Column.convertUnsigned, Int64.toUInt64_ofNat',
          UInt64.toNat_ofNat', Nat.mod_eq_of_lt (by omega)]
        exact .digits i
      · rw [if_neg hu, if_neg hu]
        have hsends := @Sends.number (.int64 (Int64.ofNat i)) (by simp) rfl
        rwa [Value.number, toInt_ofNat hv.2] at hsends
    | _ => simp [ht, SqlType.admits] at hv
  | bytes b =>
    cases ht : c.type with
    | binary n =>
      rw [ht] at hv hdescribes
      obtain ⟨htype, hcharset, hm, hn⟩ := hdescribes
      have hb : b.length = n := by simpa [SqlType.admits] using hv
      show Sends (.bytes b) (c.column.convertArg d.enc (.string (b.rdropWhile (· = 0))))
      rw [Column.convertArg_binary htype hcharset hm (by rw [hb, hn])]
      exact .bytes b
    | text charset blob =>
      rw [ht] at hdescribes
      show Sends (.bytes b) (c.column.convertArg d.enc (if blob then .bytes b else .string b))
      have hnone : c.column.charsetConversion = none := rfl
      rw [convertArg_text hdescribes, if_pos (.inl hnone)]
      exact .bytes b
    | _ => simp [ht, SqlType.admits] at hv

/-! ## The rows that meet -/

section Rows

variable (isp : Inspection) (original ghost : List (ColumnDef d))

/-- What the `where` clause built from a row compares the column `k` with. -/
def comparedWith (row : Row Stored) (k : String) : Comparand :=
  match original.find? (fun c => c.name = k), row.lookup k with
  | some c, some v => c.comparand v
  | _, _ => .null

/-- What the `insert` built from a row writes to the column `k` of the ghost. -/
def writtenTo (row : Row Stored) (k : String) : Stored :=
  match isp.sharedNames.find? fun name => isp.columnNames.mappedName name = k with
  | none => .null
  | some name =>
    match typeOf original name, typeOf ghost k, row.lookup name with
    | some source, some target, some v => written d (decide (name ≠ k)) source target v
    | _, _, _ => .null

/-- The `where` clause built from `row` holds of what the `insert` built from `other` writes. -/
def Meets (key : List String) (row other : Row Stored) : Prop :=
  ∀ k ∈ key, ∃ type, typeOf ghost k = some type ∧
    (comparedWith original row k).meets d type (writtenTo isp original ghost other k) = true

/-- The key columns have the same name and the same type in both tables, and none is an `ENUM`. -/
def KeepsKey (key : List String) : Prop :=
  ∀ k ∈ key, k ∈ isp.sharedNames ∧ isp.columnNames.mappedName k = k ∧
    ∃ type, typeOf original k = some type ∧ typeOf ghost k = some type ∧
      ∀ labels charset, type ≠ .enum labels charset

/-- The unique keys of the original are over its columns, and no column of them is generated in the
ghost. -/
def KeysDescribed : Prop :=
  ∀ key ∈ isp.originalTableUniqueKeys, ∃ names : List String, key.columns = newColumnList names ∧
    names.Nodup ∧ ∀ n ∈ names, n ∈ original.map ColumnDef.name ∧
      isp.ghostTableVirtualColumns.getColumn n = .ok none

end Rows

variable {isp : Inspection} {original ghost : List (ColumnDef d)} {ctx : MigrationContext}
  {apl : Applier} {ix : Indexes} {row other : Row Stored}

theorem infoNames_nodup {columns : List (ColumnDef d)} (hn : (columns.map ColumnDef.name).Nodup) :
    ((columns.map ColumnDef.info).map ColumnInfo.columnName).Nodup := by
  rw [List.map_map]
  exact hn

theorem key_of_inspection (hd : isp.Describes original ghost)
    (hmapped : (isp.sharedNames.map isp.columnNames.mappedName).Nodup)
    (hkeys : KeysDescribed isp original) (hi : inspectOriginalAndGhostTables isp = .ok ctx) :
    ctx.uniqueKey.columns.columns = ctx.uniqueKey.columns.names.map
        (fun k => typed isp.originalColumnInfos { name := k }) ∧
      ∀ k ∈ ctx.uniqueKey.columns.names, k ∈ original.map ColumnDef.name ∧
        ∃ name ∈ isp.sharedNames, isp.columnNames.mappedName name = k := by
  obtain ⟨chosen, haccepts⟩ := inspectOriginalAndGhostTables_ok hi
  obtain ⟨shared, hshared, htypes⟩ := chooseUniqueKey_ok haccepts.chooses
  obtain ⟨⟨key, hkey, hcolumns⟩, -⟩ := of_mem_getSharedUniqueKeys hshared
  obtain ⟨names, hnames, hnodup, hall⟩ := hkeys key hkey
  have hw := newColumnList_wellFormed hnodup
  have hinfos : (isp.originalColumnInfos.map ColumnInfo.columnName).Nodup := by
    rw [hd.originalInfos]
    exact infoNames_nodup hd.originalNames
  -- the types are applied when the key is chosen, and once more
  rw [hcolumns, hnames, applyColumnTypes_eq hw, Except.ok.injEq] at htypes
  have hagain := haccepts.keyColumns
  rw [← htypes, applyColumnTypes_eq (typedList_wellFormed hw _), Except.ok.injEq] at hagain
  have hkeyColumns : ctx.uniqueKey.columns.columns
      = names.map fun k => typed isp.originalColumnInfos { name := k } := by
    rw [← hagain]
    simp [newColumnList, newColumns, Function.comp_def, typed_typed hinfos]
  have hkeyNames : ctx.uniqueKey.columns.names = names := by
    unfold ColumnList.names
    rw [hkeyColumns, List.map_map]
    exact (List.map_congr_left fun k _ => typed_name _ _).trans (List.map_id names)
  rw [hkeyNames]
  refine ⟨hkeyColumns, fun k hk => ⟨(hall k hk).1, ?_⟩⟩
  have hn : isp.originalTableColumns.names.Nodup := by
    rw [hd.originalColumns]
    exact (newColumnList_wellFormed hd.originalNames).nodup
  obtain ⟨-, -, hordinals⟩ := inspectSharedColumns_eq hn hmapped haccepts.sharedColumns
  have hmem : typed isp.originalColumnInfos { name := k } ∈ ctx.uniqueKey.columns.columns := by
    rw [hkeyColumns]
    exact List.mem_map_of_mem hk
  have hname := typed_name isp.originalColumnInfos { name := k }
  have hlookup := mapped_of_checkKeyTimezone haccepts.keyTimezone _ hmem
    (by rw [hname]; exact (hall k hk).2)
  rw [hname, hordinals, (newColumnList_wellFormed hmapped).lookup_isSome] at hlookup
  have hmem' : k ∈ isp.sharedNames.map isp.columnNames.mappedName := by
    have hnew := newColumns_names (isp.sharedNames.map isp.columnNames.mappedName)
    exact hnew ▸ hlookup
  exact List.mem_map.mp hmem'

theorem written_ne_enum (renamed : Bool) (source target : SqlType τ) (v : Stored) (i : Nat) :
    written d renamed source target v ≠ .enum i := by
  unfold written
  split
  · simp
  · simp
  · split_ifs <;> simp
  · split_ifs <;> simp
  · simp

theorem find_column {k : String} (hk : k ∈ original.map ColumnDef.name) :
    ∃ column ∈ original, original.find? (fun c => c.name = k) = some column ∧ column.name = k ∧
      typeOf original k = some column.type := by
  obtain ⟨column, hfind⟩ : ∃ column, original.find? (fun c => c.name = k) = some column := by
    rw [← Option.isSome_iff_exists, List.find?_isSome]
    simpa using hk
  refine ⟨column, List.mem_of_find?_eq_some hfind, hfind, by simpa using List.find?_some hfind, ?_⟩
  unfold typeOf
  rw [hfind]
  rfl

theorem tableNames_of_inspection (hd : isp.Describes original ghost)
    (hi : inspectOriginalAndGhostTables isp = .ok ctx) :
    ctx.originalTableColumns.names = original.map ColumnDef.name := by
  obtain ⟨chosen, haccepts⟩ := inspectOriginalAndGhostTables_ok hi
  have hw : isp.originalTableColumns.WellFormed := by
    rw [hd.originalColumns]
    exact newColumnList_wellFormed hd.originalNames
  have htable := haccepts.tableColumns
  rw [applyColumnTypes_eq hw, Except.ok.injEq] at htable
  rw [← htable, typedList_names, hd.originalColumns]
  exact newColumns_names _

theorem writtenTo_ne_enum (isp : Inspection) (original ghost : List (ColumnDef d))
    (row : Row Stored) (k : String) (i : Nat) : writtenTo isp original ghost row k ≠ .enum i := by
  unfold writtenTo
  split
  · simp
  · split
    · exact written_ne_enum _ _ _ _ i
    · simp

section Inspected

variable (hd : isp.Describes original ghost)
  (hmapped : (isp.sharedNames.map isp.columnNames.mappedName).Nodup)
  (hi : inspectOriginalAndGhostTables isp = .ok ctx) (hp : prepareQueries ctx = .ok apl)
  (hh : HandledColumns isp original ghost)
include hd hmapped hi hp hh

/-- **What the `insert` writes to a key column of the ghost.** -/
theorem lookup_inserted_key (h : (migrationOf d original ghost apl ix).Admits other)
    {q : Row Stored} (hq : (migrationOf d original ghost apl ix).insertedRow other = some q)
    {k : String} (hk : ∃ name ∈ isp.sharedNames, isp.columnNames.mappedName name = k) :
    ∃ target, typeOf ghost k = some target ∧
      q.lookup k = some (writtenTo isp original ghost other k) := by
  have hm : (migrationOf d original ghost apl ix).Built := built_of_inspection hd hmapped hi hp
  have hfind : ∃ name, isp.sharedNames.find? (fun name => isp.columnNames.mappedName name = k)
      = some name := by
    rw [← Option.isSome_iff_exists, List.find?_isSome]
    simpa using hk
  obtain ⟨name, hname⟩ := hfind
  have hmem := List.mem_of_find?_eq_some hname
  have hbecomes : isp.columnNames.mappedName name = k := by simpa using List.find?_some hname
  subst hbecomes
  obtain ⟨source, target, hs, ht, hhandled⟩ := hh name hmem
  have hpair : isp.sharedPair name ∈ (migrationOf d original ghost apl ix).pairs := by
    rw [pairs_of_inspection hd hmapped hi hp]
    exact List.mem_map_of_mem hmem
  obtain ⟨w, hw, hadmits⟩ := h.lookup (hm.shared_mem hpair)
  have hlookup := hm.lookup_inserted h hq hpair hw
  rw [(sharedPair_names isp name).1] at hw hadmits
  have hadmits : source.admits w = true := by simpa [migrationOf, serverOf, hs] using hadmits
  have hbind := bind_of_inspection hd hs ht hhandled hadmits
  have hvalue : writtenTo isp original ghost other (isp.columnNames.mappedName name)
      = written d (decide (name ≠ isp.columnNames.mappedName name)) source target w := by
    unfold writtenTo
    simp only [hname, hs, ht, hw]
  rw [(sharedPair_names isp name).2] at hlookup
  refine ⟨target, ht, hlookup.trans ?_⟩
  rw [hvalue, ← hbind, (sharedPair_names isp name).2]
  rfl

omit hh in
/-- **What the `where` clause has for a key column.** -/
theorem key_column_sends (hkeys : KeysDescribed isp original)
    (h : (migrationOf d original ghost apl ix).Admits row) {c : Column}
    (hc : c ∈ ctx.uniqueKey.columns.columns) :
    Sends (comparedWith original row c.name) (c.convertArg d.enc
      ((((migrationOf d original ghost apl ix).image row)[
        apl.migrationContext.originalTableColumns.ordinal c.name]?).getD .null)) := by
  have hm : (migrationOf d original ghost apl ix).Built := built_of_inspection hd hmapped hi hp
  obtain ⟨hcolumns, hnames⟩ := key_of_inspection hd hmapped hkeys hi
  obtain ⟨k, hk, rfl⟩ := List.mem_map.mp (hcolumns ▸ hc)
  rw [typed_name]
  obtain ⟨column, hcolumn, hfind, rfl, htype⟩ := find_column (hnames k hk).1
  have htable : column.name ∈ apl.migrationContext.originalTableColumns.names := by
    rw [migrationContext_of_prepared hp, tableNames_of_inspection hd hi]
    exact (hnames _ hk).1
  obtain ⟨v, hv, hadmits⟩ := h.lookup htable
  have hadmits : column.type.admits v = true := by
    simpa [migrationOf, serverOf, htype] using hadmits
  have himage : (migrationOf d original ghost apl ix).srv.image column.name v
      = column.type.image v := by
    simp [migrationOf, serverOf, htype]
  have hcompared : comparedWith original row column.name = column.comparand v := by
    unfold comparedWith
    rw [hfind, hv]
  have hat := hm.image_ordinal h hv
  rw [himage] at hat
  have hat : ((migrationOf d original ghost apl ix).image row)[
      apl.migrationContext.originalTableColumns.ordinal column.name]? =
      some (column.type.image v) :=
    hat
  rw [hat, Option.getD_some, hcompared, hd.originalInfos, typed_eq_column hd.originalNames hcolumn]
  exact column.sends hadmits

/-- **The `where` clause, column by column.** -/
theorem matchesWhere_iff_meets (hkeys : KeysDescribed isp original)
    (h : (migrationOf d original ghost apl ix).Admits row)
    (h' : (migrationOf d original ghost apl ix).Admits other) {q : Row Stored}
    (hq : (migrationOf d original ghost apl ix).insertedRow other = some q) :
    (migrationOf d original ghost apl ix).srv.matchesWhere ctx.uniqueKey.columns.names
        ((migrationOf d original ghost apl ix).argsOf ctx.uniqueKey.columns.columns row) q = true ↔
      Meets isp original ghost ctx.uniqueKey.columns.names row other := by
  obtain ⟨-, hnames⟩ := key_of_inspection hd hmapped hkeys hi
  unfold Server.matchesWhere Meets Migration.argsOf ColumnList.names
  rw [List.zip_map', List.all_map, List.all_eq_true, List.forall_mem_map]
  refine forall₂_congr fun c hc => ?_
  obtain ⟨target, ht, hlookup⟩ :=
    lookup_inserted_key hd hmapped hi hp hh h' hq (hnames c.name (List.mem_map_of_mem hc)).2
  have hsends := key_column_sends hd hmapped hi hp hkeys h hc
  have hequals := hsends.equals d target (writtenTo_ne_enum isp original ghost other c.name)
  show (q.lookup c.name).any _ = true ↔ _
  rw [hlookup, Option.any_some]
  show ((typeOf ghost c.name).any fun type => d.equals type _ _) = true ↔ _
  rw [ht, Option.any_some]
  refine ⟨fun heq => ⟨target, rfl, ?_⟩, ?_⟩
  · rw [← hequals]
    exact heq
  · rintro ⟨type, htype, hmeets⟩
    rw [← Option.some.inj htype, ← hequals] at hmeets
    exact hmeets

/-- **A statement with that `where` clause addresses what meets.** -/
theorem addresses_iff_meets (hkeys : KeysDescribed isp original)
    (h : (migrationOf d original ghost apl ix).Admits row)
    (h' : (migrationOf d original ghost apl ix).Admits other)
    {selects : Row Stored → Row Stored → Bool}
    (hselects : ∀ q, selects row q =
      (migrationOf d original ghost apl ix).srv.matchesWhere
        apl.migrationContext.uniqueKey.columns.names ((migrationOf d original ghost apl ix).argsOf
          apl.migrationContext.uniqueKey.columns.columns row) q) :
    (migrationOf d original ghost apl ix).Addresses selects row other ↔
      Meets isp original ghost ctx.uniqueKey.columns.names row row ∧
        ¬ Meets isp original ghost ctx.uniqueKey.columns.names row other := by
  have hm : (migrationOf d original ghost apl ix).Built := built_of_inspection hd hmapped hi hp
  rw [migrationContext_of_prepared hp] at hselects
  have hmeets : ∀ {r}, (migrationOf d original ghost apl ix).Admits r →
      (((migrationOf d original ghost apl ix).insertedRow r).any (selects row) = true ↔
        Meets isp original ghost ctx.uniqueKey.columns.names row r) := by
    intro r hr
    have hq := hm.insertedRow_eq hr
    rw [hq, Option.any_some, hselects]
    exact matchesWhere_iff_meets hd hmapped hi hp hh hkeys h hr hq
  unfold Migration.Addresses
  rw [hmeets h, ← Bool.not_eq_true, hmeets h']

end Inspected

/-! ## A key that is kept -/

section Kept

variable {c : ColumnDef d} {v w : Stored}

theorem clip_of_admits {width : IntWidth} {unsigned : Bool} {i : Int}
    (h : (SqlType.integer width unsigned : SqlType τ).admits (.int i) = true) :
    width.clip unsigned i = i := by
  rw [SqlType.admits, decide_eq_true_iff] at h
  unfold IntWidth.clip
  rw [min_eq_left h.2, max_eq_right h.1]

theorem fitBinary_self (b : List UInt8) : fitBinary b.length b = b := by
  simp [fitBinary]

theorem written_kept {type : SqlType τ} (henum : ∀ labels charset, type ≠ .enum labels charset)
    (hw : type.admits w = true) : written d false type type w = w := by
  cases w with
  | null => exact written_null type type
  | int i =>
    cases type with
    | integer width unsigned => exact congrArg Stored.int (clip_of_admits hw)
    | _ => simp [SqlType.admits] at hw
  | bytes b =>
    cases type with
    | binary n =>
      have hb : b.length = n := by simpa [SqlType.admits] using hw
      subst hb
      exact congrArg Stored.bytes (fitBinary_self b)
    | text charset blob =>
      exact if_pos (.inl rfl)
    | _ => simp [SqlType.admits] at hw
  | enum i =>
    cases type with
    | enum labels charset => exact absurd rfl (henum labels charset)
    | _ => simp [SqlType.admits] at hw

theorem toNat_of_sentAsDigits {i : Int} (hi : c.type.admits (.int i) = true)
    (hsent : c.sentAsDigits = true) : (i.toNat : Int) = i := by
  unfold ColumnDef.sentAsDigits at hsent
  rw [Bool.and_eq_true] at hsent
  have hr := c.renders
  cases ht : c.type with
  | integer width unsigned =>
    rw [ht] at hr hi
    rw [← hr.2.1, hsent.1, SqlType.admits, decide_eq_true_iff] at hi
    have hpos : 0 ≤ i := hi.1
    omega
  | _ => simp [ht, SqlType.admits] at hi

theorem comparand_meets_iff (henum : ∀ labels charset, c.type ≠ .enum labels charset)
    (hv : c.type.admits v = true) (hw : c.type.admits w = true) (hnull : v ≠ .null) :
    (c.comparand v).meets d c.type w = true ↔ v = w := by
  cases v with
  | null => exact absurd rfl hnull
  | enum i =>
    cases ht : c.type with
    | enum labels charset => exact absurd ht (henum labels charset)
    | _ => simp [ht, SqlType.admits] at hv
  | int i =>
    have hnumber : ∀ j, (c.comparand (.int i)).meets d c.type (.int j) = decide (j = i) := by
      intro j
      show Comparand.meets d c.type (if c.sentAsDigits then .digits i.toNat else .number i) _ = _
      by_cases hsent : c.sentAsDigits = true
      · rw [if_pos hsent, Comparand.meets, toNat_of_sentAsDigits hv hsent]
      · rw [if_neg hsent]
        rfl
    cases w with
    | int j => rw [hnumber, decide_eq_true_iff, Stored.int.injEq, eq_comm]
    | null =>
      show Comparand.meets d c.type (if c.sentAsDigits then .digits i.toNat else .number i)
        _ = true ↔ _
      split
      · simp [Comparand.meets]
      · simp [Comparand.meets]
    -- no column holds both numbers and strings
    | _ => cases ht : c.type <;> simp [ht, SqlType.admits] at hv hw
  | bytes b =>
    cases w with
    | bytes a =>
      show decide (a = b) = true ↔ _
      rw [decide_eq_true_iff, Stored.bytes.injEq, eq_comm]
    | null => simp [ColumnDef.comparand, Comparand.meets]
    | _ => cases ht : c.type <;> simp [ht, SqlType.admits] at hv hw

end Kept

section Inspected

variable (hd : isp.Describes original ghost)
  (hmapped : (isp.sharedNames.map isp.columnNames.mappedName).Nodup)
  (hkeys : KeysDescribed isp original)
  (hi : inspectOriginalAndGhostTables isp = .ok ctx) (hp : prepareQueries ctx = .ok apl)
include hd hmapped hkeys hi hp

theorem meets_iff_of_keepsKey (hkeep : KeepsKey isp original ghost ctx.uniqueKey.columns.names)
    (h : (migrationOf d original ghost apl ix).Admits row)
    (h' : (migrationOf d original ghost apl ix).Admits other)
    (hnull : ∀ k ∈ ctx.uniqueKey.columns.names, row.lookup k ≠ some .null) :
    Meets isp original ghost ctx.uniqueKey.columns.names row other ↔
      ∀ k ∈ ctx.uniqueKey.columns.names, row.lookup k = other.lookup k := by
  obtain ⟨-, hnames⟩ := key_of_inspection hd hmapped hkeys hi
  refine forall₂_congr fun k hk => ?_
  obtain ⟨hshared, hname, type, htype, htarget, henum⟩ := hkeep k hk
  obtain ⟨column, -, hfind, rfl, hcolumn⟩ := find_column (hnames k hk).1
  obtain rfl : column.type = type := Option.some.inj (hcolumn.symm.trans htype)
  have htable : column.name ∈ apl.migrationContext.originalTableColumns.names := by
    rw [migrationContext_of_prepared hp, tableNames_of_inspection hd hi]
    exact (hnames _ hk).1
  obtain ⟨v, hv, hadmits⟩ := h.lookup htable
  obtain ⟨w, hw, hadmits'⟩ := h'.lookup htable
  have hadmits : column.type.admits v = true := by
    simpa [migrationOf, serverOf, htype] using hadmits
  have hadmits' : column.type.admits w = true := by
    simpa [migrationOf, serverOf, htype] using hadmits'
  -- the shared column that becomes the key column is the key column itself
  have hself : isp.sharedNames.find? (fun name => isp.columnNames.mappedName name = column.name)
      = some column.name := by
    obtain ⟨name, hfound⟩ : ∃ name, isp.sharedNames.find?
        (fun name => isp.columnNames.mappedName name = column.name) = some name := by
      rw [← Option.isSome_iff_exists, List.find?_isSome]
      exact ⟨column.name, hshared, by simpa using hname⟩
    have hbecomes : isp.columnNames.mappedName name = column.name := by
      simpa using List.find?_some hfound
    rw [hfound, List.inj_on_of_nodup_map hmapped (List.mem_of_find?_eq_some hfound) hshared
      (hbecomes.trans hname.symm)]
  have hwritten : writtenTo isp original ghost other column.name = w := by
    unfold writtenTo
    simp only [hself, htype, htarget, hw, ne_eq, not_true_eq_false, decide_false]
    exact written_kept henum hadmits'
  have hcompared : comparedWith original row column.name = column.comparand v := by
    unfold comparedWith
    rw [hfind, hv]
  have hmeets := comparand_meets_iff henum hadmits hadmits' (fun hno => hnull _ hk (hno ▸ hv))
  rw [hcompared, hwritten, hv, hw, Option.some.injEq, ← hmeets, htarget]
  constructor
  · rintro ⟨type, htype', hmeets'⟩
    rwa [← Option.some.inj htype'] at hmeets'
  · intro hmeets'
    exact ⟨_, rfl, hmeets'⟩

end Inspected

/-- **The statements address the row that the `insert` wrote exactly when the key columns meet** for
this row, and not for the other one. With key columns that keep name and type they do so for all
rows of different keys without NULL. -/
theorem where_addresses_iff (hd : isp.Describes original ghost)
    (hmapped : (isp.sharedNames.map isp.columnNames.mappedName).Nodup)
    (hkeys : KeysDescribed isp original) (hi : inspectOriginalAndGhostTables isp = .ok ctx)
    (hp : prepareQueries ctx = .ok apl) (hh : HandledColumns isp original ghost)
    (h : (migrationOf d original ghost apl ix).Admits row)
    (h' : (migrationOf d original ghost apl ix).Admits other) :
    ((migrationOf d original ghost apl ix).Addresses
          (migrationOf d original ghost apl ix).deleteSelects row other ↔
        Meets isp original ghost ctx.uniqueKey.columns.names row row ∧
          ¬ Meets isp original ghost ctx.uniqueKey.columns.names row other) ∧
    (∀ new, (migrationOf d original ghost apl ix).Admits new →
      ((migrationOf d original ghost apl ix).Addresses
            ((migrationOf d original ghost apl ix).updateSelects new) row other ↔
          Meets isp original ghost ctx.uniqueKey.columns.names row row ∧
            ¬ Meets isp original ghost ctx.uniqueKey.columns.names row other)) ∧
    (KeepsKey isp original ghost ctx.uniqueKey.columns.names →
      (∀ k ∈ ctx.uniqueKey.columns.names, row.lookup k ≠ some .null) →
      (∃ k ∈ ctx.uniqueKey.columns.names, row.lookup k ≠ other.lookup k) →
      (migrationOf d original ghost apl ix).Addresses
          (migrationOf d original ghost apl ix).deleteSelects row other ∧
        ∀ new, (migrationOf d original ghost apl ix).Admits new →
          (migrationOf d original ghost apl ix).Addresses
            ((migrationOf d original ghost apl ix).updateSelects new) row other) := by
  have hm : (migrationOf d original ghost apl ix).Built := built_of_inspection hd hmapped hi hp
  have hctx := migrationContext_of_prepared hp
  obtain ⟨-, hnames⟩ := key_of_inspection hd hmapped hkeys hi
  have hkey : ∀ name ∈ apl.migrationContext.uniqueKey.columns.names,
      name ∈ apl.migrationContext.originalTableColumns.names := by
    intro name hname
    rw [hctx] at hname ⊢
    rw [tableNames_of_inspection hd hi]
    exact (hnames name hname).1
  have hdelete := addresses_iff_meets hd hmapped hi hp hh hkeys h h' (hm.deleteSelects_eq hkey h)
  have hupdate := fun new (hnew : (migrationOf d original ghost apl ix).Admits new) =>
    addresses_iff_meets hd hmapped hi hp hh hkeys h h' (hm.updateSelects_eq hkey hnew h)
  refine ⟨hdelete, hupdate, ?_⟩
  rintro hkeep hnull ⟨k, hk, hne⟩
  have hmeets : Meets isp original ghost ctx.uniqueKey.columns.names row row ∧
      ¬ Meets isp original ghost ctx.uniqueKey.columns.names row other := by
    rw [meets_iff_of_keepsKey hd hmapped hkeys hi hp hkeep h h hnull,
      meets_iff_of_keepsKey hd hmapped hkeys hi hp hkeep h h' hnull]
    exact ⟨fun _ _ => rfl, fun hall => hne (hall k hk)⟩
  exact ⟨hdelete.mpr hmeets, fun new hnew => (hupdate new hnew).mpr hmeets⟩

/-! ## Small tables -/

/-- The inspection of two tables with the key `key`. -/
def keyedInspection (key : List String) (original ghost : List (ColumnDef western))
    (columnRenameMap : List (String × String)) : Inspection :=
  { inspectionOf original ghost columnRenameMap with
    originalTableUniqueKeys := [smallKey key]
    ghostTableUniqueKeys := [smallKey key] }

def keyedTables (key : List String) (original ghost : List (ColumnDef western)) (apl : Applier) :
    Migration Stored Stored :=
  migrationOf western original ghost apl { uniqueKey := key, further := [] }

def mediumColumn (name : String) : ColumnDef western :=
  { idColumn with name }

/-- The key keeps its columns while another column changes. -/
def keptKeyOriginal : List (ColumnDef western) :=
  [mediumColumn "a", varcharColumn "b" .latin1, enumColumn "status"]

def keptKeyGhost : List (ColumnDef western) :=
  [mediumColumn "a", varcharColumn "b" .latin1, varcharColumn "status" .utf8mb4]

theorem where_addresses_iff_small :
    ∃ ctx apl,
      inspectOriginalAndGhostTables (keyedInspection ["a", "b"] keptKeyOriginal keptKeyGhost [])
        = .ok ctx ∧
      prepareQueries ctx = .ok apl ∧
      (keyedTables ["a", "b"] keptKeyOriginal keptKeyGhost apl).Addresses
        (keyedTables ["a", "b"] keptKeyOriginal keptKeyGhost apl).deleteSelects
        [("a", .int 16777215), ("b", .bytes [0xE9]), ("status", .enum 0)]
        [("a", .int 16777215), ("b", .bytes [0xC3, 0xA9]), ("status", .enum 2)] := by
  refine ⟨_, _, rfl, rfl, ?_⟩
  have hd : (keyedInspection ["a", "b"] keptKeyOriginal keptKeyGhost []).Describes keptKeyOriginal
      keptKeyGhost := ⟨rfl, rfl, rfl, by decide, by decide⟩
  have hkeys : KeysDescribed (keyedInspection ["a", "b"] keptKeyOriginal keptKeyGhost [])
      keptKeyOriginal := by
    intro key hkey
    rw [List.mem_singleton.mp hkey]
    exact ⟨["a", "b"], rfl, by decide, by decide⟩
  have hnames : (keyedInspection ["a", "b"] keptKeyOriginal keptKeyGhost []).sharedNames
      = ["a", "b", "status"] := by
    decide
  have hhandled : HandledColumns (keyedInspection ["a", "b"] keptKeyOriginal keptKeyGhost [])
      keptKeyOriginal keptKeyGhost := by
    intro name h
    have hname : name = "a" ∨ name = "b" ∨ name = "status" := by
      rw [hnames] at h
      simpa using h
    rcases hname with rfl | rfl | rfl
    · exact ⟨_, _, rfl, rfl, trivial⟩
    · exact ⟨_, _, rfl, rfl, trivial⟩
    · exact ⟨_, _, rfl, rfl, trivial⟩
  refine ((where_addresses_iff hd (by decide) hkeys rfl rfl hhandled
    (by decide) (by decide)).2.2 ?_ (by decide) (by decide)).1
  intro k hk
  have hk : k ∈ ["a", "b"] := hk
  have hk : k = "a" ∨ k = "b" := by simpa using hk
  rcases hk with rfl | rfl
  · exact ⟨by decide, rfl, .integer .mediumint true, rfl, rfl, by simp⟩
  · exact ⟨by decide, rfl, .text .latin1 false, rfl, rfl, by simp⟩

/-- What the `delete` built from `row` selects of the rows that the two `insert`s have written. -/
def Selected (key : List String) (original ghost : List (ColumnDef western))
    (columnRenameMap : List (String × String)) (row other : Row Stored) (found : Bool × Bool) :
    Prop :=
  ∃ ctx apl, inspectOriginalAndGhostTables (keyedInspection key original ghost columnRenameMap)
      = .ok ctx ∧
    prepareQueries ctx = .ok apl ∧
    (keyedTables key original ghost apl).Admits row ∧
    (keyedTables key original ghost apl).Admits other ∧
    (keyedTables key original ghost apl).key row ≠ (keyedTables key original ghost apl).key other ∧
    ((keyedTables key original ghost apl).insertedRow row).any
      ((keyedTables key original ghost apl).deleteSelects row) = found.1 ∧
    ((keyedTables key original ghost apl).insertedRow other).any
      ((keyedTables key original ghost apl).deleteSelects row) = found.2

/-- **A changed key is not addressed**: a `latin1` key that becomes `utf8mb4`, key columns that
exchange their names, and an `ENUM` key that becomes text. -/
theorem changed_key_not_addressed :
    Selected ["name"] [varcharColumn "name" .latin1] [varcharColumn "name" .utf8mb4] []
      [("name", .bytes [0xC3, 0xA9])] [("name", .bytes [0xE9])] (false, true) ∧
    Selected ["a", "b"] [mediumColumn "a", mediumColumn "b"] [mediumColumn "b", mediumColumn "a"]
      [("a", "b"), ("b", "a")]
      [("a", .int 1), ("b", .int 2)] [("a", .int 2), ("b", .int 1)] (false, true) ∧
    Selected ["status"] [enumColumn "status"] [varcharColumn "status" .utf8mb4] []
      [("status", .enum 1)] [("status", .enum 2)] (false, false) := by
  refine ⟨⟨_, _, rfl, rfl, ?_⟩, ⟨_, _, rfl, rfl, ?_⟩, ⟨_, _, rfl, rfl, ?_⟩⟩
  · decide
  · decide
  · decide

end GhOst.Logic
