import GhOst.Logic.CopyReplay
import GhOst.Properties.Retry

/-!
# The statements of a row change, as operations on a keyed table

The builders, `convertArg` and the server's reading of the statements are put together here: under
`CarriesOver` the queries that gh-ost builds from the event of a change act on the ghost as three
operations on a table with a unique key (`Migration.follow`): drop a key, insert a row unless it is
kept out, rewrite the row of a key. Later modules use `applyBatch_cons` and never look at a
statement again.
-/

namespace GhOst.Logic

open GhOst.Sql GhOst.Binlog Infra

variable {σ κ : Type} [LinearOrder κ]

namespace Migration

/-- The shared columns, each with the column of the ghost that it becomes. -/
def pairs (m : Migration σ κ) : List (Column × Column) :=
  m.apl.migrationContext.sharedColumns.columns.zip
    m.apl.migrationContext.mappedSharedColumns.columns

/-- The queries are prepared from lists of distinct columns, paired by position. -/
structure Built (m : Migration σ κ) : Prop where
  prepared : prepareQueries m.apl.migrationContext = .ok m.apl
  tableColumns : m.apl.migrationContext.originalTableColumns.WellFormed
  length : m.apl.migrationContext.sharedColumns.columns.length
    = m.apl.migrationContext.mappedSharedColumns.columns.length
  mappedNames : m.apl.migrationContext.mappedSharedColumns.names.Nodup

/-- What the row copy and the event application rely on: one name for each key column, one value on
both write paths, and a comparison that agrees with the collation of the original. -/
structure CarriesOver (m : Migration σ κ) : Prop extends Built m where
  uniqueKey : m.ix.uniqueKey = m.apl.migrationContext.uniqueKey.columns.names
  keyShared : ∀ c ∈ m.apl.migrationContext.uniqueKey.columns.names,
    ∃ p ∈ m.pairs, p.1.name = c ∧ p.2.name = c
  /-- the DML path stores what `insert … select` stores -/
  bind : ∀ p ∈ m.pairs, ∀ v, m.srv.admits p.1.name v = true →
    m.srv.bind p.2.name p.2.valueToken (p.1.convertArg m.enc (m.srv.image p.1.name v))
      = m.srv.select p.1.name p.2.name v
  collate : ∀ c ∈ m.apl.migrationContext.uniqueKey.columns.names, ∀ v,
    m.srv.admits c v = true → m.srv.collate c (m.srv.select c c v) = m.srv.collate c v
  equals : ∀ c ∈ m.apl.migrationContext.uniqueKey.columns.columns, ∀ v w,
    m.srv.admits c.name v = true → m.srv.admits c.name w = true →
    m.srv.equals c.name (m.srv.select c.name c.name v)
        (c.convertArg m.enc (m.srv.image c.name w))
      = decide (m.srv.collate c.name v = m.srv.collate c.name w)

/-- A row of the ghost that comes from a row the original can hold. -/
def Stored (m : Migration σ κ) (q : Row σ) : Prop := ∃ row, m.Admits row ∧ q = m.project row

/-- A row of the ghost that the statements can address: its key comes from a row that the original
can hold. -/
structure KeyStored (m : Migration σ κ) (q : Row σ) : Prop where
  names : q.map Prod.fst = m.apl.migrationContext.mappedSharedColumns.names
  key : ∃ row, m.Admits row ∧ ∀ c ∈ m.apl.migrationContext.uniqueKey.columns.names,
    q.lookup c = (m.project row).lookup c

def SameKeyImage (m : Migration σ κ) (row new : Row σ) : Prop :=
  ∀ c ∈ m.apl.migrationContext.uniqueKey.columns.names,
    (row.lookup c).map (m.srv.image c) = (new.lookup c).map (m.srv.image c)

instance (m : Migration σ κ) (row new : Row σ) : Decidable (m.SameKeyImage row new) :=
  inferInstanceAs (Decidable (∀ _ ∈ _, _))

/-- What the statements of a change do to the ghost; `none` when an `update` fails. -/
def follow (m : Migration σ κ) (ghost : List (Row σ)) : RowChange σ → Option (List (Row σ))
  | .insert row => some (m.srv.insertIgnore m.ix ghost (m.project row))
  | .delete row => some (dropKey m.key ghost (m.key row))
  | .update row new =>
    if m.SameKeyImage row new then
      let after := rewriteKey m.key ghost (m.key row) fun _ => m.project new
      if m.srv.Consistent m.ix after then some after else none
    else
      some (m.srv.insertIgnore m.ix (dropKey m.key ghost (m.key row)) (m.project new))

variable {m : Migration σ κ} {row new q : Row σ} {name : String}
variable {e : BinlogDMLEvent} {change : RowChange σ}

/-! ## Values of a row by name and by position -/

omit [LinearOrder κ] in
theorem Admits.lookup (h : m.Admits row)
    (hn : name ∈ m.apl.migrationContext.originalTableColumns.names) :
    ∃ v, row.lookup name = some v ∧ m.srv.admits name v = true := by
  rw [← h.1] at hn
  obtain ⟨v, hv⟩ := assoc_lookup_isSome hn
  exact ⟨v, hv, h.2 _ (mem_of_assoc_lookup hv)⟩

omit [LinearOrder κ] in
theorem Built.shared_mem (hm : m.Built) {p : Column × Column} (hp : p ∈ m.pairs) :
    p.1.name ∈ m.apl.migrationContext.originalTableColumns.names := by
  have hall := List.all_eq_true.mp (prepareQueries_ok hm.prepared).1 p.1 (List.of_mem_zip hp).1
  exact (hm.tableColumns.lookup_isSome p.1.name).mp hall

theorem CarriesOver.key_mem (hm : m.CarriesOver)
    (hn : name ∈ m.apl.migrationContext.uniqueKey.columns.names) :
    name ∈ m.apl.migrationContext.originalTableColumns.names := by
  obtain ⟨p, hp, h1, _⟩ := hm.keyShared name hn
  rw [← h1]
  exact hm.shared_mem hp

omit [LinearOrder κ] in
theorem Built.image_ordinal (hm : m.Built) (h : m.Admits row) {v : σ}
    (hv : row.lookup name = some v) :
    (m.image row)[m.apl.migrationContext.originalTableColumns.ordinal name]?
      = some (m.srv.image name v) := by
  obtain ⟨i, hi⟩ := List.mem_iff_getElem?.mp (mem_of_assoc_lookup hv)
  have hname : m.apl.migrationContext.originalTableColumns.names[i]? = some name := by
    rw [← h.1, List.getElem?_map, hi]
    rfl
  have hord : m.apl.migrationContext.originalTableColumns.ordinal name = i := by
    unfold ColumnList.ordinal
    rw [(hm.tableColumns.ordinals name i).mpr hname]
    rfl
  unfold image
  rw [hord, List.getElem?_map, hi]
  rfl

omit [LinearOrder κ] in
theorem image_length (h : m.Admits row) :
    (m.image row).length = m.apl.migrationContext.originalTableColumns.len := by
  have := congrArg List.length h.1
  unfold image ColumnList.len
  simpa [ColumnList.names] using this

/-! ## Projected rows -/

section Keys

variable (hm : m.CarriesOver)
include hm

theorem CarriesOver.project_names (h : m.Admits row) :
    (m.project row).map Prod.fst = m.apl.migrationContext.mappedSharedColumns.names := by
  have hmap : m.pairs.filterMap (fun p => (row.lookup p.1.name).map fun _ => p.2.name)
      = m.pairs.map fun p => p.2.name := by
    rw [← List.filterMap_eq_map']
    refine List.filterMap_congr fun p hp => ?_
    obtain ⟨v, hv, _⟩ := h.lookup (hm.shared_mem hp)
    rw [hv]
    rfl
  calc (m.project row).map Prod.fst
      = m.pairs.filterMap (fun p => (row.lookup p.1.name).map fun _ => p.2.name) := by
        unfold project
        rw [List.map_filterMap]
        refine List.filterMap_congr fun p _ => ?_
        rw [Option.map_map]
        rfl
    _ = (m.pairs.map Prod.snd).map Column.name := by rw [hmap, List.map_map]; rfl
    _ = _ := by
        unfold pairs
        rw [List.map_snd_zip (Nat.le_of_eq hm.length.symm)]
        rfl

theorem CarriesOver.lookup_project (h : m.Admits row) {p : Column × Column} (hp : p ∈ m.pairs)
    {v : σ} (hv : row.lookup p.1.name = some v) :
    (m.project row).lookup p.2.name = some (m.srv.select p.1.name p.2.name v) := by
  refine lookup_of_mem (by rw [hm.project_names h]; exact hm.mappedNames) ?_
  unfold project
  exact List.mem_filterMap.mpr ⟨p, hp, by rw [hv]; rfl⟩

theorem CarriesOver.lookup_project_key (h : m.Admits row)
    (hn : name ∈ m.apl.migrationContext.uniqueKey.columns.names) :
    ∃ v, row.lookup name = some v ∧ m.srv.admits name v = true ∧
      (m.project row).lookup name = some (m.srv.select name name v) := by
  obtain ⟨v, hv, ha⟩ := h.lookup (hm.key_mem hn)
  obtain ⟨p, hp, h1, h2⟩ := hm.keyShared name hn
  have := hm.lookup_project h hp (by rw [h1]; exact hv)
  rw [h1, h2] at this
  exact ⟨v, hv, ha, this⟩

/-- **Projecting a row keeps its key.** -/
theorem CarriesOver.key_project (h : m.Admits row) : m.key (m.project row) = m.key row := by
  unfold key Server.entry
  refine List.filterMap_congr fun c hc => ?_
  rw [hm.uniqueKey] at hc
  obtain ⟨v, hv, ha, hq⟩ := hm.lookup_project_key h hc
  rw [hq, hv, Option.map_some, Option.map_some, hm.collate c hc v ha]

theorem CarriesOver.keyStored_project (h : m.Admits row) : m.KeyStored (m.project row) :=
  ⟨hm.project_names h, row, h, fun _ _ => rfl⟩

theorem CarriesOver.keyStored_of_stored (h : m.Stored q) : m.KeyStored q := by
  obtain ⟨row, hrow, rfl⟩ := h
  exact hm.keyStored_project hrow

theorem CarriesOver.key_eq_of_lookup (h : m.Admits row)
    (hq : ∀ c ∈ m.apl.migrationContext.uniqueKey.columns.names,
      q.lookup c = (m.project row).lookup c) : m.key q = m.key row := by
  rw [← hm.key_project h]
  unfold key Server.entry
  refine List.filterMap_congr fun c hc => ?_
  rw [hm.uniqueKey] at hc
  rw [hq c hc]

theorem CarriesOver.key_eq_iff (h : m.Admits row) (h' : m.Admits new) :
    m.key row = m.key new ↔ ∀ c ∈ m.apl.migrationContext.uniqueKey.columns.names,
      (row.lookup c).map (m.srv.collate c) = (new.lookup c).map (m.srv.collate c) := by
  have hsome : ∀ {r : Row σ}, m.Admits r → ∀ c ∈ m.apl.migrationContext.uniqueKey.columns.names,
      ((r.lookup c).map (m.srv.collate c)).isSome = true := by
    intro r hr c hc
    obtain ⟨v, hv, _⟩ := hr.lookup (hm.key_mem hc)
    rw [hv]
    rfl
  unfold key Server.entry
  rw [hm.uniqueKey]
  exact filterMap_eq_filterMap_iff (hsome h) (hsome h')

end Keys

/-! ## The queries of a change -/

def argsOf (m : Migration σ κ) (columns : List Column) (row : Row σ) : List Value :=
  columns.map fun c => c.convertArg m.enc
    (((m.image row)[m.apl.migrationContext.originalTableColumns.ordinal c.name]?).getD .null)

def deleteQuery (m : Migration σ κ) (row : Row σ) : Query :=
  let ctx := m.apl.migrationContext
  (.delete ctx.databaseName ctx.ghostTableName ctx.uniqueKey.columns.names,
    m.argsOf ctx.uniqueKey.columns.columns row)

def insertQuery (m : Migration σ κ) (row : Row σ) : Query :=
  let ctx := m.apl.migrationContext
  (.insertIgnore ctx.databaseName ctx.ghostTableName ctx.mappedSharedColumns.names
    (buildColumnsPreparedValues ctx.mappedSharedColumns),
    m.argsOf ctx.sharedColumns.columns row)

def updateQuery (m : Migration σ κ) (row new : Row σ) : Query :=
  let ctx := m.apl.migrationContext
  (.update ctx.databaseName ctx.ghostTableName
    (ctx.mappedSharedColumns.columns.map fun c => (c.name, c.valueToken))
    ctx.uniqueKey.columns.names,
    m.argsOf ctx.sharedColumns.columns new ++ m.argsOf ctx.uniqueKey.columns.columns row)

def queries (m : Migration σ κ) : RowChange σ → List Query
  | .insert row => [m.insertQuery row]
  | .delete row => [m.deleteQuery row]
  | .update row new =>
    if m.SameKeyImage row new then [m.updateQuery row new]
    else [m.deleteQuery row, m.insertQuery new]

omit [LinearOrder κ] in
theorem Built.convertedArgs_of_mem (hm : m.Built) (h : m.Admits row) {columns : List Column}
    (hmem : ∀ c ∈ columns, c.name ∈ m.apl.migrationContext.originalTableColumns.names) :
    convertedArgs m.enc m.apl.migrationContext.originalTableColumns (m.image row) columns
      = .ok (m.argsOf columns row) := by
  refine convertedArgs_eq fun c hc => ?_
  rw [image_length h]
  exact hm.tableColumns.ordinal_lt (hmem c hc)

omit [LinearOrder κ] in
theorem Built.convertedArgs_shared (hm : m.Built) (h : m.Admits row) :
    convertedArgs m.enc m.apl.migrationContext.originalTableColumns (m.image row)
        m.apl.migrationContext.sharedColumns.columns
      = .ok (m.argsOf m.apl.migrationContext.sharedColumns.columns row) := by
  refine hm.convertedArgs_of_mem h fun c hc => ?_
  have hall := List.all_eq_true.mp (prepareQueries_ok hm.prepared).1 c hc
  exact (hm.tableColumns.lookup_isSome c.name).mp hall

theorem CarriesOver.convertedArgs_key (hm : m.CarriesOver) (h : m.Admits row) :
    convertedArgs m.enc m.apl.migrationContext.originalTableColumns (m.image row)
        m.apl.migrationContext.uniqueKey.columns.columns
      = .ok (m.argsOf m.apl.migrationContext.uniqueKey.columns.columns row) :=
  hm.convertedArgs_of_mem h fun _ hc => hm.key_mem (List.mem_map_of_mem hc)

theorem CarriesOver.buildDelete (hm : m.CarriesOver) (h : m.Admits row)
    (he : e.whereColumnValues = some (m.image row)) :
    buildDeleteEventQuery m.enc m.apl e
      = .ok (.built (m.deleteQuery row).1 (m.deleteQuery row).2 (-1)) := by
  have hb := congrArg Applier.dmlDeleteQueryBuilder (prepareQueries_ok hm.prepared).2
  unfold buildDeleteEventQuery
  rw [he]
  simp only [hb, DMLDeleteQueryBuilder.buildQuery, image_length h, ne_eq, not_true_eq_false,
    if_false, hm.convertedArgs_key h, newDmlBuildResult]
  rfl

omit [LinearOrder κ] in
theorem Built.buildInsert (hm : m.Built) (h : m.Admits row)
    (he : e.newColumnValues = some (m.image row)) :
    buildInsertEventQuery m.enc m.apl e
      = .ok (.built (m.insertQuery row).1 (m.insertQuery row).2 1) := by
  have hb := congrArg Applier.dmlInsertQueryBuilder (prepareQueries_ok hm.prepared).2
  unfold buildInsertEventQuery
  rw [he]
  simp only [hb, DMLInsertQueryBuilder.buildQuery, image_length h, ne_eq, not_true_eq_false,
    if_false, hm.convertedArgs_shared h, newDmlBuildResult]
  rfl

theorem CarriesOver.buildUpdate (hm : m.CarriesOver) (h : m.Admits row) (h' : m.Admits new)
    (he : e.whereColumnValues = some (m.image row)) (he' : e.newColumnValues = some (m.image new)) :
    buildUpdateEventQuery m.enc m.apl e
      = .ok (.built (m.updateQuery row new).1 (m.updateQuery row new).2 0) := by
  have hb := congrArg Applier.dmlUpdateQueryBuilder (prepareQueries_ok hm.prepared).2
  unfold buildUpdateEventQuery
  rw [he, he']
  simp only [hb, DMLUpdateQueryBuilder.buildQuery, hm.convertedArgs_shared h',
    hm.convertedArgs_key h, newDmlBuildResult]
  rfl

theorem CarriesOver.modifiedColumn_eq (hm : m.CarriesOver) (h : m.Admits row)
    (h' : m.Admits new) : ∀ columns : List Column,
    (∀ c ∈ columns, c.name ∈ m.apl.migrationContext.uniqueKey.columns.names) →
    ∃ modified, modifiedColumn m.apl.migrationContext.originalTableColumns (m.image row)
        (m.image new) columns = .ok modified ∧
      (modified = none ↔ ∀ c ∈ columns,
        (row.lookup c.name).map (m.srv.image c.name)
          = (new.lookup c.name).map (m.srv.image c.name))
  | [], _ => ⟨none, rfl, by simp⟩
  | c :: columns, hkey => by
    obtain ⟨v, hv, _⟩ := h.lookup (hm.key_mem (hkey c List.mem_cons_self))
    obtain ⟨w, hw, _⟩ := h'.lookup (hm.key_mem (hkey c List.mem_cons_self))
    obtain ⟨modified, hmod, hiff⟩ :=
      modifiedColumn_eq hm h h' columns fun c hc => hkey c (List.mem_cons_of_mem _ hc)
    rw [modifiedColumn, hm.image_ordinal h hv, hm.image_ordinal h' hw]
    by_cases heq : m.srv.image c.name v = m.srv.image c.name w
    · refine ⟨modified, by simp [heq, hmod], ?_⟩
      rw [hiff, List.forall_mem_cons, hv, hw, Option.map_some, Option.map_some, heq]
      simp
    · refine ⟨some c.name, by simp [heq], ?_⟩
      rw [List.forall_mem_cons, hv, hw]
      simp [heq]

theorem CarriesOver.updateModifies (hm : m.CarriesOver) (h : m.Admits row) (h' : m.Admits new) :
    ∃ modified, updateModifiesUniqueKeyColumns m.apl (m.event (.update row new)) = .ok modified ∧
      (modified = none ↔ m.SameKeyImage row new) := by
  obtain ⟨modified, hmod, hiff⟩ := hm.modifiedColumn_eq h h'
    m.apl.migrationContext.uniqueKey.columns.columns fun c hc => List.mem_map_of_mem hc
  refine ⟨modified, hmod, hiff.trans ?_⟩
  unfold SameKeyImage ColumnList.names
  rw [List.forall_mem_map]

/-- **What gh-ost builds from the event of a change.** -/
theorem CarriesOver.build_event (hm : m.CarriesOver) (h : ∀ r ∈ change.rows, m.Admits r) :
    ∃ results left, buildDMLEventQuery m.enc m.apl (m.event change) = .ok (results, left) ∧
      collectQueries results = .ok (m.queries change) := by
  cases change with
  | insert row =>
    have hb := hm.buildInsert (h row (by simp [RowChange.rows])) (e := m.event (.insert row)) rfl
    exact ⟨_, _, buildDMLEventQuery_insert rfl hb, rfl⟩
  | delete row =>
    have hb := hm.buildDelete (h row (by simp [RowChange.rows])) (e := m.event (.delete row)) rfl
    exact ⟨_, _, buildDMLEventQuery_delete rfl hb, rfl⟩
  | update row new =>
    have hrow := h row (by simp [RowChange.rows])
    have hnew := h new (by simp [RowChange.rows])
    obtain ⟨modified, hmod, hiff⟩ := hm.updateModifies hrow hnew
    cases modified with
    | none =>
      have hb := hm.buildUpdate hrow hnew (e := m.event (.update row new)) rfl rfl
      refine ⟨_, _, buildDMLEventQuery_update rfl hmod hb, ?_⟩
      simp only [queries, if_pos (hiff.mp rfl), collectQueries]
    | some column =>
      have hne : ¬ m.SameKeyImage row new := fun hs => by simpa using hiff.mpr hs
      have hd := hm.buildDelete hrow
        (e := { m.event (.update row new) with dml := .deleteDML }) rfl
      have hi := hm.buildInsert hnew
        (e := { m.event (.update row new) with dml := .insertDML }) rfl
      refine ⟨_, _, buildDMLEventQuery_update_key rfl hmod hd hi, ?_⟩
      simp only [queries, if_neg hne, collectQueries]

/-! ## What the queries do to the ghost -/

variable {ghost : List (Row σ)}

omit [LinearOrder κ] in
theorem assigned_shared (row : Row σ) :
    m.srv.assigned
        (m.apl.migrationContext.mappedSharedColumns.columns.map fun c => (c.name, c.valueToken))
        (m.argsOf m.apl.migrationContext.sharedColumns.columns row)
      = m.pairs.map fun p => (p.2.name, m.srv.bind p.2.name p.2.valueToken (p.1.convertArg m.enc
          (((m.image row)[m.apl.migrationContext.originalTableColumns.ordinal p.1.name]?).getD
            .null))) := by
  unfold Server.assigned argsOf pairs
  rw [List.zipWith_map, List.zipWith_comm, List.map_zip_eq_zipWith]
  rfl

omit [LinearOrder κ] in
theorem Built.assigned_append (hm : m.Built) (row : Row σ) (rest : List Value) :
    m.srv.assigned
        (m.apl.migrationContext.mappedSharedColumns.columns.map fun c => (c.name, c.valueToken))
        (m.argsOf m.apl.migrationContext.sharedColumns.columns row ++ rest)
      = m.srv.assigned
        (m.apl.migrationContext.mappedSharedColumns.columns.map fun c => (c.name, c.valueToken))
        (m.argsOf m.apl.migrationContext.sharedColumns.columns row) := by
  have hlen : (m.apl.migrationContext.mappedSharedColumns.columns.map
        fun c => (c.name, c.valueToken)).length
      = (m.argsOf m.apl.migrationContext.sharedColumns.columns row).length := by
    rw [argsOf, List.length_map, List.length_map, hm.length]
  unfold Server.assigned
  conv_lhs => rw [← List.append_nil (m.apl.migrationContext.mappedSharedColumns.columns.map _)]
  rw [List.zipWith_append hlen, List.zipWith_nil_left, List.append_nil]

/-- **The values of an `insert` or of the `set` clause are the projected row.** -/
theorem CarriesOver.assigned_eq (hm : m.CarriesOver) (h : m.Admits row) :
    m.srv.assigned
        (m.apl.migrationContext.mappedSharedColumns.columns.map fun c => (c.name, c.valueToken))
        (m.argsOf m.apl.migrationContext.sharedColumns.columns row)
      = m.project row := by
  rw [assigned_shared, ← List.filterMap_eq_map']
  refine (List.filterMap_congr fun p hp => ?_).symm
  obtain ⟨v, hv, ha⟩ := h.lookup (hm.shared_mem hp)
  rw [hv, hm.image_ordinal h hv, Option.getD_some, hm.bind p hp v ha]
  rfl

/-- **The `where` clause finds the row of the key.** -/
theorem CarriesOver.matchesWhere_eq (hm : m.CarriesOver) (hq : m.KeyStored q) (h : m.Admits row) :
    m.srv.matchesWhere m.apl.migrationContext.uniqueKey.columns.names
        (m.argsOf m.apl.migrationContext.uniqueKey.columns.columns row) q
      = decide (m.key q = m.key row) := by
  obtain ⟨-, s, hs, hlookup⟩ := hq
  rw [hm.key_eq_of_lookup hs hlookup]
  unfold Server.matchesWhere ColumnList.names argsOf
  rw [List.zip_map', List.all_map, Bool.eq_iff_iff, List.all_eq_true, decide_eq_true_iff,
    hm.key_eq_iff hs h]
  unfold ColumnList.names
  rw [List.forall_mem_map]
  refine forall₂_congr fun c hc => ?_
  have hn := List.mem_map_of_mem (f := Column.name) hc
  obtain ⟨v, hv, ha, hp⟩ := hm.lookup_project_key hs hn
  obtain ⟨w, hw, ha'⟩ := h.lookup (hm.key_mem hn)
  show (q.lookup c.name).any _ = true ↔ _
  rw [hlookup c.name hn, hp, Option.any_some]
  dsimp only
  rw [hm.image_ordinal h hw, Option.getD_some, hm.equals c hc v w ha ha', hv, hw]
  simp

theorem CarriesOver.exec_delete (hm : m.CarriesOver) (hg : ∀ q ∈ ghost, m.KeyStored q)
    (h : m.Admits row) :
    m.srv.exec m.ix ghost (m.deleteQuery row).1 (m.deleteQuery row).2
      = some (dropKey m.key ghost (m.key row)) := by
  show some (ghost.filter fun q => !m.srv.matchesWhere _ (m.argsOf _ row) q) = some _
  congr 1
  refine List.filter_congr fun q hq => ?_
  rw [hm.matchesWhere_eq (hg q hq) h]
  simp

theorem CarriesOver.exec_insert (hm : m.CarriesOver) (h : m.Admits row) :
    m.srv.exec m.ix ghost (m.insertQuery row).1 (m.insertQuery row).2
      = some (m.srv.insertIgnore m.ix ghost (m.project row)) := by
  unfold insertQuery Server.exec ColumnList.names buildColumnsPreparedValues
  dsimp only
  rw [List.zip_map', hm.assigned_eq h]

theorem CarriesOver.updated_eq (hm : m.CarriesOver) (hg : ∀ q ∈ ghost, m.KeyStored q)
    (h : m.Admits row) (h' : m.Admits new) :
    m.srv.updated
        (m.apl.migrationContext.mappedSharedColumns.columns.map fun c => (c.name, c.valueToken))
        m.apl.migrationContext.uniqueKey.columns.names (m.updateQuery row new).2 ghost
      = rewriteKey m.key ghost (m.key row) fun _ => m.project new := by
  have hlen : (m.apl.migrationContext.mappedSharedColumns.columns.map
        fun c => (c.name, c.valueToken)).length
      = (m.argsOf m.apl.migrationContext.sharedColumns.columns new).length := by
    rw [argsOf, List.length_map, List.length_map, hm.length]
  have hset : m.srv.assigned
      (m.apl.migrationContext.mappedSharedColumns.columns.map fun c => (c.name, c.valueToken))
      (m.updateQuery row new).2 = m.project new :=
    (hm.assigned_append new _).trans (hm.assigned_eq h')
  have hwhere : (m.updateQuery row new).2.drop
      (m.apl.migrationContext.mappedSharedColumns.columns.map
        fun c => (c.name, c.valueToken)).length
      = m.argsOf m.apl.migrationContext.uniqueKey.columns.columns row := by
    rw [hlen]
    exact List.drop_left
  unfold Server.updated
  rw [hset, hwhere]
  refine List.map_congr_left fun q hq => ?_
  rw [hm.matchesWhere_eq (hg q hq) h]
  by_cases hk : m.key q = m.key row
  · rw [if_pos (by simpa using hk), if_pos hk]
    exact map_assoc_lookup (by rw [hm.project_names h']; exact hm.mappedNames)
      (by rw [(hg q hq).names, hm.project_names h'])
  · rw [if_neg (by simpa using hk), if_neg hk]

theorem CarriesOver.exec_update (hm : m.CarriesOver) (hg : ∀ q ∈ ghost, m.KeyStored q)
    (h : m.Admits row) (h' : m.Admits new) :
    m.srv.exec m.ix ghost (m.updateQuery row new).1 (m.updateQuery row new).2
      = (let after := rewriteKey m.key ghost (m.key row) fun _ => m.project new
         if m.srv.Consistent m.ix after then some after else none) := by
  rw [← hm.updated_eq hg h h']
  rfl

/-! ## A change, a batch -/

/-- The `insert ignore` of a change, if it has one, is ignored only because of its own key. -/
def CleanChange (m : Migration σ κ) (ghost : List (Row σ)) : RowChange σ → Prop
  | .insert row => m.srv.Clean m.ix ghost (m.project row)
  | .delete _ => True
  | .update row new => ¬ m.SameKeyImage row new →
    m.srv.Clean m.ix (dropKey m.key ghost (m.key row)) (m.project new)

/-- **The queries of a change do what `follow` says.** -/
theorem CarriesOver.execAll_queries (hm : m.CarriesOver) (hg : ∀ q ∈ ghost, m.KeyStored q)
    (h : ∀ r ∈ change.rows, m.Admits r) :
    m.srv.execAll m.ix ghost (m.queries change) = m.follow ghost change := by
  cases change with
  | insert row =>
    rw [queries, Server.execAll_single, hm.exec_insert (h row (by simp [RowChange.rows])), follow]
  | delete row =>
    rw [queries, Server.execAll_single, hm.exec_delete hg (h row (by simp [RowChange.rows])),
      follow]
  | update row new =>
    have hrow := h row (by simp [RowChange.rows])
    have hnew := h new (by simp [RowChange.rows])
    rw [queries, follow]
    by_cases hs : m.SameKeyImage row new
    · rw [if_pos hs, if_pos hs, Server.execAll_single, hm.exec_update hg hrow hnew]
    · rw [if_neg hs, if_neg hs, ← List.singleton_append, Server.execAll_append,
        Server.execAll_single, hm.exec_delete hg hrow, Option.bind_some, Server.execAll_single,
        hm.exec_insert hnew]

theorem CarriesOver.cleanChange (hm : m.CarriesOver) (hg : ∀ q ∈ ghost, m.KeyStored q)
    (h : ∀ r ∈ change.rows, m.Admits r) (hc : m.srv.cleanAll m.ix ghost (m.queries change) = true) :
    m.CleanChange ghost change := by
  have hins : ∀ {ghost : List (Row σ)} {row : Row σ}, m.Admits row →
      m.srv.cleanAll m.ix ghost [m.insertQuery row] = true →
      m.srv.Clean m.ix ghost (m.project row) := by
    intro ghost row hrow hc
    have hvio : m.srv.ignoredFor m.ix ghost (m.insertQuery row).1 (m.insertQuery row).2
        = m.srv.violated m.ix ghost (m.project row) := by
      unfold insertQuery Server.ignoredFor ColumnList.names buildColumnsPreparedValues
      dsimp only
      rw [List.zip_map', hm.assigned_eq hrow]
    unfold Server.cleanAll at hc
    rw [hvio, Bool.and_eq_true, Bool.or_eq_true] at hc
    exact hc.1.imp (fun h => by simpa using h) (fun h => by simpa using h)
  cases change with
  | insert row => exact hins (h row (by simp [RowChange.rows])) hc
  | delete row => trivial
  | update row new =>
    intro hs
    rw [queries, if_neg hs, ← List.singleton_append, Server.cleanAll_append, Bool.and_eq_true] at hc
    have hdel : m.srv.execAll m.ix ghost [m.deleteQuery row]
        = some (dropKey m.key ghost (m.key row)) := by
      rw [Server.execAll_single, hm.exec_delete hg (h row (by simp [RowChange.rows]))]
    rw [hdel] at hc
    exact hins (h new (by simp [RowChange.rows])) hc.2

theorem follow_forall {P : Row σ → Prop} (hP : ∀ {row}, m.Admits row → P (m.project row))
    {ghost' : List (Row σ)} (hg : ∀ q ∈ ghost, P q) (h : ∀ r ∈ change.rows, m.Admits r)
    (hf : m.follow ghost change = some ghost') : ∀ q ∈ ghost', P q := by
  have hdrop : ∀ k, ∀ q ∈ dropKey m.key ghost k, P q :=
    fun k q hq => hg q (List.mem_filter.mp hq).1
  cases change with
  | insert row =>
    have hrow := h row (by simp [RowChange.rows])
    simp only [follow, Option.some.injEq] at hf
    intro q hq
    rw [← hf] at hq
    rcases Server.mem_insertIgnore hq with hq | rfl
    · exact hg q hq
    · exact hP hrow
  | delete row =>
    simp only [follow] at hf
    cases hf
    exact hdrop _
  | update row new =>
    have hnew := h new (by simp [RowChange.rows])
    unfold follow at hf
    dsimp only at hf
    split at hf
    · split at hf
      · rw [Option.some.injEq] at hf
        intro q hq
        rw [← hf] at hq
        obtain ⟨q₀, hq₀, rfl⟩ := List.mem_map.mp hq
        split
        · exact hP hnew
        · exact hg q₀ hq₀
      · simp at hf
    · rw [Option.some.injEq] at hf
      intro q hq
      rw [← hf] at hq
      rcases Server.mem_insertIgnore hq with hq | rfl
      · exact hdrop _ q hq
      · exact hP hnew

theorem CarriesOver.build_batch (hm : m.CarriesOver) :
    ∀ {changes : List (RowChange σ)}, (∀ c ∈ changes, ∀ r ∈ c.rows, m.Admits r) →
      ∃ left, buildBatch m.enc m.apl (changes.map m.event)
        = .ok (.ok (changes.flatMap m.queries), left)
  | [], _ => ⟨[], rfl⟩
  | change :: changes, h => by
    obtain ⟨results, left, hb, hq⟩ := hm.build_event (h change List.mem_cons_self)
    obtain ⟨left', hr⟩ := build_batch hm fun c hc => h c (List.mem_cons_of_mem _ hc)
    refine ⟨left :: left', ?_⟩
    rw [List.map_cons, buildBatch, hb]
    simp only [hq, hr, List.flatMap_cons]

/-- Every `insert ignore` of a batch is clean where it is executed. -/
def cleanBatch (m : Migration σ κ) (ghost : List (Row σ)) (changes : List (RowChange σ)) : Bool :=
  match buildBatch m.enc m.apl (changes.map m.event) with
  | .ok (.ok queries, _) => m.srv.cleanAll m.ix ghost queries
  | _ => true

/-- **A batch is its changes, one after the other.** -/
theorem CarriesOver.applyBatch_cons (hm : m.CarriesOver) (hg : ∀ q ∈ ghost, m.KeyStored q)
    {changes : List (RowChange σ)} (h : ∀ c ∈ change :: changes, ∀ r ∈ c.rows, m.Admits r)
    {ghost' : List (Row σ)} (ha : m.applyBatch ghost (change :: changes) = some ghost')
    (hc : m.cleanBatch ghost (change :: changes) = true) :
    ∃ ghost₁, m.follow ghost change = some ghost₁ ∧ m.CleanChange ghost change ∧
      m.applyBatch ghost₁ changes = some ghost' ∧ m.cleanBatch ghost₁ changes = true := by
  obtain ⟨left, hb⟩ := hm.build_batch h
  obtain ⟨left', hb'⟩ := hm.build_batch fun c hc => h c (List.mem_cons_of_mem _ hc)
  unfold applyBatch at ha ⊢
  unfold cleanBatch at hc ⊢
  simp only [hb] at ha hc
  simp only [hb']
  rw [List.flatMap_cons, Server.execAll_append,
    hm.execAll_queries hg (h change List.mem_cons_self), Option.bind_eq_some_iff] at ha
  rw [List.flatMap_cons, Server.cleanAll_append, Bool.and_eq_true,
    hm.execAll_queries hg (h change List.mem_cons_self)] at hc
  obtain ⟨ghost₁, hf, hrest⟩ := ha
  rw [hf] at hc
  exact ⟨ghost₁, hf, hm.cleanChange hg (h change List.mem_cons_self) hc.1, hrest, hc.2⟩

end Migration

theorem smallMigration_carriesOver (further : List (List String)) :
    (smallMigration further).CarriesOver where
  prepared := by
    show prepareQueries smallContext = .ok smallApplier
    decide
  tableColumns := newColumnList_wellFormed (by decide)
  length := rfl
  mappedNames := by
    show (newColumnList ["id", "v"]).names.Nodup
    decide
  uniqueKey := rfl
  keyShared := by
    intro c hc
    have hc : c ∈ ["id"] := hc
    rw [List.mem_singleton] at hc
    exact ⟨({ name := "id" }, { name := "id" }), List.mem_cons_self, hc.symm, hc.symm⟩
  bind := by
    intro p hp v _
    have hp : p = ({ name := "id" }, { name := "id" }) ∨
        p = ({ name := "v" }, { name := "v" }) := by
      simpa [Migration.pairs, smallMigration, smallApplier, smallContext, newColumnList,
        newColumns] using hp
    rcases hp with rfl | rfl <;> rfl
  collate := fun _ _ _ _ => rfl
  equals := by
    intro c hc v w _ _
    have hc : c = { name := "id" } := by
      simpa [smallMigration, smallApplier, smallContext, newColumnList, newColumns] using hc
    subst hc
    show decide (Value.int64 w = Value.int64 v) = decide (v.toInt = w.toInt)
    simp [Int64.toInt_inj, eq_comm]

end GhOst.Logic
