import Mathlib.Data.Countable.Basic
import Mathlib.Logic.Equiv.List
import GhOst.Infra.Keyed
import GhOst.Infra.Loop
import GhOst.Logic.Checkpoints

/-!
# The checkpoint table agrees with itself

`CreateCheckpointTable` escapes the names of its columns and `NewCheckpointQueryBuilder` does not,
and both cut the name of a key column to 60 characters. A checkpoint comes back as it was written if
its coordinates can be read from their text and no key value is changed on its way into the column.
-/

namespace GhOst.Logic.Checkpoints

open GhOst.Mysql GhOst.Sql Infra

/-! ## Lists -/

section Lists

variable {α β : Type}

theorem exists_of_mapM_eq_some {f : α → Option β} {l : List α} {out : List β}
    (h : l.mapM f = some out) {a : α} (ha : a ∈ l) : ∃ b, f a = some b := by
  induction l generalizing out with
  | nil => cases ha
  | cons c l ih =>
    rw [List.mapM_cons] at h
    obtain ⟨b, hb, h⟩ := Option.bind_eq_some_iff.mp h
    obtain ⟨rest, hrest, -⟩ := Option.bind_eq_some_iff.mp h
    rcases List.mem_cons.mp ha with rfl | ha
    · exact ⟨b, hb⟩
    · exact ih hrest ha

theorem zipWith_eq_right_iff {f : α → β → β} : ∀ {l : List α} {m : List β}, l.length = m.length →
    (List.zipWith f l m = m ↔ ∀ p ∈ l.zip m, f p.1 p.2 = p.2)
  | [], [], _ => by simp
  | a :: l, b :: m, h => by
    rw [List.zipWith_cons_cons, List.cons.injEq, zipWith_eq_right_iff (Nat.succ.inj h),
      List.zip_cons_cons, List.forall_mem_cons]

end Lists

/-! ## The names -/

/-- The part of a key column's name that is kept. -/
def cut (name : String) : List Char := name.toList.take 60

def ownNames : List String :=
  ["gh_ost_chk_id", "gh_ost_chk_timestamp", "gh_ost_chk_coords", "gh_ost_chk_iteration",
    "gh_ost_rows_copied", "gh_ost_dml_applied", "gh_ost_is_cutover"]

def columnNames (key : ColumnList) : List (List Char) :=
  (ownNames ++ key.names.map minColName ++ key.names.map maxColName).map String.toList

/-- Every cut name can stand without quotes. -/
def BareNames (key : ColumnList) : Prop := ∀ name ∈ key.names, isBareWord (cut name) = true

instance (key : ColumnList) : Decidable (BareNames key) :=
  inferInstanceAs (Decidable (∀ name ∈ key.names, _))

/-- No two cut names are the same to the server. -/
def DistinctNames (srv : Server) (key : ColumnList) : Prop :=
  (key.names.map fun name => srv.fold (cut name)).Nodup

instance (srv : Server) (key : ColumnList) : Decidable (DistinctNames srv key) :=
  inferInstanceAs (Decidable (List.Nodup _))

/-- The fold leaves the characters of gh-ost's own names as they are. -/
def Server.Folds (srv : Server) : Prop :=
  ∀ c ∈ "abcdefghijklmnopqrstuvwxyz_".toList, srv.lower c = c

theorem toList_minColName (name : String) :
    (minColName name).toList = cut name ++ '_' :: ['m', 'i', 'n'] := by
  rw [minColName, truncateColumnName, String.toList_append, String.toList_ofList]
  rfl

theorem toList_maxColName (name : String) :
    (maxColName name).toList = cut name ++ '_' :: ['m', 'a', 'x'] := by
  rw [maxColName, truncateColumnName, String.toList_append, String.toList_ofList]
  rfl

theorem read_tail {text : String} {cutName tail : List Char}
    (htext : text.toList = cutName ++ '_' :: tail) (ht : tail.all isIdentChar = true) :
    (∀ name, readIdentifier text.toList = some name ↔
      isBareWord cutName = true ∧ name = text.toList) ∧
    (isBareWord cutName = true → readIdentifier (escapeName text).toList = some text.toList) := by
  refine ⟨fun name => by rw [htext]; exact readIdentifier_append_iff ht, fun hbare => ?_⟩
  have hbare' : isBareWord text.toList = true := by rw [htext, isBareWord_append _ ht, hbare]
  have hne : text.toList ≠ [] := by rw [htext]; simp
  have hquote (c : Char) (hc : isIdentChar c = false) : c ∉ text.toList := by
    intro hmem
    rw [isBareWord, Bool.and_eq_true] at hbare'
    exact absurd (List.all_eq_true.mp hbare'.1 c hmem) (by rw [hc]; exact Bool.false_ne_true)
  have hunquote : unquote text.toList = none := by
    apply unquote_eq_none
    intro c hc
    have hmem := List.mem_of_head? hc
    refine ⟨?_, ?_, ?_⟩ <;> rintro rfl <;> exact hquote _ (by decide) hmem
  have hescaped : (escapeName text).toList = '\x60' :: (text.toList ++ ['\x60']) := by
    rw [escapeName, hunquote, String.toList_append, String.toList_append]
    rfl
  rw [hescaped]
  exact readIdentifier_quoted (hquote _ isIdentChar_backtick) hne

theorem mapM_colDefs {key : ColumnList} {defs : List (String × String)}
    (hdefs : colDefs key = .ok defs) (hbare : BareNames key) :
    (defs.mapM fun d => readIdentifier d.1.toList) = some (columnNames key) := by
  unfold colDefs at hdefs
  split at hdefs
  · cases hdefs
  have hbare' (col : Column) (hcol : col ∈ key.columns) : isBareWord (cut col.name) = true :=
    hbare _ (List.mem_map_of_mem hcol)
  have hends {colName : String → String} {tail : List Char}
      (htext : ∀ name, (colName name).toList = cut name ++ '_' :: tail)
      (ht : tail.all isIdentChar = true) :
      ((key.columns.map fun col => (escapeName (colName col.name), col.mySQLType)).mapM
        fun d => readIdentifier d.1.toList) =
          some (key.columns.map fun col => (colName col.name).toList) :=
    mapM_map_eq_some fun col hcol => (read_tail (htext col.name) ht).2 (hbare' col hcol)
  have hown : (ownColDefs.mapM fun d => readIdentifier d.1.toList) =
      some (ownNames.map String.toList) := by decide +kernel
  rw [← Except.ok.inj hdefs, List.mapM_append, List.mapM_append, hown,
    hends toList_minColName (by decide), hends toList_maxColName (by decide)]
  unfold columnNames ColumnList.names
  rw [List.map_append, List.map_append, List.map_map, List.map_map, List.map_map, List.map_map]
  rfl

theorem mapM_insert_iff {databaseName tableName : String} {key : ColumnList}
    {builder : CheckpointInsertQueryBuilder}
    (h : newCheckpointQueryBuilder databaseName tableName key = .ok builder)
    {names : List (List Char)} :
    (builder.preparedStatement.columns.mapM fun c => readIdentifier c.toList) = some names ↔
      BareNames key ∧ names = (columnNames key).tail := by
  unfold newCheckpointQueryBuilder at h
  split at h
  · cases h
  have hcolumns : builder.preparedStatement.columns =
      ownNames.tail ++ key.names.map minColName ++ key.names.map maxColName := by
    cases h
    rfl
  rw [hcolumns]
  have hread (hbare : BareNames key) :
      ((ownNames.tail ++ key.names.map minColName ++ key.names.map maxColName).mapM
        fun c => readIdentifier c.toList) = some (columnNames key).tail := by
    have hown : (ownNames.tail.mapM fun c => readIdentifier c.toList) =
        some (ownNames.tail.map String.toList) := by decide
    have hends {colName : String → String} {tail : List Char}
        (htext : ∀ name, (colName name).toList = cut name ++ '_' :: tail)
        (ht : tail.all isIdentChar = true) :
        ((key.names.map colName).mapM fun c => readIdentifier c.toList) =
          some (key.names.map fun name => (colName name).toList) :=
      mapM_map_eq_some fun name hname =>
        ((read_tail (htext name) ht).1 _).mpr ⟨hbare name hname, rfl⟩
    rw [List.mapM_append, List.mapM_append, hown, hends toList_minColName (by decide),
      hends toList_maxColName (by decide)]
    unfold columnNames
    rw [List.map_append, List.map_append, List.map_map, List.map_map]
    rfl
  constructor
  · intro hnames
    have hbare : BareNames key := by
      intro name hname
      have hmem : minColName name ∈
          ownNames.tail ++ key.names.map minColName ++ key.names.map maxColName :=
        List.mem_append_left _ (List.mem_append_right _ (List.mem_map_of_mem hname))
      obtain ⟨_, hb⟩ := exists_of_mapM_eq_some hnames hmem
      exact (((read_tail (toList_minColName name) (by decide)).1 _).mp hb).1
    exact ⟨hbare, Option.some.inj (hnames.symm.trans (hread hbare))⟩
  · rintro ⟨hbare, rfl⟩
    exact hread hbare

/-! ## Different names -/

section Fold

variable {srv : Server}

theorem fold_append (a b : List Char) : srv.fold (a ++ b) = srv.fold a ++ srv.fold b :=
  List.map_append

theorem fold_own (hsrv : srv.Folds) {name : List Char}
    (h : name.all fun c => "abcdefghijklmnopqrstuvwxyz_".toList.contains c) :
    srv.fold name = name := by
  refine (List.map_congr_left fun c hc => ?_).trans (List.map_id _)
  have hmem := List.all_eq_true.mp h c hc
  exact hsrv c (List.contains_iff_mem.mp hmem)

theorem nodup_tail_iff {names : List String} {tail : List Char} :
    (names.map fun name => srv.fold (cut name) ++ tail).Nodup ↔
      (names.map fun name => srv.fold (cut name)).Nodup := by
  rw [show (fun name => srv.fold (cut name) ++ tail) =
    (· ++ tail) ∘ fun name => srv.fold (cut name) from rfl, ← List.map_map]
  exact List.nodup_map_iff fun a b h => List.append_cancel_right h

theorem nodup_columnNames_iff (hsrv : srv.Folds) (key : ColumnList) :
    ((columnNames key).map srv.fold).Nodup ↔ DistinctNames srv key := by
  have hmin : srv.fold ('_' :: ['m', 'i', 'n']) = '_' :: ['m', 'i', 'n'] :=
    fold_own hsrv (by decide)
  have hmax : srv.fold ('_' :: ['m', 'a', 'x']) = '_' :: ['m', 'a', 'x'] :=
    fold_own hsrv (by decide)
  have hown : (ownNames.map String.toList).map srv.fold = ownNames.map String.toList := by
    refine (List.map_congr_left fun name hname => ?_).trans (List.map_id _)
    refine fold_own hsrv ?_
    revert name
    decide
  have hnames : (columnNames key).map srv.fold = ownNames.map String.toList ++
      ((key.names.map fun name => srv.fold (cut name) ++ '_' :: ['m', 'i', 'n']) ++
        key.names.map fun name => srv.fold (cut name) ++ '_' :: ['m', 'a', 'x']) := by
    unfold columnNames
    rw [List.map_append, List.map_append, List.map_append, List.map_append, hown,
      List.append_assoc]
    congr 1
    simp only [List.map_map, Function.comp_def, toList_minColName, toList_maxColName, fold_append,
      hmin, hmax]
  rw [hnames, List.nodup_append, List.nodup_append, nodup_tail_iff, nodup_tail_iff]
  unfold DistinctNames
  constructor
  · intro h
    exact h.2.1.1
  · intro h
    refine ⟨by decide, ⟨h, h, ?_⟩, ?_⟩
    · -- `_min` and `_max` at the end
      intro a ha b hb heq
      obtain ⟨m, -, rfl⟩ := List.mem_map.mp ha
      obtain ⟨n, -, rfl⟩ := List.mem_map.mp hb
      exact absurd (List.append_inj' heq rfl).2 (by decide)
    · -- none of gh-ost's own names ends in `_min` or `_max`
      have hends : ∀ own ∈ ownNames.map String.toList,
          ¬ '_' :: ['m', 'i', 'n'] <:+ own ∧ ¬ '_' :: ['m', 'a', 'x'] <:+ own := by decide
      intro own hmem b hb heq
      subst heq
      rcases List.mem_append.mp hb with hb | hb
      · obtain ⟨n, -, hn⟩ := List.mem_map.mp hb
        exact (hends own hmem).1 ⟨_, hn⟩
      · obtain ⟨n, -, hn⟩ := List.mem_map.mp hb
        exact (hends own hmem).2 ⟨_, hn⟩

end Fold

/-! ## The two statements -/

section Statements

variable {srv : Server} {databaseName tableName : String} {key : ColumnList}

/-- The insert names the columns of the table but `gh_ost_chk_id`, in their order. -/
def Addresses (databaseName tableName : String) (key : ColumnList) (table : Table) : Prop :=
  ∃ builder, newCheckpointQueryBuilder databaseName tableName key = .ok builder ∧
    (builder.preparedStatement.columns.mapM fun c => readIdentifier c.toList) =
      some (table.columns.tail.map Prod.fst)

def columnTypes (key : ColumnList) : List String :=
  ownColDefs.map Prod.snd ++ key.columns.map Column.mySQLType ++ key.columns.map Column.mySQLType

theorem length_columnTypes (key : ColumnList) :
    (columnTypes key).length = (columnNames key).length := by
  simp [columnTypes, columnNames, ownColDefs, ownNames, ColumnList.names]

theorem length_le_of_mem_columnNames {name : List Char} (h : name ∈ columnNames key) :
    name.length ≤ 64 := by
  have hcut (n : String) : (cut n).length ≤ 60 := List.length_take_le ..
  have hown : ∀ own ∈ ownNames, own.toList.length ≤ 64 := by decide
  obtain ⟨text, htext, rfl⟩ := List.mem_map.mp h
  rw [List.append_assoc, List.mem_append, List.mem_append, List.mem_map, List.mem_map] at htext
  rcases htext with htext | ⟨n, -, rfl⟩ | ⟨n, -, rfl⟩
  · exact hown text htext
  · rw [toList_minColName, List.length_append]
    exact Nat.add_le_add_right (hcut n) 4
  · rw [toList_maxColName, List.length_append]
    exact Nat.add_le_add_right (hcut n) 4

theorem createCheckpointTable_iff (hsrv : srv.Folds)
    (htyped : ∀ col ∈ key.columns, col.mySQLType ≠ "") (hbare : BareNames key) {table : Table} :
    createCheckpointTable srv key = .ok table ↔
      DistinctNames srv key ∧ table = { columns := (columnNames key).zip (columnTypes key) } := by
  have hnone : key.columns.find? (fun col => decide (col.mySQLType = "")) = none := by
    rw [List.find?_eq_none]
    intro col hcol
    simpa using htyped col hcol
  obtain ⟨defs, hdefs, htypes⟩ : ∃ defs, colDefs key = .ok defs ∧
      defs.map Prod.snd = columnTypes key := by
    refine ⟨_, by rw [colDefs, hnone], ?_⟩
    simp [columnTypes, Function.comp_def]
  have hchecks : (((columnNames key).map srv.fold).Nodup ∧
      ∀ name ∈ columnNames key, name.length ≤ 64) ↔ DistinctNames srv key := by
    rw [nodup_columnNames_iff hsrv]
    exact ⟨And.left, fun h => ⟨h, fun name => length_le_of_mem_columnNames⟩⟩
  rw [createCheckpointTable, hdefs]
  dsimp only
  rw [Server.create, mapM_colDefs hdefs hbare, htypes, Option.bind_some]
  by_cases hdistinct : DistinctNames srv key
  · rw [if_pos (hchecks.mpr hdistinct)]
    exact ⟨fun h => ⟨hdistinct, (Except.ok.inj h).symm⟩, fun h => by rw [h.2]⟩
  · rw [if_neg fun h => hdistinct (hchecks.mp h)]
    exact ⟨nofun, fun h => absurd h.1 hdistinct⟩

/-- **The statements agree exactly if the cut names are bare words and different.** -/
theorem addresses_iff (hsrv : srv.Folds) (hkey : key.len ≠ 0)
    (htyped : ∀ col ∈ key.columns, col.mySQLType ≠ "") :
    (∃ table, createCheckpointTable srv key = .ok table ∧
      Addresses databaseName tableName key table) ↔ BareNames key ∧ DistinctNames srv key := by
  have hfirst : ((columnNames key).zip (columnTypes key)).tail.map Prod.fst =
      (columnNames key).tail := by
    rw [List.map_tail, List.map_fst_zip (length_columnTypes key).ge]
  constructor
  · rintro ⟨table, htable, builder, hbuilder, hnames⟩
    have hbare := ((mapM_insert_iff hbuilder).mp hnames).1
    exact ⟨hbare, ((createCheckpointTable_iff hsrv htyped hbare).mp htable).1⟩
  · rintro ⟨hbare, hdistinct⟩
    obtain ⟨builder, hbuilder⟩ : ∃ builder,
        newCheckpointQueryBuilder databaseName tableName key = .ok builder :=
      ⟨_, by rw [newCheckpointQueryBuilder, if_neg hkey]⟩
    refine ⟨_, (createCheckpointTable_iff hsrv htyped hbare).mpr ⟨hdistinct, rfl⟩, builder,
      hbuilder, ?_⟩
    rw [mapM_insert_iff hbuilder, hfirst]
    exact ⟨hbare, rfl⟩

end Statements

/-! ## Writing -/

section Write

variable {srv : Server} {enc : Encodings} {gtids : GTIDSets}
variable {builder : CheckpointInsertQueryBuilder}

theorem bindArgs_tokens (now : Int) : ∀ {tokens : List ValueToken} {args : List Cell},
    tokens.length = args.length →
      Server.bindArgs now (tokens.map CheckpointValue.token) args = some (tokens.zip args)
  | [], [], _ => rfl
  | t :: tokens, arg :: args, h => by
    rw [List.map_cons, Server.bindArgs, bindArgs_tokens now (Nat.succ.inj h)]
    rfl

theorem insert_row {now : Int} {idType : String} {columns : List (List Char × String)}
    {rows : List (List Cell)} {stmt : CheckpointInsert} {args : List Cell}
    {sources : List (ValueToken × Cell)}
    (hnodup : ((("gh_ost_chk_id".toList, idType) :: columns).map fun c => srv.fold c.1).Nodup)
    (hnames : (stmt.columns.mapM fun c => readIdentifier c.toList) = some (columns.map Prod.fst))
    (hargs : Server.bindArgs now stmt.values args = some sources)
    (hlength : columns.length = sources.length) :
    srv.insert now { columns := ("gh_ost_chk_id".toList, idType) :: columns, rows } stmt args =
      some
        { columns := ("gh_ost_chk_id".toList, idType) :: columns
          rows := rows ++ [.int (rows.length + 1) ::
            (columns.zip sources).map fun p => srv.store p.1.2 p.2] } := by
  rw [List.map_cons, List.nodup_cons] at hnodup
  have htargets : (columns.map Prod.fst).map srv.fold = columns.map fun c => srv.fold c.1 := by
    rw [List.map_map]
    rfl
  -- what is stored, by the folded names of the columns
  have hstored : (columns.map fun c => srv.fold c.1).zip sources =
      (columns.zip sources).map fun p => (srv.fold p.1.1, p.2) := by
    rw [List.zip_map_left]
    rfl
  have hkeys : (((columns.map fun c => srv.fold c.1).zip sources).map Prod.fst) =
      columns.map fun c => srv.fold c.1 := List.map_fst_zip (by rw [List.length_map, hlength])
  have hid : ((columns.map fun c => srv.fold c.1).zip sources).lookup
      (srv.fold "gh_ost_chk_id".toList) = none := by
    rw [List.lookup_eq_none_iff]
    intro p hp
    have hmem := List.mem_map_of_mem (f := Prod.fst) hp
    rw [hkeys] at hmem
    exact bne_iff_ne.mpr fun h => hnodup.1 (h ▸ hmem)
  have hrow : columns.map (srv.field (rows.length + 1)
      ((columns.map fun c => srv.fold c.1).zip sources)) =
        (columns.zip sources).map fun p => srv.store p.1.2 p.2 := by
    have hcolumns : columns = (columns.zip sources).map Prod.fst :=
      (List.map_fst_zip hlength.le).symm
    conv_lhs => rw [hcolumns, List.map_map]
    refine List.map_congr_left fun p hp => ?_
    have hmem : (srv.fold p.1.1, p.2) ∈ (columns.map fun c => srv.fold c.1).zip sources := by
      rw [hstored]
      exact List.mem_map_of_mem (f := fun p : _ × _ => (srv.fold p.1.1, p.2)) hp
    rw [← hcolumns, Function.comp_apply, Server.field,
      lookup_of_mem (by rw [hkeys]; exact hnodup.2) hmem]
  rw [Server.insert, hnames, hargs, Option.bind_some, Option.bind_some, htargets]
  dsimp only
  rw [if_pos ⟨by rw [List.length_map, hlength], hnodup.2,
    fun t ht => List.mem_cons_of_mem _ ht⟩, List.map_cons, hrow, Server.field, hid]
  rfl

/-- What the columns of one end of the range give back for its values. -/
def stored (srv : Server) (enc : Encodings) (columns : List Column) (range : List Value) :
    List Value :=
  List.zipWith (fun col v => srv.keep col.mySQLType col.valueToken (col.convertArg enc v)) columns
    range

theorem store_range (colName : Column → List Char) :
    ∀ {columns : List Column} {range : List Value}, columns.length = range.length →
      ((columns.map fun col => (colName col, col.mySQLType)).zip
        ((columns.map Column.valueToken).zip
          ((List.zipWith (Column.convertArg enc) columns range).map Cell.value))).map
            (fun p => srv.store p.1.2 p.2) = (stored srv enc columns range).map Cell.value
  | [], [], _ => rfl
  | col :: columns, v :: range, h => by
    have ih := store_range colName (Nat.succ.inj h)
    simp only [List.map_cons, List.zipWith_cons_cons, List.zip_cons_cons, stored] at ih ⊢
    rw [ih]
    rfl

variable {databaseName tableName : String} {key : ColumnList}

theorem columns_eq (key : ColumnList) :
    (columnNames key).zip (columnTypes key) =
      (ownNames.map String.toList).zip (ownColDefs.map Prod.snd) ++
        (key.columns.map (fun col => ((minColName col.name).toList, col.mySQLType)) ++
          key.columns.map (fun col => ((maxColName col.name).toList, col.mySQLType))) := by
  have hown : (ownNames.map String.toList).length = (ownColDefs.map Prod.snd).length := rfl
  unfold columnNames columnTypes ColumnList.names
  rw [List.append_assoc, List.append_assoc, List.map_append, List.map_append, List.zip_append hown,
    List.zip_append (by simp), List.map_map, List.map_map, List.map_map, List.map_map,
    List.zip_map', List.zip_map']
  rfl

/-- What the first six values of the insert stand for. -/
def ownSources (now : Int) (coords : String) (chk : Checkpoint) : List (ValueToken × Cell) :=
  [(.plain, .int now), (.plain, .text coords), (.plain, .int chk.iteration),
    (.plain, .int chk.rowsCopied), (.plain, .int chk.dmlApplied), (.plain, .flag chk.isCutover)]

theorem bindArgs_builder
    (hbuilder : newCheckpointQueryBuilder databaseName tableName key = .ok builder) (now : Int)
    (coords : String) (chk : Checkpoint) {min max : List Cell}
    (hmin : key.columns.length = min.length) (hmax : key.columns.length = max.length) :
    Server.bindArgs now builder.preparedStatement.values
      ([.text coords, .int chk.iteration, .int chk.rowsCopied, .int chk.dmlApplied,
        .flag chk.isCutover] ++ (min ++ max)) =
      some (ownSources now coords chk ++ ((key.columns.map Column.valueToken).zip min ++
        (key.columns.map Column.valueToken).zip max)) := by
  have hvalues : builder.preparedStatement.values =
      .now :: .token .plain :: .token .plain :: .token .plain :: .token .plain ::
        .token .plain :: (key.columns.map Column.valueToken ++
          key.columns.map Column.valueToken).map CheckpointValue.token := by
    unfold newCheckpointQueryBuilder at hbuilder
    split at hbuilder
    · cases hbuilder
    · rw [← Except.ok.inj hbuilder, List.map_append]
      rfl
  have hlength : (key.columns.map Column.valueToken ++
      key.columns.map Column.valueToken).length = (min ++ max).length := by
    rw [List.length_append, List.length_append, List.length_map, ← hmin, ← hmax]
  rw [hvalues, ← List.zip_append (by rw [List.length_map, hmin])]
  simp only [List.cons_append, List.nil_append, Server.bindArgs, bindArgs_tokens now hlength,
    Option.map_some, ownSources]

theorem buildQuery_eq (enc : Encodings) {min max : List Value}
    (hmin : builder.uniqueKeyColumns.columns.length = min.length)
    (hmax : builder.uniqueKeyColumns.columns.length = max.length) :
    builder.buildQuery enc (min ++ max) = .ok (builder.preparedStatement,
      List.zipWith (Column.convertArg enc) builder.uniqueKeyColumns.columns min ++
        List.zipWith (Column.convertArg enc) builder.uniqueKeyColumns.columns max) := by
  have hzip : List.zipWith (Column.convertArg enc) builder.uniqueKeyColumns.columns (min ++ max) =
      List.zipWith (Column.convertArg enc) builder.uniqueKeyColumns.columns min := by
    have happend : List.zipWith (Column.convertArg enc)
        (builder.uniqueKeyColumns.columns ++ []) (min ++ max) = _ := List.zipWith_append hmin
    rwa [List.append_nil, List.zipWith_nil_left, List.append_nil] at happend
  have hlength : (min ++ max).length = 2 * builder.uniqueKeyColumns.len := by
    rw [List.length_append, ← hmin, ← hmax, ColumnList.len]
    omega
  rw [CheckpointInsertQueryBuilder.buildQuery, if_neg (not_not.mpr hlength)]
  dsimp only
  rw [hzip, ColumnList.len, hmin, List.drop_left]

theorem store_sources (srv : Server) (enc : Encodings) (now : Int) (coords : String)
    {chk : Checkpoint}
    (hmin : key.columns.length = chk.iterationRangeMin.length)
    (hmax : key.columns.length = chk.iterationRangeMax.length) :
    ((((columnNames key).zip (columnTypes key)).tail.zip
      (ownSources now coords chk ++
        ((key.columns.map Column.valueToken).zip ((List.zipWith (Column.convertArg enc) key.columns
            chk.iterationRangeMin).map Cell.value) ++
          (key.columns.map Column.valueToken).zip ((List.zipWith (Column.convertArg enc) key.columns
            chk.iterationRangeMax).map Cell.value)))).map fun p => srv.store p.1.2 p.2) =
      [.int now, .text coords, .int chk.iteration, .int chk.rowsCopied, .int chk.dmlApplied,
        .flag chk.isCutover] ++
        (stored srv enc key.columns chk.iterationRangeMin ++
          stored srv enc key.columns chk.iterationRangeMax).map Cell.value := by
  have htail : ((columnNames key).zip (columnTypes key)).tail =
      ((ownNames.map String.toList).zip (ownColDefs.map Prod.snd)).tail ++
        (key.columns.map (fun col => ((minColName col.name).toList, col.mySQLType)) ++
          key.columns.map (fun col => ((maxColName col.name).toList, col.mySQLType))) := by
    rw [columns_eq]
    rfl
  have hown : ((ownNames.map String.toList).zip (ownColDefs.map Prod.snd)).tail.length =
      (ownSources now coords chk).length := rfl
  rw [htail, List.zip_append hown, List.zip_append (by simp [hmin]), List.map_append,
    List.map_append, store_range _ hmin, store_range _ hmax, List.map_append]
  rfl

/-- **What `WriteCheckpoint` adds to the table.** -/
theorem writeCheckpoint_eq (enc : Encodings) (gtids : GTIDSets) (hsrv : srv.Folds)
    (hbare : BareNames key) (hdistinct : DistinctNames srv key)
    (hbuilder : newCheckpointQueryBuilder databaseName tableName key = .ok builder)
    {chk : Checkpoint} (hmin : key.columns.length = chk.iterationRangeMin.length)
    (hmax : key.columns.length = chk.iterationRangeMax.length) (now : Int)
    (rows : List (List Cell)) :
    writeCheckpoint srv enc gtids builder now
        { columns := (columnNames key).zip (columnTypes key), rows } chk =
      .ok
        { columns := (columnNames key).zip (columnTypes key)
          rows := rows ++ [.int (rows.length + 1) :: .int now ::
            .text (gtids.coordsString chk.lastTrxCoords) :: .int chk.iteration ::
            .int chk.rowsCopied :: .int chk.dmlApplied :: .flag chk.isCutover ::
            (stored srv enc key.columns chk.iterationRangeMin ++
              stored srv enc key.columns chk.iterationRangeMax).map Cell.value] } := by
  have hlength {range : List Value} (h : key.columns.length = range.length) :
      key.columns.length =
        ((List.zipWith (Column.convertArg enc) key.columns range).map Cell.value).length := by
    rw [List.length_map, List.length_zipWith, ← h, Nat.min_self]
  have hcolumns : builder.uniqueKeyColumns = key := by
    unfold newCheckpointQueryBuilder at hbuilder
    split at hbuilder
    · cases hbuilder
    · rw [← Except.ok.inj hbuilder]
  have hquery := buildQuery_eq enc (hcolumns.symm ▸ hmin) (hcolumns.symm ▸ hmax)
  have hargs := bindArgs_builder hbuilder now (gtids.coordsString chk.lastTrxCoords) chk
    (hlength hmin) (hlength hmax)
  have hrow := store_sources srv enc now (gtids.coordsString chk.lastTrxCoords) hmin hmax
  have hfirst := List.map_fst_zip (length_columnTypes key).ge
  have hnodup := (nodup_columnNames_iff hsrv key).mpr hdistinct
  have hnames := (mapM_insert_iff hbuilder).mpr ⟨hbare, rfl⟩
  -- `gh_ost_chk_id` is the column in front
  obtain ⟨rest, hrest⟩ : ∃ rest, (columnNames key).zip (columnTypes key) =
      ("gh_ost_chk_id".toList, "bigint auto_increment primary key") :: rest := ⟨_, rfl⟩
  rw [← hfirst, List.map_map, hrest] at hnodup
  rw [← hfirst, hrest] at hnames
  rw [hrest, List.tail_cons] at hrow
  rw [writeCheckpoint, hquery, hrest]
  dsimp only
  rw [List.map_append, hcolumns, insert_row hnodup hnames hargs, hrow]
  · rfl
  · have hcount : ((columnNames key).zip (columnTypes key)).length =
        7 + (key.columns.length + key.columns.length) := by
      rw [columns_eq, List.length_append, List.length_append, List.length_map, List.length_map]
      rfl
    rw [hrest, List.length_cons] at hcount
    rw [List.length_append, List.length_append, List.length_zip, List.length_zip, List.length_map,
      ← hlength hmin, ← hlength hmax, Nat.min_self]
    have hown : (ownSources now (gtids.coordsString chk.lastTrxCoords) chk).length = 6 := rfl
    omega

end Write

/-! ## Reading -/

section Read

variable {gtids : GTIDSets}

/-- The coordinates can be read from their text. -/
def Readable : BinlogCoordinates → Prop
  | .file c => ':' ∉ c.logFile.toList
  | .gtid set => set ≠ none

instance : (coords : BinlogCoordinates) → Decidable (Readable coords)
  | .file c => inferInstanceAs (Decidable (':' ∉ c.logFile.toList))
  | .gtid set => inferInstanceAs (Decidable (set ≠ none))

/-- Coordinates of the mode of the migration, with a position of 64 bits. -/
def OfMode (useGTIDs : Bool) : BinlogCoordinates → Prop
  | .file c => useGTIDs = false ∧ -(2 ^ 63) ≤ c.logPos ∧ c.logPos < 2 ^ 63
  | .gtid _ => useGTIDs = true

theorem readLastCheckpoint_eq {key : ColumnList} {columns : List (List Char × String)}
    {rows : List (List Cell)} {chkId now iteration rowsCopied dmlApplied : Int} {coordStr : String}
    {isCutover : Bool} {min max : List Value} (hmin : min.length = key.len)
    (hmax : max.length = key.len) (useGTIDs : Bool) :
    readLastCheckpoint gtids useGTIDs key
        { columns
          rows := rows ++ [.int chkId :: .int now :: .text coordStr :: .int iteration ::
            .int rowsCopied :: .int dmlApplied :: .flag isCutover ::
            (min ++ max).map Cell.value] } =
      match readCoords gtids useGTIDs coordStr with
      | .error e => .error (.coordinates e)
      | .ok lastTrxCoords =>
        .ok { id := chkId, timestamp := now, lastTrxCoords, iteration, rowsCopied, dmlApplied
              isCutover, iterationRangeMin := min, iterationRangeMax := max } := by
  have hlength : ((min ++ max).map Cell.value).length = 2 * key.len := by
    rw [List.length_map, List.length_append, hmin, hmax]
    omega
  have hvalues : ((min ++ max).map Cell.value).mapM Cell.asValue = some (min ++ max) := by
    have hmap : ((min ++ max).map Cell.value).mapM Cell.asValue = some ((min ++ max).map id) :=
      mapM_map_eq_some fun v _ => rfl
    rwa [List.map_id] at hmap
  have hscan : scan key.len (.int chkId :: .int now :: .text coordStr :: .int iteration ::
      .int rowsCopied :: .int dmlApplied :: .flag isCutover :: (min ++ max).map Cell.value) =
        some (coordStr, fun lastTrxCoords =>
          { id := chkId, timestamp := now, lastTrxCoords, iteration, rowsCopied, dmlApplied
            isCutover, iterationRangeMin := min, iterationRangeMax := max }) := by
    rw [scan, if_pos hlength, hvalues, Option.map_some, ← hmin, List.take_left, List.drop_left]
  rcases hcoords : readCoords gtids useGTIDs coordStr with e | lastTrxCoords
  · simp only [readLastCheckpoint, List.getLast?_concat, hscan, hcoords]
  · simp only [readLastCheckpoint, List.getLast?_concat, hscan, hcoords]

/-- `go-mysql` reads the sets that it prints. -/
def GTIDSets.Reads (gtids : GTIDSets) : Prop :=
  ∀ set, gtids.parseGTIDSet (gtids.string set) = .ok set

theorem readCoords_iff (hgtids : gtids.Reads) {useGTIDs : Bool} {coords : BinlogCoordinates}
    (hmode : OfMode useGTIDs coords) :
    (∃ read, readCoords gtids useGTIDs (gtids.coordsString coords) = .ok read ∧
      read.equals coords = true) ↔ Readable coords := by
  match coords with
  | .file c =>
    obtain ⟨rfl, hl, hg⟩ := hmode
    refine Iff.trans ?_ (FileBinlogCoordinates.parse_displayString_iff hl hg)
    rw [GTIDSets.coordsString, readCoords, if_neg Bool.false_ne_true]
    constructor
    · rintro ⟨read, hread, hequals⟩
      rcases hparse : FileBinlogCoordinates.parseFileBinlogCoordinates c.displayString with
        e | parsed
      · rw [hparse] at hread
        cases hread
      · rw [hparse] at hread
        rw [← Except.ok.inj hread] at hequals
        exact ⟨parsed, rfl, hequals⟩
    · rintro ⟨parsed, hparsed, hequals⟩
      exact ⟨.file parsed, by rw [hparsed]; rfl, hequals⟩
  | .gtid none =>
    constructor
    · rintro ⟨read, -, hequals⟩
      rcases read with _ | _ | _ <;> cases hequals
    · intro h
      exact absurd rfl h
  | .gtid (some set) =>
    obtain rfl : useGTIDs = true := hmode
    refine ⟨fun _ => nofun, fun _ => ⟨.gtid (some set), ?_, decide_eq_true rfl⟩⟩
    rw [GTIDSets.coordsString, readCoords, if_pos rfl, hgtids]
    rfl

end Read

/-! ## The round trip -/

section RoundTrip

variable {srv : Server} {enc : Encodings} {gtids : GTIDSets} {databaseName tableName : String}
  {key : ColumnList}

/-- What is the same in a checkpoint and in the one that is read back. -/
structure Same (a b : Checkpoint) : Prop where
  lastTrxCoords : a.lastTrxCoords.equals b.lastTrxCoords = true
  iterationRangeMin : a.iterationRangeMin = b.iterationRangeMin
  iterationRangeMax : a.iterationRangeMax = b.iterationRangeMax
  iteration : a.iteration = b.iteration
  rowsCopied : a.rowsCopied = b.rowsCopied
  dmlApplied : a.dmlApplied = b.dmlApplied
  isCutover : a.isCutover = b.isCutover

/-- `ReadLastCheckpoint` after `WriteCheckpoint` gives the checkpoint back. -/
def RoundTrips (srv : Server) (enc : Encodings) (gtids : GTIDSets)
    (databaseName tableName : String) (key : ColumnList) (useGTIDs : Bool) (now : Int)
    (table : Table) (chk : Checkpoint) : Prop :=
  ∃ builder table' read, newCheckpointQueryBuilder databaseName tableName key = .ok builder ∧
    writeCheckpoint srv enc gtids builder now table chk = .ok table' ∧
    readLastCheckpoint gtids useGTIDs key table' = .ok read ∧ Same read chk

/-- A checkpoint of the migration: a value for every key column at both ends of the range. -/
structure Fits (key : ColumnList) (useGTIDs : Bool) (chk : Checkpoint) : Prop where
  min : key.columns.length = chk.iterationRangeMin.length
  max : key.columns.length = chk.iterationRangeMax.length
  coords : OfMode useGTIDs chk.lastTrxCoords

/-- Each column gives the value of the range back, after its conversion and through its token. -/
def Keeps (srv : Server) (enc : Encodings) (key : ColumnList) (range : List Value) : Prop :=
  ∀ p ∈ key.columns.zip range, srv.keep p.1.mySQLType p.1.valueToken (p.1.convertArg enc p.2) = p.2

instance (range : List Value) : Decidable (Keeps srv enc key range) :=
  inferInstanceAs (Decidable (∀ p ∈ key.columns.zip range, _))

theorem stored_eq_iff {range : List Value} (h : key.columns.length = range.length) :
    stored srv enc key.columns range = range ↔ Keeps srv enc key range :=
  zipWith_eq_right_iff h

theorem roundTrips_iff (hsrv : srv.Folds) (hgtids : gtids.Reads) (hkey : key.len ≠ 0)
    (hbare : BareNames key) (hdistinct : DistinctNames srv key) {useGTIDs : Bool} {now : Int}
    {rows : List (List Cell)} {chk : Checkpoint} (hfits : Fits key useGTIDs chk) :
    RoundTrips srv enc gtids databaseName tableName key useGTIDs now
        { columns := (columnNames key).zip (columnTypes key), rows } chk ↔
      Readable chk.lastTrxCoords ∧ Keeps srv enc key chk.iterationRangeMin ∧
        Keeps srv enc key chk.iterationRangeMax := by
  obtain ⟨builder, hbuilder⟩ : ∃ builder,
      newCheckpointQueryBuilder databaseName tableName key = .ok builder :=
    ⟨_, by rw [newCheckpointQueryBuilder, if_neg hkey]⟩
  have hlength {range : List Value} (h : key.columns.length = range.length) :
      (stored srv enc key.columns range).length = key.len := by
    rw [stored, List.length_zipWith, ← h, Nat.min_self, ColumnList.len]
  have hwrite := writeCheckpoint_eq enc gtids hsrv hbare hdistinct hbuilder hfits.min hfits.max now
    rows
  rw [← readCoords_iff hgtids hfits.coords, ← stored_eq_iff hfits.min, ← stored_eq_iff hfits.max]
  constructor
  · rintro ⟨builder', table, read, hbuilder', htable, hlast, hsame⟩
    obtain rfl : builder = builder' := Except.ok.inj (hbuilder.symm.trans hbuilder')
    rw [← Except.ok.inj (hwrite.symm.trans htable),
      readLastCheckpoint_eq (hlength hfits.min) (hlength hfits.max)] at hlast
    split at hlast
    · cases hlast
    · next lastTrxCoords hcoords =>
      rw [← Except.ok.inj hlast] at hsame
      exact ⟨⟨lastTrxCoords, hcoords, hsame.lastTrxCoords⟩, hsame.iterationRangeMin,
        hsame.iterationRangeMax⟩
  · rintro ⟨⟨lastTrxCoords, hcoords, hequals⟩, hmin, hmax⟩
    refine ⟨builder, _, ?_, hbuilder, hwrite, ?_, ?_⟩
    rotate_left
    · rw [readLastCheckpoint_eq (hlength hfits.min) (hlength hfits.max), hcoords]
    · exact ⟨hequals, hmin, hmax, rfl, rfl, rfl, rfl⟩

/-- **The checkpoint table agrees with itself exactly if the cut names of the key are bare words and
different; then a checkpoint comes back exactly if its coordinates and range values do.** -/
theorem checkpoint_table_iff (srv : Server) (enc : Encodings) (gtids : GTIDSets)
    (databaseName tableName : String) (key : ColumnList) (hsrv : srv.Folds)
    (hgtids : gtids.Reads) (hkey : key.len ≠ 0)
    (htyped : ∀ col ∈ key.columns, col.mySQLType ≠ "") :
    ((∃ table, createCheckpointTable srv key = .ok table ∧
        Addresses databaseName tableName key table) ↔ BareNames key ∧ DistinctNames srv key) ∧
    ∀ table, createCheckpointTable srv key = .ok table →
      Addresses databaseName tableName key table →
      ((table.columns.map fun c => srv.fold c.1).Nodup ∧ ∀ c ∈ table.columns, c.1.length ≤ 64) ∧
      ∀ rows useGTIDs now chk, Fits key useGTIDs chk →
        (RoundTrips srv enc gtids databaseName tableName key useGTIDs now { table with rows } chk ↔
          Readable chk.lastTrxCoords ∧ Keeps srv enc key chk.iterationRangeMin ∧
            Keeps srv enc key chk.iterationRangeMax) := by
  refine ⟨addresses_iff hsrv hkey htyped, fun table htable haddresses => ?_⟩
  obtain ⟨hbare, hdistinct⟩ := (addresses_iff hsrv hkey htyped).mp ⟨table, htable, haddresses⟩
  obtain ⟨-, rfl⟩ := (createCheckpointTable_iff hsrv htyped hbare).mp htable
  have hfirst := List.map_fst_zip (length_columnTypes key).ge
  refine ⟨⟨?_, fun c hc => ?_⟩, fun rows useGTIDs now chk hfits => ?_⟩
  · have hnodup := (nodup_columnNames_iff hsrv key).mpr hdistinct
    rwa [← hfirst, List.map_map] at hnodup
  · have hmem : c.1 ∈ columnNames key := by
      rw [← hfirst]
      exact List.mem_map_of_mem hc
    exact length_le_of_mem_columnNames hmem
  · exact roundTrips_iff hsrv hgtids hkey hbare hdistinct hfits

/-- A server that compares names as they are and gives back what it is sent. -/
def plainServer : Server := { lower := id, keep := fun _ _ v => v }

def plainEncodings : Encodings := { windows1252 := id, gbk := id }

def keyOf (names : List String) : ColumnList :=
  let columns := names.map fun n => { name := n, mySQLType := "bigint" }
  { columns, ordinals := newColumnsMap columns }

/-- A checkpoint at a position of a file, for a key of one column. -/
def checkpointAt (logFile : String) : Checkpoint :=
  { lastTrxCoords := .file { logFile, logPos := 4 }
    iterationRangeMin := [.int64 1], iterationRangeMax := [.int64 9]
    iteration := 1, rowsCopied := 9, dmlApplied := 0, isCutover := false }

theorem exists_reads : ∃ gtids : GTIDSets, gtids.Reads := by
  have : Countable Char := Function.Injective.countable fun a b => Char.toNat_inj.mp
  have : Countable String := Function.Injective.countable fun a b => String.toList_inj.mp
  obtain ⟨f, hf⟩ := exists_injective_nat (Finset GTID)
  refine ⟨{ string := fun set => String.ofList (List.replicate (f set) 'x')
            parseGTIDSet := fun text => .ok (Function.invFun f text.toList.length) }, fun set => ?_⟩
  show Except.ok _ = Except.ok _
  rw [String.toList_ofList, List.length_replicate, Function.leftInverse_invFun hf]

theorem checkpoint_table_iff_small : ∃ gtids table,
    createCheckpointTable plainServer (keyOf ["id"]) = .ok table ∧
      RoundTrips plainServer plainEncodings gtids "db" "_t_ghk" (keyOf ["id"]) false 7
        { table with rows := [] } (checkpointAt "bin.000001") := by
  obtain ⟨gtids, hgtids⟩ := exists_reads
  have h := checkpoint_table_iff plainServer plainEncodings gtids "db" "_t_ghk" (keyOf ["id"])
    (fun _ _ => rfl) hgtids (by decide) (by decide)
  obtain ⟨table, htable, haddresses⟩ := h.1.mpr ⟨by decide, by decide⟩
  refine ⟨gtids, table, htable, ((h.2 table htable haddresses).2 [] false 7 _ ?_).mpr ?_⟩
  · exact ⟨rfl, rfl, rfl, by decide, by decide⟩
  · exact ⟨by decide, by decide, by decide⟩

/-- A set of transactions has no text here. -/
def noGTIDSets : GTIDSets := { string := fun _ => "", parseGTIDSet := fun _ => .error "" }

/-- Two names with the same 60 characters, a name that needs quotes, and a file with a colon. -/
theorem checkpoint_table_disagrees :
    createCheckpointTable plainServer (keyOf
      ["aaaaaaaaaabbbbbbbbbbccccccccccddddddddddeeeeeeeeeeffffffffff1",
        "aaaaaaaaaabbbbbbbbbbccccccccccddddddddddeeeeeeeeeeffffffffff2"]) = .error .refused ∧
    ((createCheckpointTable plainServer (keyOf ["a-b"])).isOk = true ∧
      ∀ table, ¬ Addresses "db" "_t_ghk" (keyOf ["a-b"]) table) ∧
    (do
      let table ← createCheckpointTable plainServer (keyOf ["id"])
      let builder ← (newCheckpointQueryBuilder "db" "_t_ghk" (keyOf ["id"])).mapError .build
      let written ← writeCheckpoint plainServer plainEncodings noGTIDSets builder 7 table
        (checkpointAt "a:b.000001")
      readLastCheckpoint noGTIDSets false (keyOf ["id"]) written) =
      .error (.coordinates "ParseFileBinlogCoordinates: invalid pos: b.000001:4") := by
  refine ⟨by decide +kernel, ⟨by decide +kernel, ?_⟩, by decide +kernel⟩
  rintro table ⟨builder, hbuilder, hnames⟩
  exact absurd ((mapM_insert_iff hbuilder).mp hnames).1 (by decide)

end RoundTrip

end GhOst.Logic.Checkpoints
