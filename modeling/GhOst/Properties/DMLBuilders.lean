import Mathlib.Data.List.Forall2
import GhOst.Sql.Builder

/-!
# Columns and arguments of the DML builders

A builder prepares its statement from one set of lists and fetches the arguments through another.
The two agree when the mapped columns are as many as the shared ones, every column of the key is a
column of the table and the server reads the names in the text as they are. The constructors check
none of this for all the lists they take, and `BuildQuery` of the update builder does not look at
the lengths of the images.
-/

namespace GhOst.Sql

/-- The columns named at the placeholders of a statement, from left to right. -/
def Statement.placeholders : Statement → List String
  | delete _ _ whereColumns => whereColumns
  | insertIgnore _ _ columns values => (columns.zip values).map Prod.fst
  | update _ _ set whereColumns => set.map Prod.fst ++ whereColumns

/-- The server reads the names in a text as they are. -/
def Readable (names : List String) : Prop := ∀ name ∈ names, readName name = some name

instance (names : List String) : Decidable (Readable names) :=
  inferInstanceAs (Decidable (∀ name ∈ names, _))

theorem map_readName_iff {names : List String} :
    names.map readName = names.map some ↔ Readable names :=
  List.map_inj_left

/-- The value of the column called `name` in an image of a row of the table. -/
def ColumnList.imageValue (table : ColumnList) (image : List Value) (name : String) :
    Option Value :=
  if name ∈ table.names then image[table.names.idxOf name]? else none

/-- What a placeholder asks for: a column, and the image that has its value. -/
structure Source where
  name : String
  column : Column
  image : List Value

def sources (names : List String) (columns : List Column) (image : List Value) : List Source :=
  (names.zip columns).map fun p => { name := p.1, column := p.2, image }

/-- The value is the converted value of the source. -/
def Source.Gives (enc : Encodings) (table : ColumnList) (value : Value) (source : Source) : Prop :=
  ∃ arg, table.imageValue source.image source.column.name = some arg ∧
    value = source.column.convertArg enc arg

/-- As many arguments as placeholders, each the one that its placeholder asks for by the name that
the server reads there. -/
structure Aligned (enc : Encodings) (table : ColumnList) (asked : List Source)
    (statement : Statement) (built : List Value) : Prop where
  count : built.length = statement.placeholders.length
  names : statement.placeholders.map readName = (asked.map Source.name).map some
  values : List.Forall₂ (Source.Gives enc table) built asked

/-- Images that fit the table give aligned arguments, others give an error. -/
structure Answers (enc : Encodings) (table : ColumnList) (asked : List Source) (fits : Prop)
    (outcome : Except BuildError (Statement × List Value)) : Prop where
  aligned : fits → ∃ statement built,
    outcome = .ok (statement, built) ∧ Aligned enc table asked statement built
  error : ¬ fits → ∃ text, outcome = .error (.error text)

section Loop

variable {enc : Encodings} {table : ColumnList} {image : List Value} {names : List String}
  {columns : List Column} {built : List Value} {asked : List Source}

theorem imageValue_eq (htable : table.WellFormed) {name : String} (h : name ∈ table.names) :
    table.imageValue image name = image[table.ordinal name]? := by
  have hget : table.names[table.names.idxOf name]? = some name := List.getElem?_idxOf h
  have hordinal : table.ordinal name = table.names.idxOf name := by
    unfold ColumnList.ordinal
    rw [(htable.ordinals name _).mpr hget]
    rfl
  unfold ColumnList.imageValue
  rw [if_pos h, hordinal]

theorem mem_names_of_gives (h : List.Forall₂ (Source.Gives enc table) built asked) :
    ∀ source ∈ asked, source.column.name ∈ table.names := by
  induction h with
  | nil => exact fun source hs => absurd hs List.not_mem_nil
  | cons hgives _ ih =>
    intro source hs
    rcases List.mem_cons.mp hs with rfl | hs
    · obtain ⟨arg, harg, -⟩ := hgives
      unfold ColumnList.imageValue at harg
      by_contra hmem
      rw [if_neg hmem] at harg
      cases harg
    · exact ih source hs

theorem sources_map_name (h : names.length = columns.length) :
    (sources names columns image).map Source.name = names := by
  unfold sources
  rw [List.map_map]
  exact List.map_fst_zip (le_of_eq h)

theorem sources_map_column (h : names.length = columns.length) :
    (sources names columns image).map Source.column = columns := by
  unfold sources
  rw [List.map_map]
  exact List.map_snd_zip (le_of_eq h.symm)

theorem mem_names_of_sources (hlen : names.length = columns.length)
    (hgives : ∀ source ∈ sources names columns image, source.column.name ∈ table.names) :
    ∀ c ∈ columns, c.name ∈ table.names := by
  intro c hc
  have hmap : (sources names columns image).map Source.column = columns := sources_map_column hlen
  rw [← hmap] at hc
  obtain ⟨source, hs, rfl⟩ := List.mem_map.mp hc
  exact hgives source hs

theorem exists_convertedArgs (enc : Encodings) (htable : table.WellFormed)
    (hlen : names.length = columns.length) (himage : image.length = table.len)
    (hmem : ∀ c ∈ columns, c.name ∈ table.names) :
    ∃ built, convertedArgs enc table image columns = .ok built ∧
      List.Forall₂ (Source.Gives enc table) built (sources names columns image) := by
  have hlt : ∀ c ∈ columns, table.ordinal c.name < image.length := by
    intro c hc
    rw [himage]
    exact htable.ordinal_lt (hmem c hc)
  refine ⟨_, convertedArgs_eq hlt, ?_⟩
  induction columns generalizing names with
  | nil =>
    rw [List.length_eq_zero_iff.mp hlen]
    exact .nil
  | cons c columns ih =>
    obtain ⟨name, names, rfl⟩ := List.exists_cons_of_length_eq_add_one hlen
    refine .cons ⟨image[table.ordinal c.name]?.getD .null, ?_, rfl⟩ ?_
    · have hc := hlt c List.mem_cons_self
      show table.imageValue image c.name = _
      rw [imageValue_eq htable (hmem c List.mem_cons_self), List.getElem?_eq_getElem hc]
      rfl
    · exact ih (Nat.succ.inj hlen) (fun c hc => hmem c (List.mem_cons_of_mem _ hc))
        fun c hc => hlt c (List.mem_cons_of_mem _ hc)

theorem length_convertedArgs (h : convertedArgs enc table image columns = .ok built) :
    built.length = columns.length := by
  induction columns generalizing built with
  | nil =>
    cases h
    rfl
  | cons c columns ih =>
    unfold convertedArgs at h
    split at h
    · cases h
    · split at h
      · cases h
      · next rest hrest =>
        rw [← Except.ok.inj h, List.length_cons, List.length_cons, ih hrest]

theorem convertedArgs_error {e : BuildError}
    (h : convertedArgs enc table image columns = .error e) : e = .fault .indexOutOfRange := by
  induction columns with
  | nil => cases h
  | cons c columns ih =>
    unfold convertedArgs at h
    split at h
    · exact (Except.error.inj h).symm
    · split at h
      · next he => exact ih (he.trans (congrArg _ (Except.error.inj h)))
      · cases h

end Loop

section Builders

variable {enc : Encodings} {databaseName tableName : String}
  {table shared mapped key : ColumnList} {args valueArgs whereArgs : List Value}

theorem length_names (columns : ColumnList) : columns.names.length = columns.columns.length :=
  List.length_map ..

theorem isSubsetOf_iff (htable : table.WellFormed) :
    shared.isSubsetOf table = true ↔ ∀ c ∈ shared.columns, c.name ∈ table.names := by
  unfold ColumnList.isSubsetOf
  rw [List.all_eq_true]
  exact forall_congr' fun c => imp_congr_right fun _ => htable.lookup_isSome c.name

/-- The builders that take one image compare its length and convert the columns. -/
theorem answers_iff (htable : table.WellFormed) {statement : Statement} {names : List String}
    {columns : List Column} {text : String} (hnames : statement.placeholders = names) :
    Answers enc table (sources names columns args) (args.length = table.len)
        (if args.length ≠ table.len then .error (.error text)
        else match convertedArgs enc table args columns with
          | .error e => .error e
          | .ok built => .ok (statement, built)) ↔
      (args.length = table.len → Readable names ∧ names.length = columns.length ∧
        ∀ c ∈ columns, c.name ∈ table.names) := by
  subst hnames
  constructor
  · intro h hfits
    obtain ⟨_, _, hok, haligned⟩ := h.aligned hfits
    rw [if_neg (not_not.mpr hfits)] at hok
    split at hok
    · cases hok
    · next built hbuilt =>
      cases hok
      have hlen := haligned.count.symm.trans (length_convertedArgs hbuilt)
      have hnames := haligned.names
      rw [sources_map_name hlen] at hnames
      exact ⟨map_readName_iff.mp hnames, hlen,
        mem_names_of_sources hlen (mem_names_of_gives haligned.values)⟩
  · intro h
    refine ⟨fun hfits => ?_, fun hfits => ⟨_, if_pos hfits⟩⟩
    obtain ⟨hread, hlen, hmem⟩ := h hfits
    obtain ⟨built, hbuilt, hgives⟩ := exists_convertedArgs enc htable hlen hfits hmem
    refine ⟨statement, built, ?_, ?_, ?_, hgives⟩
    · rw [if_neg (not_not.mpr hfits), hbuilt]
    · rw [length_convertedArgs hbuilt, hlen]
    · rw [sources_map_name hlen]
      exact map_readName_iff.mpr hread

theorem delete_answers_iff (htable : table.WellFormed) {b : DMLDeleteQueryBuilder}
    (hb : newDMLDeleteQueryBuilder databaseName tableName table key = .ok b) :
    Answers enc table (sources key.names key.columns args) (args.length = table.len)
        (b.buildQuery enc args) ↔
      (args.length = table.len → Readable key.names ∧ ∀ c ∈ key.columns, c.name ∈ table.names) := by
  rw [newDMLDeleteQueryBuilder_ok hb]
  have hnames : (Statement.delete databaseName tableName key.names).placeholders = key.names := rfl
  refine (answers_iff htable hnames).trans ?_
  exact imp_congr_right fun _ => and_congr_right fun _ => and_iff_right (length_names key)

theorem placeholders_insert :
    (Statement.insertIgnore databaseName tableName mapped.names
      (buildColumnsPreparedValues mapped)).placeholders = mapped.names := by
  refine List.map_fst_zip (le_of_eq ?_)
  unfold ColumnList.names buildColumnsPreparedValues
  rw [List.length_map, List.length_map]

theorem insert_answers_iff (htable : table.WellFormed) {b : DMLInsertQueryBuilder}
    (hb : newDMLInsertQueryBuilder databaseName tableName table shared mapped = .ok b) :
    Answers enc table (sources mapped.names shared.columns args) (args.length = table.len)
        (b.buildQuery enc args) ↔
      (args.length = table.len → Readable mapped.names ∧ mapped.len = shared.len) := by
  obtain ⟨hsub, rfl⟩ := newDMLInsertQueryBuilder_ok hb
  refine (answers_iff htable placeholders_insert).trans ?_
  refine imp_congr_right fun _ => and_congr_right fun _ => ?_
  rw [length_names, and_iff_left ((isSubsetOf_iff htable).mp hsub)]
  rfl

theorem placeholders_update :
    (Statement.update databaseName tableName (mapped.columns.map fun c => (c.name, c.valueToken))
      key.names).placeholders = mapped.names ++ key.names := by
  show (mapped.columns.map fun c => (c.name, c.valueToken)).map Prod.fst ++ key.names = _
  rw [List.map_map]
  rfl

theorem DMLUpdateQueryBuilder.buildQuery_cases (enc : Encodings) (b : DMLUpdateQueryBuilder)
    (valueArgs whereArgs : List Value) :
    b.buildQuery enc valueArgs whereArgs = .error (.fault .indexOutOfRange) ∨
      ∃ sharedArgs uniqueKeyArgs,
        convertedArgs enc b.tableColumns valueArgs b.sharedColumns.columns = .ok sharedArgs ∧
        convertedArgs enc b.tableColumns whereArgs b.uniqueKeyColumns.columns = .ok uniqueKeyArgs ∧
        b.buildQuery enc valueArgs whereArgs =
          .ok (b.preparedStatement, sharedArgs ++ uniqueKeyArgs) := by
  unfold buildQuery
  cases hshared : convertedArgs enc b.tableColumns valueArgs b.sharedColumns.columns with
  | error e => exact .inl (by rw [convertedArgs_error hshared])
  | ok sharedArgs =>
    cases hkey : convertedArgs enc b.tableColumns whereArgs b.uniqueKeyColumns.columns with
    | error e => exact .inl (by rw [convertedArgs_error hkey])
    | ok uniqueKeyArgs => exact .inr ⟨sharedArgs, uniqueKeyArgs, rfl, rfl, rfl⟩

theorem update_answers_iff (htable : table.WellFormed) {b : DMLUpdateQueryBuilder}
    (hb : newDMLUpdateQueryBuilder databaseName tableName table shared mapped key = .ok b) :
    Answers enc table
        (sources mapped.names shared.columns valueArgs ++ sources key.names key.columns whereArgs)
        (valueArgs.length = table.len ∧ whereArgs.length = table.len)
        (b.buildQuery enc valueArgs whereArgs) ↔
      valueArgs.length = table.len ∧ whereArgs.length = table.len ∧
        Readable (mapped.names ++ key.names) ∧ mapped.len = shared.len ∧
        ∀ c ∈ key.columns, c.name ∈ table.names := by
  have hmem := (isSubsetOf_iff htable).mp (newDMLUpdateQueryBuilder_subset hb)
  have hstatement := newDMLUpdateQueryBuilder_ok hb
  have hasks : mapped.names.length = shared.columns.length →
      (sources mapped.names shared.columns valueArgs ++
        sources key.names key.columns whereArgs).map Source.name = mapped.names ++ key.names := by
    intro hlen
    rw [List.map_append, sources_map_name hlen, sources_map_name (length_names key)]
  constructor
  · intro h
    -- the lengths are not compared, so there is no error to return
    have hfits : valueArgs.length = table.len ∧ whereArgs.length = table.len := by
      by_contra hfits
      obtain ⟨text, herror⟩ := h.error hfits
      rcases b.buildQuery_cases enc valueArgs whereArgs with hfault | ⟨_, _, -, -, hok⟩
      · rw [hfault] at herror
        cases herror
      · rw [hok] at herror
        cases herror
    obtain ⟨statement, built, hbuilt, haligned⟩ := h.aligned hfits
    rcases b.buildQuery_cases enc valueArgs whereArgs with
      hfault | ⟨sharedArgs, uniqueKeyArgs, hshared, hkey, hok⟩
    · rw [hfault] at hbuilt
      cases hbuilt
    rw [hok, Except.ok.injEq, Prod.mk.injEq] at hbuilt
    obtain ⟨rfl, rfl⟩ := hbuilt
    have hcount := haligned.count
    have hnames := haligned.names
    have hasked := mem_names_of_gives haligned.values
    rw [hstatement, placeholders_update] at hcount hnames
    rw [List.length_append, length_convertedArgs hshared, length_convertedArgs hkey,
      List.length_append, hstatement, length_names key] at hcount
    have hlen : mapped.names.length = shared.columns.length := (Nat.add_right_cancel hcount).symm
    rw [hasks hlen] at hnames
    refine ⟨hfits.1, hfits.2, map_readName_iff.mp hnames, (length_names mapped).symm.trans hlen, ?_⟩
    exact mem_names_of_sources (length_names key) fun source hs =>
      hasked source (List.mem_append_right _ hs)
  · rintro ⟨hvalue, hwhere, hread, hlen, hkey⟩
    have hnames : mapped.names.length = shared.columns.length := (length_names mapped).trans hlen
    obtain ⟨sharedArgs, hshared, hgives⟩ := exists_convertedArgs enc htable hnames hvalue hmem
    obtain ⟨uniqueKeyArgs, huniqueKey, hgives'⟩ :=
      exists_convertedArgs enc htable (length_names key) hwhere hkey
    refine ⟨fun _ => ?_, fun hfits => absurd ⟨hvalue, hwhere⟩ hfits⟩
    refine ⟨.update databaseName tableName (mapped.columns.map fun c => (c.name, c.valueToken))
      key.names, sharedArgs ++ uniqueKeyArgs, ?_, ?_, ?_, List.rel_append hgives hgives'⟩
    · rw [hstatement]
      unfold DMLUpdateQueryBuilder.buildQuery
      dsimp only
      rw [hshared]
      dsimp only
      rw [huniqueKey]
    · rw [placeholders_update, List.length_append, List.length_append,
        length_convertedArgs hshared, length_convertedArgs huniqueKey, hnames, length_names key]
    · rw [placeholders_update, hasks hnames]
      exact map_readName_iff.mpr hread

end Builders

end GhOst.Sql
