import GhOst.Logic.Inspect

/-!
# What the inspection says of the shared columns

The inspection writes to its lists by name. With distinct names that is the same as writing to each
column by itself: `typed` is what `applyColumnTypes` makes of a column, `convertedShared` and
`convertedMapped` what the loop over the pairs makes of the two columns of a pair.
-/

namespace GhOst.Logic

open GhOst.Sql

variable {infos : List ColumnInfo} {i : Nat} {c : Column} {mapped : ColumnList}

/-! ## Column types -/

/-- A column with what the rows of its name say. -/
def typed (infos : List ColumnInfo) (column : Column) : Column :=
  infos.foldl (fun c info => if info.columnName = c.name then info.apply c else c) column

theorem typed_name : ∀ (infos : List ColumnInfo) (column : Column),
    (typed infos column).name = column.name
  | [], _ => rfl
  | info :: infos, column => by
    show (typed infos (if info.columnName = column.name then info.apply column else column)).name
      = column.name
    rw [typed_name]
    split
    · rfl
    · rfl

theorem typed_of_not_mem : ∀ {infos : List ColumnInfo} {column : Column},
    (∀ info ∈ infos, info.columnName ≠ column.name) → typed infos column = column
  | [], _, _ => rfl
  | info :: infos, column, h => by
    show typed infos (if info.columnName = column.name then info.apply column else column) = column
    rw [if_neg (h info List.mem_cons_self)]
    exact typed_of_not_mem fun i hi => h i (List.mem_cons_of_mem _ hi)

theorem typed_of_mem {info : ColumnInfo} {column : Column}
    (hn : (infos.map ColumnInfo.columnName).Nodup) (hmem : info ∈ infos)
    (hname : info.columnName = column.name) : typed infos column = info.apply column := by
  induction infos with
  | nil => simp at hmem
  | cons first infos ih =>
    rw [List.map_cons, List.nodup_cons] at hn
    show typed infos (if first.columnName = column.name then first.apply column else column) = _
    rcases List.mem_cons.mp hmem with rfl | hmem
    · rw [if_pos hname]
      refine typed_of_not_mem fun i hi he => hn.1 ?_
      have he : i.columnName = column.name := he
      rw [hname, ← he]
      exact List.mem_map_of_mem hi
    · have hne : first.columnName ≠ column.name := fun he => hn.1 (by
        rw [he, ← hname]
        exact List.mem_map_of_mem hmem)
      rw [if_neg hne]
      exact ih hn.2 hmem

theorem map_if_name_eq_set {columns : List Column} (hn : (columns.map Column.name).Nodup)
    (hi : columns[i]? = some c) (f : Column → Column) :
    columns.map (fun c' => if c.name = c'.name then f c' else c') = columns.set i (f c) := by
  refine List.ext_getElem? fun j => ?_
  rw [List.getElem?_map, List.getElem?_set]
  obtain ⟨hlt, hget⟩ := List.getElem?_eq_some_iff.mp hi
  by_cases hj : i = j
  · subst hj
    rw [hi]
    simp [hlt]
  · rw [if_neg hj]
    cases hc : columns[j]? with
    | none => rfl
    | some c' =>
      have hne : c.name ≠ c'.name := by
        intro he
        refine hj ((List.getElem?_inj (by simpa using hlt) hn).mp ?_)
        rw [List.getElem?_map, List.getElem?_map, hi, hc, Option.map_some, Option.map_some, he]
      simp [hne]

/-- **`applyColumnTypes` types each column by itself.** -/
theorem applyColumnTypes_eq : ∀ {infos : List ColumnInfo} {cl : ColumnList}, cl.WellFormed →
    applyColumnTypes infos cl = .ok { cl with columns := cl.columns.map (typed infos) }
  | [], cl, _ => by
    show Except.ok cl = _
    rw [show typed [] = id from rfl, List.map_id]
  | info :: infos, cl, h => by
    rw [applyColumnTypes]
    cases hl : cl.ordinals.lookup info.columnName with
    | none =>
      -- no column of that name
      have hnone : ∀ c ∈ cl.columns, info.columnName ≠ c.name := by
        intro c hc he
        have := (h.lookup_isSome info.columnName).mpr (he ▸ List.mem_map_of_mem hc)
        simp [hl] at this
      simp only []
      rw [applyColumnTypes_eq h]
      congr 2
      refine List.map_congr_left fun c hc => ?_
      show _ = typed infos (if info.columnName = c.name then info.apply c else c)
      rw [if_neg (hnone c hc)]
    | some i =>
      have hi := (h.ordinals info.columnName i).mp hl
      unfold ColumnList.names at hi
      rw [List.getElem?_map, Option.map_eq_some_iff] at hi
      obtain ⟨c, hc, hname⟩ := hi
      simp only []
      rw [← hname, h.setColumn_eq hc]
      simp only []
      have hset : ColumnList.WellFormed { cl with columns := cl.columns.set i (info.apply c) } :=
        h.set hc rfl
      rw [applyColumnTypes_eq hset]
      congr 2
      rw [← map_if_name_eq_set h.nodup hc, List.map_map, hname]
      rfl

theorem typedList_names (cl : ColumnList) (infos : List ColumnInfo) :
    ColumnList.names { cl with columns := cl.columns.map (typed infos) } = cl.names := by
  unfold ColumnList.names
  rw [List.map_map]
  exact List.map_congr_left fun c _ => typed_name infos c

theorem typedList_wellFormed {cl : ColumnList} (h : cl.WellFormed) (infos : List ColumnInfo) :
    ColumnList.WellFormed { cl with columns := cl.columns.map (typed infos) } :=
  h.congr (typedList_names cl infos) rfl

/-! ## Conversions -/

def convertedShared (column mappedColumn : Column) : Column :=
  if needsCharsetConversion column mappedColumn then
    setCharsetConversion column.charset mappedColumn.charset column
  else column

/-- What the loop makes of the column that a shared column becomes. -/
def convertedMapped (applierTimeZone : String) (column mappedColumn : Column) : Column :=
  let mapped :=
    if needsTimezoneConversion column mappedColumn then
      setConvertDatetimeToTimestamp applierTimeZone mappedColumn
    else mappedColumn
  if needsEnumToTextConversion column mappedColumn then
    setEnumToTextConversion column.enumValues mapped
  else mapped

theorem convertedShared_name (column mappedColumn : Column) :
    (convertedShared column mappedColumn).name = column.name := by
  unfold convertedShared
  split
  · rfl
  · rfl

theorem convertedMapped_name (tz : String) (column mappedColumn : Column) :
    (convertedMapped tz column mappedColumn).name = mappedColumn.name := by
  unfold convertedMapped
  dsimp only
  split <;> split <;> rfl

theorem setIf_eq {cl : ColumnList} (h : cl.WellFormed) (hi : cl.columns[i]? = some c)
    (condition : Bool) (name : String) (f : Column → Column)
    (hname : condition = true → c.name = name) :
    setIf condition cl name f
      = .ok { cl with columns := cl.columns.set i (if condition then f c else c) } := by
  unfold setIf
  by_cases hc : condition = true
  · rw [if_pos hc, if_pos hc, ← hname hc, h.setColumn_eq hi]
  · obtain ⟨hlt, hget⟩ := List.getElem?_eq_some_iff.mp hi
    rw [if_neg hc, if_neg hc, ← hget, List.set_getElem_self]

theorem setConversions_succ {tz : String} {n : Nat} {shared : ColumnList} (hs : shared.WellFormed)
    (hm : mapped.WellFormed) {c' : Column} (hc : shared.columns[i]? = some c)
    (hc' : mapped.columns[i]? = some c') :
    setConversions tz (n + 1) i shared mapped
      = setConversions tz n (i + 1)
          { shared with columns := shared.columns.set i (convertedShared c c') }
          { mapped with columns := mapped.columns.set i (convertedMapped tz c c') } := by
  obtain ⟨hlt, _⟩ := List.getElem?_eq_some_iff.mp hc'
  rw [setConversions, hc, hc']
  simp only []
  rw [setIf_eq hm hc' (needsTimezoneConversion c c') c.name _ fun h => by
    unfold needsTimezoneConversion at h
    exact (of_decide_eq_true h).1.symm]
  -- the second setter finds the column as the first one has left it
  set mappedColumn := if needsTimezoneConversion c c' then
    setConvertDatetimeToTimestamp tz c' else c' with hmapped
  have hname : mappedColumn.name = c'.name := by
    rw [hmapped]
    split
    · rfl
    · rfl
  have hset : ColumnList.WellFormed { mapped with columns := mapped.columns.set i mappedColumn } :=
    hm.set hc' hname
  have hget : (mapped.columns.set i mappedColumn)[i]? = some mappedColumn := by
    rw [List.getElem?_set_self hlt]
  show (setIf _ _ _ _ >>= _) = _
  rw [setIf_eq hset hget (needsEnumToTextConversion c c') c.name _ fun h => by
    unfold needsEnumToTextConversion at h
    exact hname.trans (of_decide_eq_true h).1.symm]
  show (setIf _ _ _ _ >>= _) = _
  rw [setIf_eq hs hc (needsCharsetConversion c c') c.name _ fun _ => rfl]
  simp only [List.set_set]
  rfl

/-- **The loop converts each pair by itself.** -/
theorem setConversions_eq {tz : String} : ∀ {n i : Nat} {shared mapped : ColumnList},
    shared.WellFormed → mapped.WellFormed → shared.columns.length = i + n →
    mapped.columns.length = i + n →
    setConversions tz n i shared mapped
      = .ok
        ({ shared with
            columns := shared.columns.take i ++
              List.zipWith convertedShared (shared.columns.drop i) (mapped.columns.drop i) },
          { mapped with
            columns := mapped.columns.take i ++
              List.zipWith (convertedMapped tz) (shared.columns.drop i) (mapped.columns.drop i) })
  | 0, i, shared, mapped, _, _, hls, hlm => by
    rw [setConversions, List.drop_of_length_le (by omega), List.drop_of_length_le (by omega),
      List.take_of_length_le (by omega), List.take_of_length_le (by omega)]
    simp
  | n + 1, i, shared, mapped, hs, hm, hls, hlm => by
    have hlt : i < shared.columns.length := by omega
    have hlt' : i < mapped.columns.length := by omega
    have hc := List.getElem?_eq_getElem hlt
    have hc' := List.getElem?_eq_getElem hlt'
    rw [setConversions_succ hs hm hc hc', setConversions_eq
      (hs.set hc (convertedShared_name _ _)) (hm.set hc' (convertedMapped_name tz _ _))
      (by rw [List.length_set]; omega) (by rw [List.length_set]; omega)]
    simp only [List.drop_set_of_lt (Nat.lt_succ_self i), List.drop_eq_getElem_cons hlt,
      List.drop_eq_getElem_cons hlt', List.zipWith_cons_cons]
    rw [List.take_add_one, List.take_add_one]
    simp [List.take_set_of_le, hlt, hlt']

/-! ## The migration key -/

theorem readColumnType_cases (columnType : String) :
    (∀ type, readColumnType columnType type = type) ∨
      ∃ read, ∀ type, readColumnType columnType type = read := by
  unfold readColumnType
  split_ifs
  iterate 7 exact .inr ⟨_, fun _ => rfl⟩
  exact .inl fun _ => rfl

theorem ColumnInfo.apply_apply (info : ColumnInfo) (column : Column) :
    info.apply (info.apply column) = info.apply column := by
  have htype : readColumnType info.columnType (readColumnType info.columnType column.type) =
      readColumnType info.columnType column.type := by
    -- the text alone decides whether it says anything
    rcases readColumnType_cases info.columnType with h | ⟨type, h⟩
    · rw [h, h]
    · rw [h, h]
  unfold ColumnInfo.apply
  simp only [htype, Bool.or_assoc, Bool.or_self, Column.mk.injEq, true_and, and_true]
  refine ⟨?_, ?_, ?_⟩ <;> split_ifs <;> rfl

theorem typed_typed (hn : (infos.map ColumnInfo.columnName).Nodup) (column : Column) :
    typed infos (typed infos column) = typed infos column := by
  by_cases hmem : ∃ info ∈ infos, info.columnName = column.name
  · obtain ⟨info, hinfo, hname⟩ := hmem
    have hagain : info.columnName = (info.apply column).name := hname
    rw [typed_of_mem hn hinfo hname, typed_of_mem hn hinfo hagain, info.apply_apply]
  · have hnone : ∀ info ∈ infos, info.columnName ≠ column.name := fun info hinfo hname =>
      hmem ⟨info, hinfo, hname⟩
    rw [typed_of_not_mem hnone, typed_of_not_mem hnone]

theorem chooseUniqueKey_ok {chosen : UniqueKey} :
    ∀ {keys : List UniqueKey}, chooseUniqueKey infos keys = .ok (some chosen) →
      ∃ key ∈ keys, applyColumnTypes infos key.columns = .ok chosen.columns
  | [], h => by simp [chooseUniqueKey] at h
  | key :: keys, h => by
    rw [chooseUniqueKey] at h
    cases hcolumns : applyColumnTypes infos key.columns with
    | error f => simp [hcolumns] at h
    | ok columns =>
      simp only [hcolumns] at h
      split at h
      · rw [Except.ok.injEq, Option.some.injEq] at h
        exact ⟨key, List.mem_cons_self, by rw [hcolumns, ← h]⟩
      · obtain ⟨key', hkey', happly⟩ := chooseUniqueKey_ok h
        exact ⟨key', List.mem_cons_of_mem _ hkey', happly⟩

theorem mapped_of_checkKeyTimezone {isp : Inspection} {key : UniqueKey} :
    ∀ {columns : List Column}, checkKeyTimezone isp mapped key columns = .ok () →
      ∀ c ∈ columns, isp.ghostTableVirtualColumns.getColumn c.name = .ok none →
        (mapped.ordinals.lookup c.name).isSome = true
  | [], _, c, hc, _ => absurd hc List.not_mem_nil
  | column :: columns, h, c, hc, hvirtual => by
    rw [checkKeyTimezone] at h
    obtain ⟨virtual, hread, h⟩ := bind_eq_ok_iff.mp h
    have hread := orFault_ok hread
    rcases List.mem_cons.mp hc with rfl | hrest
    · rw [hvirtual] at hread
      cases hread
      rw [if_neg (by simp)] at h
      obtain ⟨found, hfound, h⟩ := bind_eq_ok_iff.mp h
      have hfound := orFault_ok hfound
      unfold ColumnList.getColumn at hfound
      cases hlookup : mapped.ordinals.lookup c.name with
      | some i => rfl
      | none =>
        simp only [hlookup] at hfound
        cases hfound
        simp at h
    · have hcheck : checkKeyTimezone isp mapped key columns = .ok () → _ := fun h =>
        mapped_of_checkKeyTimezone h c hrest hvirtual
      apply hcheck
      split at h
      · exact h
      · obtain ⟨found, -, h⟩ := bind_eq_ok_iff.mp h
        cases found with
        | none => simp at h
        | some mappedColumn =>
          dsimp only at h
          split at h
          · simp at h
          · exact h

/-! ## The shared columns -/

def Inspection.sharedNames (isp : Inspection) : List String :=
  isp.originalTableColumns.names.filter isp.columnNames.isSharedColumn

/-- A shared column and the column it becomes, as the inspection describes them. -/
def Inspection.sharedPair (isp : Inspection) (name : String) : Column × Column :=
  let column := typed isp.originalColumnInfos { name }
  let mappedColumn := typed isp.ghostColumnInfos { name := isp.columnNames.mappedName name }
  (convertedShared column mappedColumn, convertedMapped isp.applierTimeZone column mappedColumn)

/-- **The shared columns that an inspection gives**, with distinct names in both tables. -/
theorem inspectSharedColumns_eq {isp : Inspection} (hn : isp.originalTableColumns.names.Nodup)
    (hmapped : (isp.sharedNames.map isp.columnNames.mappedName).Nodup) {shared : ColumnList}
    (h : inspectSharedColumns isp = .ok (shared, mapped)) :
    shared.columns = isp.sharedNames.map (fun n => (isp.sharedPair n).1) ∧
      mapped.columns = isp.sharedNames.map (fun n => (isp.sharedPair n).2) ∧
      mapped.ordinals
        = (newColumnList (isp.sharedNames.map isp.columnNames.mappedName)).ordinals := by
  have hs : (newColumnList isp.sharedNames).WellFormed :=
    newColumnList_wellFormed (hn.filter _)
  have hm : (newColumnList (isp.sharedNames.map isp.columnNames.mappedName)).WellFormed :=
    newColumnList_wellFormed hmapped
  have hlen : (newColumnList isp.sharedNames).columns.length
      = (newColumnList (isp.sharedNames.map isp.columnNames.mappedName)).columns.length := by
    simp [newColumnList, newColumns]
  have hrun : inspectSharedColumns isp = setConversions isp.applierTimeZone
      (newColumnList isp.sharedNames).columns.length 0
      { newColumnList isp.sharedNames with
        columns := (newColumnList isp.sharedNames).columns.map (typed isp.originalColumnInfos) }
      { newColumnList (isp.sharedNames.map isp.columnNames.mappedName) with
        columns := (newColumnList (isp.sharedNames.map isp.columnNames.mappedName)).columns.map
          (typed isp.ghostColumnInfos) } := by
    show (applyColumnTypes isp.originalColumnInfos (newColumnList isp.sharedNames) >>= _) = _
    rw [applyColumnTypes_eq hs]
    show (applyColumnTypes isp.ghostColumnInfos
      (newColumnList (isp.sharedNames.map isp.columnNames.mappedName)) >>= _) = _
    rw [applyColumnTypes_eq hm, ← List.length_map (typed isp.originalColumnInfos)]
    rfl
  rw [hrun, setConversions_eq (typedList_wellFormed hs _)
    (typedList_wellFormed hm _) (by simp) (by simpa using hlen.symm),
    Except.ok.injEq, Prod.mk.injEq] at h
  rw [← h.1, ← h.2]
  simp [newColumnList, newColumns, List.zipWith_map, Function.comp_def, Inspection.sharedPair]

end GhOst.Logic
