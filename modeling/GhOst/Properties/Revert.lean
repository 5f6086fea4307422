import GhOst.Properties.Convergence
import GhOst.Properties.SharedColumns

/-!
# Reverting a migration

`Revert` swaps the roles of the two tables: it applies to the old table what was written to the
migrated one since the cut-over, and it copies no rows. It pairs the columns with `getSharedColumns`
as `Migrate` does, but it has read no `ALTER` statement.
-/

namespace GhOst.Logic

open GhOst.Sql GhOst.Binlog Infra

variable {σ κ : Type} [LinearOrder κ]

namespace Migration

variable {m : Migration σ κ} {migrated ghost ghost' : List (Row σ)} {change : RowChange σ}
  {history changes : List (RowChange σ)} {s s' : State σ κ} {k : List κ}

/-! ## Catching up with the migrated table -/

/-- A table has the keys of the migrated one, and its rows where something was written. -/
structure CaughtUp (m : Migration σ κ) (changes : List (RowChange σ))
    (migrated ghost : List (Row σ)) : Prop where
  keys : ∀ k, (m.cell ghost k).isSome = (m.projectedCell migrated k).isSome
  written : ∀ change ∈ changes, ∀ row, change.written = some row →
    m.cell ghost (m.key row) = m.projectedCell migrated (m.key row)

theorem CaughtUp.follow (hm : m.CarriesOver) (hc : m.Content migrated)
    (hv : m.Valid migrated change) (hclean : m.CleanChange ghost change)
    (hf : m.follow ghost change = some ghost') (h : m.CaughtUp changes migrated ghost) :
    m.CaughtUp (changes ++ [change]) (m.perform migrated change) ghost' where
  keys k := by
    rcases hm.cell_follow hc hv hclean hf k with heq | ⟨hg, ⟨hp, -⟩ | hne⟩
    · rw [heq]
    · rw [hg, hp, h.keys k]
    · exact absurd (h.keys k) hne
  written c hmem row hw := by
    rcases hm.cell_follow hc hv hclean hf (m.key row) with heq | ⟨hg, ⟨hp, hne⟩ | hne⟩
    · exact heq
    · rw [hg, hp]
      rcases List.mem_append.mp hmem with hmem | hmem
      · exact h.written c hmem row hw
      · rw [List.mem_singleton.mp hmem] at hw
        exact absurd rfl (hne row hw)
    · exact absurd (h.keys _) hne

theorem CaughtUp.applyBatch (hm : m.CarriesOver) (hc : m.Content migrated)
    (hv : ∀ j change, history[j]? = some change →
      m.Valid (m.contentAt migrated history j) change) {a : Nat}
    (hget : ∀ i c, changes[i]? = some c → history[a + i]? = some c)
    (hst : ∀ q ∈ ghost, m.KeyStored q) (hb : m.applyBatch ghost changes = some ghost')
    (hcl : m.cleanBatch ghost changes = true)
    (h : m.CaughtUp (history.take a) (m.contentAt migrated history a) ghost) :
    (∀ q ∈ ghost', m.KeyStored q) ∧ m.CaughtUp (history.take (a + changes.length))
      (m.contentAt migrated history (a + changes.length)) ghost' := by
  refine hm.applyBatch_rule (Q := fun a ghost => (∀ q ∈ ghost, m.KeyStored q) ∧
      m.CaughtUp (history.take a) (m.contentAt migrated history a) ghost) hc hv And.left ?_
    hget hb hcl ⟨hst, h⟩
  rintro a change ghost ghost' hhead hc hv hclean hf ⟨hst, h⟩
  have hstep := h.follow hm hc hv hclean hf
  rw [← contentAt_succ hhead, ← Option.toList_some, ← hhead, ← List.take_add_one] at hstep
  exact ⟨follow_forall (fun h => hm.keyStored_project h) hst (hv.rows_admits hc) hf, hstep⟩

/-! ## A whole run -/

/-- Where `Revert` starts: nothing is left to copy. -/
def revertStart (migrated old : List (Row σ)) : State σ κ :=
  { original := migrated, ghost := old, rangeRead := true, hasNoFurtherRange := true }

/-- The two tables as the cut-over leaves them, with the same keys. -/
structure AtCutOver (m : Migration σ κ) (migrated old : List (Row σ)) : Prop where
  content : m.Content migrated
  stored : ∀ q ∈ old, m.KeyStored q
  keys : ∀ k, (m.cell old k).isSome = (lookup m.key migrated k).isSome

structure Reverting (m : Migration σ κ) (migrated : List (Row σ)) (s : State σ κ) : Prop where
  start : m.Content migrated
  original : s.original = m.contentAt migrated s.history s.history.length
  valid : ∀ j change, s.history[j]? = some change →
    m.Valid (m.contentAt migrated s.history j) change
  applied_le : s.applied ≤ s.delivered
  delivered_le : s.delivered ≤ s.history.length
  stored : ∀ q ∈ s.ghost, m.KeyStored q
  caughtUp : m.CaughtUp (s.history.take s.applied) (m.contentAt migrated s.history s.applied)
    s.ghost
  rangeRead : s.rangeRead = true
  noRange : s.hasNoFurtherRange = true
  noChunk : s.inChunk = false

theorem Reverting.step [DecidableEq σ] (hm : m.CarriesOver) (h : m.Reverting migrated s)
    {a : Action σ} (hclean : m.CleanStep s a) (hs : m.step s a = some s') :
    m.Reverting migrated s' := by
  cases a with
  | commit changes =>
    obtain ⟨original, hp, rfl⟩ := step_commit hs
    obtain ⟨heq, hvalid⟩ := performAll_history h.original h.valid hp
    have hle := Nat.le_trans h.applied_le h.delivered_le
    exact { h with
      original := heq
      valid := hvalid
      delivered_le := Nat.le_trans h.delivered_le (by rw [List.length_append]; omega)
      caughtUp := by
        rw [List.take_append_of_le_length hle, contentAt_append hle]
        exact h.caughtUp }
  | deliver =>
    obtain ⟨hlt, rfl⟩ := step_deliver hs
    exact { h with
      applied_le := Nat.le_succ_of_le h.applied_le
      delivered_le := hlt }
  | applyEvents n =>
    obtain ⟨hlt, ghost, hb, rfl⟩ := step_applyEvents hs
    have hlen := @length_batch_le _ _ s n
    obtain ⟨hst, hcaught⟩ := CaughtUp.applyBatch hm h.start h.valid
      (fun _ _ => getElem?_batch) h.stored hb hclean h.caughtUp
    exact { h with
      applied_le := by show s.applied + (s.batch n).length ≤ s.delivered; omega
      stored := hst
      caughtUp := hcaught }
  | readMigrationRangeValues =>
    have hread := (step_readMigrationRangeValues hs).1
    rw [h.rangeRead] at hread
    cases hread
  | calculateNextIterationRangeEndValues n =>
    exact absurd ⟨h.rangeRead, .inl h.noRange⟩ (not_rowCopyDone_of_calculate hs)
  | applyIterationInsertQuery =>
    have hchunk := (step_applyIterationInsertQuery hs).1
    rw [h.noChunk] at hchunk
    cases hchunk

theorem Reverting.of_reach [DecidableEq σ] {old : List (Row σ)} (hm : m.CarriesOver)
    (h : m.AtCutOver migrated old)
    (hr : Reach m.step m.CleanStep (revertStart migrated old) s) :
    m.Reverting migrated s := by
  induction hr with
  | init =>
    exact {
      start := h.content
      original := rfl
      valid := by simp [revertStart]
      applied_le := Nat.le_refl _
      delivered_le := Nat.le_refl _
      stored := h.stored
      caughtUp := {
        keys := fun k => by
          show (m.cell old k).isSome = ((lookup m.key migrated k).map m.project).isSome
          rw [h.keys k, Option.isSome_map]
        written := by simp [revertStart] }
      rangeRead := rfl
      noRange := rfl
      noChunk := rfl }
  | next _ hclean hs ih => exact ih.step hm hclean hs

theorem Reverting.current (h : m.Reverting migrated s) : m.Content s.original := by
  rw [h.original]
  exact h.start.contentAt h.valid _ (Nat.le_refl _)

theorem Reverting.cell_written (h : m.Reverting migrated s)
    (happlied : s.applied = s.history.length) (hchange : change ∈ s.history) {row : Row σ}
    (hw : change.written = some row) (hrow : row ∈ s.original) :
    m.cell s.ghost (m.key row) = some (m.project row) := by
  have hcaught := h.caughtUp
  rw [happlied, List.take_length, ← h.original] at hcaught
  rw [hcaught.written change hchange row hw]
  unfold projectedCell
  rw [(lookup_eq_some_iff h.current.keys).mpr ⟨hrow, rfl⟩, Option.map_some]

end Migration

/-! ## The two pairings -/

namespace Alteration

variable (alter : Alteration)

/-- The input of `getSharedColumns` in `Revert`. -/
def revertNames (maps : ColumnMaps) : ColumnNames where
  equalFold := alter.equalFold
  ghostColumns := alter.columns.map AlteredColumn.name
  originalVirtualColumns := (alter.ghost.filter GhostColumn.generated).map GhostColumn.name
  ghostVirtualColumns := (alter.columns.filter AlteredColumn.generated).map AlteredColumn.name
  droppedColumnsMap := maps.droppedColumnsMap
  columnRenameMap := maps.columnRenameMap

def revertColumns (flags : RenameFlags) : Except String (ColumnList × ColumnList) := do
  let maps ← revertMaps flags
  return getSharedColumns (alter.revertNames maps)
    (newColumnList (alter.ghost.map GhostColumn.name))

/-- Column names, each with its name in the other table. -/
def pairing (lists : ColumnList × ColumnList) : List (String × String) :=
  lists.1.names.zip lists.2.names

/-- On what `forward` carries, `backward` is its inverse. -/
def Inverse (forward backward : List (String × String)) : Prop :=
  ∀ p ∈ forward, (∃ q ∈ backward, alter.equalFold q.1 p.2 = true) ∧
    ∀ q ∈ backward, alter.equalFold q.1 p.2 = true → alter.equalFold q.2 p.1 = true

/-- The migration that `Revert` performs with the given pairing. -/
structure Reverts (m : Migration σ κ) (backward : List (String × String)) : Prop
    extends m.CarriesOver where
  tableColumns_eq : m.apl.migrationContext.originalTableColumns.names =
    alter.ghost.map GhostColumn.name
  pairs_eq : m.pairs.map (fun p => (p.1.name, p.2.name)) = backward

/-- However `Revert` runs, each row written since the cut-over has in the old table the values of
the columns that were carried forward. -/
def Restores (σ κ : Type) [LinearOrder κ] [DecidableEq σ]
    (forward backward : List (String × String)) : Prop :=
  ∀ (m : Migration σ κ) (migrated old : List (Row σ)) (s : State σ κ),
    alter.Reverts m backward → m.AtCutOver migrated old →
    Reach m.step m.CleanStep (Migration.revertStart migrated old) s →
    s.applied = s.history.length →
    ∀ change ∈ s.history, ∀ row ∈ s.original, change.written = some row →
    ∀ p ∈ forward, ∃ newName oldName v stored,
      alter.equalFold newName p.2 = true ∧ alter.equalFold oldName p.1 = true ∧
      row.lookup newName = some v ∧ m.cell s.ghost (m.key row) = some stored ∧
      stored.lookup oldName = some (m.srv.select newName oldName v)

/-- No column that is carried gets another name. -/
def NamesKept : Prop :=
  ∀ column ∈ alter.columns, ∀ newName, column.rename = some (column.name, newName) →
    column.generated = false → ¬ alter.GhostGenerates column.name →
      alter.equalFold column.name newName = true

variable {alter} {parser : AlterTableParser}

def forward (alter : Alteration) (parser : AlterTableParser) : List (String × String) :=
  (alter.taken parser).map fun column =>
    (column.name, (alter.names (maps parser)).mappedName column.name)

theorem forward_eq (hread : alter.ReadBy parser) :
    (alter.sharedColumns parser).map pairing = .ok (alter.forward parser) := by
  have hnames : ∀ names, (newColumnList names).names = names := newColumns_names
  rw [sharedColumns_eq hread]
  show Except.ok (pairing _) = _
  unfold pairing forward
  rw [hnames, hnames, List.zip_map']

/-- The columns that `Revert` takes to be shared, each under one name. -/
def backward (alter : Alteration) : List (String × String) :=
  (alter.ghost.filter fun ghost => (alter.revertNames {}).isSharedColumn ghost.name).map
    fun ghost => (ghost.name, ghost.name)

theorem backward_eq (flags : RenameFlags) :
    (alter.revertColumns flags).map pairing = .ok alter.backward := by
  have hnames : ∀ names, (newColumnList names).names = names := newColumns_names
  unfold revertColumns
  rw [revertMaps_eq]
  show Except.ok (pairing (getSharedColumns _ _)) = _
  unfold getSharedColumns pairing backward
  dsimp only
  rw [hnames, hnames, hnames, List.filter_map]
  rw [List.map_map, List.zip_map']
  congr 1

theorem isSharedColumn_revert {ghost : GhostColumn} (hg : ghost ∈ alter.ghost) :
    (alter.revertNames {}).isSharedColumn ghost.name = true ↔ ghost.generated = false ∧
      ∃ column ∈ alter.columns, column.generated = false ∧
        alter.equalFold ghost.name column.name = true := by
  have hin : ((alter.revertNames {}).ghostColumns.any fun name =>
      alter.equalFold ghost.name name || alter.equalFold "" name) = true ↔
      ∃ column ∈ alter.columns, alter.equalFold ghost.name column.name = true := by
    simp only [revertNames, List.any_map, List.any_eq_true, Function.comp_apply, Bool.or_eq_true]
    constructor
    · rintro ⟨column, hc, hold | hempty⟩
      · exact ⟨column, hc, hold⟩
      · rw [alter.columns_named column hc] at hempty
        cases hempty
    · rintro ⟨column, hc, hold⟩
      exact ⟨column, hc, .inl hold⟩
  have hmigrated : (alter.revertNames {}).originalVirtualColumns.any
      (alter.equalFold ghost.name) = true ↔ ghost.generated = true := by
    simp only [revertNames, List.any_map, List.any_filter, List.any_eq_true, Bool.and_eq_true,
      Function.comp_apply]
    constructor
    · rintro ⟨other, ho, hgen, hfold⟩
      exact eq_of_fold alter.ghost_distinct hg ho hfold ▸ hgen
    · intro hgen
      exact ⟨ghost, hg, hgen, alter.equivalence.refl _⟩
  have hold : (alter.revertNames {}).ghostVirtualColumns.any (alter.equalFold ghost.name) = true ↔
      ∃ column ∈ alter.columns, column.generated = true ∧
        alter.equalFold ghost.name column.name = true := by
    simp only [revertNames, List.any_map, List.any_filter, List.any_eq_true, Bool.and_eq_true,
      Function.comp_apply]
  unfold ColumnNames.isSharedColumn
  rw [Bool.and_eq_true, Bool.and_eq_true, Bool.and_eq_true, Bool.not_eq_true', Bool.not_eq_true',
    Bool.not_eq_true', ← Bool.not_eq_true (List.any (ColumnNames.ghostVirtualColumns _) _),
    ← Bool.not_eq_true (List.any (ColumnNames.originalVirtualColumns _) _)]
  constructor
  · rintro ⟨⟨⟨h, -⟩, hm⟩, ho⟩
    obtain ⟨column, hc, hfold⟩ := hin.mp h
    refine ⟨Bool.eq_false_iff.mpr fun hgen => hm (hmigrated.mpr hgen), column, hc, ?_, hfold⟩
    exact Bool.eq_false_iff.mpr fun hgen => ho (hold.mpr ⟨column, hc, hgen, hfold⟩)
  · rintro ⟨hgen, column, hc, hcgen, hfold⟩
    refine ⟨⟨⟨hin.mpr ⟨column, hc, hfold⟩, rfl⟩, fun h => ?_⟩, fun h => ?_⟩
    · rw [hmigrated.mp h] at hgen
      cases hgen
    · obtain ⟨other, ho, hogen, hofold⟩ := hold.mp h
      have hsame : alter.equalFold column.name other.name = true := by
        rw [← fold_congr hfold, hofold]
      rw [eq_of_fold alter.columns_distinct hc ho hsame, hogen] at hcgen
      cases hcgen

theorem mem_backward {p : String × String} : p ∈ alter.backward ↔
    ∃ ghost ∈ alter.ghost, p = (ghost.name, ghost.name) ∧ ghost.generated = false ∧
      ∃ column ∈ alter.columns, column.generated = false ∧
        alter.equalFold ghost.name column.name = true := by
  unfold backward
  rw [List.mem_map]
  constructor
  · rintro ⟨ghost, hg, rfl⟩
    rw [List.mem_filter] at hg
    exact ⟨ghost, hg.1, rfl, (isSharedColumn_revert hg.1).mp hg.2⟩
  · rintro ⟨ghost, hg, rfl, h⟩
    exact ⟨ghost, List.mem_filter.mpr ⟨hg, (isSharedColumn_revert hg).mpr h⟩, rfl⟩

theorem NamesKept.backward_of_forward (h : alter.NamesKept) (hread : alter.ReadBy parser)
    {p : String × String} (hp : p ∈ alter.forward parser) : alter.equalFold p.1 p.2 = true ∧
      ∃ q ∈ alter.backward, alter.equalFold q.1 p.2 = true := by
  obtain ⟨column, hmem, rfl⟩ := List.mem_map.mp hp
  obtain ⟨hc, hshared⟩ := List.mem_filter.mp hmem
  obtain ⟨hgen, -, hplain, hin⟩ := (isSharedColumn_iff hread hc).mp hshared
  have hsame : alter.equalFold column.name
      ((alter.names (maps parser)).mappedName column.name) = true := by
    by_cases hr : ∃ newName, column.rename = some (column.name, newName)
    · obtain ⟨newName, hr⟩ := hr
      rw [mappedName_eq hread hc hr]
      exact h column hc newName hr hgen hplain
    · rw [mappedName_of_no_rename hread hc fun newName hn => hr ⟨newName, hn⟩,
        alter.equivalence.refl]
  obtain ⟨ghost, hg, hfold⟩ : alter.GhostHas column.name := by
    rcases hin with hin | ⟨newName, hr, -⟩
    · exact hin
    · obtain ⟨ghost, hb, rfl⟩ := AlteredColumn.becomes_of_rename hr
      exact ⟨ghost, becomes_mem_ghost hc hb, h column hc _ hr hgen hplain⟩
  refine ⟨hsame, (ghost.name, ghost.name), mem_backward.mpr ⟨ghost, hg, rfl, ?_, column, hc, hgen,
    ?_⟩, ?_⟩
  · exact Bool.eq_false_iff.mpr fun hggen => hplain ⟨ghost, hg, hggen, hfold⟩
  · rw [fold_comm, hfold]
  · rw [← fold_congr hfold, hsame]

theorem inverse_iff (hread : alter.ReadBy parser) :
    alter.Inverse (alter.forward parser) alter.backward ↔ alter.NamesKept := by
  constructor
  · intro h column hc newName hr hgen hplain
    by_cases hne : column.name = newName
    · rw [← hne, alter.equivalence.refl]
    · obtain ⟨ghost, hb, -⟩ := AlteredColumn.becomes_of_rename hr
      have hshared := (isSharedColumn_iff hread hc).mpr
        ⟨hgen, AlteredColumn.drop_eq_none_of_becomes hb, hplain, .inr ⟨newName, hr, hne⟩⟩
      have hp : (column.name, newName) ∈ alter.forward parser :=
        List.mem_map.mpr ⟨column, List.mem_filter.mpr ⟨hc, hshared⟩,
          by rw [mappedName_eq hread hc hr]⟩
      obtain ⟨⟨q, hq, hnew⟩, hall⟩ := h _ hp
      have hold := hall q hq hnew
      obtain ⟨ghost, -, rfl, -⟩ := mem_backward.mp hq
      rw [← fold_congr hold, hnew]
  · intro h p hp
    obtain ⟨hsame, hexists⟩ := h.backward_of_forward hread hp
    refine ⟨hexists, fun q hq hnew => ?_⟩
    obtain ⟨ghost, -, rfl, -⟩ := mem_backward.mp hq
    rw [fold_comm, fold_congr hsame, fold_comm, hnew]

theorem NamesKept.restores [DecidableEq σ] (h : alter.NamesKept) (hread : alter.ReadBy parser) :
    alter.Restores σ κ (alter.forward parser) alter.backward := by
  intro m migrated old s hrev hcut hreach happlied change hchange row hrow hw p hp
  have hm := hrev.toCarriesOver
  have hrun := Migration.Reverting.of_reach hm hcut hreach
  obtain ⟨hsame, q, hq, hnew⟩ := h.backward_of_forward hread hp
  have hpairs := hrev.pairs_eq ▸ hq
  obtain ⟨pair, hpair, hname⟩ := List.mem_map.mp hpairs
  obtain ⟨ghost, -, rfl, -⟩ := mem_backward.mp hq
  rw [Prod.mk.injEq] at hname
  have hadmits := hrun.current.admits row hrow
  obtain ⟨v, hv, -⟩ := hadmits.lookup (hm.shared_mem hpair)
  have hstored := hm.lookup_project hadmits hpair hv
  rw [hname.1] at hv
  rw [hname.1, hname.2] at hstored
  refine ⟨ghost.name, ghost.name, v, m.project row, hnew, ?_, hv,
    hrun.cell_written happlied hchange hw hrow, hstored⟩
  rw [fold_comm, fold_congr hsame, fold_comm, hnew]

variable (alter)

/-- `Revert` brings back what was written since the cut-over exactly when no carried column was
given another name. -/
theorem revert_inverts_iff (parser : AlterTableParser) (hread : alter.ReadBy parser)
    (flags : RenameFlags) (σ κ : Type) [LinearOrder κ] [DecidableEq σ] :
    (∃ forward backward, (alter.sharedColumns parser).map pairing = .ok forward ∧
      (alter.revertColumns flags).map pairing = .ok backward ∧
      alter.Inverse forward backward ∧ alter.Restores σ κ forward backward) ↔
    alter.NamesKept := by
  rw [forward_eq hread, backward_eq]
  constructor
  · rintro ⟨forward, backward, hf, hb, h, -⟩
    rw [← Except.ok.inj hf, ← Except.ok.inj hb] at h
    exact (inverse_iff hread).mp h
  · intro h
    exact ⟨_, _, rfl, rfl, (inverse_iff hread).mpr h, h.restores hread⟩

/-- A table that is altered in nothing but its indexes. -/
def keepsColumns : Alteration :=
  small [{ name := "id", generated := false, fate := .kept "id" false },
    { name := "v", generated := false, fate := .kept "v" false }] [] (by decide +kernel)

theorem revert_inverts_kept :
    (∃ forward backward,
      (keepsColumns.sharedColumns (newParserFromAlterStatement "add index (v)")).map pairing =
        .ok forward ∧
      (keepsColumns.revertColumns {}).map pairing = .ok backward ∧
      keepsColumns.Inverse forward backward ∧ keepsColumns.Restores Int64 Int forward backward) ∧
    keepsColumns.Reverts (smallMigration []) [("id", "id"), ("v", "v")] ∧
    (smallMigration []).AtCutOver [smallRow 1 10] [smallRow 1 10] := by
  have hnone : ∀ column ∈ keepsColumns.columns, column.rename = none ∧ column.drop = none := by
    decide
  refine ⟨(revert_inverts_iff keepsColumns _ ⟨fun p => ?_, fun name => ?_, ?_⟩ {} _ _).mpr ?_,
    ⟨smallMigration_carriesOver [], rfl, rfl⟩, ⟨by decide, by decide⟩, ?_, fun _ => rfl⟩
  · have hread : (newParserFromAlterStatement "add index (v)").getNonTrivialRenames = [] := by
      decide +kernel
    rw [hread]
    refine iff_of_false List.not_mem_nil ?_
    rintro ⟨⟨column, hc, hr⟩, -⟩
    rw [(hnone column hc).1] at hr
    cases hr
  · have hread : (newParserFromAlterStatement "add index (v)").droppedColumns = [] := by
      decide +kernel
    rw [hread]
    refine iff_of_false List.not_mem_nil ?_
    rintro ⟨column, hc, hd⟩
    rw [(hnone column hc).2] at hd
    cases hd
  · decide +kernel
  · intro column hc newName hr
    rw [(hnone column hc).1] at hr
    cases hr
  · intro q hq
    rw [List.mem_singleton.mp hq]
    exact (smallMigration_carriesOver []).keyStored_of_stored ⟨smallRow 1 10, by decide, rfl⟩

/-! ## A renamed column -/

/-- What `Revert` prepares for the table of `renamesColumn`. -/
def revertContext : MigrationContext where
  databaseName := "test"
  originalTableName := "t"
  ghostTableName := "_t_del"
  originalTableColumns := newColumnList ["id", "b"]
  sharedColumns := newColumnList ["id"]
  mappedSharedColumns := newColumnList ["id"]
  uniqueKey := { name := "PRIMARY", columns := newColumnList ["id"] }

def revertApplier : Applier where
  migrationContext := revertContext
  dmlDeleteQueryBuilder :=
    { tableColumns := newColumnList ["id", "b"], uniqueKeyColumns := newColumnList ["id"],
      preparedStatement := .delete "test" "_t_del" ["id"] }
  dmlInsertQueryBuilder :=
    { tableColumns := newColumnList ["id", "b"], sharedColumns := newColumnList ["id"],
      preparedStatement := .insertIgnore "test" "_t_del" ["id"] [.plain] }
  dmlUpdateQueryBuilder :=
    { tableColumns := newColumnList ["id", "b"], sharedColumns := newColumnList ["id"],
      uniqueKeyColumns := newColumnList ["id"],
      preparedStatement := .update "test" "_t_del" [("id", .plain)] ["id"] }

def revertOfRename : Migration Int64 Int where
  enc := noEncodings
  apl := revertApplier
  srv := bigintServer
  ix := { uniqueKey := ["id"], further := [] }

/-- The row that was inserted after the cut-over comes to the old table without its value. -/
theorem renamed_column_not_reverted :
    (renamesColumn.sharedColumns (newParserFromAlterStatement "CHANGE a b INT")).map pairing =
      .ok [("id", "id"), ("a", "b")] ∧
    (renamesColumn.revertColumns {}).map pairing = .ok [("id", "id")] ∧
    ¬ renamesColumn.Inverse [("id", "id"), ("a", "b")] [("id", "id")] ∧
    prepareQueries revertContext = .ok revertApplier ∧
    ∃ s, Reachable revertOfRename.step (Migration.revertStart [] []) s ∧
      s.applied = s.history.length ∧ s.original = [[("id", 1), ("b", 7)]] ∧
      s.ghost = [[("id", 1)]] := by
  refine ⟨by decide +kernel, by decide +kernel, ?_, by decide, ?_⟩
  · intro h
    obtain ⟨⟨q, hq, hnew⟩, -⟩ := h ("a", "b") (by decide)
    rw [List.mem_singleton.mp hq] at hnew
    exact absurd hnew (by decide +kernel)
  · exact exists_reach [.commit [.insert [("id", 1), ("b", 7)]], .deliver, .applyEvents 1]
      (by decide)

end Alteration

end GhOst.Logic
