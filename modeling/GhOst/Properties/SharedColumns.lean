import Mathlib.Data.List.Pairwise
import GhOst.Infra.Keyed
import GhOst.Logic.AlterStatement
import GhOst.Properties.AlterRead

/-!
# Which columns are shared

An `Alteration` is what one valid `ALTER` does to the columns of a table: each column is dropped,
kept or renamed, and columns are added. Column names are compared without case. The statement may
spell a name in another case than the table does. What gh-ost knows of it is what its parser reads
off the text of the statement.
-/

namespace GhOst.Logic

open GhOst.Sql

/-- `DROP spelled`, nothing (or a change of the definition), `CHANGE spelled newName`. -/
inductive Fate where
  | dropped (spelled : String)
  | kept (ghostName : String) (generated : Bool)
  | renamed (spelled newName : String) (generated : Bool)
deriving DecidableEq, Repr

structure GhostColumn where
  name : String
  generated : Bool
deriving DecidableEq, Repr

structure AlteredColumn where
  name : String
  generated : Bool
  fate : Fate
deriving DecidableEq, Repr

namespace AlteredColumn

variable {column : AlteredColumn} {spelled : String}

/-- The ghost column that a column of the original becomes. -/
def becomes (column : AlteredColumn) : Option GhostColumn :=
  match column.fate with
  | .dropped _ => none
  | .kept name generated => some { name, generated }
  | .renamed _ name generated => some { name, generated }

/-- The name by which the statement, or a table that it leaves alone, calls the column. -/
def spelling (column : AlteredColumn) : String :=
  match column.fate with
  | .dropped spelled => spelled
  | .kept ghostName _ => ghostName
  | .renamed spelled _ _ => spelled

/-- The column is neither dropped nor generated on either side. -/
def carried (column : AlteredColumn) : Bool :=
  !column.generated && column.becomes.any fun ghost => !ghost.generated

def drop (column : AlteredColumn) : Option String :=
  match column.fate with
  | .dropped spelled => some spelled
  | _ => none

def rename (column : AlteredColumn) : Option (String × String) :=
  match column.fate with
  | .renamed spelled newName _ => some (spelled, newName)
  | _ => none

theorem spelling_of_drop (h : column.drop = some spelled) : column.spelling = spelled := by
  unfold drop at h
  unfold spelling
  split at h <;> simp_all

theorem spelling_of_rename {newName : String} (h : column.rename = some (spelled, newName)) :
    column.spelling = spelled := by
  unfold rename at h
  unfold spelling
  split at h <;> simp_all

theorem becomes_of_rename {newName : String} (h : column.rename = some (spelled, newName)) :
    ∃ ghost, column.becomes = some ghost ∧ ghost.name = newName := by
  unfold rename at h
  unfold becomes
  split at h <;> simp_all

theorem drop_eq_none_of_becomes {ghost : GhostColumn} (h : column.becomes = some ghost) :
    column.drop = none := by
  unfold becomes at h
  unfold drop
  split at h <;> simp_all

end AlteredColumn

structure Alteration where
  equalFold : String → String → Bool
  equivalence : Equivalence fun a b => equalFold a b = true
  columns : List AlteredColumn
  added : List GhostColumn
  /-- The columns of the ghost, in any order (`FIRST`, `AFTER`). -/
  ghost : List GhostColumn
  ghost_perm : ghost.Perm (columns.filterMap AlteredColumn.becomes ++ added)
  columns_distinct : columns.Pairwise fun a b => equalFold a.name b.name = false
  ghost_distinct : ghost.Pairwise fun a b => equalFold a.name b.name = false
  spelling_eq : ∀ column ∈ columns, equalFold column.spelling column.name = true
  columns_named : ∀ column ∈ columns, equalFold "" column.name = false
  ghost_named : ∀ column ∈ ghost, equalFold "" column.name = false

namespace Alteration

variable (alter : Alteration)

/-- What the parser has found is what the statement does. -/
structure ReadBy (parser : AlterTableParser) : Prop where
  renames : ∀ p, p ∈ parser.getNonTrivialRenames ↔
    (∃ column ∈ alter.columns, column.rename = some p) ∧ p.1 ≠ p.2
  dropped : ∀ name, name ∈ parser.droppedColumns ↔ ∃ column ∈ alter.columns, column.drop = some name
  renameTable : parser.isRenameTable = false

/-- A text of the statement that misleads neither the splitter nor the expressions. -/
structure Text where
  statement : String
  items : List AlterRead.Item
  bears : AlterRead.Bears statement.toList (AlterRead.optionsOf items)
  split : AlterSplit.Faithful (items.map AlterRead.Item.text)
  distinct : (((items.map AlterRead.Item.clause).filterMap
    AlterRead.AlterClause.renamed).map Prod.fst).Nodup
  understood : ∀ item ∈ items, item.clause.Understood
  renames : ∀ p : String × String, p.1 ≠ p.2 →
    ((∃ column ∈ alter.columns, column.rename = some p) ↔
      ∃ c ∈ items.map AlterRead.Item.clause, c.renamed = some p)
  drops : ∀ name, (∃ column ∈ alter.columns, column.drop = some name) ↔
    ∃ c ∈ items.map AlterRead.Item.clause, c.dropped = some name
  keepsTable : ∀ c ∈ items.map AlterRead.Item.clause, c.renamesTable = false

/-- **The parser reads such a text rightly.** -/
theorem Text.readBy {alter : Alteration} (text : alter.Text) :
    alter.ReadBy (newParserFromAlterStatement text.statement) := by
  obtain ⟨schema, table, hparsed⟩ := text.bears.parsed
  have hreads := AlterRead.reads_of_parsed hparsed text.split text.distinct text.understood
  refine ⟨fun p => ?_, fun name => ?_, ?_⟩
  · rw [and_comm]
    refine (hreads.renames p.1 p.2).trans (and_congr_right fun hne => ?_)
    exact (text.renames p hne).symm
  · exact (hreads.dropped name).trans (text.drops name).symm
  · refine Bool.eq_false_iff.mpr fun h => ?_
    obtain ⟨c, hc, hrenames⟩ := hreads.renameTable.mp h
    rw [text.keepsTable c hc] at hrenames
    cases hrenames

/-- The input of `getSharedColumns` when the context has the given maps. -/
def names (maps : ColumnMaps) : ColumnNames where
  equalFold := alter.equalFold
  ghostColumns := alter.ghost.map GhostColumn.name
  originalVirtualColumns := (alter.columns.filter AlteredColumn.generated).map AlteredColumn.name
  ghostVirtualColumns := (alter.ghost.filter GhostColumn.generated).map GhostColumn.name
  droppedColumnsMap := maps.droppedColumnsMap
  columnRenameMap := maps.columnRenameMap

def originalColumns : ColumnList := newColumnList (alter.columns.map AlteredColumn.name)

def maps (parser : AlterTableParser) : ColumnMaps where
  columnRenameMap := parser.getNonTrivialRenames
  droppedColumnsMap := parser.droppedColumns

/-- The two lists of a migration whose renames are approved. -/
def sharedColumns (parser : AlterTableParser) : Except String (ColumnList × ColumnList) := do
  let maps ← migrateMaps { approveRenamedColumns := true } parser
  return getSharedColumns (alter.names maps) alter.originalColumns

/-- Each carried column, and no other, is paired with the column it becomes. -/
structure Paired (shared mapped : List String) : Prop where
  carried : shared = (alter.columns.filter AlteredColumn.carried).map AlteredColumn.name
  becomes : List.Forall₂
    (fun column name =>
      ∃ ghost, column.becomes = some ghost ∧ alter.equalFold ghost.name name = true)
    (alter.columns.filter AlteredColumn.carried) mapped
  length : mapped.length = shared.length
  distinct : mapped.Pairwise fun a b => alter.equalFold a b = false
  existing : ∀ name ∈ mapped, ∃ ghost ∈ alter.ghost,
    ghost.generated = false ∧ alter.equalFold ghost.name name = true

def GhostHas (name : String) : Prop :=
  ∃ ghost ∈ alter.ghost, alter.equalFold name ghost.name = true

def GhostGenerates (name : String) : Prop :=
  ∃ ghost ∈ alter.ghost, ghost.generated = true ∧ alter.equalFold name ghost.name = true

/-- The old name of a renamed column does not mislead `getSharedColumns`, by its spelling or by what
is generated under it. -/
def Plain (column : AlteredColumn) : Prop :=
  match column.fate with
  | .renamed spelled newName generated =>
    column.generated = true ∨ alter.equalFold column.name newName = true ∨
      if generated then
        alter.GhostGenerates column.name ∨ spelled ≠ column.name ∧ ¬ alter.GhostHas column.name
      else spelled = column.name ∧ ¬ alter.GhostGenerates column.name
  | _ => True

/-! ## Names without case -/

section Names

variable {alter} {parser : AlterTableParser} {column other : AlteredColumn}

theorem fold_comm (a b : String) : alter.equalFold a b = alter.equalFold b a :=
  Bool.eq_iff_iff.mpr ⟨alter.equivalence.symm, alter.equivalence.symm⟩

theorem fold_congr {a b : String} (h : alter.equalFold a b = true) (d : String) :
    alter.equalFold a d = alter.equalFold b d :=
  Bool.eq_iff_iff.mpr
    ⟨alter.equivalence.trans (alter.equivalence.symm h), alter.equivalence.trans h⟩

theorem eq_of_fold {A : Type*} {l : List A} {name : A → String} {a b : A}
    (hl : l.Pairwise fun a b => alter.equalFold (name a) (name b) = false)
    (ha : a ∈ l) (hb : b ∈ l) (h : alter.equalFold (name a) (name b) = true) : a = b := by
  have hsymm : Std.Symm fun a b => alter.equalFold (name a) (name b) = false :=
    ⟨fun a b h => by rw [fold_comm, h]⟩
  by_contra hne
  have hfalse := hl.forall ha hb hne
  rw [h] at hfalse
  cases hfalse

theorem eq_of_spelling (hc : column ∈ alter.columns) (ho : other ∈ alter.columns)
    (h : alter.equalFold column.name other.spelling = true) : column = other :=
  eq_of_fold alter.columns_distinct hc ho (alter.equivalence.trans h (alter.spelling_eq other ho))

theorem becomes_mem_ghost (hc : column ∈ alter.columns) {ghost : GhostColumn}
    (h : column.becomes = some ghost) : ghost ∈ alter.ghost :=
  alter.ghost_perm.mem_iff.mpr
    (List.mem_append_left _ (List.mem_filterMap.mpr ⟨column, hc, h⟩))

theorem becomes_distinct : alter.columns.Pairwise fun a b =>
    ∀ g, a.becomes = some g → ∀ g', b.becomes = some g' →
      alter.equalFold g.name g'.name = false := by
  have hsymm : ∀ {a b : GhostColumn}, alter.equalFold a.name b.name = false →
      alter.equalFold b.name a.name = false := fun h => by rw [fold_comm, h]
  have h := (alter.ghost_perm.pairwise_iff hsymm).mp alter.ghost_distinct
  exact List.pairwise_filterMap.mp (List.pairwise_append.mp h).1

/-! ## What is known of a column of the original -/

theorem any_dropped (hread : alter.ReadBy parser) (hc : column ∈ alter.columns) :
    parser.droppedColumns.any (alter.equalFold column.name) = column.drop.isSome := by
  rw [Bool.eq_iff_iff, List.any_eq_true, Option.isSome_iff_exists]
  constructor
  · rintro ⟨spelled, hmem, hfold⟩
    obtain ⟨other, ho, hdrop⟩ := (hread.dropped spelled).mp hmem
    rw [← AlteredColumn.spelling_of_drop hdrop] at hfold
    exact ⟨spelled, eq_of_spelling hc ho hfold ▸ hdrop⟩
  · rintro ⟨spelled, hdrop⟩
    refine ⟨spelled, (hread.dropped spelled).mpr ⟨column, hc, hdrop⟩, ?_⟩
    rw [fold_comm, ← AlteredColumn.spelling_of_drop hdrop, alter.spelling_eq column hc]

theorem any_originalVirtual (hc : column ∈ alter.columns) (maps : ColumnMaps) :
    (alter.names maps).originalVirtualColumns.any (alter.equalFold column.name) =
      column.generated := by
  unfold names
  rw [Bool.eq_iff_iff, List.any_map, List.any_filter, List.any_eq_true]
  constructor
  · rintro ⟨other, ho, h⟩
    rw [Bool.and_eq_true, Function.comp_apply] at h
    exact eq_of_fold alter.columns_distinct hc ho h.2 ▸ h.1
  · intro h
    refine ⟨column, hc, ?_⟩
    rw [h, Function.comp_apply, alter.equivalence.refl, Bool.and_self]

theorem any_ghostVirtual (name : String) (maps : ColumnMaps) :
    (alter.names maps).ghostVirtualColumns.any (alter.equalFold name) = true ↔
      alter.GhostGenerates name := by
  unfold names GhostGenerates
  simp only [List.any_map, List.any_filter, List.any_eq_true, Bool.and_eq_true,
    Function.comp_apply]

theorem lookup_renames (hread : alter.ReadBy parser) (hc : column ∈ alter.columns)
    {newName : String} :
    parser.getNonTrivialRenames.lookup column.name = some newName ↔
      column.rename = some (column.name, newName) ∧ column.name ≠ newName := by
  have honly : ∀ {name : String}, (column.name, name) ∈ parser.getNonTrivialRenames →
      column.rename = some (column.name, name) ∧ column.name ≠ name := by
    intro name h
    obtain ⟨⟨other, ho, hr⟩, hne⟩ := (hread.renames _).mp h
    have hfold : alter.equalFold column.name other.spelling = true := by
      rw [AlteredColumn.spelling_of_rename hr, alter.equivalence.refl]
    exact ⟨eq_of_spelling hc ho hfold ▸ hr, hne⟩
  constructor
  · intro h
    exact honly (Infra.mem_of_assoc_lookup h)
  · rintro ⟨hr, hne⟩
    have h : (column.name, newName) ∈ parser.getNonTrivialRenames :=
      (hread.renames _).mpr ⟨⟨column, hc, hr⟩, hne⟩
    obtain ⟨name, hl⟩ := Infra.assoc_lookup_isSome (List.mem_map_of_mem (f := Prod.fst) h)
    have hr' := (honly (Infra.mem_of_assoc_lookup hl)).1
    rw [hr, Option.some.injEq, Prod.mk.injEq] at hr'
    rw [hl, hr'.2]

theorem isSharedColumn_iff (hread : alter.ReadBy parser) (hc : column ∈ alter.columns) :
    (alter.names (maps parser)).isSharedColumn column.name = true ↔
      column.generated = false ∧ column.drop = none ∧ ¬ alter.GhostGenerates column.name ∧
        (alter.GhostHas column.name ∨
          ∃ newName, column.rename = some (column.name, newName) ∧ column.name ≠ newName) := by
  have hin : ((alter.names (maps parser)).ghostColumns.any fun ghostColumn =>
      alter.equalFold column.name ghostColumn || alter.equalFold
        ((parser.getNonTrivialRenames.lookup column.name).getD "") ghostColumn) = true ↔
      alter.GhostHas column.name ∨
        ∃ newName, column.rename = some (column.name, newName) ∧ column.name ≠ newName := by
    simp only [names, List.any_map, List.any_eq_true, Function.comp_apply, Bool.or_eq_true]
    constructor
    · rintro ⟨ghost, hg, hold | hnew⟩
      · exact .inl ⟨ghost, hg, hold⟩
      · cases hl : parser.getNonTrivialRenames.lookup column.name with
        | none =>
          rw [hl, Option.getD_none, alter.ghost_named ghost hg] at hnew
          cases hnew
        | some newName => exact .inr ⟨newName, (lookup_renames hread hc).mp hl⟩
    · rintro (⟨ghost, hg, hold⟩ | ⟨newName, hr, hne⟩)
      · exact ⟨ghost, hg, .inl hold⟩
      · obtain ⟨ghost, hb, rfl⟩ := AlteredColumn.becomes_of_rename hr
        refine ⟨ghost, becomes_mem_ghost hc hb, .inr ?_⟩
        rw [(lookup_renames hread hc).mpr ⟨hr, hne⟩, Option.getD_some, alter.equivalence.refl]
  unfold ColumnNames.isSharedColumn
  rw [Bool.and_eq_true, Bool.and_eq_true, Bool.and_eq_true]
  show ((_ ∧ (!parser.droppedColumns.any (alter.equalFold column.name)) = true) ∧
    (!(alter.names (maps parser)).originalVirtualColumns.any
      (alter.equalFold column.name)) = true) ∧
    (!(alter.names (maps parser)).ghostVirtualColumns.any (alter.equalFold column.name)) = true ↔ _
  rw [any_dropped hread hc, any_originalVirtual hc, Bool.not_eq_true', Bool.not_eq_true',
    Option.isSome_eq_false_iff, Option.isNone_iff_eq_none, Bool.not_eq_true',
    ← Bool.not_eq_true (List.any _ _), any_ghostVirtual]
  exact ⟨fun ⟨⟨⟨hin', hd⟩, ho⟩, hg⟩ => ⟨ho, hd, hg, hin.mp hin'⟩,
    fun ⟨ho, hd, hg, hin'⟩ => ⟨⟨⟨hin.mpr hin', hd⟩, ho⟩, hg⟩⟩

end Names

/-! ## The pairing, column by column -/

section Pairing

variable {alter} {parser : AlterTableParser} {column : AlteredColumn}
variable {ghost : GhostColumn}

structure Right (alter : Alteration) (parser : AlterTableParser) (column : AlteredColumn) :
    Prop where
  shared : (alter.names (maps parser)).isSharedColumn column.name = column.carried
  mapped : column.carried = true → ∃ ghost, column.becomes = some ghost ∧
    alter.equalFold ghost.name ((alter.names (maps parser)).mappedName column.name) = true

theorem ghostGenerates_iff (hc : column ∈ alter.columns) {name : String}
    (hb : column.becomes = some ghost) (hn : alter.equalFold name ghost.name = true) :
    alter.GhostGenerates name ↔ ghost.generated = true := by
  constructor
  · rintro ⟨other, ho, hgen, hfold⟩
    have h : alter.equalFold ghost.name other.name = true := by
      rw [← fold_congr hn, hfold]
    exact eq_of_fold alter.ghost_distinct (becomes_mem_ghost hc hb) ho h ▸ hgen
  · intro h
    exact ⟨ghost, becomes_mem_ghost hc hb, h, hn⟩

theorem carried_of_becomes (hgen : column.generated = false) (hb : column.becomes = some ghost) :
    column.carried = !ghost.generated := by
  unfold AlteredColumn.carried
  rw [hgen, hb, Option.any_some, Bool.not_false, Bool.true_and]

theorem right_of_not_shared (hs : (alter.names (maps parser)).isSharedColumn column.name ≠ true)
    (hc : column.carried = false) : alter.Right parser column where
  shared := by rw [hc, Bool.eq_false_iff.mpr hs]
  mapped h := by rw [hc] at h; cases h

variable (hread : alter.ReadBy parser) (hc : column ∈ alter.columns)

include hread hc

theorem mappedName_eq {newName : String} (h : column.rename = some (column.name, newName)) :
    (alter.names (maps parser)).mappedName column.name = newName := by
  unfold ColumnNames.mappedName
  show (parser.getNonTrivialRenames.lookup column.name).getD column.name = newName
  cases hl : parser.getNonTrivialRenames.lookup column.name with
  | none =>
    by_contra hne
    rw [(lookup_renames hread hc).mpr ⟨h, hne⟩] at hl
    cases hl
  | some name =>
    have hr := ((lookup_renames hread hc).mp hl).1
    rw [h, Option.some.injEq, Prod.mk.injEq] at hr
    exact hr.2.symm

theorem mappedName_of_no_rename
    (h : ∀ newName, column.rename ≠ some (column.name, newName)) :
    (alter.names (maps parser)).mappedName column.name = column.name := by
  unfold ColumnNames.mappedName
  show (parser.getNonTrivialRenames.lookup column.name).getD column.name = column.name
  cases hl : parser.getNonTrivialRenames.lookup column.name with
  | none => rfl
  | some name => exact absurd ((lookup_renames hread hc).mp hl).1 (h name)

theorem right_of_generated (h : column.generated = true) : alter.Right parser column := by
  refine right_of_not_shared (fun hs => ?_) ?_
  · have hgen := ((isSharedColumn_iff hread hc).mp hs).1
    rw [h] at hgen
    cases hgen
  · unfold AlteredColumn.carried
    rw [h, Bool.not_true, Bool.false_and]

theorem right_of_dropped (h : column.becomes = none) (hd : column.drop ≠ none) :
    alter.Right parser column := by
  refine right_of_not_shared (fun hs => hd ((isSharedColumn_iff hread hc).mp hs).2.1) ?_
  unfold AlteredColumn.carried
  rw [h, Option.any_none, Bool.and_false]

theorem right_of_same_name (hgen : column.generated = false) (hb : column.becomes = some ghost)
    (hn : alter.equalFold column.name ghost.name = true)
    (hr : ∀ newName, column.rename = some (column.name, newName) → ghost.name = newName) :
    alter.Right parser column where
  shared := by
    rw [Bool.eq_iff_iff, isSharedColumn_iff hread hc, ghostGenerates_iff hc hb hn,
      carried_of_becomes hgen hb, Bool.not_eq_true, Bool.not_eq_true']
    refine ⟨fun h => h.2.2.1, fun h => ⟨hgen, AlteredColumn.drop_eq_none_of_becomes hb, h, ?_⟩⟩
    exact .inl ⟨ghost, becomes_mem_ghost hc hb, hn⟩
  mapped _ := by
    refine ⟨ghost, hb, ?_⟩
    by_cases h : ∃ newName, column.rename = some (column.name, newName)
    · obtain ⟨newName, h⟩ := h
      rw [mappedName_eq hread hc h, hr newName h, alter.equivalence.refl]
    · rw [mappedName_of_no_rename hread hc fun newName hn => h ⟨newName, hn⟩, fold_comm, hn]

theorem right_iff_of_renamed (hgen : column.generated = false) {spelled newName : String}
    {generated : Bool}
    (hf : column.fate = .renamed spelled newName generated)
    (hne : alter.equalFold column.name newName ≠ true) :
    alter.Right parser column ↔ if generated then
        alter.GhostGenerates column.name ∨ spelled ≠ column.name ∧ ¬ alter.GhostHas column.name
      else spelled = column.name ∧ ¬ alter.GhostGenerates column.name := by
  have hb : column.becomes = some { name := newName, generated } := by
    unfold AlteredColumn.becomes
    rw [hf]
  have hrename : column.rename = some (spelled, newName) := by
    unfold AlteredColumn.rename
    rw [hf]
  have hcarried : column.carried = !generated := carried_of_becomes hgen hb
  have hnew : column.name ≠ newName := fun h => hne (h ▸ alter.equivalence.refl _)
  have hknown : (∃ name, column.rename = some (column.name, name) ∧ column.name ≠ name) ↔
      spelled = column.name := by
    rw [hrename]
    constructor
    · rintro ⟨name, h, -⟩
      exact (Prod.mk.inj (Option.some.inj h)).1
    · rintro rfl
      exact ⟨newName, rfl, hnew⟩
  have hshared : (alter.names (maps parser)).isSharedColumn column.name = true ↔
      ¬ alter.GhostGenerates column.name ∧
        (alter.GhostHas column.name ∨ spelled = column.name) := by
    rw [isSharedColumn_iff hread hc, hknown]
    exact ⟨fun h => h.2.2, fun h => ⟨hgen, AlteredColumn.drop_eq_none_of_becomes hb, h⟩⟩
  cases generated with
  | true =>
    have hright : alter.Right parser column ↔
        ¬ (alter.names (maps parser)).isSharedColumn column.name = true := by
      constructor
      · intro h hs
        rw [h.shared, hcarried] at hs
        cases hs
      · exact fun h => right_of_not_shared h hcarried
    rw [hright, hshared, if_pos rfl, not_and_or, not_not, not_or, and_comm]
  | false =>
    rw [if_neg Bool.false_ne_true]
    constructor
    · intro h
      have hs := hshared.mp (h.shared.trans hcarried)
      refine ⟨?_, hs.1⟩
      -- Under any other spelling the column would be written under its old name.
      by_contra hspelled
      obtain ⟨ghost, hb', hfold⟩ := h.mapped hcarried
      rw [hb, Option.some.injEq] at hb'
      rw [← hb', mappedName_of_no_rename hread hc fun name hname =>
        hspelled (Prod.mk.inj (Option.some.inj (hrename.symm.trans hname))).1, fold_comm] at hfold
      exact hne hfold
    · rintro ⟨rfl, hgenerates⟩
      exact {
        shared := (hshared.mpr ⟨hgenerates, .inr rfl⟩).trans hcarried.symm
        mapped := fun _ => ⟨_, hb, by
          rw [mappedName_eq hread hc hrename, alter.equivalence.refl]⟩ }

theorem right_iff_plain : alter.Right parser column ↔ alter.Plain column := by
  by_cases hgen : column.generated = true
  · refine iff_of_true (right_of_generated hread hc hgen) ?_
    unfold Plain
    split
    · exact .inl hgen
    · trivial
  · rw [Bool.not_eq_true] at hgen
    have hspelled := alter.spelling_eq column hc
    unfold Plain
    unfold AlteredColumn.spelling at hspelled
    cases hf : column.fate with
    | dropped spelled =>
      refine iff_of_true (right_of_dropped hread hc ?_ ?_) trivial
      · simp [AlteredColumn.becomes, hf]
      · simp [AlteredColumn.drop, hf]
    | kept ghostName generated =>
      rw [hf] at hspelled
      have hb : column.becomes = some { name := ghostName, generated } := by
        simp [AlteredColumn.becomes, hf]
      refine iff_of_true (right_of_same_name hread hc hgen hb ?_ ?_) trivial
      · rw [fold_comm, hspelled]
      · simp [AlteredColumn.rename, hf]
    | renamed spelled newName generated =>
      by_cases hn : alter.equalFold column.name newName = true
      · have hb : column.becomes = some { name := newName, generated } := by
          simp [AlteredColumn.becomes, hf]
        refine iff_of_true (right_of_same_name hread hc hgen hb hn ?_) (.inr (.inl hn))
        simp [AlteredColumn.rename, hf]
      · rw [right_iff_of_renamed hread hc hgen hf hn]
        simp only [hgen, hn, Bool.false_eq_true, false_or]

end Pairing

/-! ## The two lists -/

/-- The columns that `getSharedColumns` takes to be shared. -/
def taken (parser : AlterTableParser) : List AlteredColumn :=
  alter.columns.filter fun column => (alter.names (maps parser)).isSharedColumn column.name

variable {alter} {parser : AlterTableParser}

theorem sharedColumns_eq (hread : alter.ReadBy parser) : alter.sharedColumns parser =
    .ok (newColumnList ((alter.taken parser).map AlteredColumn.name),
      newColumnList ((alter.taken parser).map fun column =>
        (alter.names (maps parser)).mappedName column.name)) := by
  unfold sharedColumns
  rw [migrateMaps_approved hread.renameTable]
  show Except.ok (getSharedColumns (alter.names (maps parser)) alter.originalColumns) = _
  unfold getSharedColumns originalColumns taken ColumnList.names
  dsimp only [newColumnList]
  rw [newColumns_names, List.filter_map, List.map_map]
  rfl

theorem taken_eq_of_right (h : ∀ column ∈ alter.columns, alter.Right parser column) :
    (alter.taken parser) = alter.columns.filter AlteredColumn.carried :=
  List.filter_congr fun column hc => (h column hc).shared

theorem paired_of_right (h : ∀ column ∈ alter.columns, alter.Right parser column) :
    alter.Paired ((alter.taken parser).map AlteredColumn.name)
      ((alter.taken parser).map fun column =>
        (alter.names (maps parser)).mappedName column.name) := by
  have hmem : ∀ column ∈ alter.columns.filter AlteredColumn.carried, ∃ ghost,
      column.becomes = some ghost ∧
        alter.equalFold ghost.name ((alter.names (maps parser)).mappedName column.name) = true := by
    intro column hc
    rw [List.mem_filter] at hc
    exact (h column hc.1).mapped hc.2
  rw [taken_eq_of_right h]
  refine ⟨rfl, ?_, ?_, ?_, ?_⟩
  · rw [List.forall₂_map_right_iff, List.forall₂_same]
    exact hmem
  · rw [List.length_map, List.length_map]
  · rw [List.pairwise_map]
    -- Two names that are equal without case would be the names of one ghost column.
    refine (becomes_distinct.filter _).imp_of_mem fun ha hb hab => ?_
    obtain ⟨g, hg, hfold⟩ := hmem _ ha
    obtain ⟨g', hg', hfold'⟩ := hmem _ hb
    rw [← fold_congr hfold, fold_comm, ← fold_congr hfold', fold_comm]
    exact hab g hg g' hg'
  · intro name hname
    obtain ⟨column, hc, rfl⟩ := List.mem_map.mp hname
    obtain ⟨ghost, hb, hfold⟩ := hmem column hc
    rw [List.mem_filter] at hc
    refine ⟨ghost, becomes_mem_ghost hc.1 hb, ?_, hfold⟩
    have hcarried := hc.2
    unfold AlteredColumn.carried at hcarried
    rw [hb, Option.any_some, Bool.and_eq_true, Bool.not_eq_true', Bool.not_eq_true'] at hcarried
    exact hcarried.2

theorem right_of_paired (h : alter.Paired ((alter.taken parser).map AlteredColumn.name)
    ((alter.taken parser).map fun column => (alter.names (maps parser)).mappedName column.name)) :
    ∀ column ∈ alter.columns, alter.Right parser column := by
  -- A name in a list of columns of the original is there for that column.
  have hname : ∀ {p : AlteredColumn → Bool} {column}, column ∈ alter.columns →
      (column.name ∈ (alter.columns.filter p).map AlteredColumn.name ↔ p column = true) := by
    intro p column hc
    rw [List.mem_map]
    constructor
    · rintro ⟨other, ho, heq⟩
      rw [List.mem_filter] at ho
      have hfold : alter.equalFold other.name column.name = true := by
        rw [heq, alter.equivalence.refl]
      exact eq_of_fold alter.columns_distinct ho.1 hc hfold ▸ ho.2
    · exact fun hp => ⟨column, List.mem_filter.mpr ⟨hc, hp⟩, rfl⟩
  have hshared : ∀ column ∈ alter.columns,
      (alter.names (maps parser)).isSharedColumn column.name = column.carried := by
    intro column hc
    have hp := @hname (fun c => (alter.names (maps parser)).isSharedColumn c.name) column hc
    rw [Bool.eq_iff_iff, ← hp, ← hname hc, ← h.carried]
    rfl
  have htaken : (alter.taken parser) = alter.columns.filter AlteredColumn.carried :=
    List.filter_congr hshared
  intro column hc
  refine ⟨hshared column hc, fun hcarried => ?_⟩
  have hbecomes := h.becomes
  rw [htaken, List.forall₂_map_right_iff, List.forall₂_same] at hbecomes
  exact hbecomes column (List.mem_filter.mpr ⟨hc, hcarried⟩)

/-- Names that differ in the case of their ASCII letters. -/
def foldCase (a b : String) : Bool := a.toList.map Char.toLower = b.toList.map Char.toLower

theorem foldCase_equivalence : Equivalence fun a b => foldCase a b = true := by
  unfold foldCase
  simp only [decide_eq_true_eq]
  exact ⟨fun _ => rfl, Eq.symm, Eq.trans⟩

/-- An alteration of a table with the given columns, whose names are told apart by `foldCase`. -/
def small (columns : List AlteredColumn) (added : List GhostColumn)
    (h : columns.Pairwise (fun a b => foldCase a.name b.name = false) ∧
      (columns.filterMap AlteredColumn.becomes ++ added).Pairwise
        (fun a b => foldCase a.name b.name = false) ∧
      (∀ column ∈ columns, foldCase column.spelling column.name = true ∧
        foldCase "" column.name = false) ∧
      ∀ ghost ∈ columns.filterMap AlteredColumn.becomes ++ added, foldCase "" ghost.name = false) :
    Alteration where
  equalFold := foldCase
  equivalence := foldCase_equivalence
  columns
  added
  ghost := columns.filterMap AlteredColumn.becomes ++ added
  ghost_perm := .refl _
  columns_distinct := h.1
  ghost_distinct := h.2.1
  spelling_eq column hc := (h.2.2.1 column hc).1
  columns_named column hc := (h.2.2.1 column hc).2
  ghost_named := h.2.2.2

/-- The column `Id` gets the name `new_id`. -/
def otherSpelling : Alteration :=
  small [{ name := "Id", generated := false, fate := .renamed "id" "new_id" false }] []
    (by decide +kernel)

/-- The column `a` gets the name `b`, and a generated column `a` is added. -/
def nameTakenByGenerated : Alteration :=
  small [{ name := "a", generated := false, fate := .renamed "a" "b" false }]
    [{ name := "a", generated := true }] (by decide +kernel)

/-- The column `a` becomes the generated column `b`. -/
def becomesGenerated : Alteration :=
  small [{ name := "a", generated := false, fate := .renamed "a" "b" true }] [] (by decide +kernel)

/-- The column `a`, beside `id`, gets the name `b`. -/
def renamesColumn : Alteration :=
  small [{ name := "id", generated := false, fate := .kept "id" false },
    { name := "a", generated := false, fate := .renamed "a" "b" false }] [] (by decide +kernel)

/-- `CHANGE a b` as the parser reads it. -/
def renamesColumnText : renamesColumn.Text where
  statement := "change a b int"
  items := AlterRead.itemsOf [AlterRead.smallChange]
  bears := .inl ⟨by decide +kernel, AlterPrefix.parsed_nothing_iff.mp
    ⟨by decide +kernel, by decide +kernel, by decide +kernel⟩⟩
  split := .inl (AlterSplit.whole_iff.mp (by decide +kernel))
  distinct := by decide
  understood := by simp [AlterRead.itemsOf, AlterRead.smallChange_understood]
  renames p _ := by
    have hold : String.ofList ['a'] = "a" := rfl
    have hnew : String.ofList ['b'] = "b" := rfl
    simp [renamesColumn, small, AlteredColumn.rename, AlterRead.itemsOf, AlterRead.smallChange,
      AlterRead.AlterClause.renamed, AlterRead.bareName, hold, hnew]
  drops := by
    simp [renamesColumn, small, AlteredColumn.drop, AlterRead.itemsOf, AlterRead.smallChange,
      AlterRead.AlterClause.dropped]
  keepsTable := by decide

end Alteration

end GhOst.Logic
