import GhOst.Infra.Steps
import GhOst.Logic.SharedKeys
import GhOst.Properties.Replay

/-!
# The migration key on the ghost table

`getSharedUniqueKeys` accepts a key of the original when a key of the ghost contains its columns. A
wider key of the ghost admits several rows of one migration key, and an `insert ignore` then adds a
second row where it should find the first. With a key of the ghost over the same columns there is at
most one row of each migration key at any moment.
-/

namespace GhOst.Logic

open GhOst.Sql Infra

/-! ## The key that is named -/

section Named

variable {originalUniqueKeys ghostUniqueKeys : List UniqueKey} {key : UniqueKey}

theorem isSubsetOf_iff {cl other : ColumnList} (h : other.WellFormed) :
    cl.isSubsetOf other = true ↔ ∀ name ∈ cl.names, name ∈ other.names := by
  simp [ColumnList.isSubsetOf, ColumnList.names, h.lookup_isSome]

/-- The first key of the ghost that contains the columns of a key. -/
def firstContaining (key : UniqueKey) (ghostUniqueKeys : List UniqueKey) : Option UniqueKey :=
  ghostUniqueKeys.find? fun g => key.columns.isSubsetOf g.columns

theorem sharedUniqueKey_eq (key : UniqueKey) (ghostUniqueKeys : List UniqueKey) :
    sharedUniqueKey key ghostUniqueKeys =
      (firstContaining key ghostUniqueKeys).map fun g =>
        { key with nameInGhostTable := g.name } := by
  induction ghostUniqueKeys with
  | nil => rfl
  | cons g rest ih =>
    unfold firstContaining at ih ⊢
    by_cases h : key.columns.isSubsetOf g.columns = true
    · simp [sharedUniqueKey, h]
    · simpa [sharedUniqueKey, h] using ih

theorem of_mem_getSharedUniqueKeys
    (h : key ∈ getSharedUniqueKeys originalUniqueKeys ghostUniqueKeys) :
    (∃ original ∈ originalUniqueKeys, key.columns = original.columns) ∧
      ∃ g, firstContaining key ghostUniqueKeys = some g ∧ key.nameInGhostTable = g.name := by
  obtain ⟨original, hmem, hshared⟩ := List.mem_filterMap.1 h
  rw [sharedUniqueKey_eq, Option.map_eq_some_iff] at hshared
  obtain ⟨g, hg, rfl⟩ := hshared
  exact ⟨⟨original, hmem, rfl⟩, g, hg, rfl⟩

/-- The first key of the ghost that contains the columns of the key contains no other column. -/
def ExactInGhost (ghostUniqueKeys : List UniqueKey) (key : UniqueKey) : Prop :=
  ∀ g, firstContaining key ghostUniqueKeys = some g → g.columns.isSubsetOf key.columns = true

/-- `NameInGhostTable` names a unique key of the ghost over the same columns. -/
def BackedInGhost (ghostUniqueKeys : List UniqueKey) (key : UniqueKey) : Prop :=
  ∃ g ∈ ghostUniqueKeys, g.name = key.nameInGhostTable ∧
    ∀ name, name ∈ g.columns.names ↔ name ∈ key.columns.names

theorem eq_of_name_eq (hnames : (ghostUniqueKeys.map UniqueKey.name).Nodup) {g g' : UniqueKey}
    (hg : g ∈ ghostUniqueKeys) (hg' : g' ∈ ghostUniqueKeys) (h : g.name = g'.name) : g = g' :=
  List.inj_on_of_nodup_map hnames hg hg' h

theorem backedInGhost_iff (hkey : key.columns.WellFormed)
    (hghost : ∀ g ∈ ghostUniqueKeys, g.columns.WellFormed)
    (hnames : (ghostUniqueKeys.map UniqueKey.name).Nodup) {g : UniqueKey}
    (hg : firstContaining key ghostUniqueKeys = some g) (hname : key.nameInGhostTable = g.name) :
    BackedInGhost ghostUniqueKeys key ↔ ExactInGhost ghostUniqueKeys key := by
  have hmem : g ∈ ghostUniqueKeys := List.mem_of_find?_eq_some hg
  have hcontains : ∀ name ∈ key.columns.names, name ∈ g.columns.names := by
    unfold firstContaining at hg
    exact (isSubsetOf_iff (hghost g hmem)).1 (by simpa using List.find?_some hg)
  constructor
  · rintro ⟨g', hmem', hname', hsame⟩ g'' hg''
    obtain rfl : g = g'' := Option.some.inj (hg.symm.trans hg'')
    obtain rfl : g = g' := eq_of_name_eq hnames hmem hmem' (hname.symm.trans hname'.symm)
    exact (isSubsetOf_iff hkey).2 fun name h => (hsame name).1 h
  · intro hexact
    refine ⟨g, hmem, hname.symm, fun name => ⟨fun h => ?_, hcontains name⟩⟩
    exact (isSubsetOf_iff hkey).1 (hexact g hg) name h

end Named

/-! ## The rows of the ghost -/

variable {σ κ : Type} [LinearOrder κ]
variable {srv : Server σ κ} {ix : Indexes}

/-- The rows agree in the columns, as comparisons see them. -/
def SameValues (srv : Server σ κ) (columns : List String) (q r : Row σ) : Prop :=
  ∀ c ∈ columns, (q.lookup c).map (srv.collate c) = (r.lookup c).map (srv.collate c)

omit [LinearOrder κ] in
theorem entry_eq_of_sameValues {columns : List String} {q r : Row σ}
    (h : SameValues srv columns q r) : srv.entry columns q = srv.entry columns r :=
  List.filterMap_congr h

theorem exec_keysNodup {ghost ghost' : List (Row σ)} {statement : Statement} {args : List Value}
    (hn : KeysNodup (srv.entry ix.uniqueKey) ghost)
    (h : srv.exec ix ghost statement args = some ghost') :
    KeysNodup (srv.entry ix.uniqueKey) ghost' := by
  cases statement with
  | delete =>
    cases h
    exact List.Nodup.sublist (List.filter_sublist.map _) hn
  | insertIgnore =>
    cases h
    exact Server.keysNodup_insertIgnore hn
  | update =>
    obtain ⟨hc, rfl⟩ := of_guard h
    exact List.pairwise_map.2 (hc.imp fun hne => hne.1)

theorem execAll_keysNodup :
    ∀ {queries : List (Statement × List Value)} {ghost ghost' : List (Row σ)},
      KeysNodup (srv.entry ix.uniqueKey) ghost →
      srv.execAll ix ghost queries = some ghost' →
      KeysNodup (srv.entry ix.uniqueKey) ghost'
  | [], _, _, hn, h => Option.some.inj h ▸ hn
  | (statement, args) :: rest, ghost, ghost', hn, h => by
    rw [Server.execAll] at h
    cases hs : srv.exec ix ghost statement args with
    | none => simp [hs] at h
    | some next =>
      simp only [hs] at h
      exact execAll_keysNodup (exec_keysNodup hn hs) h

theorem Migration.applyBatch_keysNodup {m : Migration σ κ} {changes : List (RowChange σ)}
    {ghost ghost' : List (Row σ)} (hn : KeysNodup m.key ghost)
    (h : m.applyBatch ghost changes = some ghost') : KeysNodup m.key ghost' := by
  unfold applyBatch at h
  split at h
  · exact execAll_keysNodup hn h
  · simp at h

theorem Migration.stepOn_keysNodup {m : Migration σ κ} [DecidableEq σ] {s s' : State σ κ}
    {a : Action σ} (hn : KeysNodup (m.srv.entry ix.uniqueKey) s.ghost)
    (hs : m.stepOn ix s a = some s') : KeysNodup (m.srv.entry ix.uniqueKey) s'.ghost := by
  cases a with
  | commit changes =>
    obtain ⟨original, -, rfl⟩ := step_commit hs
    exact hn
  | deliver =>
    obtain ⟨-, rfl⟩ := @step_deliver _ _ _ m _ _ _ hs
    exact hn
  | applyEvents dmlBatchSize =>
    rw [stepOn] at hs
    split at hs
    · cases hb : { m with ix }.applyBatch s.ghost (s.batch dmlBatchSize) with
      | none => simp [hb] at hs
      | some rows =>
        simp only [hb] at hs
        cases hs
        exact @applyBatch_keysNodup _ _ _ { m with ix } _ _ _ hn hb
    · simp at hs
  | readMigrationRangeValues =>
    obtain ⟨-, rfl⟩ := step_readMigrationRangeValues hs
    exact hn
  | calculateNextIterationRangeEndValues chunkSize =>
    obtain ⟨-, -, start, stop, -, -, ⟨-, rfl⟩ | ⟨rangeEnd, -, rfl⟩⟩ := step_calculate hs
    · exact hn
    · exact hn
  | applyIterationInsertQuery =>
    obtain ⟨-, rfl⟩ := of_guard hs
    exact @insertIgnoreAll_keysNodup _ _ _ { m with ix } _ _ hn

/-- **A shared key is backed by the key of the ghost that it is named after exactly when the first
key of the ghost that contains its columns has no other.** Then the ghost holds at most one row of
each migration key, at every moment of every run. -/
theorem shared_key_backed_iff {originalUniqueKeys ghostUniqueKeys : List UniqueKey}
    {key : UniqueKey} (horiginal : ∀ o ∈ originalUniqueKeys, o.columns.WellFormed)
    (hghost : ∀ g ∈ ghostUniqueKeys, g.columns.WellFormed)
    (hnames : (ghostUniqueKeys.map UniqueKey.name).Nodup)
    (hkey : key ∈ getSharedUniqueKeys originalUniqueKeys ghostUniqueKeys) :
    (BackedInGhost ghostUniqueKeys key ↔ ExactInGhost ghostUniqueKeys key) ∧
    (ExactInGhost ghostUniqueKeys key →
      ∀ {σ κ : Type} [LinearOrder κ] [DecidableEq σ] (m : Migration σ κ) (content : List (Row σ))
        (s : State σ κ), m.ix.uniqueKey = key.columns.names →
        Reachable (m.stepOn (ghostIndexes ghostUniqueKeys key)) { original := content } s →
        s.ghost.Pairwise fun q r => ¬ SameValues m.srv m.ix.uniqueKey q r) := by
  obtain ⟨⟨original, hmem, hcolumns⟩, g, hg, hname⟩ := of_mem_getSharedUniqueKeys hkey
  have hwf : key.columns.WellFormed := by
    rw [hcolumns]
    exact horiginal original hmem
  have hiff := backedInGhost_iff hwf hghost hnames hg hname
  refine ⟨hiff, ?_⟩
  intro hexact σ κ _ _ m content s hix hr
  obtain ⟨g', hmem', hname', hsame⟩ := hiff.2 hexact
  -- the index that is named has the columns of the key, in some order
  have hindex : (ghostIndexes ghostUniqueKeys key).uniqueKey = g'.columns.names := by
    have hfind : ghostUniqueKeys.find? (fun g => g.name = key.nameInGhostTable) = some g' :=
      (lookup_eq_some_iff hnames).2 ⟨hmem', hname'⟩
    simp [ghostIndexes, hfind]
  have hn : KeysNodup (m.srv.entry (ghostIndexes ghostUniqueKeys key).uniqueKey) s.ghost := by
    refine hr.invariant ?_ fun _ _ _ h _ hs => Migration.stepOn_keysNodup h hs
    exact List.nodup_nil
  refine (List.pairwise_map.1 hn).imp ?_
  intro q r hne hvalues
  refine hne (entry_eq_of_sameValues ?_)
  rw [hindex]
  intro c hc
  rw [hix] at hvalues
  exact hvalues c ((hsame c).1 hc)

def smallKey (names : List String) : UniqueKey :=
  { name := "PRIMARY", columns := newColumnList names }

/-- The primary key of the ghost has one column more: a row is updated, copied, and its insertion
applied. -/
theorem wider_key_admits_second_row :
    ∃ key ∈ getSharedUniqueKeys [smallKey ["id"]] [smallKey ["id", "v"]],
      ¬ BackedInGhost [smallKey ["id", "v"]] key ∧
      ∃ s, Reachable
          ((smallMigration []).stepOn (ghostIndexes [smallKey ["id", "v"]] key))
            { original := [] } s ∧
        s.original = [smallRow 1 2] ∧ s.ghost = [smallRow 1 2, smallRow 1 1] := by
  refine ⟨{ smallKey ["id"] with nameInGhostTable := "PRIMARY" }, by decide, ?_, ?_⟩
  · rintro ⟨g, hmem, -, hsame⟩
    rw [List.mem_singleton.1 hmem] at hsame
    exact absurd ((hsame "v").1 (by decide)) (by decide)
  · exact exists_reach
      [.commit [.insert (smallRow 1 1)], .commit [.update (smallRow 1 1) (smallRow 1 2)],
        .readMigrationRangeValues, .calculateNextIterationRangeEndValues 1,
        .applyIterationInsertQuery, .deliver, .applyEvents 1] (by decide)

/-- The same run on a ghost with the same key. -/
theorem shared_key_backed_iff_small :
    ∃ key ∈ getSharedUniqueKeys [smallKey ["id"]] [smallKey ["id"]],
      BackedInGhost [smallKey ["id"]] key ∧
      ∃ s, Reachable
          ((smallMigration []).stepOn (ghostIndexes [smallKey ["id"]] key)) { original := [] } s ∧
        s.applied = 1 ∧
        s.ghost.Pairwise fun q r => ¬ SameValues (smallMigration []).srv ["id"] q r := by
  have hwf : ∀ o ∈ [smallKey ["id"]], o.columns.WellFormed := by
    intro o ho
    rw [List.mem_singleton.1 ho]
    exact newColumnList_wellFormed (by decide)
  have hkey : { smallKey ["id"] with nameInGhostTable := "PRIMARY" } ∈
      getSharedUniqueKeys [smallKey ["id"]] [smallKey ["id"]] := by decide
  obtain ⟨hiff, hunique⟩ := shared_key_backed_iff hwf hwf (by decide) hkey
  have hexact : ExactInGhost [smallKey ["id"]]
      { smallKey ["id"] with nameInGhostTable := "PRIMARY" } := by
    intro g hg
    rw [List.mem_singleton.1 (List.mem_of_find?_eq_some hg)]
    decide
  refine ⟨_, hkey, hiff.2 hexact, exists_reach_of (fun s => s.applied = 1)
    [.commit [.insert (smallRow 1 1)], .commit [.update (smallRow 1 1) (smallRow 1 2)],
      .readMigrationRangeValues, .calculateNextIterationRangeEndValues 1,
      .applyIterationInsertQuery, .deliver, .applyEvents 1] (by decide) fun s hr happlied => ?_⟩
  exact ⟨happlied, hunique hexact _ _ s rfl hr⟩

end GhOst.Logic
