import GhOst.Infra.Steps
import GhOst.Logic.RejectedWrites
import GhOst.Properties.Warnings

/-!
# What a rejected write leaves in the ghost

A rejected batch leaves nothing. A rejected chunk leaves the rows that it could insert, and a later
attempt of the same chunk finds them. Each is a duplicate on the migration key then, which the
filter passes over, and these warnings can be all that the server retains.
-/

namespace GhOst.Logic

open GhOst.Sql

variable {σ κ : Type} [DecidableEq κ]

namespace WarningServer

variable {ws : WarningServer σ κ} {names : KeyNames} {ghost : List (Row σ)}

/-- A row of the ghost that has the values of `row` in a unique index. -/
def Clashes (ws : WarningServer σ κ) (ghost : List (Row σ)) (row : Row σ) : Prop :=
  ∃ q ∈ ghost, ws.srv.entry ws.ix.uniqueKey q = ws.srv.entry ws.ix.uniqueKey row ∨
    ∃ columns ∈ ws.ix.further, ws.srv.clash columns q row = true

/-- Every row, as the server adjusts it, clashes with one that is in the ghost. -/
def KeptOut (ws : WarningServer σ κ) (ghost rows : List (Row σ)) : Prop :=
  ∀ row ∈ rows, ws.Clashes ghost (ws.adjust row).1

/-! ## One write -/

theorem violated_ne_nil {row : Row σ} :
    ws.srv.violated ws.ix ghost row ≠ [] ↔ ws.Clashes ghost row := by
  unfold Server.violated Clashes
  rw [Ne, List.append_eq_nil_iff, not_and_or]
  constructor
  · rintro (hkey | hfurther)
    · obtain ⟨q, hq, heq⟩ : ∃ q ∈ ghost,
          ws.srv.entry ws.ix.uniqueKey q = ws.srv.entry ws.ix.uniqueKey row := by
        by_contra hno
        exact hkey (if_neg (by simpa using hno))
      exact ⟨q, hq, .inl heq⟩
    · rw [List.map_eq_nil_iff, List.filter_eq_nil_iff] at hfurther
      push Not at hfurther
      obtain ⟨columns, hcolumns, hany⟩ := hfurther
      obtain ⟨q, hq, hclash⟩ := List.any_eq_true.mp hany
      exact ⟨q, hq, .inr ⟨columns, hcolumns, hclash⟩⟩
  · rintro ⟨q, hq, heq | ⟨columns, hcolumns, hclash⟩⟩
    · refine .inl ?_
      rw [if_pos (List.any_eq_true.mpr ⟨q, hq, decide_eq_true heq⟩)]
      exact List.cons_ne_nil _ _
    · refine .inr ?_
      rw [List.map_eq_nil_iff]
      refine List.ne_nil_of_mem (List.mem_filter.mpr ⟨hcolumns, ?_⟩)
      exact List.any_eq_true.mpr ⟨q, hq, hclash⟩

theorem insertRow_cases (row : Row σ) :
    ¬ ws.Clashes ghost (ws.adjust row).1 ∧
        (ws.insertRow ghost row).1 = ghost ++ [(ws.adjust row).1] ∨
      ws.Clashes ghost (ws.adjust row).1 ∧ (ws.insertRow ghost row).1 = ghost := by
  rw [← violated_ne_nil]
  unfold insertRow
  cases ws.srv.violated ws.ix ghost (ws.adjust row).1 with
  | nil => exact .inl ⟨fun hne => hne rfl, rfl⟩
  | cons index others => exact .inr ⟨List.cons_ne_nil _ _, rfl⟩

theorem insertRows_cons (row : Row σ) (rows : List (Row σ)) :
    (ws.insertRows ghost (row :: rows)).1 =
      (ws.insertRows (ws.insertRow ghost row).1 rows).1 := rfl

theorem length_le_insertRows (rows : List (Row σ)) :
    ghost.length ≤ (ws.insertRows ghost rows).1.length := by
  induction rows generalizing ghost with
  | nil => exact Nat.le_refl _
  | cons row rows ih =>
    rw [insertRows_cons]
    rcases @insertRow_cases _ _ _ ws ghost row with ⟨-, hrow⟩ | ⟨-, hrow⟩
    · rw [hrow]
      refine Nat.le_trans ?_ ih
      rw [List.length_append]
      exact Nat.le_add_right _ _
    · rw [hrow]
      exact ih

/-- **A chunk leaves the ghost alone exactly when all its rows are kept out.** -/
theorem insertRows_eq_self {rows : List (Row σ)} :
    (ws.insertRows ghost rows).1 = ghost ↔ ws.KeptOut ghost rows := by
  induction rows with
  | nil => exact iff_of_true rfl fun row hrow => by cases hrow
  | cons row rows ih =>
    unfold KeptOut
    rw [insertRows_cons, List.forall_mem_cons]
    rcases @insertRow_cases _ _ _ ws ghost row with ⟨hfree, hrow⟩ | ⟨hkept, hrow⟩
    · rw [hrow]
      refine iff_of_false (fun heq => ?_) fun h => hfree h.1
      -- a row that was added is not taken away by the rows after it
      have hle := @length_le_insertRows _ _ _ ws (ghost ++ [(ws.adjust row).1]) rows
      rw [heq, List.length_append, List.length_singleton] at hle
      exact absurd hle (Nat.not_succ_le_self _)
    · rw [hrow, ih]
      exact (and_iff_right hkept).symm

theorem applyIterationInsertQuery_fst (rows : List (Row σ)) :
    (ws.applyIterationInsertQuery names ghost rows).1 = (ws.insertRows ghost rows).1 := rfl

omit [DecidableEq κ] in
theorem applyDMLEventQueries_error {batch : List (Int × Query)} {err : String}
    (h : (ws.applyDMLEventQueries names ghost batch).2 = .error err) :
    (ws.applyDMLEventQueries names ghost batch).1 = ghost := by
  unfold applyDMLEventQueries at h ⊢
  split
  · rfl
  · next hexec =>
    rw [hexec] at h
    dsimp only at h
    split at h
    · rfl
    · cases h

omit [DecidableEq κ] in
theorem length_executeAll {queries : List Query} {after : List (Row σ)}
    {raised : List (List Raised)} (h : ws.executeAll ghost queries = .ok (after, raised)) :
    raised.length = queries.length := by
  induction queries generalizing ghost after raised with
  | nil =>
    cases h
    rfl
  | cons query queries ih =>
    unfold executeAll at h
    cases hq : ws.execute ghost query with
    | error err =>
      rw [hq] at h
      cases h
    | ok first =>
      cases hrest : ws.executeAll first.1 queries with
      | error err =>
        rw [hq] at h
        simp only [bind, Except.bind, hrest] at h
        cases h
      | ok rest =>
        rw [hq] at h
        simp only [bind, Except.bind, hrest] at h
        cases h
        rw [List.length_cons, List.length_cons, ih hrest]

omit [DecidableEq κ] in
/-- **A batch is rolled back** when the filter is told of a warning that is not about the migration
key. -/
theorem batch_rejected {batch : List (Int × Query)}
    (hlegible : names.AllLegible ws.showsTable (ws.batchRaised ghost batch))
    (hretains : names.RetainsOther (ws.batchRaised ghost batch))
    (hother : names.RaisesOther (ws.batchRaised ghost batch)) :
    ∃ err, (ws.applyDMLEventQueries names ghost batch).2 = .error err := by
  unfold batchRaised at hlegible hretains hother
  unfold applyDMLEventQueries
  cases hexec : ws.executeAll ghost (batch.map Prod.snd) with
  | error err => exact ⟨err, rfl⟩
  | ok result =>
    obtain ⟨after, raised⟩ := result
    rw [hexec] at hlegible hretains hother
    dsimp only at hlegible hretains hother ⊢
    cases hcheck : names.executeBatchWithWarningChecking (batch.map Prod.fst)
      (raised.map ws.showWarnings) with
    | error err => exact ⟨err, rfl⟩
    | ok delta =>
      exfalso
      have hlen : (batch.map Prod.fst).length = (raised.map ws.warned).length := by
        rw [List.length_map, List.length_map, length_executeAll hexec, List.length_map]
      have hne : raised.map ws.warned ≠ [] := by
        obtain ⟨st, hst, -⟩ := hother
        exact List.ne_nil_of_mem hst
      have hrows : raised.map ws.showWarnings =
          (raised.map ws.warned).map (WarnedStatement.rows ws.showsTable) := by
        rw [List.map_map]
        rfl
      rw [hrows] at hcheck
      obtain ⟨st, hst, w, hw, hkey⟩ := hretains hother
      have hnames := (KeyNames.batch_accepted_iff hlen hne).mp ⟨delta, hcheck⟩ st hst w hw
      exact hkey ((KeyNames.namesKey_iff_onMigrationKey
        (hlegible st hst w (List.mem_of_mem_take hw))).mp hnames)

/-! ## Runs -/

variable [DecidableEq σ] {s s' : CopyRun σ}

/-- Every row of the ghost was stored by a write with no warning but duplicates on the migration
key. -/
def Untraced (s : CopyRun σ) : Prop := ∀ row ∈ s.ghost, row ∈ s.clean

instance (s : CopyRun σ) : Decidable (Untraced s) := inferInstanceAs (Decidable (∀ _ ∈ _, _))

/-- If a write raises another warning, it is a chunk that selects only rows that clash with rows of
the ghost, or a batch of whose warnings the filter is told. -/
def RejectsWhole (ws : WarningServer σ κ) (names : KeyNames) (s : CopyRun σ) :
    CopyAction σ → Prop
  | .copyChunk rows =>
    names.RaisesOther (ws.chunkRaised s.ghost rows) → ws.KeptOut s.ghost rows
  | .applyBatch batch =>
    names.RaisesOther (ws.batchRaised s.ghost batch) →
      names.AllLegible ws.showsTable (ws.batchRaised s.ghost batch) ∧
      names.RetainsOther (ws.batchRaised s.ghost batch)
  | _ => True

omit [DecidableEq κ] in
theorem Untraced.store {statements : List WarnedStatement} {after : List (Row σ)}
    (h : Untraced s) (hother : names.RaisesOther statements → after = s.ghost) :
    Untraced (s.store names statements after) := by
  unfold CopyRun.store Untraced
  by_cases hraised : names.RaisesOther statements
  · rw [if_pos hraised, hother hraised]
    exact h
  · rw [if_neg hraised]
    intro row hrow
    by_cases hold : row ∈ s.ghost
    · exact List.mem_append_left _ (h row hold)
    · exact List.mem_append_right _ (List.mem_filter.mpr ⟨hrow, by simpa using hold⟩)

theorem Untraced.step {a : CopyAction σ} (h : Untraced s) (hok : ws.RejectsWhole names s a)
    (hs : ws.step names s a = some s') : Untraced s' := by
  cases a with
  | copyChunk rows =>
    have hstored : Untraced (s.store names (ws.chunkRaised s.ghost rows)
        (ws.insertRows s.ghost rows).1) :=
      h.store fun hother => insertRows_eq_self.mpr (hok hother)
    unfold WarningServer.step at hs
    dsimp only at hs
    split at hs
    · cases hs
      exact hstored
    · cases hs
      exact hstored
  | applyBatch batch =>
    cases hs
    refine h.store fun hother => ?_
    obtain ⟨err, herr⟩ := batch_rejected (hok hother).1 (hok hother).2 hother
    exact applyDMLEventQueries_error herr
  | checkpoint =>
    cases hs
    exact h
  | resume =>
    cases hs
    exact h

/-- A table of two columns where values of `v` above 9 are out of range, on a server that retains
one warning. -/
def clippingServer : WarningServer Int64 Int where
  srv := bigintServer
  ix := { uniqueKey := ["id"], further := [] }
  adjust row :=
    if row.any fun p => p.1 = "v" ∧ 9 < p.2 then
      (row.map fun p => if p.1 = "v" then ("v", 9) else p,
        [.other { level := "Warning", code := 1264,
                  message := "Out of range value for column 'v' at row 1" }])
    else (row, [])
  duplicate row index :=
    .duplicate (toString ((row.lookup "id").getD 0)) "_t_gho"
      (match index with
        | .uniqueKey => "PRIMARY"
        | .further columns => ",".intercalate columns)
  execute ghost _ := .ok (ghost, [])
  showsTable := true
  maxErrorCount := 1

end WarningServer

end GhOst.Logic
