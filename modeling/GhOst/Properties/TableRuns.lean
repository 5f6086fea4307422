import GhOst.Logic.TableRuns
import GhOst.Properties.TableNames

/-!
# What becomes of the tables of a migration

The changelog, the checkpoint and the ghost table that a migration drops are its own. The ghost
table of a revert is not: it is the old table of the migration, and a revert without `--execute`
drops it. A migration that the server performs at once leaves the ghost table behind.
-/

namespace GhOst.Logic

open GhOst.Base Infra

/-- The statement leaves the name alone. -/
def TableStatement.keeps (name : List UInt8) : TableStatement → Bool
  | .expectMissing _ | .expectPresent _ => true
  | .create other | .drop other => name ≠ other
  | .rename _ | .rollback _ => false

namespace Tables

variable {s s' : Tables} {name : List UInt8} {statements : List TableStatement}

theorem exec_keeps {statement : TableStatement} (h : s.exec statement = some s')
    (hkeeps : statement.keeps name) : s'.named name = s.named name := by
  cases statement with
  | expectMissing other =>
    rw [exec, Option.ite_none_right_eq_some] at h
    rw [Option.some.inj h.2]
  | expectPresent other =>
    rw [exec, Option.ite_none_left_eq_some] at h
    rw [Option.some.inj h.2]
  | create other =>
    rw [exec, Option.ite_none_right_eq_some] at h
    rw [← Option.some.inj h.2]
    exact Function.update_of_ne (of_decide_eq_true hkeeps) ..
  | drop other =>
    cases h
    exact Function.update_of_ne (of_decide_eq_true hkeeps) ..
  | rename pairs => cases hkeeps
  | rollback names => cases hkeeps

theorem run_keeps (h : run exec s statements = some s')
    (hkeeps : ∀ statement ∈ statements, statement.keeps name) : s'.named name = s.named name := by
  induction statements generalizing s with
  | nil =>
    cases h
    rfl
  | cons statement statements ih =>
    obtain ⟨t, hexec, hrun⟩ := Option.bind_eq_some_iff.mp h
    rw [ih hrun fun st hst => hkeeps st (List.mem_cons_of_mem _ hst)]
    exact exec_keeps hexec (hkeeps statement List.mem_cons_self)

end Tables

/-- The names of a run are all different. -/
def RunNames.Distinct (n : RunNames) : Prop :=
  [n.original, n.ghost, n.old, n.changelog, n.checkpoint].Nodup

instance (n : RunNames) : Decidable n.Distinct := inferInstanceAs (Decidable (List.Nodup _))

theorem RunNames.Distinct.ne {n : RunNames} (h : n.Distinct) :
    n.original ≠ n.ghost ∧ n.original ≠ n.old ∧ n.ghost ≠ n.old ∧ n.ghost ≠ n.changelog ∧
      n.ghost ≠ n.checkpoint := by
  simp only [RunNames.Distinct, List.nodup_cons, List.mem_cons, List.not_mem_nil, or_false,
    not_or] at h
  exact ⟨h.1.1, h.1.2.1, h.2.1⟩

namespace TableRun

open Tables

variable {r : TableRun} {n : RunNames} {s s' : Tables} {instant : Bool}

def smallRun : TableRun where
  toNamesContext := migrationOf "t" false

/-- It reverts the migration of `smallRun`. -/
def smallRevert : TableRun where
  toNamesContext := { migrationOf "t" false with revert := true, oldTableName := "_t_del" }

def smallNames : RunNames where
  original := encode "t".toList
  ghost := encode "_t_gho".toList
  old := encode "_t_del".toList
  changelog := encode "_t_ghc".toList
  checkpoint := encode "_t_ghk".toList

def revertNames : RunNames :=
  { smallNames with ghost := encode "_t_del".toList, old := encode "_t_rev_del".toList }

/-- The tables of the names, numbered from zero. -/
def tablesOf (names : List (List UInt8)) : Tables where
  named name := names.findIdx? (· == name)
  next := names.length

/-! ## Without `--execute` -/

theorem getGhostTableName_of_runNames (hn : r.runNames = .ok n) :
    r.getGhostTableName = .ok n.ghost := by
  unfold runNames at hn
  split at hn
  · next hghost _ _ _ =>
    cases hn
    exact hghost
  · cases hn

/-- A run that reverts or resumes reads the ghost table; without `--execute` it drops it last. -/
theorem statements_of_noop (hnoop : r.noop = true) (hlate : r.revert = true ∨ r.resume = true)
    (hne : n.ghost ≠ n.changelog) : ∃ before after,
      r.statements n instant = before ++ .expectPresent n.ghost :: (after ++ [.drop n.ghost]) ∧
        ∀ statement ∈ before, statement.keeps n.ghost := by
  refine ⟨initiateInspector n ++ r.initiateApplier n, readLastCheckpoint n ++ .drop n.changelog ::
    if r.okToDropTable && !r.testOnReplica then [.drop n.old, .drop n.checkpoint] else [], ?_, ?_⟩
  · unfold statements revertTables migrateTables cutOver finalCleanup inspectOriginalAndGhostTables
    split <;> simp_all
  · unfold initiateApplier createChangelogTable initiateInspector
    split <;> simp_all [TableStatement.keeps]

/-- **A run that reverts or resumes without `--execute` drops the ghost table that it found.** In a
revert this is the old table of the migration. -/
theorem noop_drops_ghost (hn : r.runNames = .ok n) (hd : n.Distinct) (hnoop : r.noop = true)
    (hlate : r.revert = true ∨ r.resume = true)
    (h : run exec s (r.statements n instant) = some s') :
    (s.named n.ghost ≠ none ∧ s'.named n.ghost = none) ∧
      (r.revert = true → n.ghost = encode r.oldTableName.toList) := by
  obtain ⟨before, after, heq, hkeeps⟩ := statements_of_noop hnoop hlate hd.ne.2.2.2.1
  rw [heq] at h
  obtain ⟨t, hbefore, hrest⟩ := run_append h
  obtain ⟨u, hread, hrest⟩ := Option.bind_eq_some_iff.mp hrest
  obtain ⟨v, -, hdrop⟩ := run_append hrest
  refine ⟨⟨?_, ?_⟩, fun hrevert => ?_⟩
  · rw [exec, Option.ite_none_left_eq_some] at hread
    exact run_keeps hbefore hkeeps ▸ hread.1
  · cases hdrop
    exact Function.update_self ..
  · have hghost := getGhostTableName_of_runNames hn
    rw [NamesContext.getGhostTableName, if_pos hrevert] at hghost
    exact (Except.ok.inj hghost).symm

theorem noop_drops_ghost_small :
    ∃ s s' n, run exec s ({ smallRevert with noop := true }.statements n false) = some s' ∧
      s.named (encode "_t_del".toList) ≠ none ∧ s'.named (encode "_t_del".toList) = none :=
  have h : (run exec (tablesOf [revertNames.original, revertNames.ghost, revertNames.checkpoint])
      ({ smallRevert with noop := true }.statements revertNames false)).isSome := by decide +kernel
  ⟨_, _, _, (Option.some_get h).symm, (noop_drops_ghost (r := { smallRevert with noop := true })
    (n := revertNames) rfl (by decide +kernel) rfl (.inl rfl) (Option.some_get h).symm).1⟩

/-! ## Instant migrations -/

/-- **A migration that the server performs at once leaves its ghost table behind**, and the next one
refuses to start. -/
theorem instant_migration_blocks_next {r' : TableRun} {n' : RunNames} {instant' : Bool}
    (hn : r.runNames = .ok n) (hd : n.Distinct) (hnew : r.revert = false ∧ r.resume = false)
    (hinstant : r.attemptInstantDDL = true ∧ r.noop = false)
    (h : run exec s (r.statements n true) = some s') (hn' : r'.runNames = .ok n')
    (hnew' : r'.revert = false ∧ r'.resume = false) (hbase : r'.baseName = r.baseName)
    (hdrop : r'.initiallyDropGhostTable = false) :
    run exec s' (r'.statements n' instant') = none := by
  have hghost : n'.ghost = n.ghost := by
    have hname := getGhostTableName_of_runNames hn
    have hname' := getGhostTableName_of_runNames hn'
    rw [NamesContext.getGhostTableName, hnew.1, if_neg nofun] at hname
    rw [NamesContext.getGhostTableName, hnew'.1, if_neg nofun, hbase, hname] at hname'
    exact (Except.ok.inj hname').symm
  have hleft : s'.named n.ghost ≠ none := by
    simp only [statements, migrateTables, initiateApplier, hnew, hinstant, Bool.not_false,
      Bool.and_self, if_true, Bool.false_eq_true, if_false, ← List.append_assoc] at h
    obtain ⟨t, hbefore, hcleanup⟩ := run_append h
    obtain ⟨u, -, hcreate⟩ := run_append hbefore
    rw [run_keeps hcleanup ?_]
    · obtain ⟨_, hexec, ⟨⟩⟩ := Option.bind_eq_some_iff.mp hcreate
      obtain ⟨-, rfl⟩ := of_guard hexec
      simp
    · obtain ⟨-, -, hgo, hgc, hgk⟩ := hd.ne
      unfold finalCleanup
      split_ifs <;> simp_all [TableStatement.keeps]
  refine Option.eq_none_iff_forall_ne_some.mpr fun t hrun => hleft ?_
  simp only [statements, migrateTables, initiateApplier, validateOrDropExistingTables, hnew', hdrop,
    Bool.false_eq_true, if_false, List.nil_append, List.append_assoc, hghost] at hrun
  obtain ⟨u, hinspect, hrest⟩ := run_append hrun
  obtain ⟨v, hmissing, -⟩ := Option.bind_eq_some_iff.mp hrest
  rw [← run_keeps hinspect (by simp [initiateInspector, TableStatement.keeps])]
  exact (of_guard hmissing).1

theorem instant_migration_blocks_next_small :
    ∃ s', run exec (tablesOf [smallNames.original])
        ({ smallRun with attemptInstantDDL := true }.statements smallNames true) = some s' ∧
      run exec s' (smallRun.statements smallNames false) = none :=
  have h : (run exec (tablesOf [smallNames.original])
      ({ smallRun with attemptInstantDDL := true }.statements smallNames true)).isSome := by
    decide +kernel
  have hn : smallRun.runNames = .ok smallNames := rfl
  ⟨_, (Option.some_get h).symm, instant_migration_blocks_next
    (r := { smallRun with attemptInstantDDL := true }) hn (by decide +kernel) ⟨rfl, rfl⟩ ⟨rfl, rfl⟩
    (Option.some_get h).symm hn ⟨rfl, rfl⟩ rfl rfl⟩

/-! ## Rolling the renames back -/

/-- **`RenameTablesRollback` undoes what a cut-over has done**, wherever it or the first statement
fails. -/
theorem rollback_restores (hd : n.Distinct) (horiginal : s.named n.original ≠ none)
    (hghost : s.named n.ghost ≠ none) (hold : s.named n.old = none) {done : List TableStatement}
    (hdone : done <+: r.swapTables n) (h : run exec s done = some s') (fails : Bool) :
    (s'.renameTablesRollback n fails).named = s.named := by
  obtain ⟨a, ha⟩ := Option.ne_none_iff_exists'.mp horiginal
  obtain ⟨b, hb⟩ := Option.ne_none_iff_exists'.mp hghost
  obtain ⟨hog, hoo, hgo, -⟩ := hd.ne
  have hcases : done = [] ∨ done = [.rename [(n.original, n.old)]] ∨
      done = [.rename [(n.original, n.old)], .rename [(n.ghost, n.original)]] ∨
      done = [.rename [(n.original, n.old), (n.ghost, n.original)]] := by
    unfold swapTables at hdone
    split at hdone <;> simp only [List.prefix_cons_iff, List.prefix_nil] at hdone <;> grind
  -- in each case the names are those of `s`, up to the three that were renamed
  rcases hcases with rfl | rfl | rfl | rfl
  all_goals
    simp [run, exec, rename, renameOne, ha, hb, hold, Function.update, hoo, hgo, Ne.symm hog] at h
    cases h
    cases fails
    all_goals
      funext name
      simp [renameTablesRollback, run, rename, renameOne, ha, hb, hold, Function.update, hog,
        hoo, hgo, Ne.symm hog, Ne.symm hoo, Ne.symm hgo]
      try grind

theorem rollback_restores_small :
    ∃ s', run exec (tablesOf [smallNames.original, smallNames.ghost])
        (smallRun.swapTables smallNames) = some s' ∧
      (s'.renameTablesRollback smallNames true).named =
        (tablesOf [smallNames.original, smallNames.ghost]).named :=
  have h : (run exec (tablesOf [smallNames.original, smallNames.ghost])
      (smallRun.swapTables smallNames)).isSome := by decide +kernel
  ⟨_, (Option.some_get h).symm, rollback_restores (r := smallRun) (by decide +kernel)
    (by decide +kernel) (by decide +kernel) (by decide +kernel) (List.prefix_refl _)
    (Option.some_get h).symm true⟩

end TableRun

/-! ## Any number of runs -/

namespace TableRuns

variable {own : List (List UInt8)} {original : List UInt8}

/-- The table has a name that is not one of gh-ost's own. -/
def Named (own : List (List UInt8)) (s : Tables) (t : Nat) : Prop :=
  ∃ name, name ∉ own ∧ s.named name = some t

/-- The statement creates and drops only gh-ost's own tables, and renames none to be one of them. -/
def Harmless (own : List (List UInt8)) : TableStatement → Prop
  | .expectMissing _ | .expectPresent _ => True
  | .create name | .drop name => name ∈ own
  | .rename pairs => ∀ pair ∈ pairs, pair.2 ∉ own
  | .rollback _ => False

/-- A run that is asked to drop no old table, and that does not revert without `--execute`. -/
structure Careful (own : List (List UInt8)) (original : List UInt8) (r : TableRun) (n : RunNames) :
    Prop where
  original : n.original = original
  changelog : n.changelog ∈ own
  checkpoint : n.checkpoint ∈ own
  ghost : r.revert = false → n.ghost ∈ own
  old : n.old ∉ own
  okToDropTable : r.okToDropTable = false
  initiallyDropOldTable : r.initiallyDropOldTable = false
  testOnReplica : r.testOnReplica = false
  noop : r.revert = true → r.noop = false

theorem Careful.harmless {r : TableRun} {n : RunNames} {instant : Bool} (horiginal : original ∉ own)
    (h : Careful own original r n) : ∀ st ∈ r.statements n instant, Harmless own st := by
  have hghost (hnoop : r.noop = true) : n.ghost ∈ own := h.ghost (by simpa [hnoop] using h.noop)
  have hinitiate : ∀ st ∈ r.initiateApplier n, Harmless own st := by
    unfold TableRun.initiateApplier TableRun.validateOrDropExistingTables
      TableRun.createChangelogTable
    split_ifs <;> simp_all [Harmless, h.changelog, h.initiallyDropOldTable, h.ghost]
  have hcutOver : ∀ st ∈ r.cutOver n, Harmless own st := by
    unfold TableRun.cutOver TableRun.swapTables
    split_ifs <;> simp_all [Harmless, h.testOnReplica, h.old, h.original]
  have hcleanup : ∀ st ∈ r.finalCleanup n, Harmless own st := by
    unfold TableRun.finalCleanup
    split_ifs <;> simp_all [Harmless, h.changelog, h.okToDropTable]
  have hread (name : List UInt8) : ∀ st ∈ [TableStatement.expectPresent name], Harmless own st := by
    simp [Harmless]
  have hcheckpoint : ∀ st ∈ TableRun.createCheckpointTable n, Harmless own st := by
    simp [TableRun.createCheckpointTable, Harmless, h.checkpoint]
  unfold TableRun.statements TableRun.revertTables TableRun.migrateTables TableRun.initiateInspector
    TableRun.inspectOriginalAndGhostTables TableRun.readLastCheckpoint
  split_ifs <;> simp only [List.forall_mem_append] <;> grind

theorem Named.rename {s s' : Tables} {t : Nat} {pairs : List (List UInt8 × List UInt8)}
    (h : Named own s t) (hpairs : ∀ pair ∈ pairs, pair.2 ∉ own) (hs : s.rename pairs = some s') :
    Named own s' t := by
  unfold Tables.rename at hs
  induction pairs generalizing s with
  | nil =>
    cases hs
    exact h
  | cons pair pairs ih =>
    obtain ⟨u, hone, hrest⟩ := Option.bind_eq_some_iff.mp hs
    refine ih ?_ (fun p hp => hpairs p (List.mem_cons_of_mem _ hp)) hrest
    obtain ⟨name, hname, hnamed⟩ := h
    unfold Tables.renameOne at hone
    split at hone
    · next t' hfrom hto =>
      cases hone
      by_cases hmoved : name = pair.1
      · refine ⟨pair.2, hpairs pair List.mem_cons_self, ?_⟩
        rw [hmoved, hfrom] at hnamed
        rw [← hnamed]
        exact Function.update_self ..
      · refine ⟨name, hname, ?_⟩
        have hne : name ≠ pair.2 := by
          rintro rfl
          rw [hto] at hnamed
          cases hnamed
        show Function.update _ _ _ name = _
        rw [Function.update_of_ne hne, Function.update_of_ne hmoved, hnamed]
    · cases hone

theorem Named.exec {s s' : Tables} {t : Nat} {st : TableStatement} (h : Named own s t)
    (hst : Harmless own st) (hs : s.exec st = some s') : Named own s' t := by
  obtain ⟨name, hname, hnamed⟩ := id h
  have hkept (hkeeps : st.keeps name) : Named own s' t :=
    ⟨name, hname, (Tables.exec_keeps hs hkeeps).trans hnamed⟩
  cases st with
  | expectMissing other => exact hkept rfl
  | expectPresent other => exact hkept rfl
  | create other => exact hkept (decide_eq_true fun heq => hname (heq ▸ hst))
  | drop other => exact hkept (decide_eq_true fun heq => hname (heq ▸ hst))
  | rename pairs => exact h.rename hst hs
  | rollback names => cases hst

/-- A run that starts is careful. -/
def CarefulAction (own : List (List UInt8)) (original : List UInt8) : TableRunsAction → Prop
  | .start r _ => ∀ n, r.runNames = .ok n → Careful own original r n
  | _ => True

/-- What is left to do is harmless, and no table that was the original is lost. -/
structure Kept (own : List (List UInt8)) (original : List UInt8) (s : TableRuns) : Prop where
  left : ∀ st ∈ s.left, Harmless own st
  originals : ∀ t ∈ s.originals, Named own s.tables t

variable {s s' : TableRuns}

theorem Kept.effect (horiginal : original ∉ own) (h : Kept own original s)
    (hs : s.effect original = some s') : Kept own original s' := by
  obtain ⟨st, hhead, hs⟩ := Option.bind_eq_some_iff.mp hs
  obtain ⟨tables, hexec, rfl⟩ := Option.map_eq_some_iff.mp hs
  refine ⟨h.left, fun t ht => ?_⟩
  rcases List.mem_append.mp ht with ht | ht
  · exact (h.originals t ht).exec (h.left st (List.mem_of_mem_head? hhead)) hexec
  · exact ⟨original, horiginal, Option.mem_toList.mp ht⟩

theorem Kept.step {a : TableRunsAction} (horiginal : original ∉ own) (h : Kept own original s)
    (ha : CarefulAction own original a) (hs : s.step original a = some s') :
    Kept own original s' := by
  cases a with
  | start r instant =>
    simp only [TableRuns.step] at hs
    split at hs
    · next n _ hn =>
      cases hs
      exact ⟨(ha n hn).harmless horiginal, h.originals⟩
    · cases hs
  | execute =>
    obtain ⟨t, ht, rfl⟩ := Option.map_eq_some_iff.mp hs
    exact ⟨fun st hst => h.left st (List.mem_of_mem_tail hst), (h.effect horiginal ht).originals⟩
  | again => exact h.effect horiginal hs
  | skip =>
    cases hs
    exact ⟨fun st hst => h.left st (List.mem_of_mem_tail hst), h.originals⟩
  | stop =>
    cases hs
    exact ⟨by simp, h.originals⟩

/-- **No table that was ever the original is lost** by careful runs, whatever fails. -/
theorem originals_kept {tables : Tables} (horiginal : original ∉ own)
    (h : Reach (TableRuns.step original) (fun _ a => CarefulAction own original a)
      { tables, originals := (tables.named original).toList } s) :
    ∀ t ∈ s.originals, ∃ name, name ∉ own ∧ s.tables.named name = some t := by
  have hkept : Kept own original s := by
    refine h.invariant ⟨by simp, fun t ht => ?_⟩ fun _ _ _ hinv ha hs => hinv.step horiginal ha hs
    exact ⟨original, horiginal, Option.mem_toList.mp ht⟩
  exact hkept.originals

open TableRun

/-- A migration that is killed after its cut-over, and its revert. -/
def killedAndReverted : List TableRunsAction :=
  .start { smallRun with checkpoint := true } false :: List.replicate 10 .execute ++
    .stop :: .start smallRevert false :: List.replicate 7 .execute

theorem originals_kept_small :
    ∃ s, run (TableRuns.step smallNames.original)
        { tables := tablesOf [smallNames.original], originals := [0] } killedAndReverted = some s ∧
      ∀ t ∈ s.originals,
        ∃ name, name ∉ [smallNames.ghost, smallNames.changelog, smallNames.checkpoint] ∧
        s.tables.named name = some t := by
  have h : (run (TableRuns.step smallNames.original)
      { tables := tablesOf [smallNames.original], originals := [0] } killedAndReverted).isSome := by
    decide +kernel
  have horiginal : smallNames.original ∉
      [smallNames.ghost, smallNames.changelog, smallNames.checkpoint] := by decide +kernel
  refine ⟨_, (Option.some_get h).symm, originals_kept horiginal
    (run_reach .init ?_ (Option.some_get h).symm)⟩
  intro a ha _
  simp only [killedAndReverted, List.cons_append, List.mem_cons, List.mem_append,
    List.mem_replicate] at ha
  rcases ha with rfl | ⟨-, rfl⟩ | rfl | rfl | ⟨-, rfl⟩
  · rintro n ⟨⟩
    exact ⟨rfl, by decide +kernel, by decide +kernel, fun _ => by decide +kernel, by decide +kernel,
      rfl, rfl, rfl, fun _ => rfl⟩
  · trivial
  · trivial
  · rintro n ⟨⟩
    exact ⟨rfl, by decide +kernel, by decide +kernel, by decide +kernel, by decide +kernel, rfl,
      rfl, rfl, fun _ => rfl⟩
  · trivial

end TableRuns

end GhOst.Logic
