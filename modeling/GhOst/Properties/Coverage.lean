import GhOst.Infra.Steps
import GhOst.Properties.RowCopy

/-!
# The row copy covers the table

Each chunk takes at least one key and each task has a bounded number of attempts, which bounds the
whole run. A loop that no error has ended goes on until the row copy is declared complete.
-/

namespace GhOst.Logic

open GhOst.Sql Infra

namespace RowCopy

variable {κ : Type} [LinearOrder κ] {ctx : RowCopyContext κ} {s s' : RowCopy κ} {r : Range κ}
variable {c e : List κ} {n : Nat} {start : Start κ}

/-! ## The loop ends -/

/-- One more than the keys that are left, until the last range was looked for. -/
def pending (ctx : RowCopyContext κ) (r : Range κ) (s : RowCopy κ) : Nat :=
  if s.hasNoFurtherRange = true ∨ s.task = .stopped then 0
  else
    match s.cursor with
    | none => 0
    | some c => (ctx.keysIn c r.stop (s.iteration == 0)).length + 1

/-- The steps of a task, and those that the next task can take. -/
def taskWork (maxRetries : Nat) (further : Bool) : CopyTaskAt → Nat
  | .idle => if further then 2 * maxRetries + 4 else 0
  | .calculate n => 2 * (maxRetries - n) + 2
  | .insert n => 2 * (maxRetries - n) + 1
  | .stopped => 0

/-- A task that is being sent when there is no further range is still taken. -/
def iterateWork (maxRetries : Nat) (further : Bool) : IterateChunksAt → Nat
  | .begin => 3
  | .checking => if further then 2 else 1
  | .sending => if further then 1 else 2 * maxRetries + 4
  | .returned => 0

def flagWork : Bool → Nat
  | true => 0
  | false => 1

def work (ctx : RowCopyContext κ) (r : Range κ) (s : RowCopy κ) : Nat :=
  pending ctx r s * (2 * ctx.maxRetries + 4)
    + taskWork ctx.maxRetries (!s.hasNoFurtherRange) s.task
    + iterateWork ctx.maxRetries (!s.hasNoFurtherRange) s.iterate
    + flagWork s.rowCopyCompleteFlag

theorem pending_of_at (hc : At ctx r s c) (hfurther : s.hasNoFurtherRange = false)
    (htask : s.task ≠ .stopped) :
    pending ctx r s = (ctx.keysIn c r.stop (s.iteration == 0)).length + 1 := by
  simp [pending, hfurther, htask, hc.cursor]

theorem pending_of_noFurtherRange (hno : s.hasNoFurtherRange = true) : pending ctx r s = 0 := by
  simp [pending, hno]

theorem pending_congr (hno : s'.hasNoFurtherRange = s.hasNoFurtherRange)
    (htask : s.task ≠ .stopped) (htask' : s'.task ≠ .stopped) (hcursor : s'.cursor = s.cursor)
    (hiteration : s'.iteration = s.iteration) : pending ctx r s' = pending ctx r s := by
  simp [pending, hno, htask, htask', hcursor, hiteration]

theorem length_keysIn_lt {stop : List κ} {incl : Bool} (he : e ∈ ctx.keysIn c stop incl) :
    (ctx.keysIn e stop false).length < (ctx.keysIn c stop incl).length := by
  have hrest : ∀ k, InRange e stop false k ↔ e < k ∧ InRange c stop incl k := by
    intro k
    rw [inRange_cut (RowCopyContext.mem_keysIn.1 he).2]
    constructor
    · intro hk
      refine ⟨?_, .inr hk⟩
      rcases hk.1 with hlt | ⟨hno, -⟩
      · exact hlt
      · simp at hno
    · rintro ⟨hlt, hk | hk⟩
      · exact absurd hk.2 (not_le.2 hlt)
      · exact hk
  have hsub : ctx.keysIn e stop false = (ctx.keysIn c stop incl).filter fun k => e < k := by
    simp only [RowCopyContext.keysIn, List.filter_filter, hrest, Bool.decide_and]
  rw [hsub]
  exact List.length_filter_lt_length_iff_exists.2 ⟨e, he, by simp⟩

theorem pending_copy {rows : List (List κ)} (hc : At ctx r s c) (htask : s.task = .insert n)
    (hfurther : s.hasNoFurtherRange = false) (hmax : s.migrationIterationRangeMaxValues = some e)
    (he : e ∈ ctx.keysIn c r.stop (s.iteration == 0))
    (hrows : rows.Perm (ctx.keysIn c e (s.iteration == 0))) :
    pending ctx r (s.copyChunk ⟨c, e, rows⟩).endTask + 1 ≤ pending ctx r s := by
  have htask' : s.task ≠ .stopped := by simp [htask]
  rw [pending_of_at hc hfurther htask',
    pending_of_at (hc.copy hmax he hrows) hfurther (by simp [endTask])]
  have hlt := length_keysIn_lt he
  have hincl : ((s.copyChunk ⟨c, e, rows⟩).endTask.iteration == 0) = false := by
    simp [endTask, copyChunk]
  rw [hincl]
  omega

theorem work_iterate_lt {place : IterateChunksAt} {complete : List Bool}
    (hlt : iterateWork ctx.maxRetries (!s.hasNoFurtherRange) place <
      iterateWork ctx.maxRetries (!s.hasNoFurtherRange) s.iterate) :
    work ctx r { s with iterate := place, rowCopyComplete := complete } < work ctx r s :=
  Nat.add_lt_add_right (Nat.add_lt_add_left hlt _) _

theorem work_flag_lt (hflag : s.rowCopyCompleteFlag = false) :
    work ctx r { s with rowCopyCompleteFlag := true } < work ctx r s := by
  have hlt : flagWork true < flagWork s.rowCopyCompleteFlag := by simp [hflag, flagWork]
  exact Nat.add_lt_add_left hlt _

theorem work_task_lt (hpending : pending ctx r s' ≤ pending ctx r s)
    (hno : s'.hasNoFurtherRange = s.hasNoFurtherRange)
    (hflag : s'.rowCopyCompleteFlag = s.rowCopyCompleteFlag)
    (hlt : taskWork ctx.maxRetries (!s.hasNoFurtherRange) s'.task
        + iterateWork ctx.maxRetries (!s.hasNoFurtherRange) s'.iterate <
      taskWork ctx.maxRetries (!s.hasNoFurtherRange) s.task
        + iterateWork ctx.maxRetries (!s.hasNoFurtherRange) s.iterate) :
    work ctx r s' < work ctx r s := by
  have hmul := Nat.mul_le_mul_right (2 * ctx.maxRetries + 4) hpending
  unfold work
  rw [hno, hflag]
  omega

omit [LinearOrder κ] in
theorem cursor_of_task (htask : s.task = .calculate n ∨ s.task = .insert n) :
    s.cursor = s.migrationIterationRangeMinValues := by
  rcases htask with htask | htask <;> simp [cursor, htask]

omit [LinearOrder κ] in
theorem taskWork_le (htask : s.task = .calculate n ∨ s.task = .insert n) (maxRetries : Nat)
    (further : Bool) : 2 * (maxRetries - n) + 1 ≤ taskWork maxRetries further s.task := by
  rcases htask with htask | htask <;> simp [taskWork, htask]

theorem work_noFurtherRange_lt (htask : s.task = .calculate n)
    (hfurther : s.hasNoFurtherRange = false) (hc : At ctx r s c) :
    work ctx r s.noFurtherRange.endTask < work ctx r s := by
  have hpending : 1 ≤ pending ctx r s := by
    rw [pending_of_at hc hfurther (by simp [htask])]
    omega
  have hmul := Nat.mul_le_mul_right (2 * ctx.maxRetries + 4) hpending
  have hpending' : pending ctx r s.noFurtherRange.endTask = 0 := pending_of_noFurtherRange rfl
  have hiterate : iterateWork ctx.maxRetries false s.iterate ≤
      2 * ctx.maxRetries + 3 + iterateWork ctx.maxRetries true s.iterate := by
    cases s.iterate <;> simp [iterateWork]
  unfold work
  rw [hpending', hfurther, htask]
  simp only [endTask, noFurtherRange, terminateRowIteration, Bool.not_true, Bool.not_false,
    taskWork, Bool.false_eq_true, if_false]
  omega

theorem work_copy_lt {rows : List (List κ)} (h : Inv ctx r s) (hc : At ctx r s c)
    (htask : s.task = .insert n) (hfurther : s.hasNoFurtherRange = false)
    (hmax : s.migrationIterationRangeMaxValues = some e)
    (he : e ∈ ctx.keysIn c r.stop (s.iteration == 0))
    (hrows : rows.Perm (ctx.keysIn c e (s.iteration == 0))) :
    work ctx r (s.copyChunk ⟨c, e, rows⟩).endTask < work ctx r s := by
  have hmul := Nat.mul_le_mul_right (2 * ctx.maxRetries + 4)
    (pending_copy hc htask hfurther hmax he hrows)
  rw [Nat.add_mul] at hmul
  have hn := h.attempt n (.inr htask)
  have hno : (s.copyChunk ⟨c, e, rows⟩).endTask.hasNoFurtherRange = false := hfurther
  unfold work
  rw [hno, hfurther, htask]
  generalize pending ctx r (s.copyChunk ⟨c, e, rows⟩).endTask = rest at hmul ⊢
  simp only [endTask, copyChunk, Bool.not_false, taskWork, if_true]
  omega

theorem Move.work_lt (m : Move ctx r s s') (h : Inv ctx r s) : work ctx r s' < work ctx r s := by
  cases m with
  | checks hat =>
    refine work_iterate_lt ?_
    rw [hat]
    cases s.hasNoFurtherRange <;> simp [iterateWork]
  | aborts hat =>
    refine work_iterate_lt (s := s) ?_
    rcases hat with hat | hat <;> rw [hat] <;> cases s.hasNoFurtherRange <;> simp [iterateWork]
  | returns hat hno =>
    refine work_iterate_lt ?_
    simp [hat, hno, iterateWork]
  | sends hat hfurther =>
    refine work_iterate_lt ?_
    simp [hat, hfurther, iterateWork]
  | takes hat htask =>
    have hcursor : RowCopy.cursor
        { s.setNextIterationRangeMinValues with iterate := .checking, task := .calculate 0 } =
        s.cursor := by
      simp [cursor, htask, setNextIterationRangeMinValues]
    refine work_task_lt (le_of_eq (pending_congr rfl (by simp [htask]) (by simp) hcursor rfl))
      rfl rfl
      ?_
    rw [hat, htask]
    cases s.hasNoFurtherRange <;> simp [taskWork, iterateWork]
  | @retries n htask hn =>
    have hcursor : s.cursor = s.migrationIterationRangeMinValues := cursor_of_task htask
    have hrunning : s.task ≠ .stopped := by rcases htask with ht | ht <;> simp [ht]
    refine work_task_lt (le_of_eq (pending_congr rfl hrunning (by simp) hcursor.symm rfl))
      rfl rfl ?_
    refine Nat.add_lt_add_right (lt_of_lt_of_le ?_ (taskWork_le htask _ _)) _
    simp only [taskWork]
    omega
  | stops htask =>
    have hpending : pending ctx r s.stop = 0 := by simp [pending, stop]
    refine work_task_lt (by omega) rfl rfl ?_
    exact Nat.add_lt_add_right (lt_of_lt_of_le (Nat.succ_pos _) (taskWork_le htask _ _)) _
  | skips htask hno =>
    have hpending : pending ctx r s.endTask = 0 := pending_of_noFurtherRange hno
    refine work_task_lt (by omega) rfl rfl (Nat.add_lt_add_right ?_ _)
    simp [endTask, htask, hno, taskWork]
  | ends htask hfurther hc hnone => exact work_noFurtherRange_lt htask hfurther hc
  | finds htask hfurther hc he =>
    have hcursor : s.cursor = s.migrationIterationRangeMinValues := cursor_of_task (.inl htask)
    refine work_task_lt (le_of_eq (pending_congr rfl (by simp [htask])
      (by simp [setIterationRangeEnd]) hcursor.symm rfl)) rfl rfl (Nat.add_lt_add_right ?_ _)
    simp [setIterationRangeEnd, htask, taskWork]
  | copies htask hfurther hc hmin hmax he hrows =>
    exact work_copy_lt h hc htask hfurther hmax he hrows
  | consumes hhead hflag => exact work_flag_lt hflag

theorem EmptyTable.work_lt {a : RowCopyAction} (h : EmptyTable s) (hs : s.step ctx a = some s') :
    work ctx r s' < work ctx r s := by
  rcases h.step hs with ⟨hat, rfl⟩ | ⟨hflag, rfl⟩
  · refine work_iterate_lt (s := s) ?_
    rw [hat]
    simp [iterateWork]
  · exact work_flag_lt hflag

/-! ## The loop goes on until the end -/

/-- No abort, and no query that fails. -/
def Clean : RowCopyAction → Prop
  | .iterate aborted => aborted = false
  | .takeTask => True
  | .calculate outcome _ _ => outcome = .ok
  | .insert ok => ok = true
  | .consumeRowCopyComplete => True

theorem calculate_enabled (h : Inv ctx r s) (htask : s.task = .calculate n) :
    ∃ s', s.step ctx (.calculate .ok 1 1) = some s' := by
  by_cases hdone : s.hasNoFurtherRange = true
  · exact ⟨s.endTask, by simp [step, calculateStep, htask, h.done_eq, hdone]⟩
  · obtain ⟨c, hc⟩ := h.copying (Bool.eq_false_iff.2 hdone) (by simp [htask])
    have hmin := (cursor_of_task (.inl htask)).symm.trans hc.cursor
    obtain ⟨q, hq, -, -⟩ :=
      RowCopyContext.calculate_spec (hc.rangeArgs h) (s.iteration == 0) Nat.one_pos Nat.one_pos
    cases q with
    | none => exact ⟨s.noFurtherRange.endTask,
        by simp [step, calculateStep, htask, h.done_eq, hdone, hmin, h.rangeMax, hq]⟩
    | some e => exact ⟨s.setIterationRangeEnd n e,
        by simp [step, calculateStep, htask, h.done_eq, hdone, hmin, h.rangeMax, hq]⟩

theorem insert_enabled (h : Inv ctx r s) (htask : s.task = .insert n) :
    ∃ s', s.step ctx (.insert true) = some s' := by
  obtain ⟨c, hc⟩ := h.copying (h.further n htask) (by simp [htask])
  have hmin := (cursor_of_task (.inr htask)).symm.trans hc.cursor
  obtain ⟨e, hmax, -⟩ := hc.next n htask
  simp only [step, insertStep, htask, hmin, hmax]
  split
  · exact ⟨_, rfl⟩
  · rw [if_neg (by simp)]
    split
    · exact ⟨_, rfl⟩
    · exact ⟨_, rfl⟩

theorem Inv.goes_on (h : Inv ctx r s) (herror : true ∉ s.rowCopyComplete)
    (hat : s.iterate ≠ .returned) : ∃ a s', Clean a ∧ s.step ctx a = some s' := by
  cases hplace : s.iterate with
  | begin => exact ⟨.iterate false, { s with iterate := .checking }, rfl,
      by simp [step, iterateStep, hplace, h.rangeMin]⟩
  | checking =>
    by_cases hdone : s.done = true
    · exact ⟨.iterate false, { s with iterate := .returned }, rfl,
        by simp [step, iterateStep, hplace, hdone]⟩
    · exact ⟨.iterate false, { s with iterate := .sending }, rfl,
        by simp [step, iterateStep, hplace, hdone]⟩
  | sending =>
    cases htask : s.task with
    | idle => exact ⟨.takeTask, _, trivial, by rw [step, takeTask, if_pos ⟨hplace, htask⟩]⟩
    | calculate n =>
      obtain ⟨s', hs⟩ := calculate_enabled h htask
      exact ⟨.calculate .ok 1 1, s', rfl, hs⟩
    | insert n =>
      obtain ⟨s', hs⟩ := insert_enabled h htask
      exact ⟨.insert true, s', rfl, hs⟩
    | stopped => exact absurd (h.stopped htask) herror
  | returned => exact absurd hplace hat

theorem EmptyTable.goes_on (h : EmptyTable s) (ctx : RowCopyContext κ)
    (hat : s.iterate ≠ .returned) :
    ∃ a s', Clean a ∧ s.step ctx a = some s' := by
  rcases h.iterate with hplace | ⟨hplace, -⟩
  · exact ⟨.iterate false, { s.terminateRowIteration false with iterate := .returned }, rfl,
      by simp [RowCopy.step, iterateStep, hplace, h.rangeMin]⟩
  · exact absurd hplace hat

/-! ## Coverage -/

/-- What holds in each state of a row copy. -/
structure Covers (ctx : RowCopyContext κ) (start : Start κ) (s : RowCopy κ) : Prop where
  increasing : (s.chunks.map (·.rangeMax)).Pairwise (· < ·)
  disjoint : s.chunks.Pairwise fun c c' => ∀ k ∈ c.rows, k ∉ c'.rows
  within : ∀ c ∈ s.chunks, ∀ k ∈ c.rows, k ∈ start.target ctx
  once : ctx.keys.Nodup → ∀ c ∈ s.chunks, c.rows.Nodup
  /-- the row copy is declared complete only after all chunks -/
  complete : false ∈ s.rowCopyComplete → ∀ k ∈ start.target ctx, Copied s.chunks k
  /-- without an error the loop does not stop before that -/
  returns : true ∉ s.rowCopyComplete → (∀ a, Clean a → s.step ctx a = none) →
    false ∈ s.rowCopyComplete

theorem Inv.covers (h : Inv ctx r s)
    (htarget : ∀ k, k ∈ ctx.keysIn r.start r.stop r.incl ↔ k ∈ start.target ctx) :
    Covers ctx start s where
  increasing := h.chunks.increasing
  disjoint := h.chunks.disjoint
  within := fun c hc k hk => (htarget k).1 (h.chunks.within c hc k hk)
  once := h.chunks.nodup
  complete := fun hmem k hk => h.all (h.complete.1 hmem) k ((htarget k).2 hk)
  returns := by
    intro herror hstuck
    by_cases hat : s.iterate = .returned
    · rcases h.returned hat with hno | hmem
      · exact h.complete.2 hno
      · exact absurd hmem herror
    · obtain ⟨a, s', ha, hs⟩ := h.goes_on herror hat
      rw [hstuck a ha] at hs
      simp at hs

theorem EmptyTable.covers (h : EmptyTable s) (hkeys : ctx.keys = []) :
    Covers ctx start s where
  increasing := by rw [h.chunks]; exact .nil
  disjoint := by rw [h.chunks]; exact .nil
  within := by simp [h.chunks]
  once := by simp [h.chunks]
  complete := by
    intro _ k hk
    cases start <;> simp [Start.target, hkeys] at hk
  returns := by
    intro _ hstuck
    rcases h.iterate with hat | ⟨-, hmem⟩
    · obtain ⟨a, s', ha, hs⟩ := h.goes_on ctx (by simp [hat])
      rw [hstuck a ha] at hs
      simp at hs
    · exact hmem

theorem emptyTable_start (hok : start.Ok ctx) (hkeys : ctx.keys = []) :
    EmptyTable (start.state ctx) := by
  cases start with
  | fresh =>
    exact ⟨by simp [Start.state, fresh, hkeys], rfl, rfl, .inl rfl, List.not_mem_nil, rfl⟩
  | resume chk =>
    obtain ⟨-, -, ⟨k, hk, -⟩, -⟩ := hok
    rw [hkeys] at hk
    exact absurd hk List.not_mem_nil

theorem length_run_le {I : RowCopy κ → Prop} {s₀ : RowCopy κ} (h₀ : I s₀)
    (hinv : ∀ s s' a, I s → RowCopy.step ctx s a = some s' → I s')
    (hwork : ∀ s s' a, I s → RowCopy.step ctx s a = some s' → work ctx r s' < work ctx r s)
    (actions : List RowCopyAction) (hrun : run (RowCopy.step ctx) s₀ actions = some s) :
    actions.length ≤ work ctx r s₀ := by
  have hstep : ∀ s s' a, I s → RowCopy.step ctx s a = some s' →
      (if true then 1 else 0) + work ctx r s' ≤ work ctx r s := by
    intro s s' a hI hs
    have hlt := hwork s s' a hI hs
    rw [if_pos rfl]
    omega
  have hcount := run_countP_le (p := fun _ => true) hinv hstep h₀ hrun
  rw [List.countP_true] at hcount
  omega

theorem iteration_pos (hok : start.Ok ctx)
    (hr : Reachable (RowCopy.step ctx) (start.state ctx) s)
    (hrange : s.lastIterationRange ≠ none) : 0 < s.iteration := by
  by_cases hkeys : ctx.keys = []
  · have h : EmptyTable s :=
      hr.invariant (emptyTable_start hok hkeys) fun s s' a h _ hs => h.inv_step hs
    exact absurd h.lastRange hrange
  · obtain ⟨r, h₀, -⟩ := inv_start hok hkeys
    have h : Inv ctx r s := hr.invariant h₀ fun s s' a h _ hs => inv_step h hs
    refine Nat.pos_of_ne_zero fun hzero => ?_
    exact hrange (h.first hzero).2

/-- **The chunks cover the table.** -/
theorem row_copy_covers (start : Start κ) (hok : start.Ok ctx) :
    (∀ s, Reachable (RowCopy.step ctx) (start.state ctx) s → Covers ctx start s) ∧
      ∃ bound, ∀ actions s, run (RowCopy.step ctx) (start.state ctx) actions = some s →
        actions.length ≤ bound := by
  by_cases hkeys : ctx.keys = []
  · have h₀ := emptyTable_start hok hkeys
    constructor
    · intro s hr
      have h : EmptyTable s := hr.invariant h₀ fun s s' a h _ hs => h.inv_step hs
      exact h.covers hkeys
    · exact ⟨work ctx ⟨[], [], true⟩ (start.state ctx), fun actions s hrun =>
        length_run_le h₀ (fun s s' a h hs => h.inv_step hs) (fun s s' a h hs => h.work_lt hs)
          actions hrun⟩
  · obtain ⟨r, h₀, htarget⟩ := inv_start hok hkeys
    constructor
    · intro s hr
      have h : Inv ctx r s := hr.invariant h₀ fun s s' a h _ hs => inv_step h hs
      exact h.covers htarget
    · exact ⟨work ctx r (start.state ctx), fun actions s hrun =>
        length_run_le h₀ (fun s s' a h hs => inv_step h hs)
          (fun s s' a h hs => (step_move h hs).work_lt h) actions hrun⟩

/-- Keys of two columns, for the witness below. -/
def smallContext : RowCopyContext (Fin 3) where
  maxRetries := 2
  format := fun v => if v = 0 then "0" else if v = 1 then "1" else "2"
  uniqueKeyColumns := ["a", "b"]
  keys := [[1, 2], [0, 1], [2, 0], [1, 0]]
  maxRetries_pos := by decide
  injective := by
    unfold Function.Injective
    decide
  ne_nil := by decide
  named := by decide
  nodup := by decide
  length_key := by decide

def smallCheckpoint : Checkpoint (Fin 3) where
  lastTrxCoords := 0
  iterationRangeMin := [0, 1]
  iterationRangeMax := [1, 0]
  iteration := 1

/-- A chunk fails after its range was found, and is attempted again with another chunk size. -/
theorem row_copy_covers_small :
    (∀ s, Reachable (RowCopy.step smallContext) (resume smallContext smallCheckpoint) s →
      Covers smallContext (.resume smallCheckpoint) s) ∧
    ∃ s, Reachable (RowCopy.step smallContext) (resume smallContext smallCheckpoint) s ∧
      (decide (s.chunks.map (·.rows) = [[[1, 2], [2, 0]]]) && s.rowCopyComplete == [false]) =
        true :=
  ⟨(row_copy_covers (.resume smallCheckpoint)
      ⟨by decide, by decide, by decide, by decide⟩).1,
    exists_reach
      [.iterate false, .iterate false, .takeTask, .calculate .ok 1 1, .insert false,
        .calculate .ok 3 5, .insert true, .iterate false, .takeTask, .calculate .ok 1 1]
      (by decide +kernel)⟩

end RowCopy

end GhOst.Logic
