import GhOst.Infra.Steps
import GhOst.Properties.Replay

/-!
# Copy/replay convergence

The invariant is per key: either the ghost holds a cell of a version at least as new as the last
applied event, or the row copy has not reached the key yet (`State.Pending`) and the ghost holds
nothing under it. A commit adds a version, a batch raises the bound, and a chunk copy settles the
keys of its range. When nothing is pending and all events are applied, every cell of the ghost is
the current one.
-/

namespace GhOst.Logic

open GhOst.Sql GhOst.Binlog Infra

variable {σ κ : Type} [LinearOrder κ]

/-! ## The keys that are still to be copied -/

/-- Where the current chunk starts, or the next one will. -/
def State.copyStart (s : State σ κ) : Option (List κ) :=
  if s.inChunk then s.migrationIterationRangeMinValues else s.nextRangeMin

/-- The key lies in the range that is still to be copied. -/
structure State.Pending (s : State σ κ) (k : List κ) : Prop where
  further : s.hasNoFurtherRange = false
  start : ∀ start, s.copyStart = some start →
    start < k ∨ s.includeRangeStartValues = true ∧ start = k
  stop : s.rangeRead = true → ∃ stop, s.migrationRangeMaxValues = some stop ∧ k ≤ stop

namespace Migration

/-- The versions of the original, as the ghost would store them. -/
def version (m : Migration σ κ) (content : List (Row σ)) (history : List (RowChange σ)) (j : Nat) :
    List κ → Option (Row σ) :=
  m.projectedCell (m.contentAt content history j)

/-- Every key is up to version `a`, or is among the keys `P` still to be copied and has no row. -/
def Cells (m : Migration σ κ) (content : List (Row σ)) (history : List (RowChange σ))
    (P : List κ → Prop) (a : Nat) (ghost : List (Row σ)) : Prop :=
  ∀ k, AtLeast (m.version content history) history.length a (m.cell ghost) k ∨
    (P k ∧ m.cell ghost k = none)

/-- The invariant of copy and replay, for runs that start from `content`. -/
structure Inv (m : Migration σ κ) (content : List (Row σ)) (s : State σ κ) : Prop where
  start : m.Content content
  original : s.original = m.contentAt content s.history s.history.length
  valid : ∀ j change, s.history[j]? = some change →
    m.Valid (m.contentAt content s.history j) change
  applied_le : s.applied ≤ s.delivered
  delivered_le : s.delivered ≤ s.history.length
  ghostKeys : KeysNodup m.key s.ghost
  ghostStored : ∀ q ∈ s.ghost, m.Stored q
  cells : m.Cells content s.history s.Pending s.applied s.ghost
  unread : s.rangeRead = false → s.migrationRangeMinValues = none ∧ s.inChunk = false ∧
    s.hasNoFurtherRange = false
  range : s.rangeRead = true → s.migrationRangeMinValues = none → s.migrationRangeMaxValues = none
  iteration : s.inChunk = false → (s.iteration = 0 ↔ s.migrationIterationRangeMaxValues = none)
  chunk : s.inChunk = true → ∃ start stop last,
    s.migrationIterationRangeMinValues = some start ∧
    s.migrationIterationRangeMaxValues = some stop ∧ s.migrationRangeMaxValues = some last ∧
    start ≤ stop ∧ stop ≤ last

variable {m : Migration σ κ} {content : List (Row σ)} {history : List (RowChange σ)}
  {s s' : State σ κ} {P P' : List κ → Prop} {a : Nat} {ghost ghost' : List (Row σ)}
variable {change : RowChange σ} {changes : List (RowChange σ)} {n : Nat}

/-! ## Versions -/

theorem contentAt_succ {j : Nat} (h : history[j]? = some change) :
    m.contentAt content history (j + 1) = m.perform (m.contentAt content history j) change := by
  unfold contentAt
  rw [List.take_add_one, h, Option.toList_some, List.foldl_append]
  rfl

theorem contentAt_append {j : Nat} (hj : j ≤ history.length) :
    m.contentAt content (history ++ changes) j = m.contentAt content history j := by
  unfold contentAt
  rw [List.take_append_of_le_length hj]

theorem Content.contentAt (hc : m.Content content)
    (hv : ∀ j change, history[j]? = some change →
      m.Valid (m.contentAt content history j) change) :
    ∀ j, j ≤ history.length → m.Content (m.contentAt content history j)
  | 0, _ => hc
  | j + 1, hj => by
    have hget := List.getElem?_eq_getElem (Nat.lt_of_succ_le hj)
    rw [contentAt_succ hget]
    exact (Content.contentAt hc hv j (by omega)).perform (hv j _ hget)

theorem performAll_eq [DecidableEq σ] : ∀ {changes : List (RowChange σ)}
    {original original' : List (Row σ)}, m.performAll original changes = some original' →
      original' = m.contentAt original changes changes.length ∧
      ∀ j change, changes[j]? = some change → m.Valid (m.contentAt original changes j) change
  | [], original, original', h => by
    rw [performAll, Option.some.injEq] at h
    exact ⟨h.symm, by simp⟩
  | change :: changes, original, original', h => by
    rw [performAll] at h
    split at h
    · next hv =>
      obtain ⟨heq, hrest⟩ := performAll_eq h
      refine ⟨heq, ?_⟩
      intro j c hj
      cases j with
      | zero =>
        rw [List.getElem?_cons_zero, Option.some.injEq] at hj
        exact hj ▸ hv
      | succ j => exact hrest j c hj
    · simp at h

theorem contentAt_append_right (j : Nat) :
    m.contentAt content (history ++ changes) (history.length + j)
      = m.contentAt (m.contentAt content history history.length) changes j := by
  unfold contentAt
  rw [List.take_length, List.take_length_add_append, List.foldl_append]

theorem performAll_history [DecidableEq σ] {original original' : List (Row σ)}
    (ho : original = m.contentAt content history history.length)
    (hv : ∀ j change, history[j]? = some change → m.Valid (m.contentAt content history j) change)
    (hp : m.performAll original changes = some original') :
    original' = m.contentAt content (history ++ changes) (history ++ changes).length ∧
      ∀ j change, (history ++ changes)[j]? = some change →
        m.Valid (m.contentAt content (history ++ changes) j) change := by
  obtain ⟨heq, hvalid⟩ := performAll_eq hp
  rw [ho] at heq hvalid
  refine ⟨by rw [List.length_append, contentAt_append_right]; exact heq, ?_⟩
  intro j change hj
  by_cases hlt : j < history.length
  · rw [List.getElem?_append_left hlt] at hj
    rw [contentAt_append (Nat.le_of_lt hlt)]
    exact hv j change hj
  · obtain ⟨i, rfl⟩ := Nat.exists_eq_add_of_le (Nat.not_lt.mp hlt)
    rw [List.getElem?_append_right (by omega), Nat.add_sub_cancel_left] at hj
    rw [contentAt_append_right]
    exact hvalid i change hj

/-! ## What keeps `Cells` -/

theorem Cells.shrink (h : m.Cells content history P a ghost) (ha : a ≤ history.length)
    (hP : ∀ k, P k → P' k ∨ m.version content history history.length k = none) :
    m.Cells content history P' a ghost := by
  intro k
  rcases h k with h | ⟨hk, hnone⟩
  · exact .inl h
  · rcases hP k hk with hk | hv
    · exact .inr ⟨hk, hnone⟩
    · exact .inl (.of_none hnone hv ha (Nat.le_refl _))

theorem Cells.append (h : m.Cells content history P a ghost) (changes : List (RowChange σ)) :
    m.Cells content (history ++ changes) P a ghost := by
  intro k
  refine (h k).imp_left fun h => h.extend (by rw [List.length_append]; omega) ?_
  intro j hj
  unfold version
  rw [contentAt_append hj]

theorem Cells.follow (hm : m.CarriesOver) (hc : m.Content (m.contentAt content history a))
    (hget : history[a]? = some change) (hv : m.Valid (m.contentAt content history a) change)
    (hclean : m.CleanChange ghost change) (hf : m.follow ghost change = some ghost')
    (h : m.Cells content history P a ghost) : m.Cells content history P (a + 1) ghost' := by
  have hlt : a < history.length := (List.getElem?_eq_some_iff.mp hget).1
  have hfol : Follows (m.version content history a) (m.version content history (a + 1))
      (m.cell ghost) (m.cell ghost') := by
    unfold version
    rw [contentAt_succ hget]
    exact hm.follow_follows hc hv hclean hf
  intro k
  rcases h k with h | ⟨hk, hnone⟩
  · exact .inl (h.follows hlt hfol)
  · exact (hfol.none_or hlt hnone).symm.imp_right fun h => ⟨hk, h⟩

theorem CarriesOver.applyBatch_rule (hm : m.CarriesOver)
    (hc : m.Content content) (hv : ∀ j change, history[j]? = some change →
      m.Valid (m.contentAt content history j) change)
    {Q : Nat → List (Row σ) → Prop} (hstored : ∀ {a ghost}, Q a ghost → ∀ q ∈ ghost, m.KeyStored q)
    (hstep : ∀ {a change ghost ghost'}, history[a]? = some change →
      m.Content (m.contentAt content history a) → m.Valid (m.contentAt content history a) change →
      m.CleanChange ghost change → m.follow ghost change = some ghost' → Q a ghost →
      Q (a + 1) ghost') :
    ∀ {changes : List (RowChange σ)} {a : Nat} {ghost : List (Row σ)},
      (∀ i c, changes[i]? = some c → history[a + i]? = some c) →
      m.applyBatch ghost changes = some ghost' → m.cleanBatch ghost changes = true →
      Q a ghost → Q (a + changes.length) ghost'
  | [], a, ghost, _, hb, _, h => by
    rw [Migration.applyBatch] at hb
    exact Option.some.inj hb ▸ h
  | change :: changes, a, ghost, hget, hb, hcl, h => by
    have hcontent : ∀ {i c}, history[i]? = some c → m.Content (m.contentAt content history i) :=
      fun hi => hc.contentAt hv _ (Nat.le_of_lt (List.getElem?_eq_some_iff.mp hi).1)
    have hadmits : ∀ c ∈ change :: changes, ∀ r ∈ c.rows, m.Admits r := by
      intro c hcm
      obtain ⟨i, hi⟩ := List.mem_iff_getElem?.mp hcm
      exact (hv _ c (hget i c hi)).rows_admits (hcontent (hget i c hi))
    have hhead : history[a]? = some change := hget 0 change rfl
    obtain ⟨ghost₁, hf, hclean, hb', hcl'⟩ := hm.applyBatch_cons (hstored h) hadmits hb hcl
    have hrest := hm.applyBatch_rule hc hv hstored hstep
      (fun i c hi => by
        have := hget (i + 1) c hi
        rwa [show a + (i + 1) = a + 1 + i by omega] at this)
      hb' hcl' (hstep hhead (hcontent hhead) (hv a change hhead) hclean hf h)
    rwa [show a + 1 + changes.length = a + (change :: changes).length by
      rw [List.length_cons]; omega] at hrest

theorem Cells.applyBatch (hm : m.CarriesOver) (hc : m.Content content)
    (hv : ∀ j change, history[j]? = some change → m.Valid (m.contentAt content history j) change)
    (hget : ∀ i c, changes[i]? = some c → history[a + i]? = some c)
    (hn : KeysNodup m.key ghost) (hs : ∀ q ∈ ghost, m.Stored q)
    (hb : m.applyBatch ghost changes = some ghost') (hcl : m.cleanBatch ghost changes = true)
    (h : m.Cells content history P a ghost) :
    KeysNodup m.key ghost' ∧ (∀ q ∈ ghost', m.Stored q) ∧
      m.Cells content history P (a + changes.length) ghost' := by
  refine hm.applyBatch_rule (Q := fun a ghost => KeysNodup m.key ghost ∧
      (∀ q ∈ ghost, m.Stored q) ∧ m.Cells content history P a ghost) hc hv
    (fun h q hq => hm.keyStored_of_stored (h.2.1 q hq)) ?_ hget hb hcl ⟨hn, hs, h⟩
  rintro a change ghost ghost' hhead hc hv hclean hf ⟨hn, hs, h⟩
  exact ⟨follow_keysNodup hn hf, follow_forall (fun h => ⟨_, h, rfl⟩) hs (hv.rows_admits hc) hf,
    h.follow hm hc hhead hv hclean hf⟩

theorem Cells.copy (hm : m.CarriesOver) (ha : a ≤ history.length) {original : List (Row σ)}
    (ho : original = m.contentAt content history history.length) (hc : m.Content original)
    {start stop : List κ} {incl : Bool}
    (hclean : m.cleanRows ghost (m.chunkRows original start stop incl) = true)
    (hP : ∀ k, P k → P' k ∨ InRange start stop incl k)
    (h : m.Cells content history P a ghost) :
    m.Cells content history P' a
      (m.insertIgnoreAll ghost (m.chunkRows original start stop incl)) := by
  have hfills := hm.insertIgnoreAll_fills hc hclean
  have hcurrent : m.projectedCell original = m.version content history history.length := by
    rw [ho]
    rfl
  rw [hcurrent] at hfills
  intro k
  by_cases hk : InRange start stop incl k
  · exact .inl (hfills.copied hk ha ((h k).symm.imp_left And.right))
  · rcases h k with h | ⟨hPk, hnone⟩
    · exact .inl (h.fills ha hfills)
    · exact .inr ⟨(hP k hPk).resolve_right hk, (hfills.outside hk).trans hnone⟩

/-! ## The ends of ranges -/

section Ranges

variable {original : List (Row σ)} {start stop e : List κ} {incl : Bool} {chunkSize : Nat}

theorem nextRangeEnd_none
    (h : m.nextRangeEnd original start stop incl chunkSize = none) :
    ∀ row ∈ original, ¬ InRange start stop incl (m.key row) := by
  intro row hrow hin
  have hmem : m.key row ∈ ((original.map m.key).filter
      fun k => InRange start stop incl k).insertionSort (· ≤ ·) := by
    rw [List.mem_insertionSort, List.mem_filter]
    exact ⟨List.mem_map_of_mem hrow, by simpa using hin⟩
  have hlen := List.length_pos_of_mem hmem
  unfold nextRangeEnd at h
  rw [List.getElem?_eq_none_iff] at h
  omega

theorem nextRangeEnd_some (h : m.nextRangeEnd original start stop incl chunkSize = some e) :
    InRange start stop incl e := by
  have hmem := List.mem_of_getElem? h
  rw [List.mem_insertionSort, List.mem_filter] at hmem
  simpa using hmem.2

theorem range_bounds {row : Row σ} (hrow : row ∈ original) :
    ∃ lo hi, ((original.map m.key).insertionSort (· ≤ ·)).head? = some lo ∧
      ((original.map m.key).insertionSort (· ≤ ·)).getLast? = some hi ∧
      lo ≤ m.key row ∧ m.key row ≤ hi := by
  refine exists_bounds_of_mem (List.pairwise_insertionSort _ _) ?_
  exact (List.mem_insertionSort _).mpr (List.mem_map_of_mem hrow)

end Ranges

/-! ## The actions keep the invariant -/

omit [LinearOrder κ] in
theorem getElem?_batch {i : Nat} (h : (s.batch n)[i]? = some change) :
    s.history[s.applied + i]? = some change := by
  unfold State.batch at h
  rw [List.getElem?_take] at h
  split at h
  · rwa [List.getElem?_drop] at h
  · simp at h

omit [LinearOrder κ] in
theorem length_batch_le (n : Nat) : (s.batch n).length ≤ s.delivered - s.applied := by
  unfold State.batch
  rw [List.length_take]
  omega

/-- Rows are ignored only because of their own key. -/
def CleanStep (m : Migration σ κ) (s : State σ κ) : Action σ → Prop
  | .applyEvents dmlBatchSize => m.cleanBatch s.ghost (s.batch dmlBatchSize) = true
  | .applyIterationInsertQuery => m.cleanRows s.ghost (m.currentChunk s) = true
  | _ => True

instance (m : Migration σ κ) (s : State σ κ) (a : Action σ) : Decidable (m.CleanStep s a) := by
  cases a <;> unfold CleanStep <;> infer_instance

section Step

variable (h : m.Inv content s)
include h

theorem Inv.applied_le_length : s.applied ≤ s.history.length :=
  Nat.le_trans h.applied_le h.delivered_le

theorem Inv.current : m.Content s.original := by
  rw [h.original]
  exact h.start.contentAt h.valid _ (Nat.le_refl _)

theorem Inv.version_none {k : List κ} (hk : ∀ row ∈ s.original, m.key row ≠ k) :
    m.version content s.history s.history.length k = none := by
  unfold version projectedCell
  rw [← h.original, lookup_eq_none_of_free hk]
  rfl

variable [DecidableEq σ]

theorem Inv.commit (hs : m.step s (.commit changes) = some s') :
    m.Inv content s' := by
  obtain ⟨original, hp, rfl⟩ := step_commit hs
  obtain ⟨heq, hvalid⟩ := performAll_history h.original h.valid hp
  exact {
    start := h.start
    original := heq
    valid := hvalid
    applied_le := h.applied_le
    delivered_le := Nat.le_trans h.delivered_le (by rw [List.length_append]; omega)
    ghostKeys := h.ghostKeys
    ghostStored := h.ghostStored
    cells := fun k => ((h.cells.append changes) k).imp_right fun ⟨hp, hn⟩ =>
      ⟨⟨hp.further, hp.start, hp.stop⟩, hn⟩
    unread := h.unread
    range := h.range
    iteration := h.iteration
    chunk := h.chunk }

theorem Inv.deliver (hs : m.step s .deliver = some s') : m.Inv content s' := by
  obtain ⟨hlt, rfl⟩ := step_deliver hs
  exact { h with
    applied_le := Nat.le_succ_of_le h.applied_le
    delivered_le := hlt
    cells := fun k => (h.cells k).imp_right fun ⟨hp, hn⟩ =>
      ⟨⟨hp.further, hp.start, hp.stop⟩, hn⟩ }

theorem Inv.applyEvents (hm : m.CarriesOver)
    (hclean : m.CleanStep s (.applyEvents n)) (hs : m.step s (.applyEvents n) = some s') :
    m.Inv content s' := by
  obtain ⟨hlt, ghost, hb, rfl⟩ := step_applyEvents hs
  have hlen := @length_batch_le _ _ s n
  obtain ⟨hn, hst, hcells⟩ := Cells.applyBatch hm h.start h.valid (fun _ _ => getElem?_batch)
    h.ghostKeys h.ghostStored hb hclean h.cells
  exact { h with
    applied_le := by show s.applied + (s.batch n).length ≤ s.delivered; omega
    ghostKeys := hn
    ghostStored := hst
    cells := fun k => (hcells k).imp_right fun ⟨hp, hn⟩ =>
      ⟨⟨hp.further, hp.start, hp.stop⟩, hn⟩ }

theorem Inv.readMigrationRangeValues
    (hs : m.step s .readMigrationRangeValues = some s') : m.Inv content s' := by
  obtain ⟨hread, rfl⟩ := step_readMigrationRangeValues hs
  obtain ⟨hmin, hchunk, hfurther⟩ := h.unread hread
  refine { h with
    cells := h.cells.shrink h.applied_le_length ?_
    unread := by simp
    range := ?_
    chunk := by simp [hchunk] }
  · intro k hk
    by_cases hmem : ∃ row ∈ s.original, m.key row = k
    · obtain ⟨row, hrow, rfl⟩ := hmem
      obtain ⟨lo, hi, hlo, hhi, hle, hle'⟩ := range_bounds (m := m) hrow
      refine .inl ⟨hk.further, ?_, fun _ => ⟨hi, hhi, hle'⟩⟩
      intro start hstart
      unfold State.copyStart State.nextRangeMin at hstart
      rw [if_neg (by simp [hchunk])] at hstart
      cases hmax : s.migrationIterationRangeMaxValues with
      | none =>
        -- nothing was copied yet: the copy starts at the first key, which is part of the range
        rw [hmax, Option.none_or, hlo, Option.some.injEq] at hstart
        have hzero : s.iteration = 0 := (h.iteration hchunk).mpr hmax
        rw [← hstart]
        exact hle.lt_or_eq.imp_right fun he => ⟨by simp [State.includeRangeStartValues, hzero], he⟩
      | some last =>
        rw [hmax, Option.some_or] at hstart
        refine hk.start start ?_
        unfold State.copyStart State.nextRangeMin
        rw [if_neg (by simp [hchunk]), hmax, Option.some_or]
        exact hstart
    · -- a key outside the range that was read is not in the original
      exact .inr (h.version_none fun row hrow he => hmem ⟨row, hrow, he⟩)
  · intro _ hnone
    show List.getLast? _ = none
    rw [List.getLast?_eq_none_iff]
    exact List.head?_eq_none_iff.mp hnone

theorem Inv.calculate
    (hs : m.step s (.calculateNextIterationRangeEndValues n) = some s') : m.Inv content s' := by
  obtain ⟨hread, hchunk, start, stop, hstart, hstop, hcase⟩ := step_calculate hs
  have hcopy : s.copyStart = some start := by
    unfold State.copyStart
    rw [if_neg (by simp [hchunk]), hstart]
  -- the keys still to be copied are those of the range that is searched
  have hpending : ∀ k, s.Pending k → InRange start stop s.includeRangeStartValues k := by
    intro k hk
    obtain ⟨stop', hstop', hle⟩ := hk.stop hread
    rw [hstop, Option.some.injEq] at hstop'
    exact ⟨hk.start start hcopy, hstop' ▸ hle⟩
  rcases hcase with ⟨hnone, rfl⟩ | ⟨rangeEnd, hend, rfl⟩
  · exact { h with
      cells := h.cells.shrink h.applied_le_length fun k hk =>
        .inr (h.version_none fun row hrow he =>
          nextRangeEnd_none hnone row hrow (he ▸ hpending k hk))
      unread := by simp [hread]
      chunk := by simp [hchunk] }
  · have hin := nextRangeEnd_some hend
    exact { h with
      cells := h.cells.shrink h.applied_le_length fun k hk =>
        .inl ⟨hk.further, fun st hst => hk.start st (hcopy.trans hst), hk.stop⟩
      unread := by simp [hread]
      iteration := by simp
      chunk := fun _ => ⟨start, rangeEnd, stop, rfl, rfl, hstop,
        hin.1.elim le_of_lt fun he => le_of_eq he.2, hin.2⟩ }

theorem Inv.applyIterationInsertQuery (hm : m.CarriesOver)
    (hclean : m.CleanStep s .applyIterationInsertQuery)
    (hs : m.step s .applyIterationInsertQuery = some s') : m.Inv content s' := by
  obtain ⟨hchunk, rfl⟩ := step_applyIterationInsertQuery hs
  obtain ⟨start, stop, last, hstart, hstop, hlast, hle, hle'⟩ := h.chunk hchunk
  have hrows : m.currentChunk s
      = m.chunkRows s.original start stop s.includeRangeStartValues := by
    unfold currentChunk
    rw [hstart, hstop]
  have hread : s.rangeRead = true := by
    cases hr : s.rangeRead with
    | true => rfl
    | false => simp [(h.unread hr).2.1] at hchunk
  have hcopy : s.copyStart = some start := by
    unfold State.copyStart
    rw [if_pos hchunk, hstart]
  rw [CleanStep, hrows] at hclean
  rw [hrows]
  exact { h with
    ghostKeys := insertIgnoreAll_keysNodup _ h.ghostKeys
    ghostStored := by
      intro q hq
      rcases mem_insertIgnoreAll _ hq with hq | hq
      · exact h.ghostStored q hq
      · obtain ⟨row, hrow, rfl⟩ := List.mem_map.mp hq
        exact ⟨row, h.current.admits row (List.mem_filter.mp hrow).1, rfl⟩
    cells := by
      refine h.cells.copy hm h.applied_le_length h.original h.current hclean ?_
      intro k hk
      -- what is left is what lies above the end of the chunk
      by_cases hkey : stop < k
      · refine .inl ⟨hk.further, ?_, hk.stop⟩
        intro st hst
        simp only [State.copyStart, State.nextRangeMin, hstop, Option.some_or, if_false,
          Option.some.injEq, Bool.false_eq_true] at hst
        exact .inl (hst ▸ hkey)
      · exact .inr ⟨hk.start start hcopy, not_lt.mp hkey⟩
    unread := by simp [hread]
    iteration := fun _ => by simp [hstop]
    chunk := by simp }

theorem Inv.step (hm : m.CarriesOver) {a : Action σ} (hclean : m.CleanStep s a)
    (hs : m.step s a = some s') : m.Inv content s' := by
  cases a with
  | commit changes => exact h.commit hs
  | deliver => exact h.deliver hs
  | applyEvents n => exact h.applyEvents hm hclean hs
  | readMigrationRangeValues => exact h.readMigrationRangeValues hs
  | calculateNextIterationRangeEndValues n => exact h.calculate hs
  | applyIterationInsertQuery => exact h.applyIterationInsertQuery hm hclean hs

/-! ## Convergence -/

end Step

theorem Inv.init (hc : m.Content content) : m.Inv content { original := content } where
  start := hc
  original := rfl
  valid := by simp
  applied_le := Nat.le_refl _
  delivered_le := Nat.le_refl _
  ghostKeys := List.nodup_nil
  ghostStored := by simp
  cells := fun k => .inr ⟨⟨rfl, fun start h => by simp [State.copyStart, State.nextRangeMin] at h,
    by simp⟩, rfl⟩
  unread := fun _ => ⟨rfl, rfl, rfl⟩
  range := by simp
  iteration := fun _ => by simp
  chunk := by simp

theorem Inv.not_pending (h : m.Inv content s) (hdone : s.RowCopyDone) (k : List κ) :
    ¬ s.Pending k := by
  intro hk
  obtain ⟨hread, hfurther | hmin⟩ := hdone
  · exact absurd (hk.further.symm.trans hfurther) (by simp)
  · obtain ⟨stop, hstop, _⟩ := hk.stop hread
    rw [h.range hread hmin] at hstop
    simp at hstop

theorem Inv.converged (hm : m.CarriesOver) (h : m.Inv content s) (hdone : s.RowCopyDone)
    (happlied : s.applied = s.history.length) : s.ghost.Perm (s.original.map m.project) := by
  have hkeys : ∀ r ∈ s.original, m.key (m.project r) = m.key r :=
    fun r hr => hm.key_project (h.current.admits r hr)
  refine perm_of_lookup_eq h.ghostKeys (h.current.keys.map hkeys) fun k => ?_
  rcases h.cells k with hat | ⟨hk, _⟩
  · rw [happlied] at hat
    rw [lookup_map hkeys]
    have heq := hat.eq
    unfold version at heq
    rwa [← h.original] at heq
  · exact absurd hk (h.not_pending hdone k)

theorem Inv.of_reach [DecidableEq σ] (hm : m.CarriesOver) (hc : m.Content content)
    (hr : Reach m.step m.CleanStep { original := content } s) : m.Inv content s :=
  hr.invariant (Inv.init hc) fun _ _ _ h hclean hs => h.step hm hclean hs

theorem cleanRows_of_no_further (h : m.ix.further = []) :
    ∀ {rows ghost : List (Row σ)}, m.cleanRows ghost rows = true
  | [], _ => rfl
  | row :: rows, ghost => by
    rw [cleanRows, Bool.and_eq_true, decide_eq_true_iff]
    exact ⟨Server.clean_of_no_further h, cleanRows_of_no_further h⟩

theorem cleanStep_of_no_further (h : m.ix.further = []) (s : State σ κ) (a : Action σ) :
    m.CleanStep s a := by
  cases a with
  | applyEvents n =>
    rw [CleanStep, cleanBatch]
    split
    · exact Server.cleanAll_of_no_further h
    · rfl
  | applyIterationInsertQuery => exact cleanRows_of_no_further h
  | _ => trivial

/-- **Copy/replay convergence.** In every run, once the row copy is done and all events are applied,
the ghost has exactly the projected rows of the original. -/
theorem copy_replay_converges [DecidableEq σ] (hm : m.CarriesOver) (hix : m.ix.further = [])
    (hc : m.Content content) (hr : Reachable m.step { original := content } s)
    (hdone : s.RowCopyDone) (happlied : s.applied = s.history.length) :
    s.ghost.Perm (s.original.map m.project) :=
  (Inv.of_reach hm hc (hr.mono fun s a _ => cleanStep_of_no_further hix s a)).converged hm hdone
    happlied

/-- A run in which the row 1 moves to the key 4 while its chunk is being copied. -/
theorem copy_replay_converges_small :
    ∃ s, Reachable (smallMigration []).step
        { original := [smallRow 1 10, smallRow 2 20, smallRow 3 30] } s ∧
      s.RowCopyDone ∧ s.applied = s.history.length ∧ s.history.length = 2 ∧
      s.ghost.Perm (s.original.map (smallMigration []).project) := by
  refine exists_reach_of
    (fun s => s.RowCopyDone ∧ s.applied = s.history.length ∧ s.history.length = 2)
    [.readMigrationRangeValues, .calculateNextIterationRangeEndValues 2,
      .commit [.update (smallRow 1 10) (smallRow 4 10), .delete (smallRow 3 30)],
      .applyIterationInsertQuery, .deliver, .applyEvents 5,
      .calculateNextIterationRangeEndValues 2, .deliver, .applyEvents 1] (by decide) ?_
  rintro s hr ⟨hdone, happlied, hlen⟩
  exact ⟨hdone, happlied, hlen, copy_replay_converges (smallMigration_carriesOver [])
    rfl ⟨by decide, by decide⟩ hr hdone happlied⟩

end Migration

end GhOst.Logic
