import GhOst.Logic.RowCopy
import GhOst.Properties.Ranges

/-!
# The chunks of the row copy

Between two chunks the loop stands at a key, the *cursor*: what is copied are the keys up to it. A
task fixes the cursor as the start of its range before its first attempt, so that failed attempts do
not move it. From this follow the order of the chunks, that they are disjoint, and that nothing is
left when the row copy is declared complete.
-/

namespace GhOst.Logic

open GhOst.Sql

variable {κ : Type} [LinearOrder κ]

/-! ## Ranges -/

section Ranges

variable {start stop e k : List κ} {incl : Bool}

theorem InRange.start_le (he : InRange start stop incl e) : start ≤ e := by
  rcases he.1 with hlt | ⟨-, heq⟩
  · exact hlt.le
  · exact heq.le

theorem inRange_cut (he : InRange start stop incl e) :
    InRange start stop incl k ↔ InRange start e incl k ∨ InRange e stop false k := by
  have hstart := he.start_le
  unfold InRange
  constructor
  · rintro ⟨hk, hstop⟩
    rcases le_or_gt k e with hle | hgt
    · exact .inl ⟨hk, hle⟩
    · exact .inr ⟨.inl hgt, hstop⟩
  · rintro (⟨hk, hle⟩ | ⟨hk | ⟨hno, -⟩, hstop⟩)
    · exact ⟨hk, hle.trans he.2⟩
    · exact ⟨.inl (hstart.trans_lt hk), hstop⟩
    · simp at hno

theorem not_inRange_cut (hk : InRange start e incl k) : ¬ InRange e stop false k := by
  rintro ⟨hlt | ⟨hno, -⟩, -⟩
  · exact absurd hk.2 (not_le.2 hlt)
  · simp at hno

end Ranges

/-! ## The queries of an attempt -/

namespace RowCopyContext

variable {ctx : RowCopyContext κ} {start stop : List κ} {incl : Bool}
variable {k : List κ} {n : Nat}

def keysIn (ctx : RowCopyContext κ) (start stop : List κ) (incl : Bool) : List (List κ) :=
  ctx.keys.filter fun k => InRange start stop incl k

theorem mem_keysIn : k ∈ ctx.keysIn start stop incl ↔ k ∈ ctx.keys ∧ InRange start stop incl k := by
  simp [keysIn]

theorem mem_keysIn_cut {e : List κ} (he : e ∈ ctx.keysIn start stop incl) :
    k ∈ ctx.keysIn start stop incl ↔ k ∈ ctx.keysIn start e incl ∨ k ∈ ctx.keysIn e stop false := by
  rw [mem_keysIn, mem_keysIn, mem_keysIn, inRange_cut (mem_keysIn.1 he).2, and_or_left]

theorem not_mem_keysIn_cut {e : List κ} (hk : k ∈ ctx.keysIn start e incl) :
    k ∉ ctx.keysIn e stop false := by
  intro hk'
  exact not_inRange_cut (mem_keysIn.1 hk).2 (mem_keysIn.1 hk').2

theorem rangeArgs (hstart : start.length = ctx.uniqueKeyColumns.length)
    (hstop : stop.length = ctx.uniqueKeyColumns.length) (hle : start ≤ stop) :
    RangeArgs ctx.format ctx.uniqueKeyColumns ctx.keys start stop where
  injective := ctx.injective
  ne_nil := ctx.ne_nil
  named := ctx.named
  nodup := ctx.nodup
  length_key := ctx.length_key
  length_start := hstart
  length_stop := hstop
  le := hle

variable (h : RangeArgs ctx.format ctx.uniqueKeyColumns ctx.keys start stop)
include h

theorem viaOffset_eq (incl : Bool) (hn : 0 < n) :
    ∃ query, buildUniqueKeyRangeEndPreparedQueryViaOffset ctx.format ctx.uniqueKeyColumns start stop
        n incl = .ok query ∧
      query.viaOffset ctx.uniqueKeyColumns ctx.keys n =
        ((ctx.keysIn start stop incl).insertionSort (· ≤ ·))[n - 1]? := by
  unfold buildUniqueKeyRangeEndPreparedQueryViaOffset buildUniqueKeyRangeEndPreparedQuery
  rw [if_neg h.ne_nil]
  obtain ⟨query, hquery, htake⟩ := buildRangeQuery_take h n
  refine ⟨query, hquery, ?_⟩
  have hlt : n - 1 < n := by omega
  rw [RangeQuery.viaOffset, ← List.getElem?_take_of_lt hlt, htake, List.getElem?_take_of_lt hlt]
  rfl

theorem viaTemptable_eq (incl : Bool) (n : Nat) :
    ∃ query, buildUniqueKeyRangeEndPreparedQueryViaTemptable ctx.format ctx.uniqueKeyColumns start
        stop n incl = .ok query ∧
      query.viaTemptable ctx.uniqueKeyColumns ctx.keys n =
        (((ctx.keysIn start stop incl).insertionSort (· ≤ ·)).take n).getLast? := by
  unfold buildUniqueKeyRangeEndPreparedQueryViaTemptable buildUniqueKeyRangeEndPreparedQuery
  rw [if_neg h.ne_nil]
  obtain ⟨query, hquery, htake⟩ := buildRangeQuery_take h n
  refine ⟨query, hquery, ?_⟩
  rw [RangeQuery.viaTemptable, htake]
  rfl

/-- **The end of the next chunk is a key of the range, unless the range has none.** -/
theorem calculate_spec (incl : Bool) {n' : Nat} (hn : 0 < n) (hn' : 0 < n') :
    ∃ r, ctx.calculateNextIterationRangeEndValues start stop incl n n' = .ok r ∧
      (r = none → ctx.keysIn start stop incl = []) ∧
      ∀ e, r = some e → e ∈ ctx.keysIn start stop incl := by
  obtain ⟨query, hquery, hoffset⟩ := viaOffset_eq h incl hn
  obtain ⟨query', hquery', htemptable⟩ := viaTemptable_eq h incl n'
  unfold calculateNextIterationRangeEndValues
  simp only [hquery, hquery', hoffset, htemptable]
  cases he : ((ctx.keysIn start stop incl).insertionSort (· ≤ ·))[n - 1]? with
  | some e =>
    refine ⟨some e, rfl, by simp, fun e' heq => ?_⟩
    cases heq
    exact (List.mem_insertionSort _).1 (List.mem_of_getElem? he)
  | none =>
    refine ⟨_, rfl, fun hno => ?_, fun e heq => ?_⟩
    · rw [List.getLast?_eq_none_iff, List.take_eq_nil_iff] at hno
      rcases hno with hzero | hempty
      · omega
      · have hperm := List.perm_insertionSort (· ≤ ·) (ctx.keysIn start stop incl)
        rw [hempty] at hperm
        exact List.nil_perm.1 hperm
    · exact (List.mem_insertionSort _).1 (List.mem_of_mem_take (List.mem_of_getLast? heq))

theorem calculate_eq_nextRangeEnd {σ : Type} {m : Migration σ κ} {original : List (Row σ)}
    (hkeys : ctx.keys = original.map m.key) (hn : 0 < n) :
    ctx.calculateNextIterationRangeEndValues start stop incl n n =
      .ok (m.nextRangeEnd original start stop incl n) := by
  obtain ⟨query, hquery, hoffset⟩ := viaOffset_eq h incl hn
  obtain ⟨query', hquery', htemptable⟩ := viaTemptable_eq h incl n
  unfold calculateNextIterationRangeEndValues Migration.nextRangeEnd
  simp only [hquery, hquery', hoffset, htemptable, ← hkeys]
  rw [← keysIn]
  generalize (ctx.keysIn start stop incl).insertionSort (· ≤ ·) = sorted
  rcases le_or_gt n sorted.length with hle | hgt
  · rw [List.getElem?_eq_getElem (by omega : n - 1 < sorted.length), min_eq_left hle,
      List.getElem?_eq_getElem (by omega : n - 1 < sorted.length)]
  · rw [List.getElem?_eq_none (by omega : sorted.length ≤ n - 1), min_eq_right hgt.le,
      List.take_of_length_le hgt.le, List.getLast?_eq_getElem?]

/-- **A chunk copies the keys of its range.** -/
theorem insert_spec (incl : Bool) :
    ∃ query, buildRangeInsertPreparedQuery ctx.format ctx.uniqueKeyColumns start stop incl =
      .ok query ∧
      (query.rows ctx.uniqueKeyColumns ctx.keys).Perm (ctx.keysIn start stop incl) :=
  buildRangeQuery_perm h

end RowCopyContext

namespace RowCopy

variable {ctx : RowCopyContext κ} {s s' : RowCopy κ}

/-! ## Where a run starts -/

/-- The keys that a run has to copy: `start` itself only if `incl`. -/
structure Range (κ : Type) where
  start : List κ
  stop : List κ
  incl : Bool

inductive Start (κ : Type) where
  | fresh
  | resume (chk : Checkpoint κ)

def Start.state (ctx : RowCopyContext κ) : Start κ → RowCopy κ
  | .fresh => RowCopy.fresh ctx
  | .resume chk => RowCopy.resume ctx chk

def Start.target (ctx : RowCopyContext κ) : Start κ → List (List κ)
  | .fresh => ctx.keys
  | .resume chk => ctx.keys.filter fun k => chk.iterationRangeMax < k

/-- A checkpoint is taken after a chunk (see `iteration_pos`), and its range end is within the range
that is read again. -/
def Start.Ok (ctx : RowCopyContext κ) : Start κ → Prop
  | .fresh => True
  | .resume chk => 0 < chk.iteration ∧
      chk.iterationRangeMax.length = ctx.uniqueKeyColumns.length ∧
      (∃ k ∈ ctx.keys, k ≤ chk.iterationRangeMax) ∧ ∃ k ∈ ctx.keys, chk.iterationRangeMax ≤ k

/-! ## The invariant -/

def cursor (s : RowCopy κ) : Option (List κ) :=
  match s.task with
  | .calculate _ | .insert _ => s.migrationIterationRangeMinValues
  | _ => s.migrationIterationRangeMaxValues.or s.migrationRangeMinValues

def Copied (chunks : List (Chunk κ)) (k : List κ) : Prop := ∃ c ∈ chunks, k ∈ c.rows

structure ChunksOk (ctx : RowCopyContext κ) (r : Range κ) (chunks : List (Chunk κ)) : Prop where
  increasing : (chunks.map (·.rangeMax)).Pairwise (· < ·)
  disjoint : chunks.Pairwise fun c c' => ∀ k ∈ c.rows, k ∉ c'.rows
  within : ∀ c ∈ chunks, ∀ k ∈ c.rows, k ∈ ctx.keysIn r.start r.stop r.incl
  nodup : ctx.keys.Nodup → ∀ c ∈ chunks, c.rows.Nodup

/-- The copy stands at the key `c`. -/
structure At (ctx : RowCopyContext κ) (r : Range κ) (s : RowCopy κ) (c : List κ) : Prop where
  cursor : s.cursor = some c
  length : c.length = ctx.uniqueKeyColumns.length
  le : c ≤ r.stop
  /-- the key itself is taken by the first chunk -/
  first : s.iteration = 0 → c ∈ ctx.keys
  ends : ∀ chunk ∈ s.chunks, s.iteration ≠ 0 ∧ chunk.rangeMax ≤ c
  copied : ∀ k, k ∈ ctx.keysIn r.start r.stop r.incl ↔
    Copied s.chunks k ∨ k ∈ ctx.keysIn c r.stop (s.iteration == 0)
  fresh : ∀ k ∈ ctx.keysIn c r.stop (s.iteration == 0), ¬ Copied s.chunks k
  /-- the range of a chunk that is about to be copied -/
  next : ∀ n, s.task = .insert n → ∃ e, s.migrationIterationRangeMaxValues = some e ∧
    e ∈ ctx.keysIn c r.stop (s.iteration == 0)

structure Inv (ctx : RowCopyContext κ) (r : Range κ) (s : RowCopy κ) : Prop where
  length_stop : r.stop.length = ctx.uniqueKeyColumns.length
  rangeMin : s.migrationRangeMinValues ≠ none
  rangeMax : s.migrationRangeMaxValues = some r.stop
  chunks : ChunksOk ctx r s.chunks
  copying : s.hasNoFurtherRange = false → s.task ≠ .stopped → ∃ c, At ctx r s c
  all : s.hasNoFurtherRange = true → ∀ k ∈ ctx.keysIn r.start r.stop r.incl, Copied s.chunks k
  further : ∀ n, s.task = .insert n → s.hasNoFurtherRange = false
  attempt : ∀ n, s.task = .calculate n ∨ s.task = .insert n → n < ctx.maxRetries
  complete : false ∈ s.rowCopyComplete ↔ s.hasNoFurtherRange = true
  stopped : s.task = .stopped → true ∈ s.rowCopyComplete
  flag : s.rowCopyCompleteFlag = true → s.hasNoFurtherRange = true
  first : s.iteration = 0 → s.hasNoFurtherRange = false ∧ s.lastIterationRange = none
  returned : s.iterate = .returned → s.hasNoFurtherRange = true ∨ true ∈ s.rowCopyComplete

variable {r : Range κ}
variable {c : List κ} {n : Nat} {a : RowCopyAction}

theorem Inv.done_eq (h : Inv ctx r s) : s.done = s.hasNoFurtherRange := by
  unfold done
  cases hflag : s.rowCopyCompleteFlag with
  | false => simp
  | true => simp [h.flag hflag]

theorem At.rangeArgs (hc : At ctx r s c) (h : Inv ctx r s) :
    RangeArgs ctx.format ctx.uniqueKeyColumns ctx.keys c r.stop :=
  ctx.rangeArgs hc.length h.length_stop hc.le

/-! ## What a step does -/

inductive Move (ctx : RowCopyContext κ) (r : Range κ) (s : RowCopy κ) : RowCopy κ → Prop where
  | checks : s.iterate = .begin → Move ctx r s { s with iterate := .checking }
  | aborts : s.iterate = .checking ∨ s.iterate = .sending →
      Move ctx r s { s.terminateRowIteration true with iterate := .returned }
  | returns : s.iterate = .checking → s.hasNoFurtherRange = true →
      Move ctx r s { s with iterate := .returned }
  | sends : s.iterate = .checking → s.hasNoFurtherRange = false →
      Move ctx r s { s with iterate := .sending }
  | takes : s.iterate = .sending → s.task = .idle →
      Move ctx r s
        { s.setNextIterationRangeMinValues with iterate := .checking, task := .calculate 0 }
  | retries {n : Nat} : s.task = .calculate n ∨ s.task = .insert n → n + 1 < ctx.maxRetries →
      Move ctx r s { s with task := .calculate (n + 1) }
  | stops {n : Nat} : s.task = .calculate n ∨ s.task = .insert n → Move ctx r s s.stop
  | skips {n : Nat} : s.task = .calculate n → s.hasNoFurtherRange = true →
      Move ctx r s s.endTask
  | ends {n : Nat} {c : List κ} : s.task = .calculate n → s.hasNoFurtherRange = false →
      At ctx r s c → ctx.keysIn c r.stop (s.iteration == 0) = [] →
      Move ctx r s s.noFurtherRange.endTask
  | finds {n : Nat} {c e : List κ} : s.task = .calculate n → s.hasNoFurtherRange = false →
      At ctx r s c → e ∈ ctx.keysIn c r.stop (s.iteration == 0) →
      Move ctx r s (s.setIterationRangeEnd n e)
  | copies {n : Nat} {c e : List κ} {rows : List (List κ)} : s.task = .insert n →
      s.hasNoFurtherRange = false → At ctx r s c → s.migrationIterationRangeMinValues = some c →
      s.migrationIterationRangeMaxValues = some e → e ∈ ctx.keysIn c r.stop (s.iteration == 0) →
      rows.Perm (ctx.keysIn c e (s.iteration == 0)) →
      Move ctx r s (s.copyChunk ⟨c, e, rows⟩).endTask
  | consumes : s.rowCopyComplete.head? = some false → s.rowCopyCompleteFlag = false →
      Move ctx r s { s with rowCopyCompleteFlag := true }

theorem Move.of_fails (htask : s.task = .calculate n ∨ s.task = .insert n) :
    Move ctx r s (s.fails ctx n) := by
  unfold fails
  split
  · next hn => exact .retries htask hn
  · exact .stops htask

theorem iterateStep_move {aborted : Bool} (h : Inv ctx r s)
    (hs : s.iterateStep aborted = some s') : Move ctx r s s' := by
  unfold iterateStep at hs
  rw [if_neg h.rangeMin, h.done_eq] at hs
  cases hat : s.iterate with
  | begin =>
    simp only [hat, Option.some.injEq] at hs
    exact hs ▸ .checks hat
  | checking =>
    simp only [hat] at hs
    by_cases hab : aborted = true
    · rw [if_pos hab, Option.some.injEq] at hs
      exact hs ▸ .aborts (.inl hat)
    · rw [if_neg hab] at hs
      by_cases hdone : s.hasNoFurtherRange = true
      · rw [if_pos hdone, Option.some.injEq] at hs
        exact hs ▸ .returns hat hdone
      · rw [if_neg hdone, Option.some.injEq] at hs
        exact hs ▸ .sends hat (Bool.eq_false_iff.2 hdone)
  | sending =>
    simp only [hat] at hs
    by_cases hab : aborted = true
    · rw [if_pos hab, Option.some.injEq] at hs
      exact hs ▸ .aborts (.inr hat)
    · simp [hab] at hs
  | returned => simp [hat] at hs

theorem takeTask_move (hs : s.takeTask = some s') : Move ctx r s s' := by
  unfold takeTask at hs
  split at hs
  · next hg =>
    rw [Option.some.injEq] at hs
    exact hs ▸ .takes hg.1 hg.2
  · simp at hs

theorem calculateStep_move {outcome : QueryOutcome} {chunkSize chunkSize' : Nat} (h : Inv ctx r s)
    (hpos : 0 < chunkSize) (hpos' : 0 < chunkSize')
    (hs : s.calculateStep ctx outcome chunkSize chunkSize' = some s') : Move ctx r s s' := by
  unfold calculateStep at hs
  rw [h.done_eq] at hs
  cases htask : s.task with
  | calculate n =>
    simp only [htask] at hs
    by_cases hab : outcome = .aborted
    · rw [if_pos hab, Option.some.injEq] at hs
      exact hs ▸ .stops (.inl htask)
    rw [if_neg hab] at hs
    by_cases hdone : s.hasNoFurtherRange = true
    · rw [if_pos hdone, Option.some.injEq] at hs
      exact hs ▸ .skips htask hdone
    rw [if_neg hdone] at hs
    have hfurther := Bool.eq_false_iff.2 hdone
    by_cases herr : outcome = .err
    · rw [if_pos herr, Option.some.injEq] at hs
      exact hs ▸ .of_fails (.inl htask)
    rw [if_neg herr] at hs
    obtain ⟨c, hc⟩ := h.copying hfurther (by simp [htask])
    have hmin : s.migrationIterationRangeMinValues = some c := by
      simpa [RowCopy.cursor, htask] using hc.cursor
    obtain ⟨q, hq, hnone, hsome⟩ :=
      RowCopyContext.calculate_spec (hc.rangeArgs h) (s.iteration == 0) hpos hpos'
    simp only [hmin, h.rangeMax, hq] at hs
    cases q with
    | none =>
      rw [Option.some.injEq] at hs
      exact hs ▸ .ends htask hfurther hc (hnone rfl)
    | some e =>
      rw [Option.some.injEq] at hs
      exact hs ▸ .finds htask hfurther hc (hsome e rfl)
  | idle => simp [htask] at hs
  | insert n => simp [htask] at hs
  | stopped => simp [htask] at hs

theorem insertStep_move {ok : Bool} (h : Inv ctx r s) (hs : s.insertStep ctx ok = some s') :
    Move ctx r s s' := by
  unfold insertStep at hs
  cases htask : s.task with
  | insert n =>
    have hfurther := h.further n htask
    have hflag : ¬ s.rowCopyCompleteFlag = true := by
      intro hflag
      rw [h.flag hflag] at hfurther
      simp at hfurther
    simp only [htask] at hs
    rw [if_neg hflag] at hs
    by_cases hok : ok = false
    · rw [if_pos hok, Option.some.injEq] at hs
      exact hs ▸ .of_fails (.inr htask)
    rw [if_neg hok] at hs
    obtain ⟨c, hc⟩ := h.copying hfurther (by simp [htask])
    have hmin : s.migrationIterationRangeMinValues = some c := by
      simpa [RowCopy.cursor, htask] using hc.cursor
    obtain ⟨e, hmax, he⟩ := hc.next n htask
    have hargs := ctx.rangeArgs hc.length (ctx.length_key e (RowCopyContext.mem_keysIn.1 he).1)
      (RowCopyContext.mem_keysIn.1 he).2.start_le
    obtain ⟨query, hquery, hrows⟩ := RowCopyContext.insert_spec hargs (s.iteration == 0)
    simp only [hmin, hmax, hquery, Option.some.injEq] at hs
    exact hs ▸ .copies htask hfurther hc hmin hmax he hrows
  | idle => simp [htask] at hs
  | calculate n => simp [htask] at hs
  | stopped => simp [htask] at hs

theorem consumeRowCopyComplete_move (hs : s.consumeRowCopyComplete = some s') :
    Move ctx r s s' := by
  unfold consumeRowCopyComplete at hs
  split at hs
  · next hg =>
    rw [Option.some.injEq] at hs
    exact hs ▸ .consumes hg.1 hg.2
  · simp at hs

theorem step_move (h : Inv ctx r s) (hs : s.step ctx a = some s') : Move ctx r s s' := by
  cases a with
  | iterate aborted => exact iterateStep_move h hs
  | takeTask => exact takeTask_move hs
  | calculate outcome chunkSize chunkSize' =>
    rw [step] at hs
    split at hs
    · next hpos => exact calculateStep_move h hpos.1 hpos.2 hs
    · simp at hs
  | insert ok => exact insertStep_move h hs
  | consumeRowCopyComplete => exact consumeRowCopyComplete_move hs

/-! ## Each step keeps the invariant -/

theorem At.of_eq (hc : At ctx r s c) (hcursor : s'.cursor = s.cursor)
    (hiteration : s'.iteration = s.iteration) (hchunks : s'.chunks = s.chunks)
    (hnext : ∀ n, s'.task = .insert n → ∃ e, s'.migrationIterationRangeMaxValues = some e ∧
      e ∈ ctx.keysIn c r.stop (s.iteration == 0)) : At ctx r s' c where
  cursor := hcursor.trans hc.cursor
  length := hc.length
  le := hc.le
  first := by rw [hiteration]; exact hc.first
  ends := by rw [hiteration, hchunks]; exact hc.ends
  copied := by rw [hiteration, hchunks]; exact hc.copied
  fresh := by rw [hiteration, hchunks]; exact hc.fresh
  next := by rw [hiteration]; exact hnext

theorem Inv.iterateAt (h : Inv ctx r s) {place : IterateChunksAt}
    (hreturned : place = .returned → s.hasNoFurtherRange = true ∨ true ∈ s.rowCopyComplete) :
    Inv ctx r { s with iterate := place } :=
  { h with
    copying := fun hfurther htask => by
      obtain ⟨c, hc⟩ := h.copying hfurther htask
      exact ⟨c, hc.of_eq rfl rfl rfl hc.next⟩
    returned := hreturned }

theorem Inv.terminateRowIteration (h : Inv ctx r s) : Inv ctx r (s.terminateRowIteration true) :=
  { h with
    copying := fun hfurther htask => by
      obtain ⟨c, hc⟩ := h.copying hfurther htask
      exact ⟨c, hc.of_eq rfl rfl rfl hc.next⟩
    complete := by simpa [RowCopy.terminateRowIteration] using h.complete
    stopped := fun htask => List.mem_append_left _ (h.stopped htask)
    returned := fun hat => (h.returned hat).imp_right fun hmem => List.mem_append_left _ hmem }

theorem Inv.consume (h : Inv ctx r s) (hhead : s.rowCopyComplete.head? = some false) :
    Inv ctx r { s with rowCopyCompleteFlag := true } :=
  { h with
    copying := fun hfurther htask => by
      obtain ⟨c, hc⟩ := h.copying hfurther htask
      exact ⟨c, hc.of_eq rfl rfl rfl hc.next⟩
    flag := fun _ => h.complete.1 (List.mem_of_head? hhead) }

theorem Inv.take (h : Inv ctx r s) (htask : s.task = .idle) :
    Inv ctx r
      { s.setNextIterationRangeMinValues with iterate := .checking, task := .calculate 0 } :=
  { h with
    copying := fun hfurther _ => by
      obtain ⟨c, hc⟩ := h.copying hfurther (by simp [htask])
      refine ⟨c, hc.of_eq ?_ rfl rfl (fun n hn => by simp at hn)⟩
      simp [RowCopy.cursor, htask, setNextIterationRangeMinValues]
    further := fun n hn => by simp at hn
    attempt := fun n hn => by
      have hzero : 0 = n := by simpa using hn
      exact hzero ▸ ctx.maxRetries_pos
    stopped := by simp
    returned := by simp }

theorem Inv.retry (h : Inv ctx r s) (htask : s.task = .calculate n ∨ s.task = .insert n)
    (hn : n + 1 < ctx.maxRetries) : Inv ctx r { s with task := .calculate (n + 1) } :=
  { h with
    copying := fun hfurther _ => by
      obtain ⟨c, hc⟩ := h.copying hfurther (by rcases htask with ht | ht <;> simp [ht])
      refine ⟨c, hc.of_eq ?_ rfl rfl (fun m hm => by simp at hm)⟩
      rcases htask with ht | ht <;> simp [RowCopy.cursor, ht]
    further := fun m hm => by simp at hm
    attempt := fun m hm => by
      have hm' : n + 1 = m := by simpa using hm
      exact hm' ▸ hn
    stopped := by simp }

theorem Inv.stop (h : Inv ctx r s) : Inv ctx r s.stop :=
  { h.terminateRowIteration with
    copying := fun _ hno => absurd rfl hno
    further := fun n hn => by simp [RowCopy.stop] at hn
    attempt := fun n hn => by simp [RowCopy.stop] at hn
    stopped := fun _ => by simp [RowCopy.stop, RowCopy.terminateRowIteration] }

theorem Inv.endTask (h : Inv ctx r s) (hiteration : s.iteration ≠ 0)
    (hcopying : s.hasNoFurtherRange = false → ∃ c, At ctx r s.endTask c) : Inv ctx r s.endTask :=
  { h with
    copying := fun hfurther _ => hcopying hfurther
    further := fun n hn => by simp [RowCopy.endTask] at hn
    attempt := fun n hn => by simp [RowCopy.endTask] at hn
    stopped := by simp [RowCopy.endTask]
    first := fun hzero => absurd hzero hiteration }

theorem Inv.find {e : List κ} (h : Inv ctx r s) (htask : s.task = .calculate n)
    (hfurther : s.hasNoFurtherRange = false) (hc : At ctx r s c)
    (he : e ∈ ctx.keysIn c r.stop (s.iteration == 0)) : Inv ctx r (s.setIterationRangeEnd n e) :=
  { h with
    copying := fun _ _ => by
      refine ⟨c, hc.of_eq ?_ rfl rfl fun _ _ => ⟨e, rfl, he⟩⟩
      simp [RowCopy.cursor, setIterationRangeEnd, htask]
    further := fun _ _ => hfurther
    attempt := fun m hm => by
      have hm' : n = m := by simpa [setIterationRangeEnd] using hm
      exact hm' ▸ h.attempt n (.inl htask)
    stopped := by simp [setIterationRangeEnd] }

theorem At.iteration_ne_zero (hc : At ctx r s c)
    (hnone : ctx.keysIn c r.stop (s.iteration == 0) = []) : s.iteration ≠ 0 := by
  intro hzero
  have hmem : c ∈ ctx.keysIn c r.stop (s.iteration == 0) := by
    rw [RowCopyContext.mem_keysIn, hzero]
    exact ⟨hc.first hzero, .inr ⟨rfl, rfl⟩, hc.le⟩
  rw [hnone] at hmem
  exact List.not_mem_nil hmem

theorem Inv.noFurtherRange (h : Inv ctx r s) (htask : s.task = .calculate n) (hc : At ctx r s c)
    (hnone : ctx.keysIn c r.stop (s.iteration == 0) = []) : Inv ctx r s.noFurtherRange :=
  { h with
    copying := by simp [RowCopy.noFurtherRange, RowCopy.terminateRowIteration]
    all := fun _ k hk => by
      rcases (hc.copied k).1 hk with hcopied | hrest
      · exact hcopied
      · rw [hnone] at hrest
        exact absurd hrest List.not_mem_nil
    further := fun m hm => by
      simp [RowCopy.noFurtherRange, RowCopy.terminateRowIteration, htask] at hm
    complete := by simp [RowCopy.noFurtherRange, RowCopy.terminateRowIteration]
    stopped := fun hno => by
      simp [RowCopy.noFurtherRange, RowCopy.terminateRowIteration, htask] at hno
    flag := fun _ => rfl
    first := fun hzero => absurd hzero (hc.iteration_ne_zero hnone)
    returned := fun _ => .inl rfl }

omit [LinearOrder κ] in
theorem copied_append {chunks : List (Chunk κ)} {chunk : Chunk κ} {k : List κ} :
    Copied (chunks ++ [chunk]) k ↔ Copied chunks k ∨ k ∈ chunk.rows := by
  simp [Copied, or_and_right, exists_or]

theorem ChunksOk.append {chunks : List (Chunk κ)} {chunk : Chunk κ} (h : ChunksOk ctx r chunks)
    (hends : ∀ c ∈ chunks, c.rangeMax < chunk.rangeMax)
    (hrows : ∀ k ∈ chunk.rows, ¬ Copied chunks k ∧ k ∈ ctx.keysIn r.start r.stop r.incl)
    (hnodup : ctx.keys.Nodup → chunk.rows.Nodup) :
    ChunksOk ctx r (chunks ++ [chunk]) where
  increasing := by
    rw [List.map_append, List.pairwise_append]
    refine ⟨h.increasing, List.pairwise_singleton _ _, ?_⟩
    intro e he e' he'
    obtain ⟨c, hc, rfl⟩ := List.mem_map.1 he
    rw [List.mem_singleton.1 he']
    exact hends c hc
  disjoint := by
    rw [List.pairwise_append]
    refine ⟨h.disjoint, List.pairwise_singleton _ _, ?_⟩
    intro c hc c' hc' k hk hk'
    rw [List.mem_singleton.1 hc'] at hk'
    exact (hrows k hk').1 ⟨c, hc, hk⟩
  within := by
    intro c hc k hk
    rcases List.mem_append.1 hc with hold | hnew
    · exact h.within c hold k hk
    · rw [List.mem_singleton.1 hnew] at hk
      exact (hrows k hk).2
  nodup := by
    intro hkeys c hc
    rcases List.mem_append.1 hc with hold | hnew
    · exact h.nodup hkeys c hold
    · rw [List.mem_singleton.1 hnew]
      exact hnodup hkeys

section Copy

variable {n : Nat} {c e : List κ} {rows : List (List κ)}

theorem At.rows_fresh (hc : At ctx r s c) (he : e ∈ ctx.keysIn c r.stop (s.iteration == 0))
    (hrows : rows.Perm (ctx.keysIn c e (s.iteration == 0))) {k : List κ} (hk : k ∈ rows) :
    ¬ Copied s.chunks k ∧ k ∈ ctx.keysIn r.start r.stop r.incl := by
  have hin : k ∈ ctx.keysIn c r.stop (s.iteration == 0) :=
    (RowCopyContext.mem_keysIn_cut he).2 (.inl (hrows.mem_iff.1 hk))
  exact ⟨hc.fresh k hin, (hc.copied k).2 (.inr hin)⟩

theorem At.ends_lt (hc : At ctx r s c) (he : e ∈ ctx.keysIn c r.stop (s.iteration == 0)) :
    ∀ chunk ∈ s.chunks, chunk.rangeMax < e := by
  intro chunk hchunk
  obtain ⟨hiteration, hle⟩ := hc.ends chunk hchunk
  -- after the first chunk the start of a range is left out
  have hlt : c < e := by
    rcases (RowCopyContext.mem_keysIn.1 he).2.1 with hlt | ⟨hzero, -⟩
    · exact hlt
    · exact absurd (beq_iff_eq.1 hzero) hiteration
  exact hle.trans_lt hlt

/-- **A chunk moves the cursor to its end.** -/
theorem At.copy (hc : At ctx r s c) (hmax : s.migrationIterationRangeMaxValues = some e)
    (he : e ∈ ctx.keysIn c r.stop (s.iteration == 0))
    (hrows : rows.Perm (ctx.keysIn c e (s.iteration == 0))) :
    At ctx r (s.copyChunk ⟨c, e, rows⟩).endTask e where
  cursor := by simp [RowCopy.cursor, RowCopy.endTask, copyChunk, hmax]
  length := ctx.length_key e (RowCopyContext.mem_keysIn.1 he).1
  le := (RowCopyContext.mem_keysIn.1 he).2.2
  first := fun hzero => absurd hzero (Nat.succ_ne_zero _)
  ends := by
    intro chunk hchunk
    refine ⟨Nat.succ_ne_zero _, ?_⟩
    rcases List.mem_append.1 hchunk with hold | hnew
    · exact (hc.ends_lt he chunk hold).le
    · rw [List.mem_singleton.1 hnew]
  copied := by
    intro k
    have hcut := RowCopyContext.mem_keysIn_cut (k := k) he
    have happend : Copied (s.chunks ++ [(⟨c, e, rows⟩ : Chunk κ)]) k ↔
        Copied s.chunks k ∨ k ∈ rows :=
      copied_append
    rw [hc.copied k, hcut, ← hrows.mem_iff, ← or_assoc, ← happend]
    rfl
  fresh := by
    intro k hk hcopied
    rcases copied_append.1 hcopied with hold | hnew
    · exact hc.fresh k ((RowCopyContext.mem_keysIn_cut he).2 (.inr hk)) hold
    · exact RowCopyContext.not_mem_keysIn_cut (hrows.mem_iff.1 hnew) hk
  next := fun m hm => by simp [RowCopy.endTask] at hm

theorem Inv.copy (h : Inv ctx r s) (htask : s.task = .insert n)
    (hc : At ctx r s c) (hmax : s.migrationIterationRangeMaxValues = some e)
    (he : e ∈ ctx.keysIn c r.stop (s.iteration == 0))
    (hrows : rows.Perm (ctx.keysIn c e (s.iteration == 0))) :
    Inv ctx r (s.copyChunk ⟨c, e, rows⟩).endTask :=
  { h with
    chunks := h.chunks.append (hc.ends_lt he) (fun _ hk => hc.rows_fresh he hrows hk)
      fun hkeys => hrows.nodup_iff.2 (hkeys.filter _)
    copying := fun _ _ => ⟨e, hc.copy hmax he hrows⟩
    all := fun hno => absurd hno (Bool.eq_false_iff.1 (h.further n htask))
    further := fun m hm => by simp [RowCopy.endTask] at hm
    attempt := fun m hm => by simp [RowCopy.endTask] at hm
    stopped := fun hno => by simp [RowCopy.endTask] at hno
    first := fun hzero => absurd hzero (Nat.succ_ne_zero _) }

end Copy

theorem Move.inv (m : Move ctx r s s') (h : Inv ctx r s) : Inv ctx r s' := by
  cases m with
  | checks hat => exact h.iterateAt (by simp)
  | aborts hat =>
    exact h.terminateRowIteration.iterateAt fun _ => .inr (by simp [RowCopy.terminateRowIteration])
  | returns hat hno => exact h.iterateAt fun _ => .inl hno
  | sends hat hfurther => exact h.iterateAt (fun hno => by simp at hno)
  | takes hat htask => exact h.take htask
  | retries htask hn => exact h.retry htask hn
  | stops htask => exact h.stop
  | skips htask hno =>
    refine h.endTask (fun hzero => ?_) fun hfurther => ?_
    · exact absurd (h.first hzero).1 (by simp [hno])
    · exact absurd hfurther (by simp [hno])
  | ends htask hfurther hc hnone =>
    exact (h.noFurtherRange htask hc hnone).endTask (hc.iteration_ne_zero hnone)
      fun hno => by simp [RowCopy.noFurtherRange, RowCopy.terminateRowIteration] at hno
  | finds htask hfurther hc he => exact h.find htask hfurther hc he
  | copies htask hfurther hc hmin hmax he hrows => exact h.copy htask hc hmax he hrows
  | consumes hhead hflag => exact h.consume hhead

theorem inv_step (h : Inv ctx r s) (hs : s.step ctx a = some s') : Inv ctx r s' :=
  (step_move h hs).inv h

/-! ## The start -/

theorem rangeMin_le {lo : List κ} (hlo : (ctx.keys.insertionSort (· ≤ ·)).head? = some lo) :
    lo ∈ ctx.keys ∧ ∀ k ∈ ctx.keys, lo ≤ k := by
  obtain ⟨rest, hsorted⟩ := List.head?_eq_some_iff.1 hlo
  have hpairwise := List.pairwise_insertionSort (· ≤ ·) ctx.keys
  have hmem : ∀ k, k ∈ ctx.keys ↔ k = lo ∨ k ∈ rest := by
    intro k
    rw [← List.mem_insertionSort (· ≤ ·), hsorted, List.mem_cons]
  rw [hsorted, List.pairwise_cons] at hpairwise
  refine ⟨(hmem lo).2 (.inl rfl), fun k hk => ?_⟩
  rcases (hmem k).1 hk with rfl | hrest
  · exact le_rfl
  · exact hpairwise.1 k hrest

theorem le_rangeMax {hi : List κ} (hhi : (ctx.keys.insertionSort (· ≤ ·)).getLast? = some hi) :
    hi ∈ ctx.keys ∧ ∀ k ∈ ctx.keys, k ≤ hi := by
  obtain ⟨front, hsorted⟩ := List.getLast?_eq_some_iff.1 hhi
  have hpairwise := List.pairwise_insertionSort (· ≤ ·) ctx.keys
  have hmem : ∀ k, k ∈ ctx.keys ↔ k ∈ front ∨ k = hi := by
    intro k
    rw [← List.mem_insertionSort (· ≤ ·), hsorted, List.mem_append, List.mem_singleton]
  rw [hsorted, List.pairwise_append] at hpairwise
  refine ⟨(hmem hi).2 (.inr rfl), fun k hk => ?_⟩
  rcases (hmem k).1 hk with hfront | rfl
  · exact hpairwise.2.2 k hfront hi (List.mem_singleton_self hi)
  · exact le_rfl

theorem exists_range (hne : ctx.keys ≠ []) :
    ∃ lo hi, (ctx.keys.insertionSort (· ≤ ·)).head? = some lo ∧
      (ctx.keys.insertionSort (· ≤ ·)).getLast? = some hi := by
  have hsorted : ctx.keys.insertionSort (· ≤ ·) ≠ [] := by
    intro hnil
    have hperm := List.perm_insertionSort (· ≤ ·) ctx.keys
    rw [hnil] at hperm
    exact hne (List.nil_perm.1 hperm)
  exact ⟨_, _, List.head?_eq_some_head hsorted, List.getLast?_eq_some_getLast hsorted⟩

omit [LinearOrder κ] in
theorem not_copied_nil {k : List κ} : ¬ Copied [] k := by
  rintro ⟨c, hc, -⟩
  exact List.not_mem_nil hc

theorem inv_init {lo hi : List κ} {x y : Option (List κ)}
    (hlo : (ctx.keys.insertionSort (· ≤ ·)).head? = some lo)
    (hhi : (ctx.keys.insertionSort (· ≤ ·)).getLast? = some hi) (hcursor : y.or (some lo) = some c)
    (hlength : c.length = ctx.uniqueKeyColumns.length) (hle : c ≤ hi)
    (hfirst : n = 0 → c ∈ ctx.keys) :
    Inv ctx ⟨c, hi, n == 0⟩
      { fresh ctx with
        migrationIterationRangeMinValues := x
        migrationIterationRangeMaxValues := y
        iteration := n } where
  length_stop := ctx.length_key hi (le_rangeMax hhi).1
  rangeMin := by simp [fresh, hlo]
  rangeMax := hhi
  chunks := ⟨.nil, .nil, fun _ hno => absurd hno List.not_mem_nil,
    fun _ _ hno => absurd hno List.not_mem_nil⟩
  copying := fun _ _ => ⟨c, {
    cursor := by simpa [cursor, fresh, hlo] using hcursor
    length := hlength
    le := hle
    first := hfirst
    ends := fun _ hno => absurd hno List.not_mem_nil
    copied := fun _ => (or_iff_right not_copied_nil).symm
    fresh := fun _ _ => not_copied_nil
    next := fun _ hno => by simp [fresh] at hno }⟩
  all := by simp [fresh]
  further := fun _ hno => by simp [fresh] at hno
  attempt := fun _ hno => by simp [fresh] at hno
  complete := by simp [fresh]
  stopped := by simp [fresh]
  flag := by simp [fresh]
  first := fun _ => ⟨rfl, rfl⟩
  returned := by simp [fresh]

theorem inv_start {start : Start κ} (hok : start.Ok ctx) (hne : ctx.keys ≠ []) :
    ∃ r : Range κ, Inv ctx r (start.state ctx) ∧
      ∀ k, k ∈ ctx.keysIn r.start r.stop r.incl ↔ k ∈ start.target ctx := by
  obtain ⟨lo, hi, hlo, hhi⟩ := exists_range hne
  obtain ⟨hmem, hmin⟩ := rangeMin_le hlo
  have hmax := (le_rangeMax hhi).2
  cases start with
  | fresh =>
    refine ⟨⟨lo, hi, true⟩, ?_, fun k => ?_⟩
    · exact inv_init (x := none) (n := 0) hlo hhi rfl (ctx.length_key lo hmem) (hmax lo hmem)
        fun _ => hmem
    · rw [RowCopyContext.mem_keysIn]
      refine ⟨And.left, fun hk => ⟨hk, ?_, hmax k hk⟩⟩
      rcases (hmin k hk).lt_or_eq with hlt | heq
      · exact .inl hlt
      · exact .inr ⟨rfl, heq⟩
  | resume chk =>
    obtain ⟨hiteration, hlength, -, k', hk', hle⟩ := hok
    have hincl : (chk.iteration == 0) = false := by simpa using hiteration.ne'
    refine ⟨⟨chk.iterationRangeMax, hi, chk.iteration == 0⟩, ?_, fun k => ?_⟩
    · exact inv_init hlo hhi rfl hlength (hle.trans (hmax k' hk'))
        fun hzero => absurd hzero hiteration.ne'
    · simp only [RowCopyContext.mem_keysIn, InRange, Start.target, List.mem_filter,
        decide_eq_true_eq, hincl, Bool.false_eq_true, false_and, or_false]
      exact and_congr_right fun hk => and_iff_left (hmax k hk)

/-! ## An empty table -/

structure EmptyTable (s : RowCopy κ) : Prop where
  rangeMin : s.migrationRangeMinValues = none
  task : s.task = .idle
  chunks : s.chunks = []
  iterate : s.iterate = .begin ∨ s.iterate = .returned ∧ false ∈ s.rowCopyComplete
  error : true ∉ s.rowCopyComplete
  lastRange : s.lastIterationRange = none

theorem EmptyTable.step (h : EmptyTable s) (hs : s.step ctx a = some s') :
    (s.iterate = .begin ∧ s' = { s.terminateRowIteration false with iterate := .returned }) ∨
      (s.rowCopyCompleteFlag = false ∧ s' = { s with rowCopyCompleteFlag := true }) := by
  cases a with
  | iterate aborted =>
    rw [RowCopy.step, iterateStep, if_pos h.rangeMin] at hs
    rcases h.iterate with hat | ⟨hat, -⟩
    · simp only [hat, Option.some.injEq] at hs
      exact .inl ⟨hat, hs.symm⟩
    · simp [hat] at hs
  | takeTask =>
    rw [RowCopy.step, takeTask] at hs
    rcases h.iterate with hat | ⟨hat, -⟩ <;> simp [hat] at hs
  | calculate outcome chunkSize chunkSize' => simp [RowCopy.step, calculateStep, h.task] at hs
  | insert ok => simp [RowCopy.step, insertStep, h.task] at hs
  | consumeRowCopyComplete =>
    rw [RowCopy.step, consumeRowCopyComplete] at hs
    obtain ⟨hg, rfl⟩ := Infra.of_guard hs
    exact .inr ⟨hg.2, rfl⟩

theorem EmptyTable.inv_step (h : EmptyTable s) (hs : s.step ctx a = some s') : EmptyTable s' := by
  rcases h.step hs with ⟨-, rfl⟩ | ⟨-, rfl⟩
  · exact { h with
      iterate := .inr ⟨rfl, by simp [RowCopy.terminateRowIteration]⟩
      error := by simpa [RowCopy.terminateRowIteration] using h.error }
  · exact { h with }

end RowCopy

end GhOst.Logic
