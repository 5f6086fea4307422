import GhOst.Properties.Coverage

/-!
# The end of the next chunk

`CalculateNextIterationRangeEndValues` asks for the row at an offset first, and for the last row of
a limited select if there is none. With a key of two columns each select is a union of three parts
that are limited by themselves. Whatever the query, the answer is one order statistic of the keys of
the range.
-/

namespace GhOst.Logic

open GhOst.Sql

variable {κ : Type} [LinearOrder κ]

/-- The `i`th smallest key, counted from one. -/
def IsNthSmallest (keys : List (List κ)) (i : Nat) (e : List κ) : Prop :=
  e ∈ keys ∧ keys.countP (· ≤ e) = i

namespace RowCopyContext

variable {ctx : RowCopyContext κ} {start stop : List κ} {incl : Bool} {n : Nat}

theorem keysIn_nodup (hnodup : ctx.keys.Nodup) : (ctx.keysIn start stop incl).Nodup :=
  hnodup.filter _

theorem isNthSmallest_of_getElem? (hnodup : ctx.keys.Nodup) {i : Nat} {e : List κ}
    (he : ((ctx.keysIn start stop incl).insertionSort (· ≤ ·))[i]? = some e) :
    IsNthSmallest (ctx.keysIn start stop incl) (i + 1) e := by
  refine ⟨(List.mem_insertionSort _).1 (List.mem_of_getElem? he), ?_⟩
  exact Infra.countP_le_of_getElem?_insertionSort (keysIn_nodup hnodup) he

theorem calculate_eq_getElem? (h : RangeArgs ctx.format ctx.uniqueKeyColumns ctx.keys start stop)
    (incl : Bool) (hn : 0 < n) :
    ctx.calculateNextIterationRangeEndValues start stop incl n n =
      .ok (((ctx.keysIn start stop incl).insertionSort (· ≤ ·))[
        min n (ctx.keysIn start stop incl).length - 1]?) := by
  obtain ⟨query, hquery, hoffset⟩ := viaOffset_eq h incl hn
  obtain ⟨query', hquery', htemptable⟩ := viaTemptable_eq h incl n
  unfold calculateNextIterationRangeEndValues
  simp only [hquery, hquery', hoffset, htemptable]
  have hlen := List.length_insertionSort (· ≤ ·) (ctx.keysIn start stop incl)
  generalize (ctx.keysIn start stop incl).insertionSort (· ≤ ·) = sorted at hlen ⊢
  rw [← hlen]
  rcases le_or_gt n sorted.length with hle | hgt
  · rw [min_eq_left hle, List.getElem?_eq_getElem (by omega : n - 1 < sorted.length)]
  · -- fewer keys than a chunk holds: the last one of them
    rw [min_eq_right hgt.le, List.getElem?_eq_none (by omega : sorted.length ≤ n - 1),
      List.take_of_length_le hgt.le, List.getLast?_eq_getElem?]

theorem unlimited_rows (h : RangeArgs ctx.format ctx.uniqueKeyColumns ctx.keys start stop)
    {argsError : Nat → Nat → String} {partLimit : Option Nat} {query : RangeQuery κ}
    (hquery : buildRangeQuery argsError ctx.format ctx.uniqueKeyColumns start stop incl partLimit =
      .ok query) :
    (query.unlimited.rows ctx.uniqueKeyColumns ctx.keys).insertionSort (· ≤ ·) =
      (ctx.keysIn start stop incl).insertionSort (· ≤ ·) := by
  obtain ⟨query', hquery', hperm⟩ : ∃ query', buildRangeQuery argsError ctx.format
      ctx.uniqueKeyColumns start stop incl none = .ok query' ∧
      (query'.rows ctx.uniqueKeyColumns ctx.keys).Perm (ctx.keysIn start stop incl) :=
    buildRangeQuery_perm h
  rw [buildRangeQuery_unlimited hquery, Except.ok.injEq] at hquery'
  rw [hquery']
  exact Infra.insertionSort_congr hperm

/-- **The end of the next chunk**: none exactly when the range has no key; else the `n`th smallest
key of the range, or the last one. -/
theorem next_range_end (hnodup : ctx.keys.Nodup)
    (hstart : start.length = ctx.uniqueKeyColumns.length)
    (hstop : stop.length = ctx.uniqueKeyColumns.length) (hle : start ≤ stop) (incl : Bool)
    (hn : 0 < n) :
    (∃ rangeEnd, ctx.calculateNextIterationRangeEndValues start stop incl n n = .ok rangeEnd ∧
      (rangeEnd = none ↔ ∀ k ∈ ctx.keys, ¬ InRange start stop incl k) ∧
      ∀ e, rangeEnd = some e → IsNthSmallest (ctx.keysIn start stop incl)
        (min n (ctx.keysIn start stop incl).length) e) ∧
    ∃ offset temptable : RangeQuery κ,
      buildUniqueKeyRangeEndPreparedQueryViaOffset ctx.format ctx.uniqueKeyColumns start stop n
        incl = .ok offset ∧
      buildUniqueKeyRangeEndPreparedQueryViaTemptable ctx.format ctx.uniqueKeyColumns start stop n
        incl = .ok temptable ∧
      (∀ e, offset.viaOffset ctx.uniqueKeyColumns ctx.keys n = some e →
        temptable.viaTemptable ctx.uniqueKeyColumns ctx.keys n = some e) ∧
      offset.unlimited.viaOffset ctx.uniqueKeyColumns ctx.keys n =
        offset.viaOffset ctx.uniqueKeyColumns ctx.keys n ∧
      temptable.unlimited.viaTemptable ctx.uniqueKeyColumns ctx.keys n =
        temptable.viaTemptable ctx.uniqueKeyColumns ctx.keys n := by
  have h := ctx.rangeArgs hstart hstop hle
  constructor
  · refine ⟨_, calculate_eq_getElem? h incl hn, ?_, fun e he => ?_⟩
    · rw [List.getElem?_eq_none_iff, List.length_insertionSort]
      constructor
      · intro hlen k hk hin
        have hpos : 0 < (ctx.keysIn start stop incl).length :=
          List.length_pos_of_mem (mem_keysIn.2 ⟨hk, hin⟩)
        omega
      · intro hnone
        have hempty : ctx.keysIn start stop incl = [] := by
          rw [keysIn, List.filter_eq_nil_iff]
          intro k hk
          simpa using hnone k hk
        simp [hempty]
    · have hpos : 0 < (ctx.keysIn start stop incl).length :=
        List.length_pos_of_mem ((List.mem_insertionSort _).1 (List.mem_of_getElem? he))
      have hnth := isNthSmallest_of_getElem? hnodup he
      rwa [Nat.sub_add_cancel (by omega)] at hnth
  · obtain ⟨offset, hoffset, hrow⟩ := viaOffset_eq h incl hn
    obtain ⟨temptable, htemptable, hrow'⟩ := viaTemptable_eq h incl n
    refine ⟨offset, temptable, hoffset, htemptable, fun e he => ?_, ?_, ?_⟩
    · rw [hrow] at he
      obtain ⟨hlt, -⟩ := List.getElem?_eq_some_iff.1 he
      rw [hrow', List.getLast?_eq_getElem?, List.length_take, min_eq_left (by omega),
        List.getElem?_take_of_lt (by omega), he]
    · unfold buildUniqueKeyRangeEndPreparedQueryViaOffset buildUniqueKeyRangeEndPreparedQuery
        at hoffset
      rw [if_neg h.ne_nil] at hoffset
      rw [hrow, RangeQuery.viaOffset, unlimited_rows h hoffset]
    · unfold buildUniqueKeyRangeEndPreparedQueryViaTemptable buildUniqueKeyRangeEndPreparedQuery
        at htemptable
      rw [if_neg h.ne_nil] at htemptable
      rw [hrow', RangeQuery.viaTemptable, unlimited_rows h htemptable]

/-- A chunk of three keys, of which the last lies in another part than the first. -/
theorem next_range_end_small :
    RowCopy.smallContext.calculateNextIterationRangeEndValues [0, 1] [2, 0] true 3 3 =
      .ok (some [1, 2]) ∧
    IsNthSmallest (RowCopy.smallContext.keysIn [0, 1] [2, 0] true) 3 [1, 2] := by
  have hle : ([0, 1] : List (Fin 3)) ≤ [2, 0] := by decide
  have hnodup : RowCopy.smallContext.keys.Nodup := by decide
  obtain ⟨rangeEnd, hcalculate, -, hnth⟩ :=
    (next_range_end hnodup rfl rfl hle true (by decide : 0 < 3)).1
  have hrow : RowCopy.smallContext.calculateNextIterationRangeEndValues [0, 1] [2, 0] true 3 3 =
      .ok (some [1, 2]) := by decide +kernel
  refine ⟨hrow, ?_⟩
  rw [hrow, Except.ok.injEq] at hcalculate
  exact hnth [1, 2] hcalculate.symm

end RowCopyContext

end GhOst.Logic
