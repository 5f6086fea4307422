import Mathlib.Data.List.Sort

/-!
# Sorting what was selected in parts

`insertionSort` depends only on the elements of a list (`insertionSort_eq_of_perm`), so that a list
may be sorted part by part when the parts are in order. The first `n` elements need only the first
`n` of each part (`take_flatten_take`).
-/

namespace Infra

variable {α : Type*}

section Sorting

variable [LinearOrder α] {l m : List α}

/-- A sorted arrangement of the elements is the one that sorting gives. -/
theorem insertionSort_eq_of_perm (h : l.Perm m) (hm : m.Pairwise (· ≤ ·)) :
    l.insertionSort (· ≤ ·) = m := by
  refine List.Perm.eq_of_pairwise ?_ (List.pairwise_insertionSort _ _) hm
    ((List.perm_insertionSort _ _).trans h)
  exact fun a b _ _ hab hba => le_antisymm hab hba

theorem insertionSort_congr (h : l.Perm m) :
    l.insertionSort (· ≤ ·) = m.insertionSort (· ≤ ·) :=
  insertionSort_eq_of_perm (h.trans (List.perm_insertionSort _ _).symm)
    (List.pairwise_insertionSort _ _)

/-- The place of an element after sorting is the number of the elements up to it. -/
theorem countP_le_of_getElem?_insertionSort (hnodup : l.Nodup) {i : Nat} {a : α}
    (ha : (l.insertionSort (· ≤ ·))[i]? = some a) : l.countP (· ≤ a) = i + 1 := by
  have hperm := List.perm_insertionSort (· ≤ ·) l
  have hsorted := List.pairwise_insertionSort (· ≤ ·) l
  have hdistinct := hperm.symm.nodup hnodup
  rw [← hperm.countP_eq]
  generalize l.insertionSort (· ≤ ·) = s at *
  obtain ⟨hi, hget⟩ := List.getElem?_eq_some_iff.1 ha
  have hbefore : ∀ b ∈ s.take (i + 1), decide (b ≤ a) = true := by
    intro b hb
    obtain ⟨j, hj, rfl⟩ := List.mem_iff_getElem.1 hb
    rw [List.length_take] at hj
    rw [List.getElem_take, decide_eq_true_eq, ← hget]
    rcases Nat.lt_or_eq_of_le (by omega : j ≤ i) with hlt | rfl
    · exact List.pairwise_iff_getElem.1 hsorted j i (by omega) hi hlt
    · exact le_rfl
  have hafter : ∀ b ∈ s.drop (i + 1), ¬ decide (b ≤ a) = true := by
    intro b hb
    obtain ⟨j, hj, rfl⟩ := List.mem_iff_getElem.1 hb
    rw [List.length_drop] at hj
    rw [List.getElem_drop, decide_eq_true_eq, not_le, ← hget]
    refine lt_of_le_of_ne
      (List.pairwise_iff_getElem.1 hsorted i (i + 1 + j) hi (by omega) (by omega)) ?_
    intro heq
    have := (List.Nodup.getElem_inj_iff hdistinct).1 heq
    omega
  rw [← List.take_append_drop (i + 1) s, List.countP_append, List.countP_eq_length.2 hbefore,
    List.countP_eq_zero.2 hafter, List.length_take]
  omega

end Sorting

/-- What two exclusive tests select one after the other. -/
theorem filter_append_filter_perm {p q : α → Bool} :
    ∀ {l : List α}, (∀ a ∈ l, p a = true → q a = false) →
      (l.filter p ++ l.filter q).Perm (l.filter fun a => p a || q a)
  | [], _ => .nil
  | a :: l, h => by
    have ih := filter_append_filter_perm fun b hb => h b (List.mem_cons_of_mem _ hb)
    cases hp : p a with
    | true =>
      have hq : q a = false := h a List.mem_cons_self hp
      simpa [hp, hq] using ih
    | false =>
      cases hq : q a with
      | true => simpa [hp, hq] using List.perm_middle.trans (ih.cons a)
      | false => simpa [hp, hq] using ih

theorem filter_append_filter_perm_and_iff {p q : α → Bool} {l : List α} :
    (l.filter p ++ l.filter q).Perm (l.filter fun a => p a && q a) ↔
      ∀ a ∈ l, p a = false ∧ q a = false := by
  constructor
  · intro hperm
    have hlen := hperm.length_eq
    rw [List.length_append, ← List.countP_eq_length_filter, ← List.countP_eq_length_filter,
      ← List.countP_eq_length_filter] at hlen
    have hp : l.countP (fun a => p a && q a) ≤ l.countP p :=
      List.countP_mono_left fun a _ => by simp +contextual
    have hq : l.countP (fun a => p a && q a) ≤ l.countP q :=
      List.countP_mono_left fun a _ => by simp +contextual
    have hp₀ : l.countP p = 0 := by omega
    have hq₀ : l.countP q = 0 := by omega
    intro a ha
    exact ⟨by simpa using List.countP_eq_zero.1 hp₀ a ha,
      by simpa using List.countP_eq_zero.1 hq₀ a ha⟩
  · intro hnone
    rw [List.filter_eq_nil_iff.2 fun a ha => by simp [(hnone a ha).1],
      List.filter_eq_nil_iff.2 fun a ha => by simp [(hnone a ha).2],
      List.filter_eq_nil_iff.2 fun a ha => by simp [(hnone a ha).1]]
    exact .nil

/-- Sorting part by part, when the first part comes before the second. -/
theorem insertionSort_filter_or [LinearOrder α] {p q : α → Bool} {l : List α}
    (h : ∀ a ∈ l, ∀ b ∈ l, p a = true → q b = true → a < b) :
    (l.filter fun a => p a || q a).insertionSort (· ≤ ·) =
      (l.filter p).insertionSort (· ≤ ·) ++ (l.filter q).insertionSort (· ≤ ·) := by
  have hexclusive : ∀ a ∈ l, p a = true → q a = false := by
    intro a ha hp
    by_contra hq
    exact lt_irrefl a (h a ha a ha hp (by simpa using hq))
  refine insertionSort_eq_of_perm ?_ ?_
  · exact (filter_append_filter_perm hexclusive).symm.trans
      ((List.perm_insertionSort _ _).append (List.perm_insertionSort _ _)).symm
  · rw [List.pairwise_append]
    refine ⟨List.pairwise_insertionSort _ _, List.pairwise_insertionSort _ _, ?_⟩
    intro a ha b hb
    obtain ⟨ha, hp⟩ := List.mem_filter.1 ((List.mem_insertionSort _).1 ha)
    obtain ⟨hb, hq⟩ := List.mem_filter.1 ((List.mem_insertionSort _).1 hb)
    exact (h a ha b hb hp hq).le

/-- The first `n` elements of a concatenation. -/
theorem take_flatten_take (n : Nat) : ∀ ls : List (List α),
    ((ls.map (·.take n)).flatten).take n = ls.flatten.take n
  | [] => rfl
  | l :: ls => by
    have hrest : ∀ k ≤ n, ((ls.map (·.take n)).flatten).take k = ls.flatten.take k := by
      intro k hk
      rw [← Nat.min_eq_left hk, ← List.take_take, take_flatten_take n ls, List.take_take]
    rw [List.map_cons, List.flatten_cons, List.flatten_cons, List.take_append, List.take_append,
      List.take_take, Nat.min_self, List.length_take]
    by_cases hl : l.length ≤ n
    · rw [Nat.min_eq_right hl, hrest _ (Nat.sub_le _ _)]
    · have h₁ : n - min n l.length = 0 := by omega
      have h₂ : n - l.length = 0 := by omega
      rw [h₁, h₂, List.take_zero, List.take_zero]

end Infra
