import Mathlib.Data.List.Nodup
import Mathlib.Data.List.Perm.Basic
import Mathlib.Order.Basic

/-!
# Tables with a unique key, as lists of rows

A table is a list of rows and `key` gives a row's key. `KeysNodup` is the uniqueness of the key;
under it a table is determined, up to the order of its rows, by `lookup` (`perm_of_lookup_eq`).
The lemmas say what the three changes of a table (drop a key, append a row, rewrite the row of
a key) do to `lookup`.
-/

namespace Infra

variable {R R' K : Type*} [DecidableEq K]

/-- The row stored under the key `k`. -/
def lookup (key : R → K) (t : List R) (k : K) : Option R := t.find? (fun r => key r = k)

/-- No two rows share a key. -/
def KeysNodup (key : R → K) (t : List R) : Prop := (t.map key).Nodup

instance (key : R → K) (t : List R) : Decidable (KeysNodup key t) :=
  inferInstanceAs (Decidable (t.map key).Nodup)

/-- Drop the row stored under `k`. -/
def dropKey (key : R → K) (t : List R) (k : K) : List R := t.filter (fun r => key r ≠ k)

/-- Rewrite the row stored under `k` by `f`. -/
def rewriteKey (key : R → K) (t : List R) (k : K) (f : R → R) : List R :=
  t.map (fun r => if key r = k then f r else r)

variable {key : R → K} {t u : List R} {r : R} {k : K}

/-! ## Lookup -/

@[simp] theorem lookup_nil : lookup key ([] : List R) k = none := rfl

theorem lookup_cons : lookup key (r :: t) k = if key r = k then some r else lookup key t k := by
  unfold lookup
  rw [List.find?_cons]
  by_cases h : key r = k <;> simp [h]

theorem key_of_lookup (h : lookup key t k = some r) : key r = k := by
  simpa using List.find?_some h

theorem mem_of_lookup (h : lookup key t k = some r) : r ∈ t := List.mem_of_find?_eq_some h

theorem lookup_eq_none_iff : lookup key t k = none ↔ ∀ r ∈ t, key r ≠ k := by
  unfold lookup
  simp [List.find?_eq_none]

theorem lookup_eq_some_iff (ht : KeysNodup key t) :
    lookup key t k = some r ↔ r ∈ t ∧ key r = k := by
  constructor
  · exact fun h => ⟨mem_of_lookup h, key_of_lookup h⟩
  · rintro ⟨hm, rfl⟩
    induction t with
    | nil => simp at hm
    | cons q t ih =>
      unfold KeysNodup at ht
      rw [List.map_cons, List.nodup_cons] at ht
      rw [lookup_cons]
      rcases List.mem_cons.mp hm with rfl | hm
      · rw [if_pos rfl]
      · have hne : key q ≠ key r := fun h => ht.1 (h ▸ List.mem_map_of_mem hm)
        rw [if_neg hne]
        exact ih ht.2 hm

theorem lookup_isSome_iff : (lookup key t k).isSome = true ↔ ∃ r ∈ t, key r = k := by
  unfold lookup
  simp [List.find?_isSome]

theorem any_key_eq : t.any (fun q => key q = k) = (lookup key t k).isSome := by
  rw [Bool.eq_iff_iff, lookup_isSome_iff]
  simp

theorem lookup_map {key' : R' → K} {f : R → R'} (h : ∀ r ∈ t, key' (f r) = key r) :
    lookup key' (t.map f) k = (lookup key t k).map f := by
  induction t with
  | nil => rfl
  | cons q t ih =>
    rw [List.map_cons, lookup_cons, lookup_cons, h q List.mem_cons_self,
      ih fun r hr => h r (List.mem_cons_of_mem _ hr)]
    split <;> rfl

omit [DecidableEq K] in
theorem KeysNodup.map {key' : R' → K} {f : R → R'} (ht : KeysNodup key t)
    (h : ∀ r ∈ t, key' (f r) = key r) : KeysNodup key' (t.map f) := by
  unfold KeysNodup at *
  have hkeys : (t.map f).map key' = t.map key := by
    rw [List.map_map]
    exact List.map_congr_left h
  rw [hkeys]
  exact ht

/-- **Two tables with unique keys and the same lookups have the same rows.** -/
theorem perm_of_lookup_eq (ht : KeysNodup key t) (hu : KeysNodup key u)
    (h : ∀ k, lookup key t k = lookup key u k) : t.Perm u := by
  refine (List.perm_ext_iff_of_nodup (List.Nodup.of_map key ht) (List.Nodup.of_map key hu)).mpr ?_
  intro r
  have h1 := lookup_eq_some_iff (k := key r) (r := r) ht
  have h2 := lookup_eq_some_iff (k := key r) (r := r) hu
  rw [h] at h1
  simpa using h1.symm.trans h2

theorem lookup_filter_key {p : K → Bool} :
    lookup key (t.filter fun r => p (key r)) k = if p k = true then lookup key t k else none := by
  induction t with
  | nil => simp
  | cons q t ih =>
    by_cases hq : p (key q) = true
    · rw [List.filter_cons, if_pos hq, lookup_cons, lookup_cons, ih]
      by_cases hk : key q = k
      · rw [if_pos hk, if_pos hk, if_pos (hk ▸ hq)]
      · rw [if_neg hk, if_neg hk]
    · rw [List.filter_cons, if_neg hq, ih, lookup_cons]
      by_cases hk : key q = k
      · rw [if_neg (hk ▸ hq), if_neg (hk ▸ hq)]
      · rw [if_neg hk]

/-! ## Changes of a table -/

theorem lookup_dropKey (k' : K) :
    lookup key (dropKey key t k') k = if k = k' then none else lookup key t k := by
  induction t with
  | nil => simp [dropKey]
  | cons q t ih =>
    unfold dropKey at ih ⊢
    by_cases hq : key q = k'
    · rw [List.filter_cons_of_neg (by simp [hq]), ih, lookup_cons]
      by_cases hk : k = k'
      · rw [if_pos hk, if_pos hk]
      · rw [if_neg hk, if_neg hk, if_neg (fun h => hk (h.symm.trans hq))]
    · rw [List.filter_cons_of_pos (by simp [hq]), lookup_cons, lookup_cons, ih]
      by_cases hk : k = k'
      · rw [if_pos hk, if_neg (fun h => hq (h.trans hk)), if_pos hk]
      · rw [if_neg hk, if_neg hk]

theorem KeysNodup.dropKey (ht : KeysNodup key t) (k : K) : KeysNodup key (dropKey key t k) :=
  ht.sublist (List.Sublist.map key List.filter_sublist)

theorem lookup_append_single :
    lookup key (t ++ [r]) k = (lookup key t k).or (if key r = k then some r else none) := by
  unfold lookup
  rw [List.find?_append]
  by_cases h : key r = k <;> simp [h]

theorem KeysNodup.append_single (ht : KeysNodup key t) (h : lookup key t (key r) = none) :
    KeysNodup key (t ++ [r]) := by
  unfold KeysNodup at *
  rw [List.map_append, List.nodup_append]
  refine ⟨ht, by simp, ?_⟩
  intro a ha b hb
  obtain ⟨q, hq, rfl⟩ := List.mem_map.mp ha
  have hb : b = key r := by simpa using hb
  rw [hb]
  exact lookup_eq_none_iff.mp h q hq

theorem lookup_rewriteKey {f : R → R} {k' : K} (hf : ∀ r ∈ t, key r = k' → key (f r) = k') :
    lookup key (rewriteKey key t k' f) k
      = if k = k' then (lookup key t k).map f else lookup key t k := by
  induction t with
  | nil => simp [rewriteKey]
  | cons q t ih =>
    have ih := ih fun r hr => hf r (List.mem_cons_of_mem _ hr)
    unfold rewriteKey at ih ⊢
    rw [List.map_cons, lookup_cons, lookup_cons, ih]
    by_cases hq : key q = k'
    · rw [if_pos hq, hf q List.mem_cons_self hq, hq]
      by_cases hk : k' = k
      · rw [if_pos hk, if_pos hk, if_pos hk.symm]; rfl
      · rw [if_neg hk, if_neg hk, if_neg fun h => hk h.symm]
    · rw [if_neg hq]
      by_cases hk : key q = k
      · rw [if_pos hk, if_pos hk, if_neg fun h => hq (hk.trans h)]
      · rw [if_neg hk, if_neg hk]

/-! ## Rows as association lists -/

section Assoc

variable {N V : Type*} [BEq N] [LawfulBEq N] {l l' : List (N × V)} {n : N} {v : V}

theorem lookup_of_mem (h : (l.map Prod.fst).Nodup) (hm : (n, v) ∈ l) : l.lookup n = some v := by
  induction l with
  | nil => simp at hm
  | cons p l ih =>
    rw [List.map_cons, List.nodup_cons] at h
    rw [List.lookup_cons]
    rcases List.mem_cons.mp hm with rfl | hm
    · simp
    · have hne : n ≠ p.1 := fun hn => h.1 (hn ▸ List.mem_map_of_mem hm)
      rw [beq_eq_false_iff_ne.mpr hne]
      exact ih h.2 hm

theorem mem_of_assoc_lookup (h : l.lookup n = some v) : (n, v) ∈ l := by
  induction l with
  | nil => simp at h
  | cons p l ih =>
    rw [List.lookup_cons] at h
    split at h
    · next hn =>
      rw [eq_of_beq hn, ← Option.some.inj h]
      exact List.mem_cons_self
    · exact List.mem_cons_of_mem _ (ih h)

theorem assoc_lookup_isSome (h : n ∈ l.map Prod.fst) : ∃ v, l.lookup n = some v := by
  induction l with
  | nil => simp at h
  | cons p l ih =>
    rw [List.lookup_cons]
    by_cases hn : n = p.1
    · exact ⟨p.2, by simp [hn]⟩
    · rw [beq_eq_false_iff_ne.mpr hn]
      rw [List.map_cons, List.mem_cons] at h
      exact ih (h.resolve_left hn)

/-- Giving every name of a row its value in `l'`, which has the same names, gives `l'`. -/
theorem map_assoc_lookup (h : (l'.map Prod.fst).Nodup) (hn : l.map Prod.fst = l'.map Prod.fst) :
    l.map (fun p => (p.1, (l'.lookup p.1).getD p.2)) = l' := by
  refine List.ext_getElem (by simpa using congrArg List.length hn) fun i hi hi' => ?_
  have hlt : i < l.length := by simpa using hi
  have hname : l[i].1 = l'[i].1 := by
    have hi2 : i < (l.map Prod.fst).length := by simpa using hlt
    simpa using List.getElem_of_eq hn hi2
  have hval : l'.lookup l'[i].1 = some l'[i].2 := lookup_of_mem h (List.getElem_mem hi')
  rw [List.getElem_map, hname, hval, Option.getD_some]

end Assoc

/-- Two `filterMap`s that drop nothing agree exactly when the functions agree on the list. -/
theorem filterMap_eq_filterMap_iff {A B : Type*} {l : List A} {f g : A → Option B}
    (hf : ∀ a ∈ l, (f a).isSome = true) (hg : ∀ a ∈ l, (g a).isSome = true) :
    l.filterMap f = l.filterMap g ↔ ∀ a ∈ l, f a = g a := by
  induction l with
  | nil => simp
  | cons a l ih =>
    obtain ⟨x, hx⟩ := Option.isSome_iff_exists.mp (hf a List.mem_cons_self)
    obtain ⟨y, hy⟩ := Option.isSome_iff_exists.mp (hg a List.mem_cons_self)
    have ih := ih (fun b hb => hf b (List.mem_cons_of_mem _ hb))
      (fun b hb => hg b (List.mem_cons_of_mem _ hb))
    rw [List.filterMap_cons_some hx, List.filterMap_cons_some hy, List.cons.injEq, ih,
      List.forall_mem_cons, hx, hy, Option.some.injEq]

theorem exists_bounds_of_mem {A : Type*} [Preorder A] {l : List A} (hs : l.Pairwise (· ≤ ·)) {x : A}
    (h : x ∈ l) : ∃ lo hi, l.head? = some lo ∧ l.getLast? = some hi ∧ lo ≤ x ∧ x ≤ hi := by
  obtain ⟨i, hi, rfl⟩ := List.getElem_of_mem h
  have hle : ∀ j n (hj : j ≤ n) (hn : n < l.length), l[j] ≤ l[n] := by
    intro j n hj hn
    rcases Nat.lt_or_eq_of_le hj with hj | rfl
    · exact List.pairwise_iff_getElem.mp hs j n (by omega) hn hj
    · exact le_refl _
  refine ⟨l[0], l[l.length - 1], ?_, ?_, hle 0 i (by omega) hi, hle i _ (by omega) (by omega)⟩
  · rw [List.head?_eq_getElem?, List.getElem?_eq_getElem]
  · rw [List.getLast?_eq_getElem?, List.getElem?_eq_getElem]

end Infra
