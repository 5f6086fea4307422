import Mathlib.Order.Basic
import Mathlib.Data.Set.Basic

/-!
# A replica that follows a history of versions

A source goes through versions `ver 0, ver 1, …, ver n`, each a partial function from keys to rows.
One party replays the changes on the replica, in order, and another one copies cells from the
current version.

The invariant is per cell: `AtLeast ver n a g k` says that the replica `g` holds, under `k`, the
cell of some version between `a` and `n`. `Follows` is what replaying one change must do, `Fills`
what a copy does: it writes the current cell where the replica has none.
-/

namespace Infra

variable {K R : Type*}

/-- The replica's cell under `k` is the cell of a version from `a` to `n`. -/
def AtLeast (ver : Nat → K → Option R) (n a : Nat) (g : K → Option R) (k : K) : Prop :=
  ∃ j, a ≤ j ∧ j ≤ n ∧ g k = ver j k

/-- Replaying the change from `v` to `v'` takes the replica from `g` to `g'`. -/
def Follows (v v' g g' : K → Option R) : Prop :=
  ∀ k, g' k = v' k ∨ (g' k = g k ∧ (v' k = v k ∨ g k ≠ v k))

/-- Copying the keys `C` of `v` into the empty cells takes the replica from `g` to `g'`. -/
def Fills (v : K → Option R) (C : Set K) (g g' : K → Option R) : Prop :=
  ∀ k, g' k = g k ∧ (k ∈ C → g k = none → v k = none) ∨ k ∈ C ∧ g k = none ∧ g' k = v k

variable {ver ver' : Nat → K → Option R} {n a : Nat} {g g' : K → Option R} {k : K}

/-- **A replica that has replayed the whole history holds the current cell.** -/
theorem AtLeast.eq (h : AtLeast ver n n g k) : g k = ver n k := by
  obtain ⟨j, h1, h2, hg⟩ := h
  rw [hg, Nat.le_antisymm h2 h1]

theorem AtLeast.mono {a' : Nat} (h : AtLeast ver n a g k) (ha : a' ≤ a) : AtLeast ver n a' g k := by
  obtain ⟨j, h1, h2, hg⟩ := h
  exact ⟨j, Nat.le_trans ha h1, h2, hg⟩

theorem AtLeast.extend {n' : Nat} (h : AtLeast ver n a g k) (hn : n ≤ n')
    (hv : ∀ j ≤ n, ver' j k = ver j k) : AtLeast ver' n' a g k := by
  obtain ⟨j, h1, h2, hg⟩ := h
  exact ⟨j, h1, Nat.le_trans h2 hn, by rw [hv j h2]; exact hg⟩

theorem AtLeast.congr (h : AtLeast ver n a g k) (hg : g' k = g k) : AtLeast ver n a g' k := by
  obtain ⟨j, h1, h2, he⟩ := h
  exact ⟨j, h1, h2, hg.trans he⟩

/-- An empty cell is the cell of any version that has no row under the key. -/
theorem AtLeast.of_none {j : Nat} (hg : g k = none) (hv : ver j k = none) (h1 : a ≤ j)
    (h2 : j ≤ n) : AtLeast ver n a g k := ⟨j, h1, h2, by rw [hg, hv]⟩

/-! ## Replaying one change -/

/-- **Replaying the next change raises the bound by one.** -/
theorem AtLeast.follows (h : AtLeast ver n a g k) (han : a < n)
    (hf : Follows (ver a) (ver (a + 1)) g g') : AtLeast ver n (a + 1) g' k := by
  obtain ⟨j, h1, h2, hg⟩ := h
  rcases hf k with hw | ⟨hkeep, hcase⟩
  · exact ⟨a + 1, Nat.le_refl _, han, hw⟩
  · rcases Nat.lt_or_eq_of_le h1 with hlt | rfl
    · exact ⟨j, hlt, h2, hkeep.trans hg⟩
    · -- the cell is of the version before the change, so the change left the key alone
      have hsame : ver (a + 1) k = ver a k := hcase.resolve_right fun hne => hne hg
      exact ⟨a + 1, Nat.le_refl _, han, by rw [hkeep, hg, hsame]⟩

/-- A cell the copy has not reached stays empty, or is written by the replay. -/
theorem Follows.none_or (hf : Follows (ver a) (ver (a + 1)) g g') (han : a < n)
    (hk : g k = none) : g' k = none ∨ AtLeast ver n (a + 1) g' k := by
  rcases hf k with hw | ⟨hkeep, _⟩
  · exact Or.inr ⟨a + 1, Nat.le_refl _, han, hw⟩
  · exact Or.inl (hkeep.trans hk)

/-! ## Copying -/

theorem AtLeast.fills {C : Set K} (h : AtLeast ver n a g k) (han : a ≤ n)
    (hf : Fills (ver n) C g g') : AtLeast ver n a g' k := by
  rcases hf k with ⟨hkeep, _⟩ | ⟨_, _, hw⟩
  · exact h.congr hkeep
  · exact ⟨n, han, Nat.le_refl _, hw⟩

/-- **A copied key holds a cell of the current version, or a cell that was there before.** -/
theorem Fills.copied {C : Set K} (hf : Fills (ver n) C g g') (hC : k ∈ C) (han : a ≤ n)
    (h : g k = none ∨ AtLeast ver n a g k) : AtLeast ver n a g' k := by
  rcases h with hnone | hat
  · rcases hf k with ⟨hkeep, hv⟩ | ⟨_, _, hw⟩
    · exact AtLeast.of_none (hkeep.trans hnone) (hv hC hnone) han (Nat.le_refl _)
    · exact ⟨n, han, Nat.le_refl _, hw⟩
  · exact hat.fills han hf

/-- A key outside the copied range keeps its cell. -/
theorem Fills.outside {v : K → Option R} {C : Set K} (hf : Fills v C g g') (hC : k ∉ C) :
    g' k = g k := by
  rcases hf k with ⟨hkeep, _⟩ | ⟨hmem, _, _⟩
  · exact hkeep
  · exact absurd hmem hC

end Infra
