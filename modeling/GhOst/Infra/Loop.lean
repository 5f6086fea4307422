import Mathlib.Data.List.Induction

/-!
# Loops that stop at their first error

A step `S → A → S × Option E` changes a state and may fail; unlike in `Except`, the state that a
failed step leaves is kept, because it is what the caller finds. `forEach` runs a step over a list.
-/

namespace Infra

variable {S A E : Type*}

/-- Go on with `next` unless `first` has failed. -/
def andThen (first : S × Option E) (next : S → S × Option E) : S × Option E :=
  match first with
  | (s, some err) => (s, some err)
  | (s, none) => next s

/-- `step` for each element in turn, up to the first error. -/
def forEach (step : S → A → S × Option E) : S → List A → S × Option E
  | s, [] => (s, none)
  | s, a :: as => andThen (step s a) fun s => forEach step s as

variable {step : S → A → S × Option E} {s s' : S} {as : List A} {err : E}

theorem andThen_eq_none {first : S × Option E} {next : S → S × Option E} :
    andThen first next = (s', none) ↔ ∃ s, first = (s, none) ∧ next s = (s', none) := by
  obtain ⟨s, err⟩ := first
  cases err with
  | none => simp [andThen]
  | some err => simp [andThen]

theorem andThen_eq_some {first : S × Option E} {next : S → S × Option E} :
    andThen first next = (s', some err) ↔
      first = (s', some err) ∨ ∃ s, first = (s, none) ∧ next s = (s', some err) := by
  obtain ⟨s, e⟩ := first
  cases e with
  | none => simp [andThen]
  | some e => simp [andThen]

@[simp] theorem forEach_nil : forEach step s [] = (s, none) := rfl

theorem forEach_cons {a : A} :
    forEach step s (a :: as) = andThen (step s a) fun s => forEach step s as := rfl

theorem forEach_append {bs : List A} :
    forEach step s (as ++ bs) = andThen (forEach step s as) fun s => forEach step s bs := by
  induction as generalizing s with
  | nil => rfl
  | cons a as ih =>
    rw [List.cons_append, forEach_cons, forEach_cons]
    obtain ⟨s₁, e⟩ := step s a
    cases e with
    | none => exact ih
    | some e => rfl

/-- **Where a loop stops.** The elements before the failing one were all handled. -/
theorem forEach_eq_some (h : forEach step s as = (s', some err)) :
    ∃ done a rest mid, as = done ++ a :: rest ∧ forEach step s done = (mid, none) ∧
      step mid a = (s', some err) := by
  induction as generalizing s with
  | nil => simp at h
  | cons a as ih =>
    rw [forEach_cons, andThen_eq_some] at h
    rcases h with h | ⟨s₁, hs, h⟩
    · exact ⟨[], a, as, s, rfl, rfl, h⟩
    · obtain ⟨done, b, rest, mid, rfl, hdone, hb⟩ := ih h
      refine ⟨a :: done, b, rest, mid, rfl, ?_, hb⟩
      rw [forEach_cons, andThen_eq_none]
      exact ⟨s₁, hs, hdone⟩

theorem forEach_singleton {a : A} : forEach step s [a] = step s a := by
  rw [forEach_cons]
  obtain ⟨s₁, e⟩ := step s a
  cases e with
  | none => rfl
  | some e => rfl

/-- **The invariant rule**, with the elements handled so far as a parameter. -/
theorem forEach_invariant {Inv : List A → S → Prop} (h0 : Inv [] s)
    (hstep : ∀ done a rest s₁ s₂, as = done ++ a :: rest → forEach step s done = (s₁, none) →
      Inv done s₁ → step s₁ a = (s₂, none) → Inv (done ++ [a]) s₂)
    (h : forEach step s as = (s', none)) : Inv as s' := by
  induction as using List.reverseRecOn generalizing s' with
  | nil =>
    rw [forEach_nil] at h
    cases h
    exact h0
  | append_singleton as a ih =>
    rw [forEach_append, andThen_eq_none] at h
    obtain ⟨s₁, hs, ha⟩ := h
    rw [forEach_singleton] at ha
    have hfirst : Inv as s₁ := by
      refine ih ?_ hs
      intro done b rest s₁ s₂ heq
      exact hstep done b (rest ++ [a]) s₁ s₂ (by rw [heq, List.append_assoc, List.cons_append])
    exact hstep as a [] s₁ s' rfl hs hfirst ha

theorem mapM_map_eq_some {α β γ : Type} {f : β → Option γ} {t : α → β} {g : α → γ}
    {l : List α} (h : ∀ a ∈ l, f (t a) = some (g a)) : (l.map t).mapM f = some (l.map g) := by
  induction l with
  | nil => rfl
  | cons a l ih =>
    rw [List.map_cons, List.mapM_cons, h a List.mem_cons_self,
      ih fun b hb => h b (List.mem_cons_of_mem _ hb)]
    rfl

end Infra
