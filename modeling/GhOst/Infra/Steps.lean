import Mathlib.Data.List.Basic
import Mathlib.Order.WellFounded

/-!
# Runs of a step function

A system is a partial function `step : S → A → Option S`: `step s a = some s'` says that the
action `a` is enabled in `s` and leads to `s'`. Every interleaving of its parties is a list of
actions, so a safety property is a property of the states in `Reach`.

`Reach` carries a side condition `ok` on the steps taken. `Reachable` is the case without one;
a result of the form "in every run whose steps all meet `ok`" is stated with `Reach`.
-/

namespace Infra

variable {S A : Type*}

/-- The states reached from `s₀` by steps that all meet `ok`. -/
inductive Reach (step : S → A → Option S) (ok : S → A → Prop) (s₀ : S) : S → Prop where
  | init : Reach step ok s₀ s₀
  | next {s s' : S} {a : A} : Reach step ok s₀ s → ok s a → step s a = some s' →
      Reach step ok s₀ s'

/-- The states reached from `s₀` by any steps. -/
def Reachable (step : S → A → Option S) (s₀ : S) : S → Prop :=
  Reach step (fun _ _ => True) s₀

variable {step : S → A → Option S} {ok : S → A → Prop} {s₀ s s' : S}

/-- **The guard rule.** A step behind a guard is taken only where the guard holds. -/
theorem of_guard {p : Prop} [Decidable p] (h : (if p then some s else none) = some s') :
    p ∧ s' = s := by
  obtain ⟨hp, hs⟩ := Option.ite_none_right_eq_some.mp h
  exact ⟨hp, (Option.some.inj hs).symm⟩

/-- **The invariant rule.** What holds at the start and is kept by every step holds throughout. -/
theorem Reach.invariant {Inv : S → Prop} (h : Reach step ok s₀ s) (h0 : Inv s₀)
    (hstep : ∀ s s' a, Inv s → ok s a → step s a = some s' → Inv s') : Inv s := by
  induction h with
  | init => exact h0
  | next _ hok hs ih => exact hstep _ _ _ ih hok hs

theorem Reach.mono {ok' : S → A → Prop} (h : Reach step ok s₀ s) (hok : ∀ s a, ok s a → ok' s a) :
    Reach step ok' s₀ s := by
  induction h with
  | init => exact .init
  | next _ h hs ih => exact .next ih (hok _ _ h) hs

theorem Reach.trans {s₁ s₂ : S} (h₁ : Reach step ok s₀ s₁) (h₂ : Reach step ok s₁ s₂) :
    Reach step ok s₀ s₂ := by
  induction h₂ with
  | init => exact h₁
  | next _ hok hs ih => exact .next ih hok hs

/-- Perform a list of actions in order; `none` as soon as one of them is not enabled. -/
def run (step : S → A → Option S) : S → List A → Option S
  | s, [] => some s
  | s, a :: as => (step s a).bind (fun s' => run step s' as)

theorem run_append {as bs : List A} {s s' : S} (h : run step s (as ++ bs) = some s') :
    ∃ t, run step s as = some t ∧ run step t bs = some s' := by
  induction as generalizing s with
  | nil => exact ⟨s, rfl, h⟩
  | cons a as ih =>
    obtain ⟨t, hstep, hrun⟩ := Option.bind_eq_some_iff.mp h
    obtain ⟨u, has, hbs⟩ := ih hrun
    exact ⟨u, Option.bind_eq_some_iff.mpr ⟨t, hstep, has⟩, hbs⟩

/-- A list of actions that all meet `ok` leads on from a state that is reached by such actions. -/
theorem run_reach {as : List A} (hr : Reach step ok s₀ s) (hok : ∀ a ∈ as, ∀ s, ok s a)
    (h : run step s as = some s') : Reach step ok s₀ s' := by
  induction as generalizing s with
  | nil =>
    cases h
    exact hr
  | cons a as ih =>
    obtain ⟨t, hs, h⟩ := Option.bind_eq_some_iff.mp h
    exact ih (.next hr (hok a List.mem_cons_self s) hs)
      (fun b hb => hok b (List.mem_cons_of_mem _ hb)) h

theorem reachable_of_run {as : List A} (h : run step s₀ as = some s) : Reachable step s₀ s :=
  run_reach .init (fun _ _ _ => trivial) h

/-- **The measure rule.** If every step that counts takes some of the work and none adds to it, no
more steps count than there was work. -/
theorem run_countP_le {I : S → Prop} {work : S → Nat} {p : A → Bool}
    (hinv : ∀ s s' a, I s → step s a = some s' → I s')
    (hwork : ∀ s s' a, I s → step s a = some s' → (if p a then 1 else 0) + work s' ≤ work s) :
    ∀ {as : List A} {s s' : S}, I s → run step s as = some s' →
      as.countP p + work s' ≤ work s := by
  intro as
  induction as with
  | nil =>
    intro s s' _ h
    rw [run, Option.some.injEq] at h
    simp [h]
  | cons a as ih =>
    intro s s' hs₀ h
    rw [run, Option.bind_eq_some_iff] at h
    obtain ⟨s₁, hs, h⟩ := h
    have hfirst := hwork s s₁ a hs₀ hs
    have hrest := ih (hinv s s₁ a hs₀ hs) h
    rw [List.countP_cons]
    omega

/-- **The progress rule.** If some step leads on with less work wherever the goal is not met, the
goal can be met. -/
theorem exists_reach_of_progress {W : Type*} [Preorder W] [WellFoundedLT W] {I goal : S → Prop}
    {work : S → W} (hprogress : ∀ s, I s → ¬ goal s →
      ∃ a s', ok s a ∧ step s a = some s' ∧ (goal s' ∨ I s' ∧ work s' < work s)) :
    ∀ {s : S}, I s → ∃ s', Reach step ok s s' ∧ goal s' := by
  intro s hs
  induction hw : work s using WellFoundedLT.induction generalizing s with
  | ind w ih =>
    by_cases hgoal : goal s
    · exact ⟨s, .init, hgoal⟩
    · obtain ⟨a, t, hok, hstep, ht | ⟨ht, hlt⟩⟩ := hprogress s hs hgoal
      · exact ⟨t, .next .init hok hstep, ht⟩
      · obtain ⟨u, hu, hgoal⟩ := ih (work t) (hw ▸ hlt) ht rfl
        exact ⟨u, .trans (.next .init hok hstep) hu, hgoal⟩

/-- The steps of a system that meet `ok`. -/
def guarded (step : S → A → Option S) (ok : S → A → Prop) [∀ s a, Decidable (ok s a)] (s : S)
    (a : A) : Option S :=
  if ok s a then step s a else none

theorem reach_of_reachable_guarded [∀ s a, Decidable (ok s a)]
    (h : Reachable (guarded step ok) s₀ s) : Reach step ok s₀ s := by
  refine Reach.invariant h .init ?_
  intro s s' a hr _ hs
  unfold guarded at hs
  split at hs
  · next hok => exact .next hr hok hs
  · simp at hs

/-- A run that ends in a state with `P` shows that there is one with all that follows from `P`. -/
theorem exists_reach_of {Q : S → Prop} (P : S → Prop) [DecidablePred P]
    [∀ s a, Decidable (ok s a)] (as : List A)
    (h : (run (guarded step ok) s₀ as).any (fun s => P s) = true)
    (hQ : ∀ s, Reach step ok s₀ s → P s → Q s) : ∃ s, Reach step ok s₀ s ∧ Q s := by
  cases hr : run (guarded step ok) s₀ as with
  | none =>
    rw [hr] at h
    cases h
  | some s =>
    rw [hr, Option.any_some, decide_eq_true_eq] at h
    have hreach := reach_of_reachable_guarded (reachable_of_run hr)
    exact ⟨s, hreach, hQ s hreach h⟩

theorem exists_reach {P : S → Prop} [DecidablePred P] [∀ s a, Decidable (ok s a)] (as : List A)
    (h : (run (guarded step ok) s₀ as).any (fun s => P s) = true) :
    ∃ s, Reach step ok s₀ s ∧ P s :=
  exists_reach_of P as h fun _ _ hP => hP

end Infra
