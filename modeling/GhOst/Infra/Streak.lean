import Mathlib.Data.List.Infix

/-!
# Counters of successive events

A counter is incremented by one kind of event and reset by the other, and is compared with a limit
before each event. It reaches the limit exactly when that many events of the first kind stand next
to each other and another event follows.
-/

namespace Infra

/-- The counter, which is `count` at first, is found at the limit before one of the events. -/
def reachesLimit (limit : Nat) : Nat → List Bool → Bool
  | _, [] => false
  | count, event :: events =>
    decide (limit ≤ count) || reachesLimit limit (if event then count + 1 else 0) events

theorem not_replicate_prefix {n c : Nat} {l : List Bool} (h : c < n) :
    ¬ List.replicate n true <+: List.replicate c true ++ false :: l := by
  intro hp
  have hlen : c < (List.replicate n true).length := by rwa [List.length_replicate]
  have hget := hp.getElem hlen
  rw [List.getElem_replicate, List.getElem_append_right (by simp)] at hget
  simp at hget

theorem replicate_not_contained {n : Nat} {l : List Bool} (h : l.length < n) :
    ¬ List.replicate n true <:+: l := by
  intro hinfix
  have hle := hinfix.length_le
  rw [List.length_replicate] at hle
  exact absurd hle (Nat.not_le.mpr h)

theorem replicate_infix_iff {n c : Nat} {l : List Bool} (h : c < n) :
    List.replicate n true <:+: List.replicate c true ++ false :: l ↔
      List.replicate n true <:+: l := by
  induction c with
  | zero =>
    rw [List.replicate_zero, List.nil_append, List.infix_cons_iff]
    exact or_iff_right fun hp => not_replicate_prefix (c := 0) h hp
  | succ c ih =>
    rw [List.replicate_succ, List.cons_append, List.infix_cons_iff, ih (Nat.lt_of_succ_lt h)]
    exact or_iff_right fun hp => not_replicate_prefix (l := l) h hp

/-- A streak is at the end or stands before it. -/
theorem replicate_infix_iff_dropLast {n : Nat} {front back : List Bool} (hn : 0 < n)
    (h : back.length = n) :
    List.replicate n true <:+: front ++ back ↔
      List.replicate n true <:+: (front ++ back).dropLast ∨ ∀ b ∈ back, b = true := by
  have hne : back ≠ [] := List.ne_nil_of_length_pos (h ▸ hn)
  have hback : List.replicate n true <:+ front ++ back ↔ ∀ b ∈ back, b = true := by
    rw [← List.eq_replicate_iff.trans (and_iff_right h)]
    constructor
    · intro hsuffix
      have hlen : back.length = (List.replicate n true).length := by rw [List.length_replicate, h]
      exact (List.suffix_of_suffix_length_le hsuffix (List.suffix_append front back)
        (le_of_eq hlen.symm)).eq_of_length hlen.symm ▸ rfl
    · rintro rfl
      exact List.suffix_append front _
  rw [← hback, ← List.dropLast_concat_getLast (List.append_ne_nil_of_right_ne_nil front hne),
    List.infix_concat_iff, List.dropLast_concat]
  exact or_comm

theorem reachesLimit_iff {limit : Nat} (hlimit : 0 < limit) {count : Nat} (hcount : count ≤ limit)
    {events : List Bool} :
    reachesLimit limit count events = true ↔
      List.replicate limit true <:+: (List.replicate count true ++ events).dropLast := by
  induction events generalizing count with
  | nil =>
    refine iff_of_false nofun (replicate_not_contained ?_)
    rw [List.append_nil, List.length_dropLast, List.length_replicate]
    omega
  | cons event events ih =>
    rw [reachesLimit, Bool.or_eq_true, decide_eq_true_iff]
    rcases Nat.lt_or_eq_of_le hcount with hlt | rfl
    · rw [or_iff_right (Nat.not_le.mpr hlt)]
      cases event with
      | true =>
        rw [if_pos rfl, ih hlt, List.replicate_succ', List.append_assoc]
        rfl
      | false =>
        rw [if_neg Bool.false_ne_true, ih (Nat.zero_le _), List.replicate_zero, List.nil_append,
          List.dropLast_append_cons]
        cases events with
        | nil =>
          refine iff_of_false (replicate_not_contained hlimit) (replicate_not_contained ?_)
          rw [List.dropLast_singleton, List.append_nil, List.length_replicate]
          exact hlt
        | cons e events => rw [List.dropLast_cons_cons, replicate_infix_iff hlt]
    · refine iff_of_true (.inl (le_refl _)) ?_
      rw [List.dropLast_append_cons]
      exact (List.prefix_append _ _).isInfix

end Infra
