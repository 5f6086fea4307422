import GhOst.Sql.Types

/-!
# `retryOperation` (`go/logic/migrator.go`)

The operation may change a state that its next attempt sees again. What the other goroutines do
between two attempts comes in through `checkAbort`, which gives the abort error seen before the
`i`-th attempt.
-/

namespace GhOst.Logic

open GhOst.Sql

/-- The error `retryOperation` returns and the one it sends on `PanicAbort`. -/
structure RetryResult where
  err : Option String
  panicAbort : Option String := none
deriving DecidableEq, Repr

variable {S : Type}

/-- The loop, from attempt `i` on and with `err` from the attempt before. -/
def retryLoop (operation : Nat → S → Except Fault (Option String × S))
    (checkAbort : Nat → Option String) (notFatalHint : Bool) :
    (attemptsLeft i : Nat) → (err : Option String) → S → Except Fault (RetryResult × S)
  | 0, _, err, s => .ok ({ err, panicAbort := if notFatalHint then none else err }, s)
  | n + 1, i, _, s =>
    match checkAbort i with
    | some abortErr => .ok ({ err := some abortErr }, s)
    | none =>
      match operation i s with
      | .error f => .error f
      | .ok (none, s') => .ok ({ err := none }, s')
      | .ok (some err, s') =>
        if contains err "warnings detected" then
          -- an error that does not go away is not retried
          .ok ({ err := some err, panicAbort := if notFatalHint then none else some err }, s')
        else retryLoop operation checkAbort notFatalHint n (i + 1) (some err) s'

def retryOperation (maxRetries : Nat) (operation : Nat → S → Except Fault (Option String × S))
    (checkAbort : Nat → Option String) (notFatalHint : Bool) (s : S) :
    Except Fault (RetryResult × S) :=
  retryLoop operation checkAbort notFatalHint maxRetries 0 none s

/-- **A successful `retryOperation`.** If every failed attempt keeps `Inv`, the successful one
starts from a state with `Inv`. -/
theorem retryOperation_success {operation : Nat → S → Except Fault (Option String × S)}
    {checkAbort : Nat → Option String} {notFatalHint : Bool} {maxRetries : Nat} {s s' : S}
    {panicAbort : Option String} (Inv : Nat → S → Prop) (hpos : 0 < maxRetries)
    (h : retryOperation maxRetries operation checkAbort notFatalHint s
      = .ok ({ err := none, panicAbort }, s'))
    (h0 : Inv 0 s)
    (hstep : ∀ i s err s', Inv i s → operation i s = .ok (some err, s') → Inv (i + 1) s') :
    ∃ i s₁, Inv i s₁ ∧ operation i s₁ = .ok (none, s') := by
  have key : ∀ n i err s, Inv i s → (n = 0 → err ≠ none) →
      retryLoop operation checkAbort notFatalHint n i err s
        = .ok ({ err := none, panicAbort }, s') →
      ∃ i s₁, Inv i s₁ ∧ operation i s₁ = .ok (none, s') := by
    intro n
    induction n with
    | zero =>
      intro i err s _ herr h
      simp only [retryLoop, Except.ok.injEq, Prod.mk.injEq, RetryResult.mk.injEq] at h
      exact absurd h.1.1 (herr rfl)
    | succ n ih =>
      intro i err s hi _ h
      rw [retryLoop] at h
      cases ha : checkAbort i with
      | some abortErr => simp [ha] at h
      | none =>
        simp only [ha] at h
        cases ho : operation i s with
        | error f => simp [ho] at h
        | ok r =>
          obtain ⟨err', s₁⟩ := r
          cases err' with
          | none =>
            simp only [ho, Except.ok.injEq, Prod.mk.injEq] at h
            exact ⟨i, s, hi, by rw [ho, h.2]⟩
          | some e =>
            simp only [ho] at h
            split at h
            · simp at h
            · exact ih (i + 1) (some e) s₁ (hstep i s e s₁ hi ho) (fun _ => by simp) h
  exact key maxRetries 0 none s h0 (fun h => absurd h (by omega)) h

end GhOst.Logic
