import GhOst.Properties.Attempts

/-!
# What the cut-over returns

What `atomicCutOver` returns is decided by channels. They tell the truth about the `RENAME` when the
main goroutine waits for its end; the error exits before that do not wait (`SettledExits`).
-/

namespace GhOst.Logic

open Infra

def RenameAt.beforeIssue : RenameAt → Bool
  | .issued | .returned => false
  | _ => true

namespace Attempt

/-- The `RENAME` has failed, or will not be issued. -/
def RenameOver (a : Attempt) : Prop :=
  a.statement = .failed ∨
    a.statement = .notIssued ∧ (a.rename = .returned ∨ a.rename = .notStarted)

instance (a : Attempt) : Decidable a.RenameOver := inferInstanceAs (Decidable (_ ∨ _))

def Verdict (a : Attempt) : Bool → Prop
  | true => a.RenameOver
  | false => a.statement = .succeeded

/-- What is returned, and what is about to be, is true. -/
structure Truthful (a : Attempt) : Prop where
  unstarted : a.main.beforeRename = true → a.rename = .notStarted
  notIssued : a.rename.beforeIssue = true → a.statement = .notIssued
  sent : a.rename ≠ .returned → a.tablesRenamed = []
  connected : a.rename = .issued → a.renameConnected = false → a.statement = .failed
  head : a.main.ended = false → ∀ err, a.tablesRenamed.head? = some err → a.Verdict err
  returning : ∀ err, a.main = .returning err → a.Verdict err
  result : ∀ err, a.result = some err → a.Verdict err
  ended : a.result ≠ none → a.main = .returned

theorem Truthful.init : ({} : Attempt).Truthful := by
  constructor <;> simp

variable {a a' : Attempt}

theorem not_verdict (hs : a.statement = .waiting ∨ a.statement = .notIssued ∧
    a.rename ≠ .returned ∧ a.rename ≠ .notStarted) (err : Bool) : ¬ a.Verdict err := by
  cases err with
  | true =>
    rintro (hf | ⟨hn, hr⟩)
    · rcases hs with hs | ⟨hs, -⟩
      · simp [hf] at hs
      · simp [hf] at hs
    · rcases hs with hs | ⟨-, hs⟩
      · simp [hn] at hs
      · exact hr.elim hs.1 hs.2
  | false =>
    intro hok
    have hok : a.statement = .succeeded := hok
    rcases hs with hs | ⟨hs, -⟩
    · simp [hok] at hs
    · simp [hok] at hs

theorem Truthful.of_verdict (h : a.Truthful) (hmain : a'.main = a.main)
    (hresult : a'.result = a.result) (hstarted : a'.rename = .notStarted ∨ a.rename ≠ .notStarted)
    (hissue : a'.rename.beforeIssue = true → a'.statement = .notIssued)
    (hsent : a'.rename ≠ .returned → a'.tablesRenamed = [])
    (hconnected : a'.rename = .issued → a'.renameConnected = false → a'.statement = .failed)
    (hhead : a'.main.ended = false → ∀ err, a'.tablesRenamed.head? = some err → a'.Verdict err)
    (hverdict : ∀ err, a.Verdict err → a'.Verdict err) : a'.Truthful where
  unstarted hb := by
    rw [hmain] at hb
    rcases hstarted with hr | hr
    · exact hr
    · exact absurd (h.unstarted hb) hr
  notIssued := hissue
  sent := hsent
  connected := hconnected
  head := hhead
  returning err hm := hverdict err (h.returning err (hmain ▸ hm))
  result err hr := hverdict err (h.result err (hresult ▸ hr))
  ended hr := by
    rw [hmain]
    exact h.ended (hresult ▸ hr)

theorem Truthful.lockOnly (h : a.Truthful) (hl : CutOvers.LockOnly a a') : a'.Truthful := by
  rw [hl]
  exact { h with }

theorem Truthful.renameMove {outcome : CallOutcome} (h : a.Truthful)
    (hlost : a.rename = .issue → outcome ≠ .lost) (hmove : CutOvers.RenameMove outcome a a') :
    a'.Truthful := by
  cases hmove with
  | forward rename ids hr hr' =>
    have hb : a.rename.beforeIssue = true := by rcases hr with hr | hr | hr <;> rw [hr] <;> rfl
    have hst := h.notIssued hb
    have hne : a.rename ≠ .returned ∧ a.rename ≠ .notStarted := by
      rcases hr with hr | hr | hr <;> simp [hr]
    have hnone := not_verdict (a := a) (.inr ⟨hst, hne⟩)
    refine h.of_verdict rfl rfl (.inr hne.2) (fun _ => hst) (fun _ => h.sent hne.1) ?_ ?_
      fun err hv => absurd hv (hnone err)
    · intro hi
      rcases hr' with hr' | hr' | hr' <;> simp [hr'] at hi
    · intro hm err he
      exact absurd (h.head hm err he) (hnone err)
  | issue hr hout =>
    have hst := h.notIssued (by rw [hr]; rfl)
    have hnone := not_verdict (a := a) (.inr ⟨hst, by simp [hr]⟩)
    refine h.of_verdict rfl rfl (.inr (by simp [hr])) ?_ (fun _ => h.sent (by simp [hr])) ?_ ?_
      fun err hv => absurd hv (hnone err)
    · intro hb
      simp [RenameAt.beforeIssue] at hb
    · intro _ hc
      cases outcome with
      | ok => simp at hc
      | err => exact absurd rfl hout
      | lost => exact absurd rfl (hlost hr)
    · intro hm err he
      exact absurd (h.head hm err he) (hnone err)
  | notIssued hr =>
    have hst := h.notIssued (by rw [hr]; rfl)
    have hnone := not_verdict (a := a) (.inr ⟨hst, by simp [hr]⟩)
    refine h.of_verdict rfl rfl (.inr (by simp [hr])) ?_ (fun _ => h.sent (by simp [hr]))
      (fun _ _ => rfl) ?_ fun err hv => absurd hv (hnone err)
    · intro hb
      simp [RenameAt.beforeIssue] at hb
    · intro hm err he
      exact absurd (h.head hm err he) (hnone err)
  | fails tablesRenamed sent ids heq hr ht =>
    have hne : a.rename ≠ .returned ∧ a.rename ≠ .notStarted := by
      rcases hr with hr | hr | hr | ⟨hr, -⟩ <;> simp [hr]
    -- the `RENAME` was not issued, or has failed
    have hst : a.statement = .notIssued ∨ a.statement = .failed := by
      rcases hr with hr | hr | hr | ⟨hr, hc | hf⟩
      · exact .inl (h.notIssued (by rw [hr]; rfl))
      · exact .inl (h.notIssued (by rw [hr]; rfl))
      · exact .inl (h.notIssued (by rw [hr]; rfl))
      · exact .inr (h.connected hr hc)
      · exact .inr hf
    have hover : ({ a with
        rename := .returned
        tableRenameKnownToHaveFailed := true
        okToUnlockTable := a.okToUnlockTable + 1
        renameSessionIdChan := ids
        tablesRenamed } : Attempt).RenameOver := by
      rcases hst with hst | hst
      · exact .inr ⟨hst, .inl rfl⟩
      · exact .inl hst
    refine h.of_verdict rfl rfl (.inr hne.2) ?_ ?_ ?_ ?_ ?_
    · intro hb
      simp [RenameAt.beforeIssue] at hb
    · intro hno
      exact absurd rfl hno
    · intro hi
      simp at hi
    · intro _ err he
      have he : tablesRenamed.head? = some err := he
      rw [heq, h.sent hne.1, List.nil_append] at he
      rw [ht err (List.mem_of_mem_head? he)]
      exact hover
    · intro err hv
      cases err with
      | true => exact hover
      | false =>
        have hv : a.statement = .succeeded := hv
        simp [hv] at hst
  | succeeds hr hst =>
    refine h.of_verdict rfl rfl (.inr (by simp [hr])) ?_ ?_ ?_ ?_ ?_
    · intro hb
      simp [RenameAt.beforeIssue] at hb
    · intro hno
      exact absurd rfl hno
    · intro hi
      simp at hi
    · intro _ err he
      have he : (a.tablesRenamed ++ [false] ++ [true]).head? = some err := he
      rw [h.sent (by simp [hr])] at he
      cases he
      exact hst
    · intro err hv
      cases err with
      | true =>
        rcases hv with hv | ⟨hv, -⟩
        · simp [hst] at hv
        · simp [hst] at hv
      | false => exact hst

theorem Truthful.decided (h : a.Truthful) (hw : a.statement = .waiting) {st : RenameStatement} :
    ({ a with statement := st } : Attempt).Truthful := by
  have hnone := not_verdict (a := a) (.inl hw)
  have hissued : a.rename.beforeIssue = false := by
    by_contra hb
    have := h.notIssued (by simpa using hb)
    simp [hw] at this
  refine h.of_verdict rfl rfl ?_ ?_ h.sent ?_ ?_ fun err hv => absurd hv (hnone err)
  · right
    intro hr
    simp [hr, RenameAt.beforeIssue] at hissued
  · intro hb
    have hb : a.rename.beforeIssue = true := hb
    simp [hissued] at hb
  · intro hi hc
    have := h.connected hi hc
    simp [hw] at this
  · intro hm err he
    exact absurd (h.head hm err he) (hnone err)

theorem Truthful.mainMove (h : a.Truthful) (hmove : CutOvers.MainMove a a')
    (hexit : a.main.awaitsNothing = true → a'.main = .returning true → a.RenameOver) :
    a'.Truthful := by
  have hopen : a.main.ended = false → a.result = none := by
    intro hm
    by_contra hr
    have := h.ended hr
    simp [this, AttemptAt.ended] at hm
  cases hmove with
  | forward frame hm hm' hb =>
    rw [frame]
    exact { h with
      unstarted := fun hb' => h.unstarted (hb hb')
      head := fun _ => h.head hm
      returning := fun err hr => by simp [show a'.main = _ from hr, AttemptAt.ended] at hm'
      result := by simp [hopen hm]
      ended := by simp [hopen hm] }
  | startRename hm =>
    have hr : a.rename = .notStarted := h.unstarted (by rw [hm]; rfl)
    have hst : a.statement = .notIssued := h.notIssued (by rw [hr]; rfl)
    have hnil : a.tablesRenamed = [] := h.sent (by simp [hr])
    have hres : a.result = none := hopen (by rw [hm]; rfl)
    refine ⟨fun hb => ?_, fun _ => hst, fun _ => hnil, fun hi => ?_, fun _ err he => ?_,
      fun err he => ?_, fun err he => ?_, fun he => ?_⟩
    · simp [AttemptAt.beforeRename] at hb
    · simp at hi
    · have he : a.tablesRenamed.head? = some err := he
      simp [hnil] at he
    · simp at he
    · have he : a.result = some err := he
      simp [hres] at he
    · exact absurd hres he
  | fails frame hm hm' =>
    have hn : a.main.ended = false := by
      rcases hm with hm | hm <;>
      · cases hmain : a.main <;>
          simp [hmain, AttemptAt.beforeRename, AttemptAt.awaitsNothing] at hm <;> rfl
    have hover : a.RenameOver := by
      rcases hm with hm | hm
      · have hr := h.unstarted hm
        exact .inr ⟨h.notIssued (by rw [hr]; rfl), .inr hr⟩
      · exact hexit hm hm'
    rw [frame, hm']
    exact { h with
      unstarted := by simp [AttemptAt.beforeRename]
      head := by simp [AttemptAt.ended]
      returning := fun err he => AttemptAt.returning.inj he ▸ hover
      result := by simp [hopen hn]
      ended := by simp [hopen hn] }
  | tablesRenamed err rest hm ht =>
    have hv := h.head (by rw [hm]; rfl) err (by rw [ht]; rfl)
    have hres : a.result = none := hopen (by rw [hm]; rfl)
    have hr : a.rename = .returned := by
      by_contra hno
      have := h.sent hno
      simp [ht] at this
    refine ⟨fun hb => ?_, h.notIssued, fun hno => absurd hr hno, h.connected, fun he => ?_,
      fun err' he => ?_, fun err' he => ?_, fun he => ?_⟩
    · simp [AttemptAt.beforeRename] at hb
    · simp [AttemptAt.ended] at he
    · rw [← AttemptAt.returning.inj he]
      cases err <;> exact hv
    · have he : a.result = some err' := he
      simp [hres] at he
    · exact absurd hres he
  | returned err hm =>
    have hv := h.returning err hm
    refine ⟨fun hb => ?_, h.notIssued, h.sent, h.connected, fun he => ?_, fun err' he => ?_,
      fun err' he => ?_, fun _ => rfl⟩
    · simp [AttemptAt.beforeRename] at hb
    · simp [AttemptAt.ended] at he
    · simp at he
    · cases he
      cases err <;> exact hv

end Attempt

namespace CutOvers

variable {ctx : CutOverContext} {s s' : CutOvers} {i : Nat}
variable {a a' : Attempt}

/-- The main goroutine returns an error without waiting for the end of the `RENAME`. -/
def Abandons (ctx : CutOverContext) (s : CutOvers) (outcome : MainOutcome) : Prop :=
  match (s.attempts s.current).main with
  | .waitForRename n => if n < ctx.maxRetries then outcome = .aborted else ctx.maxRetries ≠ 0
  | .expectUsedLock => outcome ≠ .ok
  | .tableUnlocked => (s.attempts s.current).tableUnlocked.head? = some true
  | _ => False

instance (s : CutOvers) (outcome : MainOutcome) : Decidable (s.Abandons ctx outcome) := by
  unfold Abandons
  split <;> infer_instance

/-- An error is returned while the end of the `RENAME` is not known only if it will not take effect.
-/
def SettledExits (ctx : CutOverContext) (s : CutOvers) : CutOversAction → Prop
  | .main outcome => s.Abandons ctx outcome → (s.attempts s.current).RenameOver
  | .rename i outcome => (s.attempts i).rename = .issue → outcome ≠ .lost
  | .disconnectRename i =>
    (s.attempts i).rename = .issued → (s.attempts i).statement = .failed
  | _ => True

instance (s : CutOvers) : ∀ a : CutOversAction, Decidable (s.SettledExits ctx a)
  | .main outcome =>
    inferInstanceAs (Decidable (s.Abandons ctx outcome → (s.attempts s.current).RenameOver))
  | .rename i outcome =>
    inferInstanceAs (Decidable ((s.attempts i).rename = .issue → outcome ≠ .lost))
  | .disconnectRename i =>
    inferInstanceAs
      (Decidable ((s.attempts i).rename = .issued → (s.attempts i).statement = .failed))
  | .lock _ _ | .retry | .executeRename _ | .endRename _ | .endLockSession _ | .disconnectLock _ =>
    .isTrue trivial

theorem abandons_of_exit {outcome : MainOutcome} (h : s.mainStep ctx outcome = some s')
    (hm : (s.attempts s.current).main.awaitsNothing = true)
    (he : (s'.attempts s.current).main = .returning true) : s.Abandons ctx outcome := by
  have hno : ∀ {a : Attempt}, s' = s.setAttempt s.current a → a.main = .returning true := by
    rintro a rfl
    rwa [setAttempt_self] at he
  unfold mainStep at h
  unfold Abandons
  cases hmain : (s.attempts s.current).main <;> simp only [hmain] at h hm ⊢
  case waitForRename n =>
    split at h
    · next hn =>
      rw [if_pos hn]
      split at h
      · rfl
      · obtain ⟨-, rfl⟩ := of_guard h
        exact absurd (hno rfl) (by simp)
      · split at h
        · simp at h
        · exact absurd (hno (Option.some.inj h).symm) (by simp)
    · next hn =>
      rw [if_neg hn]
      split at h
      · exact absurd (hno (Option.some.inj h).symm) (by simp)
      · next h0 => exact h0
  case expectUsedLock =>
    rintro rfl
    rw [if_pos rfl] at h
    obtain ⟨-, rfl⟩ := of_guard h
    exact absurd (hno rfl) (by simp)
  case tableUnlocked =>
    split at h
    · simp at h
    · next err rest ht =>
      cases err with
      | true => rw [ht]; rfl
      | false => exact absurd (hno (Option.some.inj h).symm) (by simp)
  all_goals simp [AttemptAt.awaitsNothing] at hm

/-- The verdicts and the names agree. -/
structure Agrees (s : CutOvers) : Prop where
  truthful : ∀ j, (s.attempts j).Truthful
  unswapped : (∀ j, (s.attempts j).statement ≠ .succeeded) →
    s.names.original = some .original ∧ s.names.ghost = some .ghost
  swapped : ∀ j, (s.attempts j).statement = .succeeded →
    s.names.original = some .ghost ∧ s.names.ghost = none
  past : ∀ j, j < s.current → (s.attempts j).result = some true
  future : ∀ j, s.current < j → (s.attempts j).result = none

theorem Agrees.setAttempt (h : s.Agrees) {t : CutOvers}
    (horiginal : t.names.original = s.names.original) (hghost : t.names.ghost = s.names.ghost)
    (hattempts : t.attempts = s.attempts) (hcurrent : t.current = s.current)
    (htruthful : a.Truthful)
    (hstatement : a.statement = .succeeded ↔ (s.attempts i).statement = .succeeded)
    (hresult : i ≠ s.current → a.result = (s.attempts i).result) : (t.setAttempt i a).Agrees := by
  have hsame : ∀ j, ((t.setAttempt i a).attempts j).statement = .succeeded ↔
      (s.attempts j).statement = .succeeded :=
    forall_setAttempt (P := fun j b => b.statement = .succeeded ↔ _)
      (fun j => by rw [hattempts]) hstatement
  have hresult : ∀ j, j ≠ s.current →
      ((t.setAttempt i a).attempts j).result = (s.attempts j).result :=
    forall_setAttempt (P := fun j b => j ≠ s.current → b.result = (s.attempts j).result)
      (fun j _ => by rw [hattempts]) hresult
  refine ⟨forall_setAttempt (P := fun _ b => b.Truthful) (fun j => hattempts ▸ h.truthful j)
    htruthful, fun hno => ?_, fun j hj => ?_, fun j hj => ?_, fun j hj => ?_⟩
  · rw [show (t.setAttempt i a).names = t.names from rfl, horiginal, hghost]
    exact h.unswapped fun j hj => hno j ((hsame j).2 hj)
  · rw [show (t.setAttempt i a).names = t.names from rfl, horiginal, hghost]
    exact h.swapped j ((hsame j).1 hj)
  · have hj : j < s.current := hcurrent ▸ hj
    rw [hresult j (by omega)]
    exact h.past j hj
  · have hj : s.current < j := hcurrent ▸ hj
    rw [hresult j (by omega)]
    exact h.future j hj

theorem LockEffect.frame {t : CutOvers} (h : LockEffect s i a t) :
    t.names.original = s.names.original ∧ t.names.ghost = s.names.ghost ∧
      t.attempts = s.attempts ∧ t.current = s.current := by
  cases h <;> exact ⟨rfl, rfl, rfl, rfl⟩

theorem RenameMove.statement {outcome : CallOutcome} (ha : a.Truthful)
    (h : RenameMove outcome a a') : a'.statement = .succeeded ↔ a.statement = .succeeded := by
  cases h with
  | forward => rfl
  | issue hr =>
    rw [ha.notIssued (by rw [hr]; rfl)]
    simp
  | notIssued hr =>
    rw [ha.notIssued (by rw [hr]; rfl)]
    simp
  | fails => rfl
  | succeeds => rfl

theorem RenameMove.result {outcome : CallOutcome} (h : RenameMove outcome a a') :
    a'.result = a.result := by
  cases h <;> rfl

theorem MainMove.statement (h : MainMove a a') : a'.statement = a.statement := by
  cases h with
  | forward frame | fails frame => rw [frame]
  | startRename | tablesRenamed | returned => rfl

theorem Agrees.executeRename (h : s.Agrees) (hs : s.executeRename i = some s') : s'.Agrees := by
  obtain ⟨hw, -, ⟨first, second, hnames, rfl⟩ | rfl⟩ := executeRename_eq hs
  · -- the ghost name is bound, so there was no swap before
    have hno : ∀ j, (s.attempts j).statement ≠ .succeeded := by
      intro j hj
      have := (h.swapped j hj).2
      simp [hnames] at this
    obtain ⟨-, hghost⟩ := h.unswapped hno
    have hsecond : second = .ghost := by simpa [hnames] using hghost
    subst hsecond
    refine ⟨forall_setAttempt (P := fun _ b => b.Truthful) h.truthful
      ((h.truthful i).decided hw), fun hno' => ?_, fun _ _ => ⟨rfl, rfl⟩, ?_, ?_⟩
    · exact absurd (by rw [setAttempt_self]) (hno' i)
    · exact forall_setAttempt (P := fun j b => j < s.current → b.result = some true) h.past
        (h.past i)
    · exact forall_setAttempt (P := fun j b => s.current < j → b.result = none) h.future
        (h.future i)
  · exact h.setAttempt rfl rfl rfl rfl ((h.truthful i).decided hw) (by simp [hw]) fun _ => rfl

theorem Agrees.step {a : CutOversAction} (h : s.Agrees) (hok : s.SettledExits ctx a)
    (hs : s.step ctx a = some s') : s'.Agrees := by
  cases a with
  | lock i outcome =>
    simp only [CutOvers.step] at hs
    split at hs
    · obtain ⟨t, a, rfl, hl, heffect⟩ := lockStep_eq hs
      obtain ⟨horiginal, hghost, hattempts, hcurrent⟩ := heffect.frame
      exact h.setAttempt horiginal hghost hattempts hcurrent ((h.truthful i).lockOnly hl)
        (by rw [hl]) fun _ => by rw [hl]
    · simp at hs
  | rename i outcome =>
    obtain ⟨a, rfl, hmove⟩ := renameStep_eq hs
    exact h.setAttempt rfl rfl rfl rfl ((h.truthful i).renameMove hok hmove)
      (hmove.statement (h.truthful i)) fun _ => hmove.result
  | main outcome =>
    have hexit := abandons_of_exit hs
    obtain ⟨g, a, rfl, hmove⟩ := mainStep_eq hs
    rw [setAttempt_self] at hexit
    refine h.setAttempt rfl rfl rfl rfl ((h.truthful _).mainMove hmove ?_)
      (by rw [hmove.statement]) fun hne => absurd rfl hne
    intro hm he
    exact hok (hexit hm he)
  | retry =>
    obtain ⟨hres, rfl⟩ := retry_eq hs
    refine ⟨h.truthful, h.unswapped, h.swapped, fun j hj => ?_, fun j hj => ?_⟩
    · have hj : j < s.current + 1 := hj
      by_cases hjc : j = s.current
      · rw [hjc]
        exact hres
      · exact h.past j (by omega)
    · have hj : s.current + 1 < j := hj
      exact h.future j (by omega)
  | executeRename i => exact h.executeRename hs
  | endRename i =>
    obtain ⟨hw, rfl⟩ := endRename_eq hs
    exact h.setAttempt rfl rfl rfl rfl ((h.truthful i).decided hw) (by simp [hw]) fun _ => rfl
  | endLockSession i =>
    obtain ⟨-, rfl⟩ := of_guard hs
    exact h.setAttempt rfl rfl rfl rfl ((h.truthful i).lockOnly rfl)
      Iff.rfl fun _ => rfl
  | disconnectLock i =>
    obtain ⟨-, rfl⟩ := of_guard hs
    exact h.setAttempt rfl rfl rfl rfl ((h.truthful i).lockOnly rfl)
      Iff.rfl fun _ => rfl
  | disconnectRename i =>
    obtain ⟨-, rfl⟩ := of_guard hs
    have htrue := h.truthful i
    exact h.setAttempt rfl rfl rfl rfl { htrue with connected := fun hr _ => hok hr } Iff.rfl
      fun _ => rfl

/-- **The verdict and the tables.** In a run that leaves no `RENAME` behind, an attempt without an
error has swapped the tables, and the `RENAME` of one with an error never takes effect. -/
theorem verdict_agrees {old : Option Table}
    (hr : Reach (CutOvers.step ctx) (SettledExits ctx) { names := { old } } s) (i : Nat) :
    ((s.attempts i).result = some false →
      (s.attempts i).statement = .succeeded ∧ s.names.original = some .ghost) ∧
    ((s.attempts i).result = some true →
      (s.attempts i).statement ≠ .succeeded ∧
        ((∀ j, i < j → (s.attempts j).statement ≠ .succeeded) →
          s.names.original = some .original)) := by
  have h : s.Agrees := by
    refine hr.invariant ?_ fun _ _ _ h hok hs => h.step hok hs
    exact ⟨fun _ => .init, fun _ => ⟨rfl, rfl⟩, fun j hj => by simp at hj,
      fun j hj => absurd hj (Nat.not_lt_zero j), fun _ _ => rfl⟩
  have herr : ∀ j, (s.attempts j).result = some true → (s.attempts j).statement ≠ .succeeded := by
    intro j hj hst
    rcases (h.truthful j).result true hj with hf | ⟨hn, -⟩
    · simp [hst] at hf
    · simp [hst] at hn
  refine ⟨fun hi => ?_, fun hi => ⟨herr i hi, fun hlater => ?_⟩⟩
  · have hst := (h.truthful i).result false hi
    exact ⟨hst, (h.swapped i hst).1⟩
  · refine (h.unswapped fun j => ?_).1
    rcases Nat.lt_trichotomy j i with hj | hj | hj
    · refine herr j (h.past j ?_)
      by_contra hcurrent
      have := h.future i (by omega)
      simp [hi] at this
    · rw [hj]
      exact herr i hi
    · exact hlater j hj

/-- The wait for the `RENAME` to show up is given up while it waits at the server. -/
theorem error_returned_and_swapped : ∃ s,
    Reachable (CutOvers.step { maxRetries := 1 }) {} s ∧
      (s.attempts 0).result = some true ∧ s.names.original = some .ghost := by
  exact exists_reach
    [List.replicate 8 (.lock 0 .ok), List.replicate 5 (.main .ok),
      List.replicate 4 (.rename 0 .ok), [.main .ok, .main .err, .main .err, .main .ok],
      List.replicate 4 (.lock 0 .ok), [.executeRename 0]].flatten (by decide +kernel)

/-- The first attempt times out before the `RENAME`, and the second one succeeds. -/
theorem verdict_agrees_small : ∃ s,
    Reach (CutOvers.step { maxRetries := 1 }) (SettledExits { maxRetries := 1 })
      { names := { old := some .sentry } } s ∧
      (s.attempts 0).result = some true ∧ (s.attempts 1).result = some false ∧
      (s.attempts 0).statement ≠ .succeeded ∧ s.names.original = some .ghost := by
  refine exists_reach_of
    (fun s => (s.attempts 0).result = some true ∧ (s.attempts 1).result = some false)
    [List.replicate 9 (.lock 0 .ok), [.main .ok, .main .ok, .main .err, .main .ok],
      List.replicate 6 (.lock 0 .ok), [.retry], List.replicate 8 (.lock 1 .ok),
      List.replicate 5 (.main .ok), List.replicate 4 (.rename 1 .ok),
      List.replicate 4 (.main .ok), List.replicate 4 (.lock 1 .ok),
      [.executeRename 1, .rename 1 .ok], List.replicate 3 (.main .ok)].flatten
      (by decide +kernel) ?_
  rintro s hr ⟨herr, hok⟩
  exact ⟨herr, hok, ((verdict_agrees hr 0).2 herr).1, ((verdict_agrees hr 1).1 hok).2⟩

end CutOvers

end GhOst.Logic
