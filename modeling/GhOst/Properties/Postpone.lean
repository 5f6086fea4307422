import Mathlib.Algebra.Order.Ring.Int
import GhOst.Logic.Postpone

/-!
# An unpostpone command releases the current postponement

The flag of an `unpostpone` command is cleared by the loop that it releases. It goes on to the next
attempt when it is stored after that loop has ended, or when the loop ends for another reason in
between.
-/

namespace GhOst.Logic

open Infra

namespace Postponement

variable {s s' : Postponement}

/-! ## The invariant -/

def PlaceInv (s : Postponement) : PostponeAt → Prop
  | .idle => s.isPostponingCutOver = 0 ∧ s.userCommandedUnpostponeFlag ≤ 0
  | .ended => s.userCommandedUnpostponeFlag ≤ 0
  | .clearUnpostpone => s.issued = true
  | .onBeginPostponed => s.isPostponingCutOver = 0 ∧ s.postponeCutOverFlagFile ≠ ""
  | .loadUnpostpone | .readFlagFile | .fileExists _ | .loadPostponing | .setPostponing =>
    s.postponeCutOverFlagFile ≠ ""
  | .checkAbort | .heartbeatLag | .flagFileSet | .sleep | .aborted => True

/-- `IsPostponingCutOver` says that the attempt postpones, and the flag that a command was issued
after that. -/
structure Inv (s : Postponement) : Prop where
  place : PlaceInv s s.place
  began : s.place ≠ .idle → (s.began = true ↔ s.isPostponingCutOver > 0)
  issued : s.issued = true → s.began = true
  flagFile : s.began = true → s.postponeCutOverFlagFile ≠ ""
  postponing : ∀ path ∈ s.postponing, path ≠ ""
  unpostponing : ∀ k ∈ s.unpostponing, k ≤ s.attempt ∧ (k = s.attempt → s.issued = true)
  flag : s.userCommandedUnpostponeFlag > 0 → s.issued = true
  ends : ∀ e ∈ s.ends, e.fileExists = true → e.issued = true

theorem PlaceInv.congr {q : PostponeAt} (h : PlaceInv s q)
    (hpostponing : s'.isPostponingCutOver = s.isPostponingCutOver)
    (hfile : s.postponeCutOverFlagFile ≠ "" → s'.postponeCutOverFlagFile ≠ "")
    (hissued : s.issued = true → s'.issued = true)
    (hflag : q.released = true → s.userCommandedUnpostponeFlag ≤ 0 →
      s'.userCommandedUnpostponeFlag ≤ 0) : PlaceInv s' q := by
  cases q with
  | idle => exact ⟨hpostponing.trans h.1, hflag rfl h.2⟩
  | ended => exact hflag rfl h
  | clearUnpostpone => exact hissued h
  | onBeginPostponed => exact ⟨hpostponing.trans h.1, hfile h.2⟩
  | loadUnpostpone => exact hfile h
  | readFlagFile => exact hfile h
  | fileExists fileName => exact hfile h
  | loadPostponing => exact hfile h
  | setPostponing => exact hfile h
  | checkAbort => trivial
  | heartbeatLag => trivial
  | flagFileSet => trivial
  | sleep => trivial
  | aborted => trivial

theorem Inv.init (path : String) (files : List String) :
    Inv { postponeCutOverFlagFile := path, files := files } where
  place := ⟨rfl, le_rfl⟩
  began h := absurd rfl h
  issued := nofun
  flagFile := nofun
  postponing := nofun
  unpostponing := nofun
  flag h := absurd h (lt_irrefl _)
  ends := nofun

theorem Inv.move (h : Inv s) {q : PostponeAt} (hplace : s.place ≠ .idle) (hq : PlaceInv s q) :
    Inv { s with place := q } :=
  { h with
    place := hq
    began := fun _ => h.began hplace }

theorem Inv.returns (h : Inv s) (hplace : s.place ≠ .idle)
    (hflag : s.userCommandedUnpostponeFlag ≤ 0) (hend : s.flagFileExists = true → s.issued = true) :
    Inv s.returns :=
  { h with
    place := hflag
    began := fun _ => h.began hplace
    ends := by
      intro e he hexists
      rcases List.mem_append.mp he with he | he
      · exact h.ends e he hexists
      · rw [List.mem_singleton.mp he] at hexists ⊢
        exact hend hexists }

theorem flagFileExists_eq_true_iff :
    s.flagFileExists = true ↔ s.postponeCutOverFlagFile ≠ "" ∧
      s.postponeCutOverFlagFile ∈ s.files := by
  unfold flagFileExists
  rw [Bool.and_eq_true, decide_eq_true_iff, List.contains_iff_mem]

theorem Inv.flag_le_of_not_postponing (h : Inv s) (hplace : s.place ≠ .idle)
    (hpostponing : s.isPostponingCutOver = 0) : s.userCommandedUnpostponeFlag ≤ 0 := by
  by_contra hflag
  have hbegan := (h.began hplace).mp (h.issued (h.flag (not_le.mp hflag)))
  rw [hpostponing] at hbegan
  exact lt_irrefl _ hbegan

/-! ## The steps of the loop -/

/-- The steps that come in time: a command stores its flag before the loop of its attempt has ended,
and when the loop finds no file, no flag was stored and the path not changed since it looked. -/
def inTime (s : Postponement) : PostponeAction → Bool
  | .storeUnpostpone i => s.unpostponing[i]? = some s.attempt && !s.place.released
  | .loop =>
    match s.place with
    | .fileExists fileName =>
      s.files.contains fileName ||
        (s.userCommandedUnpostponeFlag ≤ 0 && fileName = s.postponeCutOverFlagFile)
    | _ => true
  | _ => true

theorem of_inTime_fileExists {fileName : String} (h : s.inTime .loop = true)
    (hplace : s.place = .fileExists fileName) (hmissing : fileName ∉ s.files) :
    s.userCommandedUnpostponeFlag ≤ 0 ∧ fileName = s.postponeCutOverFlagFile := by
  unfold inTime at h
  rw [hplace] at h
  simp only [Bool.or_eq_true, List.contains_iff_mem, Bool.and_eq_true, decide_eq_true_eq] at h
  exact h.resolve_left hmissing

theorem Inv.loopStep (h : Inv s) (hok : s.inTime .loop = true) {p : PostponeAt}
    (hplace : s.place = p) (hs : s.loopStep p = some s') : Inv s' := by
  have hinv : PlaceInv s p := hplace ▸ h.place
  have hidle (hne : p ≠ .idle) : s.place ≠ .idle := hplace ▸ hne
  cases p with
  | flagFileSet =>
    rw [Postponement.loopStep] at hs
    split at hs <;> cases hs
    · next hempty =>
      -- a flag would say that the attempt has begun, with a flag file
      refine h.returns (hidle nofun) (not_lt.mp fun hflag => ?_) fun hexists => ?_
      · exact h.flagFile (h.issued (h.flag hflag)) hempty
      · exact absurd hempty (flagFileExists_eq_true_iff.mp hexists).1
    · next hfile => exact h.move (hidle nofun) hfile
  | loadUnpostpone =>
    rw [Postponement.loopStep] at hs
    split at hs <;> cases hs
    · next hflag => exact h.move (hidle nofun) (h.flag hflag)
    · exact h.move (hidle nofun) hinv
  | clearUnpostpone =>
    cases hs
    have hcleared : Inv { s with userCommandedUnpostponeFlag := 0 } :=
      { h with
        place := h.place.congr rfl id id fun _ _ => le_rfl
        flag := fun hflag => absurd hflag (lt_irrefl _) }
    exact hcleared.returns (hidle nofun) le_rfl fun _ => hinv
  | readFlagFile =>
    cases hs
    exact h.move (hidle nofun) hinv
  | fileExists fileName =>
    rw [Postponement.loopStep] at hs
    split at hs <;> cases hs
    · exact h.move (hidle nofun) hinv
    · next hmissing =>
      obtain ⟨hflag, hname⟩ := of_inTime_fileExists hok hplace hmissing
      refine h.returns (hidle nofun) hflag fun hexists => ?_
      exact absurd (flagFileExists_eq_true_iff.mp hexists).2 (hname ▸ hmissing)
  | loadPostponing =>
    rw [Postponement.loopStep] at hs
    split at hs <;> cases hs
    · next hpostponing => exact h.move (hidle nofun) ⟨hpostponing, hinv⟩
    · exact h.move (hidle nofun) hinv
  | setPostponing =>
    cases hs
    exact
      { h with
        place := trivial
        began := fun _ => ⟨fun _ => Int.one_pos, fun _ => rfl⟩
        issued := fun _ => rfl
        flagFile := fun _ => hinv }
  | sleep =>
    cases hs
    exact h.move (hidle nofun) trivial
  | ended =>
    cases hs
    exact
      { h with
        place := ⟨rfl, hinv⟩
        began := fun hne => absurd rfl hne }
  | idle => cases hs
  | checkAbort => cases hs
  | heartbeatLag => cases hs
  | onBeginPostponed => cases hs
  | aborted => cases hs

/-! ## The steps of the commands -/

theorem Inv.unpostpone (h : Inv s) (hpostponing : s.isPostponingCutOver > 0) :
    Inv { s with
      unpostponing := s.unpostponing ++ [s.attempt], issued := s.issued || s.began } := by
  have hplace : s.place ≠ .idle := by
    intro hidle
    have hinv : PlaceInv s .idle := hidle ▸ h.place
    exact absurd hinv.1 (ne_of_gt hpostponing)
  have hbegan : s.began = true := (h.began hplace).mpr hpostponing
  have hissued : (s.issued || s.began) = true := by rw [hbegan, Bool.or_true]
  exact
    { h with
      place := h.place.congr rfl id (fun _ => hissued) fun _ => id
      issued := fun _ => hbegan
      unpostponing := by
        intro k hk
        refine ⟨?_, fun _ => hissued⟩
        rcases List.mem_append.mp hk with hk | hk
        · exact (h.unpostponing k hk).1
        · exact (List.mem_singleton.mp hk).le
      flag := fun _ => hissued }

theorem Inv.storeUnpostpone (h : Inv s) {i : Nat} (hok : s.inTime (.storeUnpostpone i) = true) :
    Inv { s with unpostponing := s.unpostponing.eraseIdx i, userCommandedUnpostponeFlag := 1 } := by
  unfold inTime at hok
  rw [Bool.and_eq_true, decide_eq_true_eq, Bool.not_eq_true'] at hok
  obtain ⟨hattempt, hreleased⟩ := hok
  have hissued := (h.unpostponing s.attempt (List.mem_of_getElem? hattempt)).2 rfl
  exact
    { h with
      place := h.place.congr rfl id id fun hended => by rw [hreleased] at hended; cases hended
      unpostponing := fun k hk => h.unpostponing k (List.mem_of_mem_eraseIdx hk)
      flag := fun _ => hissued }

theorem Inv.storeFlagFile (h : Inv s) {i : Nat} {path : String}
    (hpath : s.postponing[i]? = some path) :
    Inv { s with postponing := s.postponing.eraseIdx i, postponeCutOverFlagFile := path } := by
  have hne : path ≠ "" := h.postponing path (List.mem_of_getElem? hpath)
  exact
    { h with
      place := h.place.congr rfl (fun _ => hne) id fun _ => id
      flagFile := fun _ => hne
      postponing := fun p hp => h.postponing p (List.mem_of_mem_eraseIdx hp) }

theorem Inv.files (h : Inv s) (files : List String) : Inv { s with files := files } :=
  { h with place := h.place.congr rfl id id fun _ => id }

theorem Inv.step {a : PostponeAction} (h : Inv s) (hok : s.inTime a = true)
    (hs : s.step a = some s') : Inv s' := by
  cases a with
  | cutOver =>
    rw [Postponement.step] at hs
    split at hs <;> cases hs
    next hplace =>
      have hinv : PlaceInv s .idle := hplace ▸ h.place
      exact
        { h with
          place := trivial
          began := fun _ => ⟨nofun, fun hpostponing => absurd hinv.1 (ne_of_gt hpostponing)⟩
          issued := nofun
          flagFile := nofun
          unpostponing := by
            intro k hk
            have hle := (h.unpostponing k hk).1
            exact ⟨Nat.le_succ_of_le hle, fun heq =>
              absurd heq (Nat.ne_of_lt (Nat.lt_succ_of_le hle))⟩
          flag := fun hflag => absurd hinv.2 (not_le.mpr hflag) }
  | checkAbort aborted =>
    rw [Postponement.step] at hs
    split at hs <;> cases hs
    next hplace =>
      have hne : s.place ≠ .idle := hplace ▸ nofun
      cases aborted with
      | true => exact h.move hne trivial
      | false => exact h.move hne trivial
  | heartbeatLag tooHigh =>
    rw [Postponement.step] at hs
    split at hs <;> cases hs
    next hplace =>
      have hne : s.place ≠ .idle := hplace ▸ nofun
      cases tooHigh with
      | true => exact h.move hne trivial
      | false => exact h.move hne trivial
  | onBeginPostponed err =>
    rw [Postponement.step] at hs
    split at hs <;> cases hs
    next hplace =>
      have hne : s.place ≠ .idle := hplace ▸ nofun
      have hinv : PlaceInv s .onBeginPostponed := hplace ▸ h.place
      cases err with
      | true =>
        exact
          { h with
            place := ⟨hinv.1, h.flag_le_of_not_postponing hne hinv.1⟩
            began := fun hidle => absurd rfl hidle }
      | false => exact h.move hne hinv.2
  | loop => exact h.loopStep hok rfl hs
  | unpostpone =>
    rw [Postponement.step] at hs
    split at hs <;> cases hs
    · next hpostponing => exact h.unpostpone hpostponing
    · exact h
  | storeUnpostpone i =>
    rw [Postponement.step] at hs
    split at hs <;> cases hs
    exact h.storeUnpostpone hok
  | postpone path =>
    rw [Postponement.step] at hs
    split at hs <;> cases hs
    · next hne =>
      refine { h.files (s.files.insert path) with postponing := fun p hp => ?_ }
      rcases List.mem_append.mp hp with hp | hp
      · exact h.postponing p hp
      · rw [List.mem_singleton.mp hp]
        exact hne
    · exact h
  | storeFlagFile i =>
    rw [Postponement.step, Option.map_eq_some_iff] at hs
    obtain ⟨path, hpath, rfl⟩ := hs
    exact h.storeFlagFile hpath
  | createFile path =>
    cases hs
    exact h.files _
  | removeFile path =>
    cases hs
    exact h.files _

/-! ## Runs -/

/-- **In every run whose steps come in time, a loop that ends while the flag file exists was
released by an `unpostpone` command that was issued after its attempt began postponing.** -/
theorem unpostpone_releases_current (path : String) (files : List String)
    (h : Reach step (fun s a => s.inTime a = true)
      { postponeCutOverFlagFile := path, files := files } s) :
    ∀ e ∈ s.ends, e.fileExists = true → e.issued = true :=
  (Reach.invariant h (Inv.init path files) fun _ _ _ hinv hok hs => hinv.step hok hs).ends

/-- An attempt that postpones once and is then released by a command. -/
def oneRelease : List PostponeAction :=
  [.cutOver, .checkAbort false, .heartbeatLag false, .loop, .loop, .loop, .loop, .loop,
    .onBeginPostponed false, .loop, .unpostpone, .storeUnpostpone 0, .loop, .checkAbort false,
    .heartbeatLag false, .loop, .loop, .loop]

/-- Two attempts, each released by a command of its own. -/
theorem unpostpone_releases_current_twice :
    ∃ s, Reach step (fun s a => s.inTime a = true)
        { postponeCutOverFlagFile := "flag", files := ["flag"] } s ∧
      s.ends.map (·.attempt) = [1, 2] ∧ (∀ e ∈ s.ends, e.fileExists = true) ∧
      ∀ e ∈ s.ends, e.fileExists = true → e.issued = true := by
  refine exists_reach_of
    (fun s => s.ends.map (·.attempt) = [1, 2] ∧ ∀ e ∈ s.ends, e.fileExists = true)
    (oneRelease ++ .loop :: oneRelease) (by decide +kernel) ?_
  rintro s hr ⟨hattempts, hexists⟩
  exact ⟨hattempts, hexists, unpostpone_releases_current "flag" ["flag"] hr⟩

/-- A second command comes between the two stores at the end of the loop; the next loop ends at
once. -/
theorem unpostpone_releases_next_wrong :
    ∃ s, Reachable step { postponeCutOverFlagFile := "flag", files := ["flag"] } s ∧
      { attempt := 2, fileExists := true, issued := false } ∈ s.ends := by
  exact exists_reach
    (oneRelease ++ [.unpostpone, .storeUnpostpone 0, .loop, .cutOver, .checkAbort false,
      .heartbeatLag false, .loop, .loop, .loop]) (by decide +kernel)

end Postponement

end GhOst.Logic
