import GhOst.Infra.Steps
import GhOst.Logic.Server

/-!
# Queries and rejected commands

A question mark as argument asks, and a command that is answered with an error is not obeyed. Three
commands compare their argument with the name of the table only, and one takes any argument as a
path.
-/

namespace GhOst.Logic

open Infra GhOst.Base GhOst.Mysql

variable {F : Type} {lib : Stdlib F} {srv : ServerContext} {outcomes : Outcomes} {s : ServerState F}
  {arg : String}
variable {output : String} {s' : ServerState F}

/-- All tunables and the file system are the same; only `PanicAbort` may have been sent to. -/
def Unchanged (s s' : ServerState F) : Prop := s' = { s with panicAbort := s'.panicAbort }

theorem Unchanged.refl (s : ServerState F) : Unchanged s s := rfl

/-- A query or a rejected command changes nothing. -/
def ChangesNothing (s : ServerState F) (arg : String) (r : Reply × ServerState F) : Prop :=
  arg = "?" ∨ r.1.err ≠ none → Unchanged s r.2

/-! ## Commands that ask before they read their argument -/

theorem answered_changesNothing : ChangesNothing s arg (answered s output) :=
  fun _ => Unchanged.refl s

theorem rejected_changesNothing_iff {err : String} :
    ChangesNothing s arg (rejected s' err) ↔ Unchanged s s' :=
  ⟨fun h => h (.inr (Option.some_ne_none err)), fun h _ => h⟩

theorem rejected_changesNothing {err : String} : ChangesNothing s arg (rejected s err) :=
  rejected_changesNothing_iff.mpr (Unchanged.refl s)

theorem accepted_changesNothing_iff :
    ChangesNothing s arg (accepted s' output) ↔ (arg = "?" → Unchanged s s') := by
  constructor
  · exact fun h harg => h (.inl harg)
  · rintro h (harg | herr)
    · exact h harg
    · exact absurd rfl herr

theorem accepted_changesNothing (harg : arg ≠ "?") : ChangesNothing s arg (accepted s' output) :=
  accepted_changesNothing_iff.mpr fun hquery => absurd hquery harg

theorem numberCommand_changesNothing {value : Int} {set : Int → ServerState F} :
    ChangesNothing s arg (numberCommand lib s arg value set) := by
  unfold numberCommand
  by_cases harg : arg = "?"
  · rw [if_pos harg]
    exact answered_changesNothing
  · rw [if_neg harg]
    cases atoi arg.toList with
    | none => exact rejected_changesNothing
    | some n => exact accepted_changesNothing harg

theorem textCommand_changesNothing {value : String} {set : String → ServerState F} :
    ChangesNothing s arg (textCommand s arg value set) := by
  unfold textCommand
  by_cases harg : arg = "?"
  · rw [if_pos harg]
    exact answered_changesNothing
  · rw [if_neg harg]
    exact accepted_changesNothing harg

theorem readerCommand_changesNothing {value : String} {read : Option String × ServerState F}
    {output : ServerState F → String} (hread : read.1 ≠ none → read.2 = s) :
    ChangesNothing s arg (readerCommand s arg value read output) := by
  unfold readerCommand
  by_cases harg : arg = "?"
  · rw [if_pos harg]
    exact answered_changesNothing
  · rw [if_neg harg]
    obtain ⟨_ | err, s'⟩ := read
    · exact accepted_changesNothing harg
    · rw [show s' = s from hread (Option.some_ne_none err)]
      exact rejected_changesNothing

/-- **A list of thresholds that is read in part is not stored.** -/
theorem readLoad_of_err {set : LoadMap → ServerState F} {list : String}
    (h : (readLoad s set list).1 ≠ none) : (readLoad s set list).2 = s := by
  unfold readLoad at h ⊢
  rcases hparse : LoadMap.parseLoadMap list with ⟨loadMap, _ | err⟩
  · rw [hparse] at h
    exact absurd rfl h
  · rfl

theorem readThrottleControlReplicaKeys_of_err
    (h : (readThrottleControlReplicaKeys s arg).1 ≠ none) :
    (readThrottleControlReplicaKeys s arg).2 = s := by
  unfold readThrottleControlReplicaKeys at h ⊢
  rcases hread : readCommaDelimitedList [] arg with ⟨keys, _ | err⟩
  · rw [hread] at h
    exact absurd rfl h
  · rfl

theorem niceRatioCommand_changesNothing : ChangesNothing s arg (niceRatioCommand lib s arg) := by
  unfold niceRatioCommand
  by_cases harg : arg = "?"
  · rw [if_pos harg]
    exact answered_changesNothing
  · rw [if_neg harg]
    cases lib.parseFloat arg with
    | error err => exact rejected_changesNothing
    | ok niceRatio => exact accepted_changesNothing harg

theorem cpuProfileCommand_changesNothing :
    ChangesNothing s arg (cpuProfileCommand lib outcomes s arg) := by
  unfold cpuProfileCommand
  cases runCPUProfile lib outcomes s arg with
  | error err => exact rejected_changesNothing
  | ok cpuProfile => exact answered_changesNothing

theorem coordinatesCommand_changesNothing :
    ChangesNothing s arg (coordinatesCommand srv s arg) := by
  unfold coordinatesCommand
  split
  · exact answered_changesNothing
  · exact rejected_changesNothing

/-! ## Commands that take the name of the table -/

theorem forTable_changesNothing_iff {name : String} {obeyed : Reply × ServerState F}
    (hobeyed : arg ≠ "?" → ChangesNothing s arg obeyed) :
    ChangesNothing s arg (forTable s arg name obeyed) ↔
      (arg = "?" → s.throttle.originalTableName = "?" → Unchanged s obeyed.2) := by
  unfold forTable
  by_cases hother : arg ≠ "" ∧ arg ≠ s.throttle.originalTableName
  · rw [if_pos hother]
    exact ⟨fun _ harg htable => absurd (harg.trans htable.symm) hother.2,
      fun _ => rejected_changesNothing⟩
  · rw [if_neg hother]
    by_cases harg : arg = "?"
    · rw [not_and_or, not_ne_iff, not_ne_iff] at hother
      have htable : s.throttle.originalTableName = "?" := by
        rcases hother with hempty | htable
        · exact absurd (hempty.symm.trans harg) (by decide)
        · exact htable.symm.trans harg
      exact ⟨fun h _ _ => h (.inl harg), fun h _ => h harg htable⟩
    · exact ⟨fun _ h => absurd h harg, fun _ => hobeyed harg⟩

theorem setThrottleCommandedByUser_unchanged_iff {n : Int} :
    Unchanged s (s.setThrottleCommandedByUser n) ↔ s.throttle.throttleCommandedByUser = n := by
  constructor
  · intro h
    have hflag := congrArg (fun s : ServerState F => s.throttle.throttleCommandedByUser) h
    exact hflag.symm
  · rintro rfl
    rfl

theorem unpostponeCommand_changesNothing_iff :
    ChangesNothing s arg (unpostponeCommand srv s arg) ↔
      (arg = "?" → s.throttle.originalTableName = "?" → s.isPostponingCutOver > 0 →
        s.userCommandedUnpostponeFlag = 1) := by
  unfold unpostponeCommand
  by_cases hnamed : arg = "" ∧ srv.forceNamedCutOverCommand = true
  · rw [if_pos hnamed]
    exact ⟨fun _ harg => absurd (hnamed.1.symm.trans harg) (by decide),
      fun _ => rejected_changesNothing⟩
  · rw [if_neg hnamed]
    by_cases hpostponing : s.isPostponingCutOver > 0
    · rw [if_pos hpostponing, forTable_changesNothing_iff accepted_changesNothing]
      have hflag :
          Unchanged s (accepted { s with userCommandedUnpostponeFlag := 1 } "Unpostponed\n").2 ↔
          s.userCommandedUnpostponeFlag = 1 := by
        constructor
        · exact fun h => (congrArg ServerState.userCommandedUnpostponeFlag h).symm
        · intro h
          rw [← h]
          rfl
      rw [hflag]
      exact ⟨fun h harg htable _ => h harg htable, fun h harg htable => h harg htable hpostponing⟩
    · rw [if_neg hpostponing, forTable_changesNothing_iff fun _ => answered_changesNothing]
      exact ⟨fun _ _ _ h => absurd h hpostponing, fun _ _ _ => Unchanged.refl s⟩

theorem panicCommand_unchanged : Unchanged s (panicCommand srv outcomes s arg).2 := by
  unfold panicCommand forTable
  by_cases hnamed : arg = "" ∧ srv.forceNamedPanicCommand = true
  · rw [if_pos hnamed]
    rfl
  · rw [if_neg hnamed]
    dsimp only
    split
    · rfl
    · rfl

/-! ## The flag file -/

theorem unchanged_files_iff {files : List String} {path : String} :
    Unchanged s { s with files := files, postponeCutOverFlagFile := path } ↔
      files = s.files ∧ path = s.postponeCutOverFlagFile := by
  constructor
  · exact fun h => ⟨congrArg ServerState.files h, congrArg ServerState.postponeCutOverFlagFile h⟩
  · rintro ⟨rfl, rfl⟩
    rfl

theorem insert_eq_self_iff {files : List String} : files.insert arg = files ↔ arg ∈ files :=
  ⟨fun h => h ▸ List.mem_insert_self, List.insert_of_mem⟩

/-- A question mark is taken for the name of the table or for a path, or a file is created and
cannot be closed. -/
def Disturbs (outcomes : Outcomes) (s : ServerState F) (arg : String) : ServerCommand → Prop
  | .throttle =>
    arg = "?" ∧ s.throttle.originalTableName = "?" ∧ s.throttle.throttleCommandedByUser ≠ 1
  | .noThrottle =>
    arg = "?" ∧ s.throttle.originalTableName = "?" ∧ s.throttle.throttleCommandedByUser ≠ 0
  | .unpostpone =>
    arg = "?" ∧ s.throttle.originalTableName = "?" ∧ s.isPostponingCutOver > 0 ∧
      s.userCommandedUnpostponeFlag ≠ 1
  | .postponeCutOverFlagFile =>
    arg = "?" ∧ (fileExists outcomes s.files arg = true ∨ outcomes.touch = .done) ∧
        (arg ∉ s.files ∨ arg ≠ s.postponeCutOverFlagFile) ∨
      arg ≠ "" ∧ (∃ err, outcomes.touch = .closeFails err) ∧ arg ∉ s.files
  | _ => False

theorem mem_of_fileExists (h : fileExists outcomes s.files arg = true) : arg ∈ s.files := by
  unfold fileExists at h
  rw [Bool.and_eq_true, List.contains_iff_mem] at h
  exact h.1

theorem postponeCommand_cases (outcomes : Outcomes) (s : ServerState F) (hne : arg ≠ "") :
    (fileExists outcomes s.files arg = true ∧
      postponeCommand outcomes s arg =
        accepted { s with postponeCutOverFlagFile := arg } "Postponed\n") ∨
    (fileExists outcomes s.files arg = false ∧ outcomes.touch = .done ∧
      postponeCommand outcomes s arg =
        accepted { s with files := s.files.insert arg, postponeCutOverFlagFile := arg }
        "Postponed\n") ∨
    (∃ err text, fileExists outcomes s.files arg = false ∧ outcomes.touch = .openFails err ∧
      postponeCommand outcomes s arg = rejected s text) ∨
    (∃ err text, fileExists outcomes s.files arg = false ∧ outcomes.touch = .closeFails err ∧
      postponeCommand outcomes s arg = rejected { s with files := s.files.insert arg } text) := by
  unfold postponeCommand createPostponeCutOverFlagFile touchFile
  rw [if_neg hne]
  cases fileExists outcomes s.files arg with
  | true => exact .inl ⟨rfl, rfl⟩
  | false =>
    cases outcomes.touch with
    | done => exact .inr (.inl ⟨rfl, rfl, rfl⟩)
    | openFails err => exact .inr (.inr (.inl ⟨err, _, rfl, rfl, rfl⟩))
    | closeFails err => exact .inr (.inr (.inr ⟨err, _, rfl, rfl, rfl⟩))

theorem postponeCommand_changesNothing_iff :
    ChangesNothing s arg (postponeCommand outcomes s arg) ↔
      ¬ Disturbs outcomes s arg .postponeCutOverFlagFile := by
  unfold Disturbs
  by_cases hempty : arg = ""
  · subst hempty
    exact ⟨fun _ h => h.elim (fun h => absurd h.1 (by decide)) fun h => h.1 rfl,
      fun _ => rejected_changesNothing⟩
  rcases postponeCommand_cases outcomes s hempty with
    ⟨hexists, heq⟩ | ⟨hexists, htouch, heq⟩ | ⟨err, text, hexists, htouch, heq⟩ |
      ⟨err, text, hexists, htouch, heq⟩
  · have hmem := mem_of_fileExists hexists
    have hfiles : Unchanged s { s with postponeCutOverFlagFile := arg } ↔
        arg = s.postponeCutOverFlagFile :=
      unchanged_files_iff.trans (and_iff_right rfl)
    rw [heq, accepted_changesNothing_iff, hfiles]
    simp [hexists, hmem]
  · rw [heq, accepted_changesNothing_iff, unchanged_files_iff, insert_eq_self_iff]
    simp [htouch]
  · rw [heq]
    simp [hexists, htouch, rejected_changesNothing]
  · have hfiles : Unchanged s { s with files := s.files.insert arg } ↔ arg ∈ s.files :=
      (unchanged_files_iff.trans (and_iff_left rfl)).trans insert_eq_self_iff
    rw [heq, rejected_changesNothing_iff, hfiles]
    simp [hexists, htouch, hempty]

/-! ## All commands -/

/-- **A command changes nothing when it asks or is rejected, but for those of `Disturbs`.** -/
theorem apply_changesNothing_iff (lib : Stdlib F) (srv : ServerContext) (c : ServerCommand) :
    ChangesNothing s arg (c.apply lib srv outcomes s arg) ↔ ¬ Disturbs outcomes s arg c := by
  have hharmless {r : Reply × ServerState F} (h : ChangesNothing s arg r) :
      ChangesNothing s arg r ↔ ¬ False := ⟨fun _ => id, fun _ => h⟩
  cases c with
  | help => exact hharmless answered_changesNothing
  | sup => exact hharmless fun _ => Unchanged.refl s
  | status => exact hharmless fun _ => Unchanged.refl s
  | cpuProfile => exact hharmless cpuProfileCommand_changesNothing
  | coordinates => exact hharmless coordinatesCommand_changesNothing
  | applier => exact hharmless answered_changesNothing
  | inspector => exact hharmless answered_changesNothing
  | chunkSize => exact hharmless numberCommand_changesNothing
  | dmlBatchSize => exact hharmless numberCommand_changesNothing
  | maxLagMillis => exact hharmless numberCommand_changesNothing
  | replicationLagQuery => exact hharmless rejected_changesNothing
  | niceRatio => exact hharmless niceRatioCommand_changesNothing
  | maxLoad => exact hharmless (readerCommand_changesNothing readLoad_of_err)
  | criticalLoad => exact hharmless (readerCommand_changesNothing readLoad_of_err)
  | throttleQuery => exact hharmless textCommand_changesNothing
  | throttleHTTP => exact hharmless textCommand_changesNothing
  | throttleControlReplicas =>
    exact hharmless (readerCommand_changesNothing readThrottleControlReplicaKeys_of_err)
  | throttle =>
    refine (forTable_changesNothing_iff accepted_changesNothing).trans ?_
    simp [Disturbs, accepted, setThrottleCommandedByUser_unchanged_iff]
  | noThrottle =>
    refine (forTable_changesNothing_iff accepted_changesNothing).trans ?_
    simp [Disturbs, accepted, setThrottleCommandedByUser_unchanged_iff]
  | postponeCutOverFlagFile => exact postponeCommand_changesNothing_iff
  | unpostpone =>
    refine unpostponeCommand_changesNothing_iff.trans ?_
    simp [Disturbs]
  | panic => exact hharmless fun _ => panicCommand_unchanged

/-- **Queries, and commands other than `panic` that are rejected, change nothing, unless** they are
among `Disturbs`. -/
theorem server_command_changes_nothing_iff (lib : Stdlib F) (srv : ServerContext)
    (outcomes : Outcomes) (s : ServerState F) (command : String) :
    ((parseCommand command).2 = "?" ∨ (parseCommand command).1 ≠ "panic" ∧
          (applyServerCommand lib srv outcomes s command).1.err ≠ none →
        Unchanged s (applyServerCommand lib srv outcomes s command).2) ↔
      ¬ (outcomes.hook = none ∧ ∃ c, ServerCommand.ofName (parseCommand command).1 = some c ∧
        Disturbs outcomes s (parseCommand command).2 c) := by
  unfold applyServerCommand
  rcases parseCommand command with ⟨name, arg⟩
  dsimp only
  cases outcomes.hook with
  | some err => exact ⟨fun _ h => absurd h.1 (Option.some_ne_none err), fun _ _ => Unchanged.refl s⟩
  | none =>
    rcases hname : ServerCommand.ofName name with _ | c
    · exact ⟨fun _ ⟨_, c, hc, _⟩ => absurd hc (Option.some_ne_none c).symm,
        fun _ _ => Unchanged.refl s⟩
    · simp only [true_and, Option.some.injEq, exists_eq_left']
      rw [← apply_changesNothing_iff lib srv c]
      by_cases hpanic : c = .panic
      · subst hpanic
        exact ⟨fun _ _ => panicCommand_unchanged, fun _ _ => panicCommand_unchanged⟩
      · have hother : name ≠ "panic" := by
          rintro rfl
          exact hpanic (Option.some.inj hname).symm
        rw [and_iff_right hother]
        rfl

/-- A library without fractions, durations and profiles. -/
def noFractions : Stdlib Unit where
  atoiError arg := "strconv.Atoi: parsing " ++ arg
  parseFloat arg := .error ("strconv.ParseFloat: parsing " ++ arg)
  lt _ _ := false
  zero := ()
  hundred := ()
  formatFloat _ := "0"
  parseDuration arg := .error ("time: invalid duration " ++ arg)
  profile _ _ _ := ""

/-- The question about the flag file creates a file, and the question about a table named `?`
throttles. -/
theorem server_command_question_wrong :
    (parseCommand "postpone-cut-over-flag-file=?").2 = "?" ∧
    (applyServerCommand noFractions {} {} { niceRatio := () } "postpone-cut-over-flag-file=?").2 =
      { niceRatio := (), files := ["?"], postponeCutOverFlagFile := "?" } ∧
    (parseCommand "throttle=?").2 = "?" ∧
    (applyServerCommand noFractions {} {}
        { niceRatio := (), throttle := { originalTableName := "?" } } "throttle=?").2 =
      { niceRatio := ()
        throttle := { originalTableName := "?", throttleCommandedByUser := 1 } } := by
  decide +kernel

/-! ## The throttler -/

section Throttler

variable {t : Throttler}

def Throttles (t : Throttler) (ctx : ThrottleContext) : Prop :=
  ctx = t.ctx ∨ ∃ c, ctx = (t.applyServerCommand c).ctx

section Helpers

variable (hs : Throttles t s.throttle)
include hs

theorem numberCommand_throttles {value : Int} {set : Int → ServerState F}
    (hset : ∀ n, Throttles t (set n).throttle) :
    Throttles t (numberCommand lib s arg value set).2.throttle := by
  unfold numberCommand
  split
  · exact hs
  · cases atoi arg.toList with
    | none => exact hs
    | some n => exact hset n

theorem textCommand_throttles {value : String} {set : String → ServerState F}
    (hset : ∀ text, Throttles t (set text).throttle) :
    Throttles t (textCommand s arg value set).2.throttle := by
  unfold textCommand
  split
  · exact hs
  · exact hset arg

theorem readerCommand_throttles {value : String} {read : Option String × ServerState F}
    {output : ServerState F → String} (hread : Throttles t read.2.throttle) :
    Throttles t (readerCommand s arg value read output).2.throttle := by
  unfold readerCommand
  split
  · exact hs
  · obtain ⟨_ | err, s'⟩ := read
    · exact hread
    · exact hread

theorem readLoad_throttles {set : LoadMap → ServerState F} {list : String}
    (hset : ∀ loadMap, Throttles t (set loadMap).throttle) :
    Throttles t (readLoad s set list).2.throttle := by
  unfold readLoad
  rcases LoadMap.parseLoadMap list with ⟨loadMap, _ | err⟩
  · exact hset loadMap
  · exact hs

theorem readThrottleControlReplicaKeys_throttles
    (hset : ∀ keys, Throttles t (s.setThrottleControlReplicaKeys keys).throttle) :
    Throttles t (readThrottleControlReplicaKeys s arg).2.throttle := by
  unfold readThrottleControlReplicaKeys
  rcases readCommaDelimitedList [] arg with ⟨keys, _ | err⟩
  · exact hset keys
  · exact hs

theorem forTable_throttles {name : String} {obeyed : Reply × ServerState F}
    (hobeyed : ¬ (arg ≠ "" ∧ arg ≠ s.throttle.originalTableName) → Throttles t obeyed.2.throttle) :
    Throttles t (forTable s arg name obeyed).2.throttle := by
  unfold forTable
  by_cases hother : arg ≠ "" ∧ arg ≠ s.throttle.originalTableName
  · rw [if_pos hother]
    exact hs
  · rw [if_neg hother]
    exact hobeyed hother

end Helpers

theorem postponeCommand_throttle :
    (postponeCommand outcomes s arg).2.throttle = s.throttle := by
  by_cases hempty : arg = ""
  · rw [postponeCommand, if_pos hempty]
    rfl
  · rcases postponeCommand_cases outcomes s hempty with
      ⟨-, heq⟩ | ⟨-, -, heq⟩ | ⟨_, _, -, -, heq⟩ | ⟨_, _, -, -, heq⟩ <;> rw [heq] <;> rfl

/-- **To the throttler, a command is one of its own commands or nothing.** -/
theorem apply_throttles (ht : s.throttle = t.ctx) (c : ServerCommand) :
    Throttles t (c.apply lib srv outcomes s arg).2.throttle := by
  have hs : Throttles t s.throttle := .inl ht
  cases c with
  | help => exact hs
  | sup => exact hs
  | status => exact hs
  | cpuProfile =>
    show Throttles t (cpuProfileCommand lib outcomes s arg).2.throttle
    unfold cpuProfileCommand
    cases runCPUProfile lib outcomes s arg with
    | error err => exact hs
    | ok cpuProfile => exact hs
  | coordinates =>
    show Throttles t (coordinatesCommand srv s arg).2.throttle
    unfold coordinatesCommand
    split
    · exact hs
    · exact hs
  | applier => exact hs
  | inspector => exact hs
  | chunkSize => exact numberCommand_throttles hs fun _ => hs
  | dmlBatchSize => exact numberCommand_throttles hs fun _ => hs
  | maxLagMillis =>
    refine numberCommand_throttles hs fun n => .inr ⟨.maxLagMillis n, ?_⟩
    rw [ServerState.setMaxLagMillisecondsThrottleThreshold, ht]
    rfl
  | replicationLagQuery => exact hs
  | niceRatio =>
    show Throttles t (niceRatioCommand lib s arg).2.throttle
    unfold niceRatioCommand
    split
    · exact hs
    · cases lib.parseFloat arg with
      | error err => exact hs
      | ok niceRatio => exact hs
  | maxLoad =>
    refine readerCommand_throttles hs (readLoad_throttles hs fun loadMap =>
      .inr ⟨.maxLoad loadMap, ?_⟩)
    rw [ServerState.setMaxLoad, ht]
    rfl
  | criticalLoad =>
    refine readerCommand_throttles hs
      (readLoad_throttles hs fun loadMap => .inr ⟨.criticalLoad loadMap, ?_⟩)
    rw [ServerState.setCriticalLoad, ht]
    rfl
  | throttleQuery =>
    refine textCommand_throttles hs fun query => .inr ⟨.throttleQuery query, ?_⟩
    rw [ServerState.setThrottleQuery, ht]
    rfl
  | throttleHTTP =>
    refine textCommand_throttles hs fun url => .inr ⟨.throttleHTTP url, ?_⟩
    rw [ServerState.setThrottleHTTP, ht]
    rfl
  | throttleControlReplicas =>
    refine readerCommand_throttles hs (readThrottleControlReplicaKeys_throttles hs fun keys =>
      .inr ⟨.throttleControlReplicas keys, ?_⟩)
    rw [ServerState.setThrottleControlReplicaKeys, ht]
    rfl
  | throttle =>
    refine forTable_throttles hs fun hother => .inr ⟨.throttle arg, ?_⟩
    rw [Throttler.applyServerCommand, ← ht, if_neg hother]
    rfl
  | noThrottle =>
    refine forTable_throttles hs fun hother => .inr ⟨.noThrottle arg, ?_⟩
    rw [Throttler.applyServerCommand, ← ht, if_neg hother]
    rfl
  | postponeCutOverFlagFile =>
    show Throttles t (postponeCommand outcomes s arg).2.throttle
    rw [postponeCommand_throttle]
    exact hs
  | unpostpone =>
    show Throttles t (unpostponeCommand srv s arg).2.throttle
    unfold unpostponeCommand
    split
    · exact hs
    · refine forTable_throttles hs fun _ => ?_
      split
      · exact hs
      · exact hs
  | panic =>
    have hunchanged : Unchanged s (panicCommand srv outcomes s arg).2 := panicCommand_unchanged
    show Throttles t (panicCommand srv outcomes s arg).2.throttle
    rw [hunchanged]
    exact hs

theorem applyServerCommand_throttles (ht : s.throttle = t.ctx) (command : String) :
    Throttles t (applyServerCommand lib srv outcomes s command).2.throttle := by
  unfold applyServerCommand
  cases outcomes.hook with
  | some err => exact .inl ht
  | none =>
    dsimp only
    cases ServerCommand.ofName (parseCommand command).1 with
    | none => exact .inl ht
    | some c => exact apply_throttles ht c

/-- A session of commands, each with what the world answers to it. -/
def serverSession (lib : Stdlib F) (srv : ServerContext) (s : ServerState F)
    (commands : List (Outcomes × String)) : ServerState F :=
  commands.foldl (fun s c => (applyServerCommand lib srv c.1 s c.2).2) s

/-- **To the throttler, any session of the server is a run of its own commands.** -/
theorem server_session_throttles (lib : Stdlib F) (srv : ServerContext) (t : Throttler)
    (s : ServerState F) (commands : List (Outcomes × String)) :
    ∃ (cs : List ThrottleCommand) (t' : Throttler),
      Infra.run Throttler.step t (cs.map .command) = some t' ∧
      (serverSession lib srv { s with throttle := t.ctx } commands).throttle = t'.ctx := by
  induction commands generalizing s t with
  | nil => exact ⟨[], t, rfl, rfl⟩
  | cons c commands ih =>
    have hfirst : Throttles t
        (applyServerCommand lib srv c.1 { s with throttle := t.ctx } c.2).2.throttle :=
      applyServerCommand_throttles rfl c.2
    show ∃ _ _, _ ∧ (serverSession lib srv (applyServerCommand lib srv c.1
      { s with throttle := t.ctx } c.2).2 commands).throttle = _
    generalize (applyServerCommand lib srv c.1 { s with throttle := t.ctx } c.2).2 = s₁ at hfirst ⊢
    rcases hfirst with h | ⟨command, h⟩
    · obtain ⟨cs, t', hrun, hthrottle⟩ := ih t s₁
      rw [← h] at hthrottle
      exact ⟨cs, t', hrun, hthrottle⟩
    · obtain ⟨cs, t', hrun, hthrottle⟩ := ih (t.applyServerCommand command) s₁
      rw [← h] at hthrottle
      exact ⟨command :: cs, t', hrun, hthrottle⟩

end Throttler

end GhOst.Logic
