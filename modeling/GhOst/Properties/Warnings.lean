import GhOst.Infra.Strings
import GhOst.Logic.Warnings

/-!
# What the filter of warnings lets pass

The server raises warnings and retains the first of them (`max_error_count`). It quotes values in
its messages as they are, so a value can hold the text that the filter looks for.
-/

namespace GhOst.Logic

open Infra

/-- The migration key with its table. -/
def KeyNames.qualified (names : KeyNames) : String :=
  names.ghostTableName ++ "." ++ names.nameInGhostTable

namespace Raised

/-- A warning that is not about the migration key, and whose message does not read as if it were:
the values do not hold the word before the key, and the key is named otherwise. -/
def Apart (names : KeyNames) (showsTable : Bool) : Raised → Prop
  | duplicate values table index =>
    ¬ "for key ".toList <:+: values.toList ∧
    '\x27' ∉ (keyShown showsTable table index).toList ∧
    keyShown showsTable table index ≠ names.qualified ∧
    keyShown showsTable table index ≠ names.nameInGhostTable
  | other w =>
    ¬ "Duplicate entry".toList <:+: w.message.toList ∨ ¬ "for key ".toList <:+: w.message.toList

instance (names : KeyNames) (showsTable : Bool) (w : Raised) :
    Decidable (w.Apart names showsTable) :=
  match w with
  | duplicate _ _ _ => inferInstanceAs (Decidable (_ ∧ _))
  | other _ => inferInstanceAs (Decidable (_ ∨ _))

/-- A warning from whose message it can be told whether it is about the migration key. -/
def Legible (names : KeyNames) (showsTable : Bool) (w : Raised) : Prop :=
  w.OnMigrationKey names ∨ w.Apart names showsTable

instance (names : KeyNames) (showsTable : Bool) (w : Raised) :
    Decidable (w.Legible names showsTable) :=
  inferInstanceAs (Decidable (_ ∨ _))

end Raised

namespace KeyNames

variable {names : KeyNames} {message : String}

/-! ## The expression -/

/-- A message with the texts that the filter looks for, at any place. -/
def NamesKey (names : KeyNames) (message : String) : Prop :=
  "Duplicate entry".toList <:+: message.toList ∧
    (("for key '" ++ names.qualified ++ "'").toList <:+: message.toList ∨
      ("for key '" ++ names.nameInGhostTable ++ "'").toList <:+: message.toList)

instance (names : KeyNames) (message : String) : Decidable (names.NamesKey message) :=
  inferInstanceAs (Decidable (_ ∧ _))

theorem run_regex_ne_nil {prev : Option Char} {s : List Char} :
    names.compileMigrationKeyWarningRegex.run prev s ≠ [] ↔
      ("for key '" ++ names.qualified ++ "'").toList <+: s ∨
      ("for key '" ++ names.nameInGhostTable ++ "'").toList <+: s := by
  unfold compileMigrationKeyWarningRegex qualified
  rw [Regexp.run_literal_seq_ne_nil]
  simp only [Regexp.run_optional_ne_nil, Regexp.run_seq_assoc_ne_nil,
    Regexp.run_literal_seq_ne_nil, Regexp.run_literal_ne_nil, String.toList_append,
    List.append_assoc]
  constructor
  · rintro ⟨rest, rfl, ⟨_, rfl, _, rfl, _, rfl, last, rfl⟩ | ⟨_, rfl, last, rfl⟩⟩
    · exact .inl ⟨last, by simp⟩
    · exact .inr ⟨last, by simp⟩
  · rintro (⟨last, rfl⟩ | ⟨last, rfl⟩)
    · exact ⟨_, by simp, .inl ⟨_, rfl, _, rfl, _, rfl, last, rfl⟩⟩
    · exact ⟨_, by simp, .inr ⟨_, rfl, last, rfl⟩⟩

theorem passesOver_iff : names.passesOver message = true ↔ names.NamesKey message := by
  unfold passesOver NamesKey
  rw [Bool.and_eq_true, decide_eq_true_iff, Regexp.matchString_iff]
  refine and_congr_right fun _ => ?_
  simp only [run_regex_ne_nil]
  constructor
  · rintro ⟨a, b, hab, ⟨c, hc⟩ | ⟨c, hc⟩⟩
    · exact .inl ⟨a, c, by rw [hab, ← hc, List.append_assoc]⟩
    · exact .inr ⟨a, c, by rw [hab, ← hc, List.append_assoc]⟩
  · rintro (⟨a, c, h⟩ | ⟨a, c, h⟩)
    · exact ⟨a, _, by rw [← h, List.append_assoc], .inl ⟨c, rfl⟩⟩
    · exact ⟨a, _, by rw [← h, List.append_assoc], .inr ⟨c, rfl⟩⟩

/-! ## What a message tells -/

variable {showsTable : Bool} {values table index name : String}

theorem toList_message_duplicate :
    ((Raised.duplicate values table index).shown showsTable).message.toList =
      "Duplicate entry ".toList ++ '\x27' :: (values.toList ++ '\x27' ::
        (' ' :: "for key ".toList ++ '\x27' ::
          ((Raised.keyShown showsTable table index).toList ++ ['\x27']))) := by
  unfold Raised.shown
  simp only [String.toList_append, List.append_assoc]
  rfl

theorem toList_key :
    ("for key '" ++ name ++ "'").toList =
      "for key ".toList ++ '\x27' :: (name.toList ++ ['\x27']) := by
  simp only [String.toList_append, List.append_assoc]
  rfl

theorem infix_message :
    ("for key '" ++ Raised.keyShown showsTable table index ++ "'").toList <:+:
      ((Raised.duplicate values table index).shown showsTable).message.toList := by
  rw [toList_message_duplicate, toList_key]
  exact ⟨"Duplicate entry ".toList ++ '\x27' :: (values.toList ++ ['\x27', ' ']), [], by simp⟩

theorem namesKey_of_onMigrationKey {w : Raised} (showsTable : Bool) (h : w.OnMigrationKey names) :
    names.NamesKey (w.shown showsTable).message := by
  cases w with
  | other w => exact h.elim
  | duplicate values table index =>
    obtain ⟨rfl, rfl⟩ := h
    constructor
    · rw [toList_message_duplicate]
      exact List.infix_append_of_infix_left (by decide)
    · have hkey := @infix_message showsTable values names.ghostTableName names.nameInGhostTable
      cases showsTable with
      | true => exact .inl hkey
      | false => exact .inr (by simpa [Raised.keyShown] using hkey)

/-- **The filter tells exactly the warnings on the migration key, of those that it can read.** -/
theorem namesKey_iff_onMigrationKey {w : Raised} (h : w.Legible names showsTable) :
    names.NamesKey (w.shown showsTable).message ↔ w.OnMigrationKey names := by
  refine ⟨fun hnames => h.resolve_right fun hapart => ?_, namesKey_of_onMigrationKey showsTable⟩
  have hkey : ∃ name, (name = names.qualified ∨ name = names.nameInGhostTable) ∧
      ("for key '" ++ name ++ "'").toList <:+: (w.shown showsTable).message.toList := by
    rcases hnames.2 with hinfix | hinfix
    · exact ⟨_, .inl rfl, hinfix⟩
    · exact ⟨_, .inr rfl, hinfix⟩
  obtain ⟨name, hname, hinfix⟩ := hkey
  rw [toList_key] at hinfix
  cases w with
  | other w =>
    rcases hapart with hentry | hword
    · exact hentry hnames.1
    · exact hword ((List.prefix_append _ _).isInfix.trans hinfix)
  | duplicate values table index =>
    obtain ⟨hvalues, hquote, htable, hindex⟩ := hapart
    rw [toList_message_duplicate] at hinfix
    have heq : name = Raised.keyShown showsTable table index := String.toList_inj.mp
      (eq_key_of_occurs (by decide) (by decide) (by decide) hvalues hquote hinfix)
    rcases hname with rfl | rfl
    · exact htable heq.symm
    · exact hindex heq.symm

/-! ## The verdicts -/

theorem lastInsertSQLWarnings_eq_nil {ws : List Warning} :
    names.lastInsertSQLWarnings (ws.map .ok) = [] ↔ ∀ w ∈ ws, names.NamesKey w.message := by
  induction ws with
  | nil => simp [lastInsertSQLWarnings]
  | cons w ws ih =>
    rw [List.map_cons, lastInsertSQLWarnings, List.forall_mem_cons, ← ih]
    by_cases h : names.NamesKey w.message
    · rw [if_pos (passesOver_iff.mpr h)]
      exact (and_iff_right h).symm
    · rw [if_neg fun hp => h (passesOver_iff.mp hp)]
      exact iff_of_false (List.cons_ne_nil _ _) fun hall => h hall.1

theorem chunkVerdict_ok {sqlWarnings : List String} :
    chunkVerdict sqlWarnings = .ok () ↔ sqlWarnings = [] := by
  unfold chunkVerdict
  split
  · next h => exact iff_of_true rfl h
  · next h => exact iff_of_false (fun hok => by cases hok) h

theorem statementWarnings_eq (i : Nat) (ws : List Warning) :
    names.statementWarnings i (ws.map .ok) = .ok (names.lastInsertSQLWarnings (ws.map .ok)) := by
  induction ws with
  | nil => rfl
  | cons w ws ih =>
    rw [List.map_cons, statementWarnings, lastInsertSQLWarnings, ih]
    split
    · rfl
    · rfl

theorem checkStatements_ok {deltas : List Int} {resultSets : List (List Warning)} {count i : Nat}
    {totalDelta : Int} (hlen : deltas.length = resultSets.length) :
    (∃ delta, names.checkStatements count i deltas (resultSets.map (List.map .ok)) totalDelta =
        .ok delta) ↔
      ∀ ws ∈ resultSets, ∀ w ∈ ws, names.NamesKey w.message := by
  induction deltas generalizing resultSets i totalDelta with
  | nil =>
    cases List.length_eq_zero_iff.mp hlen.symm
    simp [checkStatements]
  | cons rowsDelta deltas ih =>
    cases resultSets with
    | nil => cases hlen
    | cons ws resultSets =>
      rw [List.map_cons, checkStatements, statementWarnings_eq, List.forall_mem_cons,
        ← lastInsertSQLWarnings_eq_nil]
      cases names.lastInsertSQLWarnings (ws.map .ok) with
      | nil =>
        dsimp only
        rw [ih (Nat.succ.inj hlen)]
        exact (and_iff_right rfl).symm
      | cons text texts =>
        refine iff_of_false ?_ fun h => List.cons_ne_nil _ _ h.1
        rintro ⟨delta, h⟩
        cases h

/-! ## Exactness -/

/-- If the statements raise a warning that is not about the migration key, the server retains
one. -/
def RetainsOther (names : KeyNames) (statements : List WarnedStatement) : Prop :=
  names.RaisesOther statements → ∃ st ∈ statements, ∃ w ∈ st.retained, ¬ w.OnMigrationKey names

def AllLegible (names : KeyNames) (showsTable : Bool) (statements : List WarnedStatement) : Prop :=
  ∀ st ∈ statements, ∀ w ∈ st.raised, w.Legible names showsTable

instance (names : KeyNames) (showsTable : Bool) (statements : List WarnedStatement) :
    Decidable (names.AllLegible showsTable statements) :=
  inferInstanceAs (Decidable (∀ _ ∈ _, _))

theorem exact_iff_retainsOther {statements : List WarnedStatement} {accepted : Prop}
    (hlegible : names.AllLegible showsTable statements)
    (h : accepted ↔ ∀ st ∈ statements, ∀ w ∈ st.retained,
      names.NamesKey (w.shown showsTable).message) :
    (accepted ↔ ∀ st ∈ statements, ∀ w ∈ st.raised, w.OnMigrationKey names) ↔
      names.RetainsOther statements := by
  have hretained : accepted ↔ ∀ st ∈ statements, ∀ w ∈ st.retained, w.OnMigrationKey names := by
    rw [h]
    refine forall₂_congr fun st hst => forall₂_congr fun w hw => ?_
    exact namesKey_iff_onMigrationKey (hlegible st hst w (List.mem_of_mem_take hw))
  rw [hretained]
  constructor
  · rintro hexact ⟨st, hst, w, hw, hkey⟩
    by_contra hno
    refine hkey (hexact.mp (fun st' hst' w' hw' => ?_) st hst w hw)
    by_contra hother
    exact hno ⟨st', hst', w', hw', hother⟩
  · intro hretains
    constructor
    · intro hall st hst w hw
      by_contra hkey
      obtain ⟨st', hst', w', hw', hother⟩ := hretains ⟨st, hst, w, hw, hkey⟩
      exact hother (hall st' hst' w' hw')
    · intro hall st hst w hw
      exact hall st hst w (List.mem_of_mem_take hw)

theorem rows_eq (st : WarnedStatement) :
    st.rows showsTable = (st.retained.map (Raised.shown showsTable)).map .ok := by
  unfold WarnedStatement.rows
  rw [List.map_map]
  rfl

theorem chunk_accepted_iff (chunk : WarnedStatement) :
    chunkVerdict (names.lastInsertSQLWarnings (chunk.rows showsTable)) = .ok () ↔
      ∀ st ∈ [chunk], ∀ w ∈ st.retained, names.NamesKey (w.shown showsTable).message := by
  rw [chunkVerdict_ok, rows_eq, lastInsertSQLWarnings_eq_nil, List.forall_mem_map,
    List.forall_mem_singleton]

theorem batch_accepted_iff {deltas : List Int} {statements : List WarnedStatement}
    (hlen : deltas.length = statements.length) (hne : statements ≠ []) :
    (∃ delta, names.executeBatchWithWarningChecking deltas
        (statements.map (WarnedStatement.rows showsTable)) = .ok delta) ↔
      ∀ st ∈ statements, ∀ w ∈ st.retained, names.NamesKey (w.shown showsTable).message := by
  have hrows : statements.map (WarnedStatement.rows showsTable) =
      (statements.map fun st => st.retained.map (Raised.shown showsTable)).map (List.map .ok) := by
    rw [List.map_map]
    exact List.map_congr_left fun st _ => rows_eq st
  unfold executeBatchWithWarningChecking
  rw [if_neg (by simpa using hne), hrows, checkStatements_ok (by simpa using hlen),
    List.forall_mem_map]
  simp only [List.forall_mem_map]

end KeyNames

end GhOst.Logic
