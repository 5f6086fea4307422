import GhOst.Infra.Regexp

/-!
# The warnings of a write (`PanicOnWarnings`, `go/logic/applier.go`)

Both write paths read `SHOW WARNINGS` and let pass what they take for a duplicate on the migration
key. A row of `SHOW WARNINGS` that cannot be scanned is an error text.
-/

namespace GhOst.Logic

open Infra

structure Warning where
  level : String
  code : Int
  message : String
deriving DecidableEq, Repr

/-- `fmt.Sprintf("%s: %s (%d)", level, message, code)`. -/
def Warning.text (w : Warning) : String :=
  w.level ++ ": " ++ w.message ++ " (" ++ toString w.code ++ ")"

/-! ## What the server says -/

/-- A warning that a statement raises: a duplicate on an index, or any other. -/
inductive Raised where
  | duplicate (values table index : String)
  | other (w : Warning)
deriving DecidableEq, Repr

namespace Raised

/-- The index as a message names it; later servers show its table. -/
def keyShown (showsTable : Bool) (table index : String) : String :=
  (if showsTable then table ++ "." else "") ++ index

/-- The warning as `SHOW WARNINGS` returns it. -/
def shown (showsTable : Bool) : Raised → Warning
  | duplicate values table index =>
    { level := "Warning", code := 1062,
      message :=
        "Duplicate entry '" ++ values ++ "' for key '" ++ keyShown showsTable table index ++ "'" }
  | other w => w

end Raised

/-- What a statement raises, and how much of it the server retains. -/
structure WarnedStatement where
  raised : List Raised
  maxErrorCount : Nat
deriving DecidableEq, Repr

namespace WarnedStatement

def retained (st : WarnedStatement) : List Raised := st.raised.take st.maxErrorCount

/-- The rows of `SHOW WARNINGS`. -/
def rows (showsTable : Bool) (st : WarnedStatement) : List (Except String Warning) :=
  st.retained.map fun w => .ok (w.shown showsTable)

end WarnedStatement

/-! ## What gh-ost makes of it -/

/-- `GetGhostTableName()` and `UniqueKey.NameInGhostTable`. -/
structure KeyNames where
  ghostTableName : String
  nameInGhostTable : String
deriving DecidableEq, Repr

/-- A duplicate on the migration key of the ghost. -/
def Raised.OnMigrationKey (names : KeyNames) : Raised → Prop
  | .duplicate _ table index =>
    table = names.ghostTableName ∧ index = names.nameInGhostTable
  | .other _ => False

instance (names : KeyNames) (w : Raised) : Decidable (w.OnMigrationKey names) :=
  match w with
  | .duplicate _ _ _ => inferInstanceAs (Decidable (_ ∧ _))
  | .other _ => inferInstanceAs (Decidable False)

namespace KeyNames

/-- The statements raise a warning that is not about the migration key. -/
def RaisesOther (names : KeyNames) (statements : List WarnedStatement) : Prop :=
  ∃ st ∈ statements, ∃ w ∈ st.raised, ¬ w.OnMigrationKey names

instance (names : KeyNames) (statements : List WarnedStatement) :
    Decidable (names.RaisesOther statements) :=
  inferInstanceAs (Decidable (∃ _ ∈ _, _))

/-- The expression `for key '(table\.)?key'` with the two names quoted. -/
def compileMigrationKeyWarningRegex (names : KeyNames) : Regexp :=
  .seq (.literal "for key '".toList) <|
    .seq (.alt (.group 1 (.seq (.literal names.ghostTableName.toList) (.literal ['.']))) .empty) <|
      .seq (.literal names.nameInGhostTable.toList) (.literal ['\x27'])

/-- The condition under which a warning is passed over. -/
def passesOver (names : KeyNames) (message : String) : Bool :=
  decide ("Duplicate entry".toList <:+: message.toList) &&
    names.compileMigrationKeyWarningRegex.matchString message.toList

/-- The warnings that are left in `MigrationLastInsertSQLWarnings`. A row that cannot be scanned is
skipped. -/
def lastInsertSQLWarnings (names : KeyNames) : List (Except String Warning) → List String
  | [] => []
  | .error _ :: rows => names.lastInsertSQLWarnings rows
  | .ok w :: rows =>
    if names.passesOver w.message then names.lastInsertSQLWarnings rows
    else w.text :: names.lastInsertSQLWarnings rows

/-- What `iterateChunks` makes of these warnings. -/
def chunkVerdict (sqlWarnings : List String) : Except String Unit :=
  if sqlWarnings = [] then .ok ()
  else .error ("ApplyIterationInsertQuery failed because of SQL warnings: [" ++
    "; ".intercalate sqlWarnings ++ "]")

/-- The warnings of statement `i` of a batch. Here a row that cannot be scanned is an error. -/
def statementWarnings (names : KeyNames) (i : Nat) :
    List (Except String Warning) → Except String (List String)
  | [] => .ok []
  | .error err :: _ =>
    .error ("failed to scan SHOW WARNINGS for statement " ++ toString (i + 1) ++ ": " ++ err)
  | .ok w :: rows =>
    if names.passesOver w.message then names.statementWarnings i rows
    else (names.statementWarnings i rows).map (w.text :: ·)

/-- The loop of `executeBatchWithWarningChecking` from statement `i` on. -/
def checkStatements (names : KeyNames) (count : Nat) :
    (i : Nat) → List Int → List (List (Except String Warning)) → Int → Except String Int
  | _, [], _, totalDelta => .ok totalDelta
  | i, _ :: _, [], _ =>
    .error ("expected SHOW WARNINGS result set for statement " ++ toString (i + 1))
  | i, rowsDelta :: deltas, rows :: resultSets, totalDelta =>
    match names.statementWarnings i rows with
    | .error err => .error err
    | .ok [] => names.checkStatements count (i + 1) deltas resultSets (totalDelta + rowsDelta)
    | .ok sqlWarnings =>
      .error ("warnings detected in statement " ++ toString (i + 1) ++ " of " ++ toString count ++
        ": [" ++ " ".intercalate sqlWarnings ++ "]")

/-- `executeBatchWithWarningChecking`, from the answer of the server on. -/
def executeBatchWithWarningChecking (names : KeyNames) (deltas : List Int)
    (resultSets : List (List (Except String Warning))) : Except String Int :=
  if resultSets = [] then .error "expected SHOW WARNINGS result set after first statement"
  else names.checkStatements deltas.length 0 deltas resultSets 0

end KeyNames

end GhOst.Logic
