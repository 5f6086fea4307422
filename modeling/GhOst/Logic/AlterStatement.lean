import GhOst.Logic.Inspect
import GhOst.Sql.Parser

/-!
# The column maps of a migration (`validateAlterStatement` in `go/logic/migrator.go`)

`Migrate` calls `ParseAlterStatement` before it validates the statement. `Revert` has no statement:
it validates a parser that has read nothing.
-/

namespace GhOst.Logic

open GhOst.Sql

/-- The two maps of the migration context that `getSharedColumns` reads. -/
structure ColumnMaps where
  columnRenameMap : List (String × String) := []
  droppedColumnsMap : List String := []
deriving DecidableEq, Repr

/-- The flags `--approve-renamed-columns` and `--skip-renamed-columns`. -/
structure RenameFlags where
  approveRenamedColumns : Bool := false
  skipRenamedColumns : Bool := false
deriving DecidableEq, Repr

/-- A map as `%v` writes it, in the order of its keys. -/
def mapText (m : List (String × String)) : String :=
  "map[" ++ " ".intercalate
    ((m.mergeSort fun p q => p.1 ≤ q.1).map fun p => p.1 ++ ":" ++ p.2) ++ "]"

def validateAlterStatement (flags : RenameFlags) (parser : AlterTableParser) (maps : ColumnMaps) :
    Except String ColumnMaps :=
  if parser.isRenameTable then
    .error ("alter statement seems to RENAME the table. This is not supported, and you should " ++
      "run your RENAME outside gh-ost")
  else if parser.hasNonTrivialRenames ∧ ¬ flags.skipRenamedColumns then
    if ¬ flags.approveRenamedColumns then
      .error ("gh-ost believes the ALTER statement renames columns, as follows: " ++
        mapText parser.getNonTrivialRenames ++
        "; as precaution, you are asked to confirm gh-ost is correct, and provide with " ++
        "\x60--approve-renamed-columns\x60, and we're all happy. Or you can skip renamed " ++
        "columns via \x60--skip-renamed-columns\x60, in which case column data may be lost")
    else
      .ok { columnRenameMap := parser.getNonTrivialRenames,
            droppedColumnsMap := parser.droppedColumns }
  else .ok { maps with droppedColumnsMap := parser.droppedColumns }

/-- The maps of `Migrate`, whose parser has read the statement. -/
def migrateMaps (flags : RenameFlags) (parser : AlterTableParser) : Except String ColumnMaps :=
  validateAlterStatement flags parser {}

/-- The maps of `Revert`. -/
def revertMaps (flags : RenameFlags) : Except String ColumnMaps :=
  validateAlterStatement flags {} {}

theorem migrateMaps_approved {parser : AlterTableParser} (h : parser.isRenameTable = false) :
    migrateMaps { approveRenamedColumns := true } parser =
      .ok { columnRenameMap := parser.getNonTrivialRenames,
            droppedColumnsMap := parser.droppedColumns } := by
  unfold migrateMaps validateAlterStatement
  rw [if_neg (by simp [h])]
  cases hr : parser.getNonTrivialRenames with
  | nil => simp [AlterTableParser.hasNonTrivialRenames, hr]
  | cons p renames => simp [AlterTableParser.hasNonTrivialRenames, hr]

/-- Nothing is known to have been renamed or dropped. -/
theorem revertMaps_eq (flags : RenameFlags) : revertMaps flags = .ok {} := by
  unfold revertMaps validateAlterStatement
  rfl

end GhOst.Logic
