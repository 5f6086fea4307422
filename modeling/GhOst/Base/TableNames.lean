import GhOst.Infra.Utf8
import GhOst.Sql.Types

/-!
# The names of the tables of a migration (`go/base/context.go`)

A Go string is a string of bytes, and `len` and slices count bytes.
-/

namespace GhOst.Base

open Infra GhOst.Sql

def maxTableNameLength : Nat := 64

/-- The fields of `StartTime`. The year is below `10 ^ 12`, since a `time.Time` counts seconds in 64
bits. -/
structure StartTime where
  year : Int
  month : Nat
  day : Nat
  hour : Nat
  minute : Nat
  second : Nat
  year_gt : -10 ^ 12 < year
  year_lt : year < 10 ^ 12
  month_le : month ≤ 12
  day_le : day ≤ 31
  hour_lt : hour < 24
  minute_lt : minute < 60
  second_lt : second < 60

/-- `%02d`. -/
def twoDigits (n : Nat) : List Char := (Nat.toDigits 10 n).leftpad 2 '0'

def StartTime.timestamp (t : StartTime) : List Char :=
  (toString t.year).toList ++ twoDigits t.month ++ twoDigits t.day ++ twoDigits t.hour ++
    twoDigits t.minute ++ twoDigits t.second

/-- The fields of `MigrationContext` that the names are made of. -/
structure NamesContext where
  originalTableName : String
  forceTmpTableName : String := ""
  oldTableName : String := ""
  revert : Bool := false
  timestampOldTable : Bool := false
  startTime : StartTime

/-- `fmt.Sprintf("_%s_%s", baseName, suffix)`. -/
def derivedName (baseName : List UInt8) (suffix : List Char) : List UInt8 :=
  encode ['_'] ++ baseName ++ encode ('_' :: suffix)

def getSafeTableName (baseName : List UInt8) (suffix : List Char) : Except Fault (List UInt8) :=
  let name := derivedName baseName suffix
  if name.length ≤ maxTableNameLength then .ok name
  else
    let extraCharacters := name.length - maxTableNameLength
    if extraCharacters ≤ baseName.length then
      .ok (derivedName (baseName.take (baseName.length - extraCharacters)) suffix)
    else .error .indexOutOfRange

namespace NamesContext

variable (mctx : NamesContext)

/-- The name that the others are made from. -/
def baseName : String :=
  if mctx.forceTmpTableName ≠ "" then mctx.forceTmpTableName else mctx.originalTableName

def getGhostTableName : Except Fault (List UInt8) :=
  -- when reverting, it is the old table of the migration that is reverted
  if mctx.revert then .ok (encode mctx.oldTableName.toList)
  else getSafeTableName (encode mctx.baseName.toList) "gho".toList

def oldSuffix : List Char :=
  let suffix := if mctx.revert then "rev_del".toList else "del".toList
  if mctx.timestampOldTable then mctx.startTime.timestamp ++ '_' :: suffix else suffix

def getOldTableName : Except Fault (List UInt8) :=
  getSafeTableName (encode mctx.baseName.toList) mctx.oldSuffix

def getChangelogTableName : Except Fault (List UInt8) :=
  getSafeTableName (encode mctx.baseName.toList) "ghc".toList

def getCheckpointTableName : Except Fault (List UInt8) :=
  getSafeTableName (encode mctx.baseName.toList) "ghk".toList

end NamesContext

end GhOst.Base
