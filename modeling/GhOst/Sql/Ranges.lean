import Mathlib.Data.List.Lex
import Mathlib.Data.List.Sort
import GhOst.Sql.Builder

/-!
# Range queries over the unique key (`go/sql/builder.go`)

The queries that find the end of a chunk and that copy it. A `where` clause is kept as its
comparisons; the placeholders of a query are bound to its exploded arguments from left to right. The
columns of the unique key have no conversions, so that every token is a plain placeholder.

A row is its values of the unique key: `κ` is what comparisons see of a value, and `format` its text
in Go (`%v`).
-/

namespace GhOst.Sql

inductive ValueComparisonSign where
  | lessThan
  | lessThanOrEquals
  | equals
  | greaterThanOrEquals
  | greaterThan
deriving DecidableEq, Repr

/-- `(column sign ?)`. -/
structure ValueComparison where
  column : String
  sign : ValueComparisonSign
deriving DecidableEq, Repr

/-- `(c₁ and …)`. -/
abbrev Conjunction := List ValueComparison

/-- A `where` clause: conditions that hold together, each of the form `((…) or …)`. -/
abbrev Where := List (List Conjunction)

variable {κ : Type}

/-! ## Comparisons -/

/-- The sign without equality, and whether equality is to be added. -/
def ValueComparisonSign.strict : ValueComparisonSign → ValueComparisonSign × Bool
  | .lessThanOrEquals => (.lessThan, true)
  | .greaterThanOrEquals => (.greaterThan, true)
  | sign => (sign, false)

def equalsComparison (columns : List String) : Conjunction := columns.map (⟨·, .equals⟩)

/-- The `i`th comparison of `BuildRangeComparison`: equal before column `i`, and different there. -/
def prefixComparison (columns : List String) (sign : ValueComparisonSign) (i : Nat) : Conjunction :=
  equalsComparison (columns.take i) ++ columns[i]?.toList.map (⟨·, sign⟩)

/-- `BuildRangeComparison`, with the arguments in the order of the placeholders. -/
def buildRangeComparison (columns : List String) (args : List κ)
    (comparisonSign : ValueComparisonSign) :
    Except BuildError (List Conjunction × List κ) :=
  if columns = [] then .error (.error "got 0 columns in BuildRangeComparison")
  else if columns.length ≠ args.length then
    .error (.error ("got " ++ toString columns.length ++ " columns but " ++ toString args.length ++
      " args in BuildRangeComparison"))
  else if "" ∈ columns then .error (.error "empty column in BuildValueComparison")
  else
    let (sign, includeEquals) := comparisonSign.strict
    let comparisons := (List.range columns.length).map (prefixComparison columns sign)
    let explodedArgs := (List.range columns.length).flatMap fun i => args.take (i + 1)
    if includeEquals then .ok (comparisons ++ [equalsComparison columns], explodedArgs ++ args)
    else .ok (comparisons, explodedArgs)

/-! ## Queries -/

/-- The selects of a range query, joined by `union all`. -/
structure RangeQuery (κ : Type) where
  parts : List Where
  explodedArgs : List κ
  /-- `order by … limit` within each of the parts -/
  partLimit : Option Nat := none
deriving DecidableEq, Repr

def sameFirstColumnValue (format : κ → String) (rangeStartArgs rangeEndArgs : List κ) : Bool :=
  match rangeStartArgs.head?, rangeEndArgs.head? with
  | some start, some stop => format start == format stop
  | _, _ => false

/-- The query of a range of a key of two columns. -/
def twoColumnQuery (format : κ → String) (col1Name col2Name : String)
    (start1 start2 end1 end2 : κ) (col2StartOp : ValueComparisonSign) (partLimit : Option Nat) :
    RangeQuery κ :=
  if sameFirstColumnValue format [start1, start2] [end1, end2] then
    { parts := [[[[⟨col1Name, .equals⟩, ⟨col2Name, col2StartOp⟩, ⟨col2Name, .lessThanOrEquals⟩]]]]
      explodedArgs := [start1, start2, end2] }
  else
    -- `buildTwoColumnUnionParts`
    { parts :=
        [[[[⟨col1Name, .equals⟩, ⟨col2Name, col2StartOp⟩]]],
          [[[⟨col1Name, .greaterThan⟩, ⟨col1Name, .lessThan⟩]]],
          [[[⟨col1Name, .equals⟩, ⟨col2Name, .lessThanOrEquals⟩]]]]
      explodedArgs := [start1, start2, start1, end1, end1, end2]
      partLimit }

/-- The sign that the start of a range is compared with. -/
def startSign (includeRangeStartValues : Bool) : ValueComparisonSign :=
  if includeRangeStartValues then .greaterThanOrEquals else .greaterThan

/-- What the builders of range queries share; `argsError` is the text for a wrong number of
arguments. -/
def buildRangeQuery (argsError : Nat → Nat → String) (format : κ → String) (columns : List String)
    (rangeStartArgs rangeEndArgs : List κ) (includeRangeStartValues : Bool)
    (partLimit : Option Nat) : Except BuildError (RangeQuery κ) :=
  match columns with
  | [col1Name, col2Name] =>
    match rangeStartArgs, rangeEndArgs with
    | [start1, start2], [end1, end2] =>
      .ok (twoColumnQuery format col1Name col2Name start1 start2 end1 end2
        (startSign includeRangeStartValues) partLimit)
    | _, _ => .error (.error (argsError rangeStartArgs.length rangeEndArgs.length))
  | _ =>
    match buildRangeComparison columns rangeStartArgs (startSign includeRangeStartValues) with
    | .error e => .error e
    | .ok (rangeStartComparison, startExplodedArgs) =>
      match buildRangeComparison columns rangeEndArgs .lessThanOrEquals with
      | .error e => .error e
      | .ok (rangeEndComparison, endExplodedArgs) =>
        .ok {
          parts := [[rangeStartComparison, rangeEndComparison]]
          explodedArgs := startExplodedArgs ++ endExplodedArgs }

/-- `BuildRangeInsertPreparedQuery`, for a table with shared columns. -/
def buildRangeInsertPreparedQuery (format : κ → String) (columns : List String)
    (rangeStartArgs rangeEndArgs : List κ) (includeRangeStartValues : Bool) :
    Except BuildError (RangeQuery κ) :=
  buildRangeQuery
    (fun start stop =>
      if start ≠ 2 then
        "got 2 columns but " ++ toString start ++
          " rangeStartArgs in buildRangeInsertQueryTwoColumn"
      else
        "got 2 columns but " ++ toString stop ++
          " rangeEndArgs in buildRangeInsertQueryTwoColumn")
    format columns rangeStartArgs rangeEndArgs includeRangeStartValues none

/-- `BuildUniqueKeyRangeEndPreparedQueryViaOffset` and `…ViaTemptable`: the two query the same rows.
-/
def buildUniqueKeyRangeEndPreparedQuery (name : String) (format : κ → String)
    (columns : List String)
    (rangeStartArgs rangeEndArgs : List κ) (chunkSize : Nat) (includeRangeStartValues : Bool) :
    Except BuildError (RangeQuery κ) :=
  if columns = [] then .error (.error "got 0 columns in BuildUniqueKeyRangeEndPreparedQuery")
  else
    buildRangeQuery
      (fun start stop =>
        "expected 2 range args in " ++ name ++ ", got " ++ toString start ++ " start and " ++
          toString stop ++ " end")
      format columns rangeStartArgs rangeEndArgs includeRangeStartValues (some chunkSize)

def buildUniqueKeyRangeEndPreparedQueryViaOffset (format : κ → String) (columns : List String)
    (rangeStartArgs rangeEndArgs : List κ) (chunkSize : Nat) (includeRangeStartValues : Bool) :
    Except BuildError (RangeQuery κ) :=
  buildUniqueKeyRangeEndPreparedQuery "buildUniqueKeyRangeEndTwoColumnViaOffset" format columns
    rangeStartArgs rangeEndArgs chunkSize includeRangeStartValues

def buildUniqueKeyRangeEndPreparedQueryViaTemptable (format : κ → String) (columns : List String)
    (rangeStartArgs rangeEndArgs : List κ) (chunkSize : Nat) (includeRangeStartValues : Bool) :
    Except BuildError (RangeQuery κ) :=
  buildUniqueKeyRangeEndPreparedQuery "buildUniqueKeyRangeEndTwoColumnViaTemptable" format columns
    rangeStartArgs rangeEndArgs chunkSize includeRangeStartValues

/-! ## What the server answers -/

variable [LinearOrder κ]

def ValueComparisonSign.holds : ValueComparisonSign → κ → κ → Bool
  | .lessThan, v, arg => v < arg
  | .lessThanOrEquals, v, arg => v ≤ arg
  | .equals, v, arg => v = arg
  | .greaterThanOrEquals, v, arg => arg ≤ v
  | .greaterThan, v, arg => arg < v

def Conjunction.holds (row : List (String × κ)) (c : Conjunction) (args : List κ) : Bool :=
  (c.zip args).all fun p => (row.lookup p.1.column).any fun v => p.1.sign.holds v p.2

def disjunctionHolds (row : List (String × κ)) : List Conjunction → List κ → Bool
  | [], _ => false
  | c :: cs, args => c.holds row args || disjunctionHolds row cs (args.drop c.length)

def placeholders (cs : List Conjunction) : Nat := (cs.map List.length).sum

def Where.holds (row : List (String × κ)) : Where → List κ → Bool
  | [], _ => true
  | cs :: w, args => disjunctionHolds row cs args && Where.holds row w (args.drop (placeholders cs))

/-- The rows of one select, for the values `keys` of the unique key. -/
def selectPart (columns : List String) (keys : List (List κ)) (partLimit : Option Nat) (w : Where)
    (args : List κ) : List (List κ) :=
  let rows := keys.filter fun k => w.holds (columns.zip k) args
  match partLimit with
  | none => rows
  | some n => (rows.insertionSort (· ≤ ·)).take n

def unionAll (columns : List String) (keys : List (List κ)) (partLimit : Option Nat) :
    List Where → List κ → List (List κ)
  | [], _ => []
  | w :: ws, args =>
    selectPart columns keys partLimit w args ++
      unionAll columns keys partLimit ws (args.drop (w.map placeholders).sum)

namespace RangeQuery

/-- The rows that the parts give together. -/
def rows (q : RangeQuery κ) (columns : List String) (keys : List (List κ)) : List (List κ) :=
  unionAll columns keys q.partLimit q.parts q.explodedArgs

/-- `order by … asc limit 1 offset chunkSize - 1`. -/
def viaOffset (q : RangeQuery κ) (columns : List String) (keys : List (List κ)) (chunkSize : Nat) :
    Option (List κ) :=
  ((q.rows columns keys).insertionSort (· ≤ ·))[chunkSize - 1]?

/-- `order by … desc limit 1` of `order by … asc limit chunkSize`. -/
def viaTemptable (q : RangeQuery κ) (columns : List String) (keys : List (List κ))
    (chunkSize : Nat) :
    Option (List κ) :=
  (((q.rows columns keys).insertionSort (· ≤ ·)).take chunkSize).getLast?

end RangeQuery

end GhOst.Sql
