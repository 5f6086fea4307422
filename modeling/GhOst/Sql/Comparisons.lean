import GhOst.Sql.Ranges

/-!
# The texts of comparisons (`go/sql/builder.go`)

`BuildValueComparison`, `BuildEqualsComparison` and `BuildRangeComparison` put the text of a
condition together. `values` are the texts that stand for the arguments, each with one placeholder.
A `RangeCondition` is a condition of that form, with its text and what the server reads in it.
-/

namespace GhOst.Sql

variable {κ : Type}

/-! ## Texts -/

def ValueComparisonSign.text : ValueComparisonSign → String
  | .lessThan => "<"
  | .lessThanOrEquals => "<="
  | .equals => "="
  | .greaterThanOrEquals => ">="
  | .greaterThan => ">"

def buildValueComparison (column value : String) (comparisonSign : ValueComparisonSign) :
    Except BuildError String :=
  if column = "" then .error (.error "empty column in BuildValueComparison")
  else if value = "" then .error (.error "empty value in BuildValueComparison")
  else .ok ("(" ++ escapeName column ++ " " ++ comparisonSign.text ++ " " ++ value ++ ")")

/-- The comparisons of `BuildEqualsComparison`, up to the first that fails. -/
def equalsComparisons : List (String × String) → Except BuildError (List String)
  | [] => .ok []
  | (column, value) :: rest => do
    let comparison ← buildValueComparison column value .equals
    let comparisons ← equalsComparisons rest
    .ok (comparison :: comparisons)

def buildEqualsComparison (columns values : List String) : Except BuildError String :=
  if columns = [] then .error (.error "got 0 columns in BuildEqualsComparison")
  else if columns.length ≠ values.length then
    .error (.error ("got " ++ toString columns.length ++ " columns but " ++
      toString values.length ++ " values in BuildEqualsComparison"))
  else do
    let comparisons ← equalsComparisons (columns.zip values)
    .ok ("(" ++ " and ".intercalate comparisons ++ ")")

/-- The turn of the loop of `BuildRangeComparison` at column `i`. -/
def rangeComparisonAt (columns values : List String) (comparisonSign : ValueComparisonSign)
    (i : Nat) : Except BuildError String :=
  match columns[i]?, values[i]? with
  | some column, some value => do
    let rangeComparison ← buildValueComparison column value comparisonSign
    if 0 < i then
      let equalitiesComparison ← buildEqualsComparison (columns.take i) (values.take i)
      .ok ("(" ++ equalitiesComparison ++ " AND " ++ rangeComparison ++ ")")
    else .ok rangeComparison
  | _, _ => .error (.fault .indexOutOfRange)

/-- The loop of `BuildRangeComparison` over the columns `is`. -/
def rangeComparisons (columns values : List String) (comparisonSign : ValueComparisonSign) :
    List Nat → Except BuildError (List String)
  | [] => .ok []
  | i :: is => do
    let comparison ← rangeComparisonAt columns values comparisonSign i
    let comparisons ← rangeComparisons columns values comparisonSign is
    .ok (comparison :: comparisons)

/-- `BuildRangeComparison`: the text, and the arguments in the order of its placeholders. -/
def buildRangeComparisonText (columns values : List String) (args : List κ)
    (comparisonSign : ValueComparisonSign) : Except BuildError (String × List κ) :=
  if columns = [] then .error (.error "got 0 columns in BuildRangeComparison")
  else if columns.length ≠ values.length then
    .error (.error ("got " ++ toString columns.length ++ " columns but " ++
      toString values.length ++ " values in BuildRangeComparison"))
  else if columns.length ≠ args.length then
    .error (.error ("got " ++ toString columns.length ++ " columns but " ++ toString args.length ++
      " args in BuildRangeComparison"))
  else do
    let (sign, includeEquals) := comparisonSign.strict
    let comparisons ← rangeComparisons columns values sign (List.range columns.length)
    let explodedArgs := (List.range columns.length).flatMap fun i => args.take i ++ args[i]?.toList
    if includeEquals then
      let comparison ← buildEqualsComparison columns values
      .ok ("(" ++ " or ".intercalate (comparisons ++ [comparison]) ++ ")", explodedArgs ++ args)
    else .ok ("(" ++ " or ".intercalate comparisons ++ ")", explodedArgs)

/-! ## Conditions -/

/-- A comparison with the text that stands for its argument. -/
structure Comparison extends ValueComparison where
  value : String
deriving DecidableEq, Repr

def Comparison.text (c : Comparison) : String :=
  "(" ++ escapeName c.column ++ " " ++ c.sign.text ++ " " ++ c.value ++ ")"

/-- The comparison that the server reads in the text, of the column whose name it finds there. -/
def Comparison.read (c : Comparison) : Option ValueComparison :=
  (readName c.column).map fun column => ⟨column, c.sign⟩

/-- The forms of the conditions that `BuildRangeComparison` joins by `or`. -/
inductive RangeCondition where
  /-- `(c ? v)` -/
  | compare (comparison : Comparison)
  /-- `((c₁ = v₁) and …)` -/
  | equalities (comparisons : List Comparison)
  /-- `(((c₁ = v₁) and …) AND (c ? v))` -/
  | prefixed (equals : List Comparison) (comparison : Comparison)
deriving DecidableEq, Repr

namespace RangeCondition

def equalitiesText (comparisons : List Comparison) : String :=
  "(" ++ " and ".intercalate (comparisons.map Comparison.text) ++ ")"

def text : RangeCondition → String
  | .compare comparison => comparison.text
  | .equalities comparisons => equalitiesText comparisons
  | .prefixed equals comparison =>
    "(" ++ equalitiesText equals ++ " AND " ++ comparison.text ++ ")"

/-- The comparisons of a condition, from left to right. -/
def comparisons : RangeCondition → List Comparison
  | .compare comparison => [comparison]
  | .equalities comparisons => comparisons
  | .prefixed equals comparison => equals ++ [comparison]

def conjunction (condition : RangeCondition) : Conjunction :=
  condition.comparisons.map Comparison.toValueComparison

/-- What the server reads in the text of a condition. -/
def read (condition : RangeCondition) : Option Conjunction :=
  condition.comparisons.mapM Comparison.read

end RangeCondition

/-- `(d₁ or …)`. -/
def disjunctionText (conditions : List RangeCondition) : String :=
  "(" ++ " or ".intercalate (conditions.map RangeCondition.text) ++ ")"

end GhOst.Sql
