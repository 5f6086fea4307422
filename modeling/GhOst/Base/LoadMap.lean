import Mathlib.Data.List.Sort
import GhOst.Infra.Keyed
import GhOst.Infra.Strings
import GhOst.Mysql.Coordinates

/-!
# Load thresholds (`go/base/load_map.go`)

A map is the list of its pairs, with distinct keys, in the order in which a loop meets them: a
`range` over a map may meet them in any order, which is any permutation of the list.
-/

namespace GhOst.Base

open Infra GhOst.Mysql

abbrev LoadMap := List (String × Int)

namespace LoadMap

/-- `result[key] = n`. -/
def set (result : LoadMap) (key : String) (n : Int) : LoadMap :=
  dropKey Prod.fst result key ++ [(key, n)]

/-- The loop of `ParseLoadMap`; `strconv.ParseInt` with bit size 0 reads what `Atoi` reads. -/
def parseConditions : LoadMap → List String → LoadMap × Option String
  | result, [] => (result, none)
  | result, loadCondition :: rest =>
    match split '=' loadCondition with
    | [key, value] =>
      if key = "" then
        (result, some ("Error parsing status variable in load condition: " ++ loadCondition))
      else
        match atoi value.toList with
        | none =>
          (result, some ("Error parsing numeric value in load condition: " ++ loadCondition))
        | some n => parseConditions (result.set key n) rest
    | _ => (result, some ("Error parsing load condition: " ++ loadCondition))

/-- `ParseLoadMap`: the map, which is incomplete when there is an error, and the error. -/
def parseLoadMap (loadList : String) : LoadMap × Option String :=
  if loadList = "" then ([], none) else parseConditions [] (split ',' loadList)

/-- `fmt.Sprintf("%s=%d", key, val)`. -/
def token (pair : String × Int) : String := pair.1 ++ "=" ++ toString pair.2

def string (lm : LoadMap) : String := join ',' ((lm.map token).insertionSort (· ≤ ·))

end LoadMap

end GhOst.Base
