import Mathlib.Data.Char
import GhOst.Properties.Ranges

/-!
# Ranges of a key of two columns, when values that are equal to the server differ in Go

The builders of range queries treat a key of two columns apart: `sameFirstColumnValue` compares two
texts to choose between one select and a union of three. The server compares the values by their
collation. `collate` takes a value to what the server sees of it, and `format` to its text in Go.
-/

namespace GhOst.Sql

open GhOst.Logic (InRange)

variable {ν κ ρ : Type}

/-! ## Queries over whole rows -/

/-- The part of the range queries that serves keys of other than two columns. -/
def genericRangeQuery (columns : List String) (rangeStartArgs rangeEndArgs : List ν)
    (includeRangeStartValues : Bool) : Except BuildError (RangeQuery ν) :=
  match buildRangeComparison columns rangeStartArgs (startSign includeRangeStartValues) with
  | .error e => .error e
  | .ok (rangeStartComparison, startExplodedArgs) =>
    match buildRangeComparison columns rangeEndArgs .lessThanOrEquals with
    | .error e => .error e
    | .ok (rangeEndComparison, endExplodedArgs) =>
      .ok {
        parts := [[rangeStartComparison, rangeEndComparison]]
        explodedArgs := startExplodedArgs ++ endExplodedArgs }

theorem buildRangeQuery_eq_generic {argsError : Nat → Nat → String} {format : ν → String}
    {columns : List String} {start stop : List ν} {incl : Bool} {partLimit : Option Nat}
    (hlen : columns.length ≠ 2) :
    buildRangeQuery argsError format columns start stop incl partLimit =
      genericRangeQuery columns start stop incl := by
  unfold buildRangeQuery
  split
  · simp at hlen
  · rfl

/-- The query as the server compares its arguments. -/
def RangeQuery.collated (collate : ν → κ) (q : RangeQuery ν) : RangeQuery κ where
  parts := q.parts
  explodedArgs := q.explodedArgs.map collate
  partLimit := q.partLimit

variable [LinearOrder κ]

/-- The rows that the parts select; `key` is what the server sees of the key of a row. -/
def selectRows (columns : List String) (key : ρ → List κ) (rows : List ρ) :
    List Where → List κ → List ρ
  | [], _ => []
  | w :: ws, args =>
    (rows.filter fun row => w.holds (columns.zip (key row)) args) ++
      selectRows columns key rows ws (args.drop (w.map placeholders).sum)

/-- The rows a query selects from, whatever its limits. -/
def RangeQuery.selects (q : RangeQuery κ) (columns : List String) (key : ρ → List κ)
    (rows : List ρ) : List ρ :=
  selectRows columns key rows q.parts q.explodedArgs

/-- Two builders give queries that select the same rows, each as often. -/
def SelectSame (collate : ν → κ) (columns : List String) (key : ρ → List κ) (rows : List ρ)
    (query query' : Except BuildError (RangeQuery ν)) : Prop :=
  ∃ q q', query = .ok q ∧ query' = .ok q' ∧
    ((q.collated collate).selects columns key rows).Perm
      ((q'.collated collate).selects columns key rows)

/-! ## The generic query -/

section Generic

variable {collate : ν → κ} {columns : List String} {key : ρ → List κ} {rows : List ρ}
  {start stop : List ν} {incl : Bool}

omit [LinearOrder κ] in
theorem buildRangeComparison_map {args : List ν} {sign : ValueComparisonSign} :
    buildRangeComparison columns (args.map collate) sign =
      (buildRangeComparison columns args sign).map fun p => (p.1, p.2.map collate) := by
  have hexploded : ((List.range columns.length).flatMap fun i => (args.map collate).take (i + 1)) =
      ((List.range columns.length).flatMap fun i => args.take (i + 1)).map collate := by
    rw [List.map_flatMap]
    exact List.flatMap_congr fun i _ => List.map_take.symm
  unfold buildRangeComparison
  rw [List.length_map, hexploded]
  by_cases hne : columns = []
  · rw [if_pos hne, if_pos hne]
    rfl
  · rw [if_neg hne, if_neg hne]
    by_cases hlen : columns.length ≠ args.length
    · rw [if_pos hlen, if_pos hlen]
      rfl
    · rw [if_neg hlen, if_neg hlen]
      by_cases hempty : "" ∈ columns
      · rw [if_pos hempty, if_pos hempty]
        rfl
      · rw [if_neg hempty, if_neg hempty]
        obtain ⟨strict, includeEquals⟩ := sign.strict
        cases includeEquals with
        | true => simp [Except.map]
        | false => rfl

omit [LinearOrder κ] in
theorem genericRangeQuery_map (collate : ν → κ) (columns : List String) (start stop : List ν)
    (incl : Bool) :
    genericRangeQuery columns (start.map collate) (stop.map collate) incl =
      (genericRangeQuery columns start stop incl).map (RangeQuery.collated collate) := by
  unfold genericRangeQuery
  rw [buildRangeComparison_map, buildRangeComparison_map]
  cases buildRangeComparison columns start (startSign incl) with
  | error e => rfl
  | ok first =>
    cases buildRangeComparison columns stop .lessThanOrEquals with
    | error e => rfl
    | ok second => simp [Except.map, RangeQuery.collated]

theorem genericRangeQuery_selects {start stop : List κ} (incl : Bool) (hne : columns ≠ [])
    (hnamed : "" ∉ columns) (hnodup : columns.Nodup)
    (hkeys : ∀ row ∈ rows, (key row).length = columns.length)
    (hstart : start.length = columns.length) (hstop : stop.length = columns.length) :
    ∃ q, genericRangeQuery columns start stop incl = .ok q ∧
      q.selects columns key rows = rows.filter fun row => InRange start stop incl (key row) := by
  obtain ⟨cs, args, cs', args', hbuild, hbuild', hholds⟩ := buildRangeComparison_inRange hne hnamed
    hnodup hstart hstop incl
  unfold genericRangeQuery
  simp only [hbuild, hbuild']
  refine ⟨_, rfl, ?_⟩
  simp only [RangeQuery.selects, selectRows, List.append_nil]
  exact List.filter_congr fun row hrow => hholds _ (hkeys row hrow)

end Generic

/-! ## The query of two columns -/

structure TwoColumnRange (collate : ν → κ) (format : ν → String) (col1Name col2Name : String)
    (key : ρ → List κ) (rows : List ρ) (start1 start2 end1 end2 : ν) : Prop where
  /-- equal in Go only if equal to the server -/
  finer : ∀ a b, format a = format b → collate a = collate b
  named : "" ∉ [col1Name, col2Name]
  nodup : [col1Name, col2Name].Nodup
  length_key : ∀ row ∈ rows, (key row).length = 2
  le : [collate start1, collate start2] ≤ [collate end1, collate end2]

section TwoColumns

variable {collate : ν → κ} {format : ν → String} {col1Name col2Name : String} {key : ρ → List κ}
  {rows : List ρ} {start1 start2 end1 end2 : ν} {incl : Bool}

theorem first_or_last {s1 s2 e2 x y : κ} (hle : [s1, s2] ≤ [s1, e2]) (hx : x = s1) :
    inFirstPart s1 s2 incl [x, y] = true ∨ inLastPart s1 e2 [x, y] = true := by
  have hse : s2 ≤ e2 := by
    rcases hle.lt_or_eq with hlt | heq
    · rcases pair_lt.1 hlt with hno | ⟨-, hlt⟩
      · exact absurd hno (lt_irrefl _)
      · exact hlt.le
    · exact (List.cons.inj (List.cons.inj heq).2).1.le
  simp only [inFirstPart, inLastPart, Bool.and_eq_true, decide_eq_true_eq, startSign_holds]
  rcases lt_or_ge s2 y with hlt | hge
  · exact .inl ⟨hx, .inl hlt⟩
  · exact .inr ⟨hx, hge.trans hse⟩

theorem inRange_first_and_last {s1 s2 e2 x y : κ} :
    decide (InRange [s1, s2] [s1, e2] incl [x, y]) =
      (inFirstPart s1 s2 incl [x, y] && inLastPart s1 e2 [x, y]) := by
  rw [inRange_first, inFirstPart, inLastPart, Bool.eq_iff_iff]
  simp only [Bool.and_eq_true, ValueComparisonSign.holds, decide_eq_true_eq]
  tauto

section Range

variable (h : TwoColumnRange collate format col1Name col2Name key rows start1 start2 end1 end2)

include h

theorem TwoColumnRange.pair {row : ρ} (hrow : row ∈ rows) : ∃ x y, key row = [x, y] :=
  List.length_eq_two.1 (h.length_key row hrow)

theorem TwoColumnRange.lt_of_ne (hne : collate start1 ≠ collate end1) :
    collate start1 < collate end1 := by
  rcases h.le.lt_or_eq with hlt | heq
  · rcases pair_lt.1 hlt with hlt | ⟨heq, -⟩
    · exact hlt
    · exact absurd heq hne
  · exact absurd (List.cons.inj heq).1 hne

theorem TwoColumnRange.generic_selects (incl : Bool) :
    ∃ q, genericRangeQuery [col1Name, col2Name] [start1, start2] [end1, end2] incl = .ok q ∧
      (q.collated collate).selects [col1Name, col2Name] key rows =
        rows.filter fun row => InRange [collate start1, collate start2]
          [collate end1, collate end2] incl (key row) := by
  obtain ⟨collated, hcollated, hselects⟩ := genericRangeQuery_selects incl (by simp) h.named h.nodup
    h.length_key (rfl : ([start1, start2].map collate).length = [col1Name, col2Name].length)
    (rfl : ([end1, end2].map collate).length = [col1Name, col2Name].length)
  rw [genericRangeQuery_map] at hcollated
  cases hq : genericRangeQuery [col1Name, col2Name] [start1, start2] [end1, end2] incl with
  | error e => simp [hq, Except.map] at hcollated
  | ok q =>
    rw [hq, Except.map, Except.ok.injEq] at hcollated
    exact ⟨q, rfl, hcollated ▸ hselects⟩

theorem TwoColumnRange.selects_same (hsame : format start1 = format end1) (partLimit : Option Nat) :
    ((twoColumnQuery format col1Name col2Name start1 start2 end1 end2 (startSign incl)
      partLimit).collated collate).selects [col1Name, col2Name] key rows =
        rows.filter fun row => InRange [collate start1, collate start2]
          [collate end1, collate end2] incl (key row) := by
  have hquery : sameFirstColumnValue format [start1, start2] [end1, end2] = true := by
    simp [sameFirstColumnValue, hsame]
  unfold twoColumnQuery
  rw [if_pos hquery]
  simp only [RangeQuery.collated, RangeQuery.selects, selectRows, List.append_nil, List.map_cons,
    List.map_nil]
  refine List.filter_congr fun row hrow => ?_
  obtain ⟨x, y, hkey⟩ := h.pair hrow
  rw [hkey, where_first_within h.nodup x y, ← h.finer start1 end1 hsame, inRange_first]

theorem TwoColumnRange.selects_parts (hdiffer : format start1 ≠ format end1)
    (partLimit : Option Nat) :
    ((twoColumnQuery format col1Name col2Name start1 start2 end1 end2 (startSign incl)
      partLimit).collated collate).selects [col1Name, col2Name] key rows =
        (rows.filter fun row => inFirstPart (collate start1) (collate start2) incl (key row)) ++
          ((rows.filter fun row => inMiddlePart (collate start1) (collate end1) (key row)) ++
            rows.filter fun row => inLastPart (collate end1) (collate end2) (key row)) := by
  have hquery : ¬ sameFirstColumnValue format [start1, start2] [end1, end2] = true := by
    simpa [sameFirstColumnValue] using hdiffer
  unfold twoColumnQuery
  rw [if_neg hquery]
  simp only [RangeQuery.collated, RangeQuery.selects, selectRows, List.append_nil, List.map_cons,
    List.map_nil]
  congr 1
  · refine List.filter_congr fun row hrow => ?_
    obtain ⟨x, y, hkey⟩ := h.pair hrow
    rw [hkey]
    exact where_first h.nodup x y
  · congr 1
    · refine List.filter_congr fun row hrow => ?_
      obtain ⟨x, y, hkey⟩ := h.pair hrow
      rw [hkey]
      exact where_between h.nodup x y
    · refine List.filter_congr fun row hrow => ?_
      obtain ⟨x, y, hkey⟩ := h.pair hrow
      rw [hkey]
      exact where_first h.nodup x y

theorem TwoColumnRange.perm_parts (hlt : collate start1 < collate end1) :
    ((rows.filter fun row => inFirstPart (collate start1) (collate start2) incl (key row)) ++
      ((rows.filter fun row => inMiddlePart (collate start1) (collate end1) (key row)) ++
        rows.filter fun row => inLastPart (collate end1) (collate end2) (key row))).Perm
      (rows.filter fun row => InRange [collate start1, collate start2]
        [collate end1, collate end2] incl (key row)) := by
  have hmiddle : ∀ row ∈ rows, inMiddlePart (collate start1) (collate end1) (key row) = true →
      inLastPart (collate end1) (collate end2) (key row) = false := by
    intro row hrow hpart
    obtain ⟨x, y, hkey⟩ := h.pair hrow
    simp only [hkey, inMiddlePart, Bool.and_eq_true, decide_eq_true_eq] at hpart
    simp [hkey, inLastPart, hpart.2.ne]
  have hfirst : ∀ row ∈ rows, inFirstPart (collate start1) (collate start2) incl (key row) = true →
      (inMiddlePart (collate start1) (collate end1) (key row) ||
        inLastPart (collate end1) (collate end2) (key row)) = false := by
    intro row hrow hpart
    obtain ⟨x, y, hkey⟩ := h.pair hrow
    simp only [hkey, inFirstPart, Bool.and_eq_true, decide_eq_true_eq] at hpart
    simp [hkey, inMiddlePart, inLastPart, hpart.1, hlt.ne]
  have hparts : ∀ row ∈ rows, decide (InRange [collate start1, collate start2]
      [collate end1, collate end2] incl (key row)) =
        (inFirstPart (collate start1) (collate start2) incl (key row) ||
          (inMiddlePart (collate start1) (collate end1) (key row) ||
            inLastPart (collate end1) (collate end2) (key row))) := by
    intro row hrow
    obtain ⟨x, y, hkey⟩ := h.pair hrow
    rw [hkey]
    exact inRange_eq_parts hlt x y
  rw [List.filter_congr hparts]
  exact ((Infra.filter_append_filter_perm hmiddle).append_left _).trans
    (Infra.filter_append_filter_perm hfirst)

/-- **Values of the first column that are equal to the server and differ in Go**: a row with such a
value is selected too often. -/
theorem TwoColumnRange.perm_iff_of_equal (hequal : collate start1 = collate end1) :
    ((rows.filter fun row => inFirstPart (collate start1) (collate start2) incl (key row)) ++
      ((rows.filter fun row => inMiddlePart (collate start1) (collate end1) (key row)) ++
        rows.filter fun row => inLastPart (collate end1) (collate end2) (key row))).Perm
      (rows.filter fun row => InRange [collate start1, collate start2]
        [collate end1, collate end2] incl (key row)) ↔
    ∀ row ∈ rows, (key row).head? ≠ some (collate start1) := by
  have hle := h.le
  rw [← hequal] at hle ⊢
  have hmiddle : (rows.filter fun row => inMiddlePart (collate start1) (collate start1) (key row))
      = [] := by
    rw [List.filter_eq_nil_iff]
    intro row hrow
    obtain ⟨x, y, hkey⟩ := h.pair hrow
    simp only [hkey, inMiddlePart, Bool.and_eq_true, decide_eq_true_eq, not_and, not_lt]
    exact fun hlt => hlt.le
  have hboth : ∀ row ∈ rows, decide (InRange [collate start1, collate start2]
      [collate start1, collate end2] incl (key row)) =
        (inFirstPart (collate start1) (collate start2) incl (key row) &&
          inLastPart (collate start1) (collate end2) (key row)) := by
    intro row hrow
    obtain ⟨x, y, hkey⟩ := h.pair hrow
    rw [hkey]
    exact inRange_first_and_last
  rw [hmiddle, List.nil_append, List.filter_congr hboth]
  rw [Infra.filter_append_filter_perm_and_iff]
  refine forall₂_congr fun row hrow => ?_
  obtain ⟨x, y, hkey⟩ := h.pair hrow
  rw [hkey, List.head?_cons, ne_eq, Option.some.injEq]
  constructor
  · rintro ⟨hfirst, hlast⟩ hx
    rcases first_or_last hle hx with hin | hin
    · exact Bool.eq_false_iff.1 hfirst hin
    · exact Bool.eq_false_iff.1 hlast hin
  · intro hx
    simp [inFirstPart, inLastPart, hx]

theorem TwoColumnRange.selectSame_iff (incl : Bool) (partLimit : Option Nat) :
    SelectSame collate [col1Name, col2Name] key rows
      (.ok (twoColumnQuery format col1Name col2Name start1 start2 end1 end2 (startSign incl)
        partLimit))
      (genericRangeQuery [col1Name, col2Name] [start1, start2] [end1, end2] incl) ↔
    (collate start1 = collate end1 → format start1 = format end1 ∨
      ∀ row ∈ rows, (key row).head? ≠ some (collate start1)) := by
  obtain ⟨q, hq, hselects⟩ := h.generic_selects incl
  have hsame : SelectSame collate [col1Name, col2Name] key rows
      (.ok (twoColumnQuery format col1Name col2Name start1 start2 end1 end2 (startSign incl)
        partLimit))
      (genericRangeQuery [col1Name, col2Name] [start1, start2] [end1, end2] incl) ↔
      (((twoColumnQuery format col1Name col2Name start1 start2 end1 end2 (startSign incl)
        partLimit).collated collate).selects [col1Name, col2Name] key rows).Perm
          (rows.filter fun row => InRange [collate start1, collate start2]
            [collate end1, collate end2] incl (key row)) := by
    unfold SelectSame
    rw [hq, ← hselects]
    constructor
    · rintro ⟨_, _, ⟨rfl⟩, ⟨rfl⟩, hperm⟩
      exact hperm
    · intro hperm
      exact ⟨_, _, rfl, rfl, hperm⟩
  rw [hsame]
  by_cases hformat : format start1 = format end1
  · rw [h.selects_same hformat]
    exact iff_of_true (.refl _) fun _ => .inl hformat
  · rw [h.selects_parts hformat]
    by_cases hequal : collate start1 = collate end1
    · rw [h.perm_iff_of_equal hequal]
      exact ⟨fun hnone _ => .inr hnone, fun hcond => (hcond hequal).resolve_left hformat⟩
    · exact iff_of_true (h.perm_parts (h.lt_of_ne hequal)) fun heq => absurd heq hequal

end Range

/-- **The rows of a range of a key of two columns** are selected, each once, exactly when equal
values of the first column are equal in Go, or the table has no row with such a value. -/
theorem two_column_range_iff
    (h : TwoColumnRange collate format col1Name col2Name key rows start1 start2 end1 end2)
    (incl : Bool) (chunkSize : Nat) :
    (SelectSame collate [col1Name, col2Name] key rows
      (buildRangeInsertPreparedQuery format [col1Name, col2Name] [start1, start2] [end1, end2] incl)
      (genericRangeQuery [col1Name, col2Name] [start1, start2] [end1, end2] incl) ∧
    SelectSame collate [col1Name, col2Name] key rows
      (buildUniqueKeyRangeEndPreparedQueryViaOffset format [col1Name, col2Name] [start1, start2]
        [end1, end2] chunkSize incl)
      (genericRangeQuery [col1Name, col2Name] [start1, start2] [end1, end2] incl) ∧
    SelectSame collate [col1Name, col2Name] key rows
      (buildUniqueKeyRangeEndPreparedQueryViaTemptable format [col1Name, col2Name] [start1, start2]
        [end1, end2] chunkSize incl)
      (genericRangeQuery [col1Name, col2Name] [start1, start2] [end1, end2] incl)) ↔
    (collate start1 = collate end1 → format start1 = format end1 ∨
      ∀ row ∈ rows, (key row).head? ≠ some (collate start1)) := by
  have hlimited := h.selectSame_iff incl (some chunkSize)
  constructor
  · rintro ⟨-, hoffset, -⟩
    exact hlimited.1 hoffset
  · intro hcond
    exact ⟨(h.selectSame_iff incl none).2 hcond, hlimited.2 hcond, hlimited.2 hcond⟩

end TwoColumns

/-- Values in a collation without case. -/
def caseless (c : Char) : Char := c.toLower

theorem caseless_range {rows : List (List Char)} {start1 start2 end1 end2 : Char}
    (hrows : ∀ row ∈ rows, row.length = 2)
    (hle : [caseless start1, caseless start2] ≤ [caseless end1, caseless end2]) :
    TwoColumnRange caseless (fun c => String.ofList [c]) "a" "b" (List.map caseless) rows
      start1 start2 end1 end2 where
  finer a b hab := by
    obtain ⟨rfl⟩ : a = b := by simpa using congrArg String.toList hab
    rfl
  named := by decide
  nodup := by decide
  length_key row hrow := by rw [List.length_map, hrows row hrow]
  le := hle

/-- A range over two values of the first column, with rows that spell them otherwise. -/
theorem two_column_range_iff_small :
    SelectSame caseless ["a", "b"] (List.map caseless) [['A', '3'], ['b', '9'], ['B', '2']]
      (buildRangeInsertPreparedQuery (fun c => String.ofList [c]) ["a", "b"] ['a', '1'] ['b', '5']
        true)
      (genericRangeQuery ["a", "b"] ['a', '1'] ['b', '5'] true) :=
  ((two_column_range_iff (caseless_range (by decide) (by decide)) true 10).2 (by decide)).1

/-- From `('a', '1')` to `('A', '5')`: a row of the range is selected twice, and a row behind it
once. -/
theorem caseless_rows_selected_twice :
    ((twoColumnQuery (fun c => String.ofList [c]) "a" "b" 'a' '1' 'A' '5' .greaterThanOrEquals
      none).collated caseless).selects ["a", "b"] (List.map caseless) [['a', '3'], ['A', '9']] =
        [['a', '3'], ['A', '9'], ['a', '3']] ∧
    ¬ SelectSame caseless ["a", "b"] (List.map caseless) [['a', '3'], ['A', '9']]
      (buildRangeInsertPreparedQuery (fun c => String.ofList [c]) ["a", "b"] ['a', '1'] ['A', '5']
        true)
      (genericRangeQuery ["a", "b"] ['a', '1'] ['A', '5'] true) := by
  constructor
  · decide
  · intro hsame
    have hrange : TwoColumnRange caseless (fun c => String.ofList [c]) "a" "b" (List.map caseless)
        [['a', '3'], ['A', '9']] 'a' '1' 'A' '5' := caseless_range (by decide) (by decide)
    have hcond := (hrange.selectSame_iff true none).1 hsame
    revert hcond
    decide

end GhOst.Sql
