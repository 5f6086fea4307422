import GhOst.Infra.Loop
import GhOst.Properties.Ranges
import GhOst.Sql.Comparisons

/-!
# The text of a range comparison is the lexicographic order

The text that `BuildRangeComparison` puts together is that of a list of conditions, whose
comparisons are those of `buildRangeComparison`. With the placeholders bound from left to right it
compares the key of a row with the arguments, if the server reads the names of the columns as they
are: `EscapeName` takes the quotes off a name that has some, and does not double a backtick.
-/

namespace GhOst.Sql

variable {κ : Type} {columns values : List String} {sign : ValueComparisonSign}

theorem buildValueComparison_ok {column value : String} (hcolumn : column ≠ "")
    (hvalue : value ≠ "") :
    buildValueComparison column value sign = .ok (Comparison.text ⟨⟨column, sign⟩, value⟩) := by
  rw [buildValueComparison, if_neg hcolumn, if_neg hvalue]
  rfl

/-- The comparisons of `BuildEqualsComparison`. -/
def equalities (columns values : List String) : List Comparison :=
  (columns.zip values).map fun p => ⟨⟨p.1, .equals⟩, p.2⟩

theorem equalsComparisons_ok {pairs : List (String × String)}
    (h : ∀ p ∈ pairs, p.1 ≠ "" ∧ p.2 ≠ "") :
    equalsComparisons pairs =
      .ok (pairs.map fun p => Comparison.text ⟨⟨p.1, .equals⟩, p.2⟩) := by
  induction pairs with
  | nil => rfl
  | cons p pairs ih =>
    obtain ⟨hcolumn, hvalue⟩ := h p List.mem_cons_self
    have hrest := ih fun p hp => h p (List.mem_cons_of_mem _ hp)
    obtain ⟨column, value⟩ := p
    rw [equalsComparisons, buildValueComparison_ok hcolumn hvalue, hrest]
    rfl

theorem buildEqualsComparison_ok (hne : columns ≠ []) (hlen : columns.length = values.length)
    (hnamed : "" ∉ columns) (hvalued : "" ∉ values) :
    buildEqualsComparison columns values =
      .ok (RangeCondition.equalities (equalities columns values)).text := by
  have hpairs : ∀ p ∈ columns.zip values, p.1 ≠ "" ∧ p.2 ≠ "" := by
    intro p hp
    obtain ⟨hcolumn, hvalue⟩ := List.of_mem_zip hp
    exact ⟨fun he => hnamed (he ▸ hcolumn), fun he => hvalued (he ▸ hvalue)⟩
  rw [buildEqualsComparison, if_neg hne, if_neg (not_not.2 hlen), equalsComparisons_ok hpairs]
  show Except.ok _ = _
  rw [RangeCondition.text, RangeCondition.equalitiesText, equalities, List.map_map]
  rfl

def conditionAt (columns values : List String) (sign : ValueComparisonSign) (i : Nat) :
    RangeCondition :=
  let comparison : Comparison := ⟨⟨columns[i]?.getD "", sign⟩, values[i]?.getD ""⟩
  if 0 < i then .prefixed (equalities (columns.take i) (values.take i)) comparison
  else .compare comparison

theorem equalities_conjunction (hlen : columns.length = values.length) :
    (equalities columns values).map Comparison.toValueComparison = equalsComparison columns := by
  rw [equalities, equalsComparison, List.map_map]
  have hfst : columns = (columns.zip values).map Prod.fst :=
    (List.map_fst_zip hlen.le).symm
  conv_rhs => rw [hfst, List.map_map]
  rfl

theorem conditionAt_conjunction (hlen : columns.length = values.length) {i : Nat}
    (hi : i < columns.length) :
    (conditionAt columns values sign i).conjunction = prefixComparison columns sign i := by
  have htake : (columns.take i).length = (values.take i).length := by
    rw [List.length_take, List.length_take, hlen]
  unfold conditionAt prefixComparison
  by_cases hpos : 0 < i
  · rw [if_pos hpos]
    show (equalities _ _ ++ [_]).map _ = _
    rw [List.map_append, equalities_conjunction htake]
    simp [hi]
  · obtain rfl : i = 0 := by omega
    rw [if_neg hpos]
    show [_] = _
    simp [equalsComparison, hi]

theorem column_mem_of_equalities : ∀ c ∈ equalities columns values, c.column ∈ columns := by
  intro c hc
  obtain ⟨p, hp, rfl⟩ := List.mem_map.mp hc
  exact (List.of_mem_zip hp).1

theorem column_mem_of_conditionAt {i : Nat} (hi : i < columns.length) :
    ∀ c ∈ (conditionAt columns values sign i).comparisons, c.column ∈ columns := by
  have hcolumn : columns[i]?.getD "" ∈ columns := by
    rw [List.getElem?_eq_getElem hi]
    exact List.getElem_mem hi
  unfold conditionAt
  split
  · intro c hc
    rcases List.mem_append.mp hc with hc | hc
    · exact List.mem_of_mem_take (column_mem_of_equalities c hc)
    · rw [List.mem_singleton.mp hc]
      exact hcolumn
  · intro c hc
    rw [List.mem_singleton.mp hc]
    exact hcolumn

theorem rangeComparisonAt_ok (hlen : columns.length = values.length) (hnamed : "" ∉ columns)
    (hvalued : "" ∉ values) {i : Nat} (hi : i < columns.length) :
    rangeComparisonAt columns values sign i = .ok (conditionAt columns values sign i).text := by
  have hi' : i < values.length := hlen ▸ hi
  have hcolumn : columns[i] ≠ "" := fun he => hnamed (he ▸ List.getElem_mem hi)
  have hvalue : values[i] ≠ "" := fun he => hvalued (he ▸ List.getElem_mem hi')
  unfold rangeComparisonAt conditionAt
  rw [List.getElem?_eq_getElem hi, List.getElem?_eq_getElem hi']
  simp only [buildValueComparison_ok hcolumn hvalue, Option.getD_some]
  by_cases hpos : 0 < i
  · have hne : columns.take i ≠ [] := by
      intro he
      have := congrArg List.length he
      rw [List.length_take, List.length_nil] at this
      omega
    have htake : (columns.take i).length = (values.take i).length := by
      rw [List.length_take, List.length_take, hlen]
    rw [if_pos hpos]
    show (if 0 < i then _ else _ : Except BuildError String) = _
    rw [if_pos hpos, buildEqualsComparison_ok hne htake
      (fun hmem => hnamed (List.mem_of_mem_take hmem))
      (fun hmem => hvalued (List.mem_of_mem_take hmem))]
    rfl
  · rw [if_neg hpos]
    show (if 0 < i then _ else _ : Except BuildError String) = _
    rw [if_neg hpos]
    rfl

theorem rangeComparisons_ok (hlen : columns.length = values.length) (hnamed : "" ∉ columns)
    (hvalued : "" ∉ values) {is : List Nat} (his : ∀ i ∈ is, i < columns.length) :
    rangeComparisons columns values sign is =
      .ok ((is.map (conditionAt columns values sign)).map RangeCondition.text) := by
  induction is with
  | nil => rfl
  | cons i is ih =>
    rw [rangeComparisons, rangeComparisonAt_ok hlen hnamed hvalued (his i List.mem_cons_self),
      ih fun j hj => his j (List.mem_cons_of_mem _ hj)]
    rfl

theorem buildRangeComparisonText_ok {args : List κ} (sign : ValueComparisonSign)
    (hne : columns ≠ []) (hlen : columns.length = values.length) (hnamed : "" ∉ columns)
    (hvalued : "" ∉ values) (hargs : columns.length = args.length) :
    ∃ conditions explodedArgs,
      buildRangeComparisonText columns values args sign =
        .ok (disjunctionText conditions, explodedArgs) ∧
      buildRangeComparison columns args sign =
        .ok (conditions.map RangeCondition.conjunction, explodedArgs) ∧
      ∀ condition ∈ conditions, ∀ c ∈ condition.comparisons, c.column ∈ columns := by
  have hcolumns : ∀ strict, ∀ condition ∈ (List.range columns.length).map
      (conditionAt columns values strict), ∀ c ∈ condition.comparisons, c.column ∈ columns := by
    intro strict condition hmem
    obtain ⟨i, hi, rfl⟩ := List.mem_map.mp hmem
    exact column_mem_of_conditionAt (List.mem_range.mp hi)
  have hconjunctions : ∀ strict, ((List.range columns.length).map
      (conditionAt columns values strict)).map RangeCondition.conjunction =
        (List.range columns.length).map (prefixComparison columns strict) := by
    intro strict
    rw [List.map_map]
    exact List.map_congr_left fun i hi => conditionAt_conjunction hlen (List.mem_range.1 hi)
  have hexploded : ((List.range columns.length).flatMap fun i => args.take i ++ args[i]?.toList) =
      (List.range columns.length).flatMap fun i => args.take (i + 1) :=
    List.flatMap_congr fun i _ => (List.take_add_one).symm
  unfold buildRangeComparisonText buildRangeComparison
  rw [if_neg hne, if_neg (not_not.2 hlen), if_neg (not_not.2 hargs), if_neg hne,
    if_neg (not_not.2 hargs), if_neg hnamed, hexploded]
  obtain ⟨strict, includeEquals⟩ := sign.strict
  simp only [rangeComparisons_ok hlen hnamed hvalued fun i hi => List.mem_range.1 hi]
  cases includeEquals with
  | true =>
    refine ⟨(List.range columns.length).map (conditionAt columns values strict) ++
      [.equalities (equalities columns values)],
      ((List.range columns.length).flatMap fun i => args.take (i + 1)) ++ args, ?_, ?_, ?_⟩
    · show (buildEqualsComparison columns values >>= fun comparison => Except.ok _) = _
      rw [buildEqualsComparison_ok hne hlen hnamed hvalued, disjunctionText, List.map_append]
      rfl
    · rw [List.map_append, hconjunctions, if_pos rfl]
      show _ = Except.ok (_ ++ [(equalities columns values).map _], _)
      rw [equalities_conjunction hlen]
    · intro condition hmem
      rcases List.mem_append.mp hmem with hmem | hmem
      · exact hcolumns strict condition hmem
      · rw [List.mem_singleton.mp hmem]
        exact column_mem_of_equalities
  | false =>
    exact ⟨(List.range columns.length).map (conditionAt columns values strict), _, rfl,
      by rw [hconjunctions, if_neg (by simp)], hcolumns strict⟩

/-- What the server reads in conditions whose names it reads as they are. -/
theorem mapM_read {conditions : List RangeCondition} (h : ∀ condition ∈ conditions,
      ∀ c ∈ condition.comparisons, readName c.column = some c.column) :
    conditions.mapM RangeCondition.read = some (conditions.map RangeCondition.conjunction) := by
  have hread : ∀ condition ∈ conditions, condition.read = some condition.conjunction := by
    intro condition hmem
    have hcomparisons : (condition.comparisons.map id).mapM Comparison.read =
        some condition.conjunction := by
      refine Infra.mapM_map_eq_some fun c hc => ?_
      rw [id, Comparison.read, h condition hmem c hc]
      rfl
    rwa [List.map_id] at hcomparisons
  have hconditions := Infra.mapM_map_eq_some (t := id) hread
  rwa [List.map_id] at hconditions

variable [LinearOrder κ]

example : buildRangeComparisonText ["c1", "c2"] ["@v1", "@v2"] [3, 17] .lessThanOrEquals =
    .ok ("((`c1` < @v1) or (((`c1` = @v1)) AND (`c2` < @v2)) or ((`c1` = @v1) and (`c2` = @v2)))",
      [3, 3, 17, 3, 17]) := by
  decide +kernel

end GhOst.Sql
