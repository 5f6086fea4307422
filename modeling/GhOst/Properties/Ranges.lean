import GhOst.Infra.Sorted
import GhOst.Logic.CopyReplay
import GhOst.Sql.Ranges

/-!
# The range queries select the keys of a range

For keys of any number of columns, the rows of a range query are those whose key lies in the range
in the lexicographic order, and each of them once. With two columns this rests on
`sameFirstColumnValue` being the equality of the order; the limits within the parts do not change
the first rows.
-/

namespace GhOst.Sql

open GhOst.Logic (InRange)

variable {κ : Type} [LinearOrder κ]

/-! ## Comparisons -/

theorem lt_iff_exists_getElem? : ∀ {a b : List κ}, a.length = b.length →
    (a < b ↔ ∃ (i : Nat) (x y : κ), (∀ j < i, a[j]? = b[j]?) ∧ a[i]? = some x ∧
      b[i]? = some y ∧ x < y)
  | [], [], _ => by simp
  | x :: a, y :: b, hlen => by
    rw [List.cons_lt_cons_iff, lt_iff_exists_getElem? (Nat.succ.inj hlen)]
    constructor
    · rintro (hxy | ⟨rfl, i, u, v, heq, hu, hv, huv⟩)
      · exact ⟨0, x, y, by simp, rfl, rfl, hxy⟩
      · refine ⟨i + 1, u, v, fun j hj => ?_, hu, hv, huv⟩
        cases j with
        | zero => rfl
        | succ j => exact heq j (by omega)
    · rintro ⟨i, u, v, heq, hu, hv, huv⟩
      cases i with
      | zero =>
        obtain rfl := Option.some.inj hu
        obtain rfl := Option.some.inj hv
        exact .inl huv
      | succ i =>
        refine .inr ⟨by simpa using heq 0 (by omega), i, u, v, fun j hj => ?_, hu, hv, huv⟩
        exact heq (j + 1) (by omega)

omit [LinearOrder κ] in
theorem lookup_zip : ∀ {columns : List String} {key : List κ} {i : Nat} {column : String},
    columns.Nodup → columns[i]? = some column → (columns.zip key).lookup column = key[i]?
  | [], _, i, _, _, h => by simp at h
  | c :: columns, [], i, column, _, _ => by simp
  | c :: columns, v :: key, 0, column, _, h => by
    obtain rfl := Option.some.inj h
    simp
  | c :: columns, v :: key, i + 1, column, hnodup, h => by
    have hmem : column ∈ columns := List.mem_of_getElem? h
    have hne : column ≠ c := by
      rintro rfl
      exact (List.nodup_cons.1 hnodup).1 hmem
    rw [List.zip_cons_cons, List.lookup_cons]
    simp only [beq_eq_false_iff_ne.2 hne]
    exact lookup_zip (List.nodup_cons.1 hnodup).2 h

section Comparison

variable {columns : List String} {key args : List κ} {sign : ValueComparisonSign}
variable {row : List (String × κ)} {i : Nat}

theorem Conjunction.holds_iff {conjunction : Conjunction} :
    conjunction.holds row args = true ↔ ∀ (j : Nat) (comparison : ValueComparison) (arg : κ),
      conjunction[j]? = some comparison → args[j]? = some arg →
        ∃ v, row.lookup comparison.column = some v ∧ comparison.sign.holds v arg = true := by
  unfold Conjunction.holds
  rw [List.all_eq_true]
  constructor
  · intro h j comparison arg hc ha
    have hmem : (comparison, arg) ∈ conjunction.zip args := by
      refine List.mem_of_getElem? (i := j) ?_
      simp [List.getElem?_zip_eq_some, hc, ha]
    simpa [Option.any_eq_true] using h _ hmem
  · rintro h ⟨comparison, arg⟩ hmem
    obtain ⟨j, hj⟩ := List.mem_iff_getElem?.1 hmem
    rw [List.getElem?_zip_eq_some] at hj
    simpa [Option.any_eq_true] using h j comparison arg hj.1 hj.2

theorem getElem?_prefixComparison_lt {j : Nat} (hj : j < i) (hi : i < columns.length) :
    (prefixComparison columns sign i)[j]? = columns[j]?.map (⟨·, .equals⟩) := by
  have hlen : j < (equalsComparison (columns.take i)).length := by
    simp only [equalsComparison, List.length_map, List.length_take]
    omega
  rw [prefixComparison, List.getElem?_append_left hlen, equalsComparison, List.getElem?_map,
    List.getElem?_take_of_lt hj]

theorem getElem?_prefixComparison_self (hi : i < columns.length) :
    (prefixComparison columns sign i)[i]? = columns[i]?.map (⟨·, sign⟩) := by
  have hlen : (equalsComparison (columns.take i)).length = i := by
    simp only [equalsComparison, List.length_map, List.length_take]
    omega
  rw [prefixComparison, List.getElem?_append_right (by omega), hlen]
  simp [hi]

theorem length_prefixComparison (hi : i < columns.length) :
    (prefixComparison columns sign i).length = i + 1 := by
  simp [prefixComparison, equalsComparison, hi]
  omega

theorem prefixComparison_holds (hnodup : columns.Nodup) (hargs : args.length = columns.length)
    (hi : i < columns.length) :
    (prefixComparison columns sign i).holds (columns.zip key) (args.take (i + 1)) = true ↔
      ∃ x y, (∀ j < i, key[j]? = args[j]?) ∧ key[i]? = some x ∧ args[i]? = some y ∧
        sign.holds x y = true := by
  have hlookup : ∀ {j : Nat} {column : String}, columns[j]? = some column →
      (columns.zip key).lookup column = key[j]? := fun h => lookup_zip hnodup h
  rw [Conjunction.holds_iff]
  constructor
  · intro h
    have hbefore : ∀ j < i, key[j]? = args[j]? := by
      intro j hj
      have hc : j < columns.length := by omega
      have ha : j < args.length := by omega
      obtain ⟨v, hv, heq⟩ := h j ⟨columns[j], .equals⟩ args[j]
        (by simp [getElem?_prefixComparison_lt hj hi, hc])
        (by rw [List.getElem?_take_of_lt (by omega)]; simp [ha])
      rw [hlookup (List.getElem?_eq_getElem hc)] at hv
      rw [hv, List.getElem?_eq_getElem ha]
      simpa [ValueComparisonSign.holds] using heq
    have ha : i < args.length := by omega
    obtain ⟨v, hv, hsign⟩ := h i ⟨columns[i], sign⟩ args[i]
      (by simp [getElem?_prefixComparison_self hi, hi])
      (by rw [List.getElem?_take_of_lt (by omega)]; simp [ha])
    rw [hlookup (List.getElem?_eq_getElem hi)] at hv
    exact ⟨v, args[i], hbefore, hv, List.getElem?_eq_getElem ha, hsign⟩
  · rintro ⟨x, y, hbefore, hx, hy, hsign⟩ j comparison arg hc ha
    have hj : j < i + 1 := by
      have := (List.getElem?_eq_some_iff.1 hc).1
      rw [length_prefixComparison hi] at this
      exact this
    rw [List.getElem?_take_of_lt hj] at ha
    rcases Nat.lt_succ_iff_lt_or_eq.1 hj with hj | rfl
    · rw [getElem?_prefixComparison_lt hj hi, Option.map_eq_some_iff] at hc
      obtain ⟨column, hcolumn, rfl⟩ := hc
      refine ⟨arg, ?_, by simp [ValueComparisonSign.holds]⟩
      rw [hlookup hcolumn, hbefore j hj, ha]
    · rw [getElem?_prefixComparison_self hi, Option.map_eq_some_iff] at hc
      obtain ⟨column, hcolumn, rfl⟩ := hc
      obtain rfl : y = arg := Option.some.inj (hy.symm.trans ha)
      exact ⟨x, by rw [hlookup hcolumn, hx], hsign⟩

theorem equalsComparison_holds (hnodup : columns.Nodup) (hkey : key.length = columns.length)
    (hargs : args.length = columns.length) :
    (equalsComparison columns).holds (columns.zip key) args = true ↔ key = args := by
  rw [Conjunction.holds_iff]
  constructor
  · intro h
    refine List.ext_getElem? fun j => ?_
    by_cases hj : j < columns.length
    · have ha : j < args.length := by omega
      obtain ⟨v, hv, heq⟩ := h j ⟨columns[j], .equals⟩ args[j] (by simp [equalsComparison, hj])
        (List.getElem?_eq_getElem ha)
      rw [lookup_zip hnodup (List.getElem?_eq_getElem hj)] at hv
      rw [hv, List.getElem?_eq_getElem ha]
      simpa [ValueComparisonSign.holds] using heq
    · rw [List.getElem?_eq_none (by omega), List.getElem?_eq_none (by omega)]
  · rintro rfl j comparison arg hc ha
    rw [equalsComparison, List.getElem?_map, Option.map_eq_some_iff] at hc
    obtain ⟨column, hcolumn, rfl⟩ := hc
    exact ⟨arg, by rw [lookup_zip hnodup hcolumn, ha], by simp [ValueComparisonSign.holds]⟩

theorem Conjunction.holds_append {c : Conjunction} {rest : List κ} (hlen : args.length = c.length) :
    c.holds row (args ++ rest) = c.holds row args := by
  unfold Conjunction.holds
  rw [← List.append_nil c, List.zip_append (by simpa using hlen.symm)]
  simp

theorem disjunctionHolds_map {ι : Type} {c : ι → Conjunction} {block : ι → List κ}
    {cs : List Conjunction} {rest : List κ} :
    ∀ {is : List ι}, (∀ i ∈ is, (block i).length = (c i).length) →
      disjunctionHolds row (is.map c ++ cs) (is.flatMap block ++ rest) =
        ((is.any fun i => (c i).holds row (block i)) || disjunctionHolds row cs rest)
  | [], _ => by simp
  | i :: is, hlen => by
    have hi : (block i).length = (c i).length := hlen i List.mem_cons_self
    rw [List.map_cons, List.cons_append, List.flatMap_cons, List.append_assoc, disjunctionHolds,
      Conjunction.holds_append hi, ← hi, List.drop_left,
      disjunctionHolds_map fun j hj => hlen j (List.mem_cons_of_mem _ hj), List.any_cons,
      Bool.or_assoc]

theorem any_prefixComparison_holds (hnodup : columns.Nodup) (hkey : key.length = columns.length)
    (hargs : args.length = columns.length) (hsign : sign = .lessThan ∨ sign = .greaterThan) :
    ((List.range columns.length).any fun i =>
      (prefixComparison columns sign i).holds (columns.zip key) (args.take (i + 1))) =
        sign.holds key args := by
  have hany : ((List.range columns.length).any fun i =>
      (prefixComparison columns sign i).holds (columns.zip key) (args.take (i + 1))) = true ↔
      ∃ (i : Nat) (x y : κ), (∀ j < i, key[j]? = args[j]?) ∧ key[i]? = some x ∧
        args[i]? = some y ∧ sign.holds x y = true := by
    rw [List.any_eq_true]
    constructor
    · rintro ⟨i, hi, h⟩
      exact ⟨i, (prefixComparison_holds hnodup hargs (List.mem_range.1 hi)).1 h⟩
    · rintro ⟨i, x, y, hbefore, hx, hy, h⟩
      have hi : i < columns.length := hkey ▸ (List.getElem?_eq_some_iff.1 hx).1
      exact ⟨i, List.mem_range.2 hi,
        (prefixComparison_holds hnodup hargs hi).2 ⟨x, y, hbefore, hx, hy, h⟩⟩
  rw [Bool.eq_iff_iff, hany]
  rcases hsign with rfl | rfl
  · simp only [ValueComparisonSign.holds, decide_eq_true_eq]
    exact (lt_iff_exists_getElem? (hkey.trans hargs.symm)).symm
  · simp only [ValueComparisonSign.holds, decide_eq_true_eq]
    rw [lt_iff_exists_getElem? (hargs.trans hkey.symm)]
    constructor
    · rintro ⟨i, x, y, hbefore, hx, hy, h⟩
      exact ⟨i, y, x, fun j hj => (hbefore j hj).symm, hy, hx, h⟩
    · rintro ⟨i, x, y, hbefore, hx, hy, h⟩
      exact ⟨i, y, x, fun j hj => (hbefore j hj).symm, hy, hx, h⟩

theorem buildRangeComparison_holds (hne : columns ≠ []) (hempty : "" ∉ columns)
    (hnodup : columns.Nodup) (hargs : args.length = columns.length) (sign : ValueComparisonSign)
    (hsign : sign ≠ .equals) :
    ∃ cs explodedArgs, buildRangeComparison columns args sign = .ok (cs, explodedArgs) ∧
      explodedArgs.length = placeholders cs ∧
      ∀ key, key.length = columns.length → ∀ rest,
        disjunctionHolds (columns.zip key) cs (explodedArgs ++ rest) = sign.holds key args := by
  have hlen : ∀ (st : ValueComparisonSign), ∀ i ∈ List.range columns.length,
      (args.take (i + 1)).length = (prefixComparison columns st i).length := by
    intro st i hi
    rw [length_prefixComparison (List.mem_range.1 hi), List.length_take]
    have := List.mem_range.1 hi
    omega
  have hplaceholders : ∀ st : ValueComparisonSign,
      ((List.range columns.length).flatMap fun i => args.take (i + 1)).length =
        placeholders ((List.range columns.length).map (prefixComparison columns st)) := by
    intro st
    rw [List.length_flatMap, placeholders, List.map_map]
    exact congrArg List.sum (List.map_congr_left (hlen st))
  have hstrict : ∀ st, st = .lessThan ∨ st = .greaterThan → ∀ key, key.length = columns.length →
      ∀ cs rest, disjunctionHolds (columns.zip key)
        ((List.range columns.length).map (prefixComparison columns st) ++ cs)
        (((List.range columns.length).flatMap fun i => args.take (i + 1)) ++ rest) =
          (st.holds key args || disjunctionHolds (columns.zip key) cs rest) := by
    intro st hst key hkey cs rest
    rw [disjunctionHolds_map (hlen st), any_prefixComparison_holds hnodup hkey hargs hst]
  have hequals : ∀ key, key.length = columns.length → ∀ rest,
      disjunctionHolds (columns.zip key) [equalsComparison columns] (args ++ rest) =
        decide (key = args) := by
    intro key hkey rest
    rw [disjunctionHolds, disjunctionHolds, Bool.or_false,
      Conjunction.holds_append (by simp [equalsComparison, hargs]), Bool.eq_iff_iff,
      equalsComparison_holds hnodup hkey hargs, decide_eq_true_eq]
  have hlast : ∀ st : ValueComparisonSign, placeholders
      ((List.range columns.length).map (prefixComparison columns st) ++
        [equalsComparison columns]) =
        placeholders ((List.range columns.length).map (prefixComparison columns st)) +
          args.length := by
    intro st
    simp [placeholders, equalsComparison, hargs]
  unfold buildRangeComparison
  rw [if_neg hne, if_neg (not_not.2 hargs.symm), if_neg hempty]
  cases sign with
  | equals => exact absurd rfl hsign
  | lessThan =>
    refine ⟨_, _, rfl, hplaceholders _, fun key hkey rest => ?_⟩
    simpa [disjunctionHolds] using hstrict .lessThan (.inl rfl) key hkey [] rest
  | greaterThan =>
    refine ⟨_, _, rfl, hplaceholders _, fun key hkey rest => ?_⟩
    simpa [disjunctionHolds] using hstrict .greaterThan (.inr rfl) key hkey [] rest
  | lessThanOrEquals =>
    refine ⟨_, _, rfl, ?_, fun key hkey rest => ?_⟩
    · rw [hlast, List.length_append, hplaceholders .lessThan]
    · rw [List.append_assoc, hstrict .lessThan (.inl rfl) key hkey, hequals key hkey,
        Bool.eq_iff_iff]
      simp [ValueComparisonSign.holds, le_iff_lt_or_eq]
  | greaterThanOrEquals =>
    refine ⟨_, _, rfl, ?_, fun key hkey rest => ?_⟩
    · rw [hlast, List.length_append, hplaceholders .greaterThan]
    · rw [List.append_assoc, hstrict .greaterThan (.inr rfl) key hkey, hequals key hkey,
        Bool.eq_iff_iff]
      simp only [ValueComparisonSign.holds, Bool.or_eq_true, decide_eq_true_eq]
      rw [le_iff_lt_or_eq]
      exact or_congr_right eq_comm

end Comparison

/-! ## Queries -/

/-- What a range query may rely on: the columns of the key, the keys of the table and the range. -/
structure RangeArgs (format : κ → String) (columns : List String) (keys : List (List κ))
    (start stop : List κ) : Prop where
  /-- equal in Go only if equal in the order of the keys -/
  injective : Function.Injective format
  ne_nil : columns ≠ []
  named : "" ∉ columns
  nodup : columns.Nodup
  length_key : ∀ k ∈ keys, k.length = columns.length
  length_start : start.length = columns.length
  length_stop : stop.length = columns.length
  le : start ≤ stop

/-- A query without the limits within its parts. -/
def RangeQuery.unlimited {κ : Type} (q : RangeQuery κ) : RangeQuery κ :=
  { q with partLimit := none }

section Queries

variable {format : κ → String} {columns : List String} {keys : List (List κ)} {start stop : List κ}
  {incl : Bool} {argsError : Nat → Nat → String} {partLimit : Option Nat}

theorem startSign_holds {α : Type} [LinearOrder α] {incl : Bool} {v arg : α} :
    (startSign incl).holds v arg = true ↔ arg < v ∨ incl = true ∧ arg = v := by
  cases incl <;> simp [startSign, ValueComparisonSign.holds, le_iff_lt_or_eq]

theorem buildRangeComparison_inRange {start stop : List κ} (hne : columns ≠ [])
    (hnamed : "" ∉ columns) (hnodup : columns.Nodup) (hstart : start.length = columns.length)
    (hstop : stop.length = columns.length) (incl : Bool) :
    ∃ cs args cs' args', buildRangeComparison columns start (startSign incl) = .ok (cs, args) ∧
      buildRangeComparison columns stop .lessThanOrEquals = .ok (cs', args') ∧
      ∀ k, k.length = columns.length →
        Where.holds (columns.zip k) [cs, cs'] (args ++ args') =
          decide (InRange start stop incl k) := by
  obtain ⟨cs, args, hbuild, hplaceholders, hholds⟩ := buildRangeComparison_holds hne hnamed
    hnodup hstart (startSign incl) (by cases incl <;> decide)
  obtain ⟨cs', args', hbuild', -, hholds'⟩ := buildRangeComparison_holds hne hnamed hnodup hstop
    .lessThanOrEquals (by decide)
  refine ⟨cs, args, cs', args', hbuild, hbuild', fun k hk => ?_⟩
  rw [Where.holds, Where.holds, Where.holds, hholds k hk, ← hplaceholders, List.drop_left,
    ← List.append_nil args', hholds' k hk, Bool.and_true, Bool.eq_iff_iff, Bool.and_eq_true,
    startSign_holds, decide_eq_true_eq]
  simp [InRange, ValueComparisonSign.holds]

theorem buildRangeQuery_rows (h : RangeArgs format columns keys start stop)
    (hlen : columns.length ≠ 2) :
    ∃ q, buildRangeQuery argsError format columns start stop incl partLimit = .ok q ∧
      q.rows columns keys = keys.filter fun k => InRange start stop incl k := by
  obtain ⟨cs, args, cs', args', hstart, hstop, hholds⟩ := buildRangeComparison_inRange h.ne_nil
    h.named h.nodup h.length_start h.length_stop incl
  unfold buildRangeQuery
  split
  · next hcolumns => simp at hlen
  · simp only [hstart, hstop]
    refine ⟨_, rfl, ?_⟩
    simp only [RangeQuery.rows, unionAll, selectPart, List.append_nil]
    exact List.filter_congr fun k hk => hholds k (h.length_key k hk)

section TwoColumns

variable {col1Name col2Name : String} {start1 start2 end1 end2 a b : κ}
variable {row : List (String × κ)} {args rest : List κ} {sign : ValueComparisonSign} {arg arg' : κ}

theorem pair_lt {a b c d : κ} : [a, b] < [c, d] ↔ a < c ∨ a = c ∧ b < d := by
  simp [List.cons_lt_cons_iff]

theorem inRange_pair : InRange [start1, start2] [end1, end2] incl [a, b] ↔
    (start1 < a ∨ start1 = a ∧ (startSign incl).holds b start2 = true) ∧
      (a < end1 ∨ a = end1 ∧ b ≤ end2) := by
  have hstop : [a, b] ≤ [end1, end2] ↔ a < end1 ∨ a = end1 ∧ b ≤ end2 := by
    rw [le_iff_lt_or_eq, pair_lt, le_iff_lt_or_eq]
    simp only [List.cons.injEq, and_true]
    tauto
  have hstart : ([start1, start2] < [a, b] ∨ incl = true ∧ [start1, start2] = [a, b]) ↔
      start1 < a ∨ start1 = a ∧ (startSign incl).holds b start2 = true := by
    rw [pair_lt, startSign_holds]
    simp only [List.cons.injEq, and_true]
    tauto
  unfold InRange
  rw [hstart, hstop]

theorem forall_pairs {P : List κ → Prop} (h : RangeArgs format [col1Name, col2Name] keys start stop)
    (hP : ∀ a b, P [a, b]) : ∀ k ∈ keys, P k := by
  intro k hk
  obtain ⟨a, b, rfl⟩ := List.length_eq_two.1 (h.length_key k hk)
  exact hP a b

@[simp] theorem Conjunction.holds_nil : Conjunction.holds row [] args = true := rfl

theorem Conjunction.holds_cons {column : String} {c : Conjunction} {v : κ}
    (h : row.lookup column = some v) :
    Conjunction.holds row (⟨column, sign⟩ :: c) (arg :: args) =
      (sign.holds v arg && c.holds row args) := by
  simp [Conjunction.holds, h]

theorem Where.holds_single {c : Conjunction} : Where.holds row [[c]] args = c.holds row args := by
  simp [Where.holds, disjunctionHolds]

omit [LinearOrder κ] in
theorem lookup_pair (hnodup : [col1Name, col2Name].Nodup) (x y : κ) :
    ([col1Name, col2Name].zip [x, y]).lookup col1Name = some x ∧
      ([col1Name, col2Name].zip [x, y]).lookup col2Name = some y :=
  ⟨lookup_zip (i := 0) hnodup rfl, lookup_zip (i := 1) hnodup rfl⟩

theorem where_first_within (hnodup : [col1Name, col2Name].Nodup) (x y : κ)
    {sign' : ValueComparisonSign} {arg'' : κ} :
    Where.holds ([col1Name, col2Name].zip [x, y])
        [[[⟨col1Name, .equals⟩, ⟨col2Name, sign⟩, ⟨col2Name, sign'⟩]]]
          (arg :: arg' :: arg'' :: rest) =
      (decide (x = arg) && (sign.holds y arg' && sign'.holds y arg'')) := by
  obtain ⟨h1, h2⟩ := lookup_pair hnodup x y
  rw [Where.holds_single, Conjunction.holds_cons h1, Conjunction.holds_cons h2,
    Conjunction.holds_cons h2, Conjunction.holds_nil, Bool.and_true]
  rfl

theorem where_first (hnodup : [col1Name, col2Name].Nodup) (x y : κ) :
    Where.holds ([col1Name, col2Name].zip [x, y])
        [[[⟨col1Name, .equals⟩, ⟨col2Name, sign⟩]]] (arg :: arg' :: rest) =
      (decide (x = arg) && sign.holds y arg') := by
  obtain ⟨h1, h2⟩ := lookup_pair hnodup x y
  rw [Where.holds_single, Conjunction.holds_cons h1, Conjunction.holds_cons h2,
    Conjunction.holds_nil, Bool.and_true]
  rfl

theorem where_between (hnodup : [col1Name, col2Name].Nodup) (x y : κ) :
    Where.holds ([col1Name, col2Name].zip [x, y])
        [[[⟨col1Name, .greaterThan⟩, ⟨col1Name, .lessThan⟩]]] (arg :: arg' :: rest) =
      (decide (arg < x) && decide (x < arg')) := by
  obtain ⟨h1, -⟩ := lookup_pair hnodup x y
  rw [Where.holds_single, Conjunction.holds_cons h1, Conjunction.holds_cons h1,
    Conjunction.holds_nil, Bool.and_true]
  rfl

theorem inRange_first : decide (InRange [start1, start2] [start1, end2] incl [a, b]) =
    (decide (a = start1) && ((startSign incl).holds b start2 &&
      ValueComparisonSign.lessThanOrEquals.holds b end2)) := by
  rw [Bool.eq_iff_iff, decide_eq_true_eq, inRange_pair]
  simp only [Bool.and_eq_true, decide_eq_true_eq, ValueComparisonSign.holds]
  constructor
  · rintro ⟨hlt | ⟨rfl, hstart⟩, hlt' | ⟨heq, hstop⟩⟩
    · exact absurd (hlt.trans hlt') (lt_irrefl _)
    · exact absurd (heq ▸ hlt) (lt_irrefl _)
    · exact absurd hlt' (lt_irrefl _)
    · exact ⟨rfl, hstart, hstop⟩
  · rintro ⟨rfl, hstart, hstop⟩
    exact ⟨.inr ⟨rfl, hstart⟩, .inr ⟨rfl, hstop⟩⟩

/-- The keys of a range with the first value of the first column, with its last value and between.
-/
def inFirstPart (start1 start2 : κ) (incl : Bool) : List κ → Bool
  | [x, y] => x = start1 && (startSign incl).holds y start2
  | _ => false

def inMiddlePart (start1 end1 : κ) : List κ → Bool
  | [x, _] => start1 < x && x < end1
  | _ => false

def inLastPart (end1 end2 : κ) : List κ → Bool
  | [x, y] => x = end1 && y ≤ end2
  | _ => false

theorem inRange_eq_parts (hlt : start1 < end1) (x y : κ) :
    decide (InRange [start1, start2] [end1, end2] incl [x, y]) =
      (inFirstPart start1 start2 incl [x, y] ||
        (inMiddlePart start1 end1 [x, y] || inLastPart end1 end2 [x, y])) := by
  rw [Bool.eq_iff_iff, decide_eq_true_eq, inRange_pair]
  simp only [inFirstPart, inMiddlePart, inLastPart, Bool.or_eq_true, Bool.and_eq_true,
    decide_eq_true_eq]
  constructor
  · rintro ⟨hx | ⟨rfl, hy⟩, hx' | ⟨rfl, hy'⟩⟩
    · exact .inr (.inl ⟨hx, hx'⟩)
    · exact .inr (.inr ⟨rfl, hy'⟩)
    · exact .inl ⟨rfl, hy⟩
    · exact absurd hlt (lt_irrefl _)
  · rintro (⟨rfl, hy⟩ | ⟨hx, hx'⟩ | ⟨rfl, hy'⟩)
    · exact ⟨.inr ⟨rfl, hy⟩, .inl hlt⟩
    · exact ⟨.inl hx, .inl hx'⟩
    · exact ⟨.inl hlt, .inr ⟨rfl, hy'⟩⟩

section Rows

variable (h : RangeArgs format [col1Name, col2Name] keys [start1, start2] [end1, end2])

include h

theorem twoColumnQuery_same (hsame : start1 = end1) :
    (twoColumnQuery format col1Name col2Name start1 start2 end1 end2 (startSign incl)
      partLimit).rows [col1Name, col2Name] keys =
        keys.filter fun k => InRange [start1, start2] [end1, end2] incl k := by
  have hquery : sameFirstColumnValue format [start1, start2] [end1, end2] = true := by
    simp [sameFirstColumnValue, hsame]
  unfold twoColumnQuery
  rw [if_pos hquery]
  simp only [RangeQuery.rows, unionAll, selectPart, List.append_nil]
  refine List.filter_congr (forall_pairs h fun x y => ?_)
  rw [where_first_within h.nodup x y, ← hsame, inRange_first]

theorem middle_lt_last :
    ∀ k ∈ keys, ∀ k' ∈ keys, inMiddlePart start1 end1 k = true → inLastPart end1 end2 k' = true →
      k < k' := by
  refine forall_pairs h fun x y => forall_pairs h fun x' y' => ?_
  simp only [inMiddlePart, inLastPart, Bool.and_eq_true, decide_eq_true_eq]
  rintro ⟨-, hx⟩ ⟨rfl, -⟩
  exact pair_lt.2 (.inl hx)

theorem first_lt_rest (hlt : start1 < end1) :
    ∀ k ∈ keys, ∀ k' ∈ keys, inFirstPart start1 start2 incl k = true →
      (inMiddlePart start1 end1 k' || inLastPart end1 end2 k') = true → k < k' := by
  refine forall_pairs h fun x y => forall_pairs h fun x' y' => ?_
  simp only [inFirstPart, inMiddlePart, inLastPart, Bool.or_eq_true, Bool.and_eq_true,
    decide_eq_true_eq]
  rintro ⟨rfl, -⟩ (⟨hx, -⟩ | ⟨rfl, -⟩)
  · exact pair_lt.2 (.inl hx)
  · exact pair_lt.2 (.inl hlt)

theorem sorted_parts (hlt : start1 < end1) :
    (keys.filter fun k => InRange [start1, start2] [end1, end2] incl k).insertionSort (· ≤ ·) =
      ([keys.filter (inFirstPart start1 start2 incl), keys.filter (inMiddlePart start1 end1),
        keys.filter (inLastPart end1 end2)].map (List.insertionSort (· ≤ ·))).flatten := by
  have hparts : ∀ k ∈ keys, decide (InRange [start1, start2] [end1, end2] incl k) =
      (inFirstPart start1 start2 incl k ||
        (inMiddlePart start1 end1 k || inLastPart end1 end2 k)) :=
    forall_pairs h fun x y => inRange_eq_parts hlt x y
  rw [List.filter_congr hparts,
    Infra.insertionSort_filter_or (first_lt_rest h hlt),
    Infra.insertionSort_filter_or (middle_lt_last h)]
  simp

theorem twoColumnQuery_parts (hlt : start1 < end1) :
    (twoColumnQuery format col1Name col2Name start1 start2 end1 end2 (startSign incl)
      partLimit).rows [col1Name, col2Name] keys =
        ([keys.filter (inFirstPart start1 start2 incl), keys.filter (inMiddlePart start1 end1),
          keys.filter (inLastPart end1 end2)].map fun part =>
            match partLimit with
            | none => part
            | some n => (part.insertionSort (· ≤ ·)).take n).flatten := by
  have hquery : ¬ sameFirstColumnValue format [start1, start2] [end1, end2] = true := by
    simpa [sameFirstColumnValue] using fun heq => hlt.ne (h.injective heq)
  unfold twoColumnQuery
  rw [if_neg hquery]
  have hfirst : (keys.filter fun k => Where.holds ([col1Name, col2Name].zip k)
      [[[⟨col1Name, .equals⟩, ⟨col2Name, startSign incl⟩]]]
      [start1, start2, start1, end1, end1, end2]) =
        keys.filter (inFirstPart start1 start2 incl) :=
    List.filter_congr (forall_pairs h fun x y => where_first h.nodup x y)
  have hmiddle : (keys.filter fun k => Where.holds ([col1Name, col2Name].zip k)
      [[[⟨col1Name, .greaterThan⟩, ⟨col1Name, .lessThan⟩]]] [start1, end1, end1, end2]) =
        keys.filter (inMiddlePart start1 end1) :=
    List.filter_congr (forall_pairs h fun x y => where_between h.nodup x y)
  have hlast : (keys.filter fun k => Where.holds ([col1Name, col2Name].zip k)
      [[[⟨col1Name, .equals⟩, ⟨col2Name, .lessThanOrEquals⟩]]] [end1, end2]) =
        keys.filter (inLastPart end1 end2) :=
    List.filter_congr (forall_pairs h fun x y => where_first h.nodup x y)
  rw [← hfirst, ← hmiddle, ← hlast]
  cases partLimit with
  | none => rfl
  | some n => rfl

theorem lt_of_ne (hne : start1 ≠ end1) : start1 < end1 := by
  have hle := h.le
  rw [le_iff_lt_or_eq, pair_lt] at hle
  rcases hle with (hlt | ⟨heq, -⟩) | heq
  · exact hlt
  · exact absurd heq hne
  · exact absurd (List.cons.inj heq).1 hne

theorem twoColumnQuery_rows_perm :
    ((twoColumnQuery format col1Name col2Name start1 start2 end1 end2 (startSign incl)
      none).rows [col1Name, col2Name] keys).Perm
        (keys.filter fun k => InRange [start1, start2] [end1, end2] incl k) := by
  by_cases hsame : start1 = end1
  · rw [twoColumnQuery_same h hsame]
  · have hlt := lt_of_ne h hsame
    rw [twoColumnQuery_parts h hlt]
    refine .trans ?_ (List.perm_insertionSort (· ≤ ·) _)
    rw [sorted_parts h hlt]
    exact .append (List.perm_insertionSort _ _).symm (.append (List.perm_insertionSort _ _).symm
      (.append (List.perm_insertionSort _ _).symm .nil))

theorem twoColumnQuery_rows_take (n : Nat) :
    (((twoColumnQuery format col1Name col2Name start1 start2 end1 end2 (startSign incl)
      (some n)).rows [col1Name, col2Name] keys).insertionSort (· ≤ ·)).take n =
        ((keys.filter fun k => InRange [start1, start2] [end1, end2] incl k).insertionSort
          (· ≤ ·)).take n := by
  by_cases hsame : start1 = end1
  · rw [twoColumnQuery_same h hsame]
  · have hlt := lt_of_ne h hsame
    have hsorted := List.pairwise_insertionSort (· ≤ ·)
      (keys.filter fun k => InRange [start1, start2] [end1, end2] incl k)
    rw [sorted_parts h hlt] at hsorted ⊢
    rw [twoColumnQuery_parts h hlt, ← Infra.take_flatten_take, List.map_map]
    rw [List.Pairwise.insertionSort_eq]
    · rfl
    · refine hsorted.sublist ?_
      exact .append (List.take_sublist _ _) (.append (List.take_sublist _ _)
        (.append (List.take_sublist _ _) .slnil))

end Rows

end TwoColumns

/-- **The query that copies a chunk selects the keys of the range, each once.** -/
theorem buildRangeQuery_perm (h : RangeArgs format columns keys start stop) :
    ∃ q, buildRangeQuery argsError format columns start stop incl none = .ok q ∧
      (q.rows columns keys).Perm (keys.filter fun k => InRange start stop incl k) := by
  by_cases hlen : columns.length = 2
  · obtain ⟨col1Name, col2Name, rfl⟩ := List.length_eq_two.1 hlen
    obtain ⟨start1, start2, rfl⟩ := List.length_eq_two.1 h.length_start
    obtain ⟨end1, end2, rfl⟩ := List.length_eq_two.1 h.length_stop
    exact ⟨_, rfl, twoColumnQuery_rows_perm h⟩
  · obtain ⟨q, hq, hrows⟩ := buildRangeQuery_rows h hlen
    exact ⟨q, hq, .of_eq hrows⟩

/-- **The query for the end of a chunk of `n` rows has the first `n` keys of the range first.** -/
theorem buildRangeQuery_take (h : RangeArgs format columns keys start stop) (n : Nat) :
    ∃ q, buildRangeQuery argsError format columns start stop incl (some n) = .ok q ∧
      ((q.rows columns keys).insertionSort (· ≤ ·)).take n =
        ((keys.filter fun k => InRange start stop incl k).insertionSort (· ≤ ·)).take n := by
  by_cases hlen : columns.length = 2
  · obtain ⟨col1Name, col2Name, rfl⟩ := List.length_eq_two.1 hlen
    obtain ⟨start1, start2, rfl⟩ := List.length_eq_two.1 h.length_start
    obtain ⟨end1, end2, rfl⟩ := List.length_eq_two.1 h.length_stop
    exact ⟨_, rfl, twoColumnQuery_rows_take h n⟩
  · obtain ⟨q, hq, hrows⟩ := buildRangeQuery_rows h hlen
    exact ⟨q, hq, by rw [hrows]⟩

omit [LinearOrder κ] in
theorem buildRangeQuery_unlimited {q : RangeQuery κ}
    (h : buildRangeQuery argsError format columns start stop incl partLimit = .ok q) :
    buildRangeQuery argsError format columns start stop incl none = .ok q.unlimited := by
  unfold buildRangeQuery at h ⊢
  split at h
  · split at h
    · cases h
      unfold twoColumnQuery
      split <;> rfl
    · simp at h
  · split at h
    · simp at h
    · split at h
      · simp at h
      · cases h
        rfl

end Queries

end GhOst.Sql
