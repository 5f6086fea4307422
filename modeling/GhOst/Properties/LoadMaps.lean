import GhOst.Base.LoadMap
import GhOst.Infra.Sorted

/-!
# The text of load thresholds is read back

What is parsed has keys without the two separators and numbers of 64 bits, and such pairs are read
back from their tokens. The tokens are sorted, so their order does not depend on the map's.
-/

namespace GhOst.Base.LoadMap

open Infra GhOst.Mysql

structure Printable (pair : String × Int) : Prop where
  key_ne : pair.1 ≠ ""
  comma : ',' ∉ pair.1.toList
  equals : '=' ∉ pair.1.toList
  least : -(2 ^ 63) ≤ pair.2
  greatest : pair.2 < 2 ^ 63

variable {lm result order : LoadMap} {pair : String × Int} {conditions : List String}

/-! ## What is parsed -/

theorem keysNodup_set (h : KeysNodup Prod.fst result) (key : String) (n : Int) :
    KeysNodup Prod.fst (result.set key n) := by
  refine (h.dropKey key).append_single ?_
  rw [lookup_dropKey, if_pos rfl]

theorem mem_set {key : String} {n : Int} (h : pair ∈ result.set key n) :
    pair ∈ result ∨ pair = (key, n) := by
  unfold set at h
  rcases List.mem_append.mp h with h | h
  · exact .inl (List.mem_of_mem_filter h)
  · exact .inr (List.mem_singleton.mp h)

theorem parseConditions_cons {loadCondition : String} {rest : List String}
    (h : parseConditions result (loadCondition :: rest) = (lm, none)) :
    ∃ key value n, split '=' loadCondition = [key, value] ∧ key ≠ "" ∧
      atoi value.toList = some n ∧ parseConditions (result.set key n) rest = (lm, none) := by
  rw [parseConditions] at h
  split at h
  · next key value hsplit =>
    split at h
    · cases h
    · next hkey =>
      cases hatoi : atoi value.toList with
      | none => rw [hatoi] at h; cases h
      | some n =>
        rw [hatoi] at h
        exact ⟨key, value, n, hsplit, hkey, hatoi, h⟩
  · cases h

theorem parseConditions_printable (h : parseConditions result conditions = (lm, none))
    (hcomma : ∀ condition ∈ conditions, ',' ∉ condition.toList)
    (hresult : ∀ pair ∈ result, Printable pair) : ∀ pair ∈ lm, Printable pair := by
  induction conditions generalizing result with
  | nil =>
    obtain rfl : result = lm := congrArg Prod.fst h
    exact hresult
  | cons condition rest ih =>
    obtain ⟨key, value, n, hsplit, hkey, hatoi, hrest⟩ := parseConditions_cons h
    have hmem : key ∈ split '=' condition := hsplit ▸ List.mem_cons_self
    refine ih hrest (fun c hc => hcomma c (List.mem_cons_of_mem _ hc)) ?_
    intro pair hpair
    rcases mem_set hpair with hold | rfl
    · exact hresult pair hold
    · exact {
        key_ne := hkey
        comma := fun hc => hcomma condition List.mem_cons_self ((mem_split hmem).2 hc)
        equals := (mem_split hmem).1
        least := (atoi_range hatoi).1
        greatest := (atoi_range hatoi).2 }

theorem parseConditions_keysNodup (h : parseConditions result conditions = (lm, none))
    (hresult : KeysNodup Prod.fst result) : KeysNodup Prod.fst lm := by
  induction conditions generalizing result with
  | nil =>
    obtain rfl : result = lm := congrArg Prod.fst h
    exact hresult
  | cons condition rest ih =>
    obtain ⟨key, value, n, -, -, -, hrest⟩ := parseConditions_cons h
    exact ih hrest (keysNodup_set hresult key n)

theorem parseLoadMap_spec {s : String} (h : parseLoadMap s = (lm, none)) :
    KeysNodup Prod.fst lm ∧ ∀ pair ∈ lm, Printable pair := by
  unfold parseLoadMap at h
  split at h
  · obtain rfl : [] = lm := congrArg Prod.fst h
    exact ⟨List.nodup_nil, fun pair hpair => absurd hpair List.not_mem_nil⟩
  · have hcomma : ∀ condition ∈ split ',' s, ',' ∉ condition.toList := fun c hc => (mem_split hc).1
    exact ⟨parseConditions_keysNodup h List.nodup_nil,
      parseConditions_printable h hcomma fun pair hpair => absurd hpair List.not_mem_nil⟩

/-! ## What is printed -/

theorem toList_token (pair : String × Int) :
    (token pair).toList = pair.1.toList ++ '=' :: (toString pair.2).toList := by
  unfold token
  rw [String.toList_append, String.toList_append, List.append_assoc]
  rfl

theorem mem_toString {n : Int} {c : Char} (h : c ∈ (toString n).toList) :
    c = '-' ∨ c.isDigit = true := by
  cases n with
  | ofNat m =>
    rw [toList_toString_ofNat] at h
    exact .inr (isDigit_of_mem_digits h)
  | negSucc m =>
    rw [toList_toString_negSucc] at h
    rcases List.mem_cons.mp h with h | h
    · exact .inl h
    · exact .inr (isDigit_of_mem_digits h)

theorem not_mem_toString {n : Int} {c : Char} (hne : c ≠ '-') (hdigit : c.isDigit = false) :
    c ∉ (toString n).toList := by
  intro h
  rcases mem_toString h with h | h
  · exact hne h
  · rw [hdigit] at h
    cases h

theorem split_token (h : Printable pair) : split '=' (token pair) = [pair.1, toString pair.2] := by
  unfold split
  rw [toList_token, List.splitOn_append_cons_self_of_not_mem h.equals,
    List.splitOn_eq_singleton (not_mem_toString (by decide) (by decide))]
  simp only [List.map_cons, List.map_nil, String.ofList_toList]

theorem comma_not_mem_token (h : Printable pair) : ',' ∉ (token pair).toList := by
  rw [toList_token, List.mem_append, List.mem_cons]
  rintro (hc | hc | hc)
  · exact h.comma hc
  · exact absurd hc (by decide)
  · exact not_mem_toString (by decide) (by decide) hc

theorem parseConditions_tokens (hnodup : KeysNodup Prod.fst (result ++ order))
    (h : ∀ pair ∈ order, Printable pair) :
    parseConditions result (order.map token) = (result ++ order, none) := by
  induction order generalizing result with
  | nil => rw [List.map_nil, parseConditions, List.append_nil]
  | cons pair order ih =>
    have hpair := h pair List.mem_cons_self
    have hnew : dropKey Prod.fst result pair.1 = result := by
      refine List.filter_eq_self.mpr fun other hother => decide_eq_true ?_
      unfold KeysNodup at hnodup
      rw [List.map_append, List.nodup_append] at hnodup
      exact hnodup.2.2 _ (List.mem_map_of_mem hother) _ List.mem_cons_self
    have happend : result ++ pair :: order = result.set pair.1 pair.2 ++ order := by
      unfold set
      rw [hnew, List.append_assoc, List.singleton_append]
    rw [List.map_cons, parseConditions, split_token hpair]
    dsimp only
    rw [if_neg hpair.key_ne, atoi_toString hpair.least hpair.greatest, happend]
    exact ih (happend ▸ hnodup) fun other hother => h other (List.mem_cons_of_mem _ hother)

theorem parseLoadMap_join (hnodup : KeysNodup Prod.fst order)
    (h : ∀ pair ∈ order, Printable pair) :
    parseLoadMap (join ',' (order.map token)) = (order, none) := by
  cases order with
  | nil => rfl
  | cons pair rest =>
    have hsplit : split ',' (join ',' ((pair :: rest).map token)) = (pair :: rest).map token := by
      refine split_join (by simp) fun part hpart => ?_
      obtain ⟨other, hother, rfl⟩ := List.mem_map.mp hpart
      exact comma_not_mem_token (h other hother)
    have hne : join ',' ((pair :: rest).map token) ≠ "" := by
      intro hempty
      rw [hempty] at hsplit
      -- the first token has at least its equals sign
      have hfirst : "" = token pair := (List.cons.inj hsplit).1
      have hchars := congrArg String.toList hfirst
      rw [toList_token] at hchars
      simp at hchars
    unfold parseLoadMap
    rw [if_neg hne, hsplit]
    exact parseConditions_tokens hnodup h

/-- **The text of a parsed map is parsed to the same map, and does not depend on the order in which
the map is met.** -/
theorem load_map_round_trip {s : String} {m : LoadMap} (h : parseLoadMap s = (m, none))
    (order : LoadMap) (horder : order.Perm m) :
    (∃ m' : LoadMap, parseLoadMap order.string = (m', none) ∧ m'.Perm m) ∧
      order.string = m.string := by
  obtain ⟨hnodup, hprintable⟩ := parseLoadMap_spec h
  constructor
  · have hsorted : ((order.map token).insertionSort (· ≤ ·)).Perm (m.map token) :=
      (List.perm_insertionSort _ _).trans (horder.map token)
    obtain ⟨sorted, htokens, hperm⟩ :=
      (congrFun₂ (List.eq_map_comp_perm token) _ _).mpr hsorted
    refine ⟨sorted, ?_, hperm⟩
    unfold string
    rw [htokens]
    exact parseLoadMap_join ((hperm.map Prod.fst).nodup_iff.mpr hnodup)
      fun pair hpair => hprintable pair (hperm.mem_iff.mp hpair)
  · unfold string
    rw [insertionSort_congr (horder.map token)]

theorem load_map_round_trip_small :
    (∃ m' : LoadMap, parseLoadMap (string [("b", -2), ("a", 3)]) = (m', none) ∧
      m'.Perm [("a", 3), ("b", -2)]) ∧
    string [("b", -2), ("a", 3)] = string [("a", 3), ("b", -2)] :=
  load_map_round_trip
    (by decide +kernel : parseLoadMap "a=1,a=+3,b=-2" = ([("a", 3), ("b", -2)], none))
    [("b", -2), ("a", 3)] (by decide)

end GhOst.Base.LoadMap
