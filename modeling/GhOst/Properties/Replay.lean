import GhOst.Infra.Replica
import GhOst.Properties.Statements

/-!
# The ghost as a replica of the original

The versions of the original are its contents after each row change, as the ghost would store them.
Replaying the event of a change `Follows` that change (`follow_follows`), and a chunk copy `Fills`
the cells of its range from the current version (`insertIgnoreAll_fills`), if rows are ignored only
because of their own key.
-/

namespace GhOst.Logic

open GhOst.Sql GhOst.Binlog Infra

variable {σ κ : Type} [LinearOrder κ]

/-- The row that a change writes. -/
def RowChange.written : RowChange σ → Option (Row σ)
  | .insert row => some row
  | .delete _ => none
  | .update _ new => some new

namespace Migration

/-- What the ghost holds under a key. -/
def cell (m : Migration σ κ) (ghost : List (Row σ)) (k : List κ) : Option (Row σ) :=
  lookup m.key ghost k

/-- What the ghost should hold under a key, for a content of the original. -/
def projectedCell (m : Migration σ κ) (original : List (Row σ)) (k : List κ) : Option (Row σ) :=
  (lookup m.key original k).map m.project

/-- The content of the original after the first `j` changes. -/
def contentAt (m : Migration σ κ) (content : List (Row σ)) (history : List (RowChange σ))
    (j : Nat) : List (Row σ) :=
  (history.take j).foldl m.perform content

/-- A content that the original can have. -/
structure Content (m : Migration σ κ) (original : List (Row σ)) : Prop where
  keys : KeysNodup m.key original
  admits : ∀ row ∈ original, m.Admits row

variable {m : Migration σ κ} {original ghost ghost' : List (Row σ)} {change : RowChange σ}
  {k : List κ}

/-! ## Changes of the original -/

theorem lookup_eq_none_of_free {key : List κ} (h : ∀ q ∈ original, m.key q ≠ key) :
    lookup m.key original key = none := lookup_eq_none_iff.mpr h

theorem Valid.update_free {row new : Row σ} (h : m.Valid original (.update row new))
    (hne : m.key new ≠ m.key row) : lookup m.key original (m.key new) = none :=
  lookup_eq_none_of_free fun q hq he => hne (by rw [← he]; exact h.2.2 q hq he)

omit [LinearOrder κ] in
theorem Valid.rows_admits (hc : m.Content original) (h : m.Valid original change) :
    ∀ r ∈ change.rows, m.Admits r := by
  cases change with
  | insert row => simpa [RowChange.rows] using h.1
  | delete row => simpa [RowChange.rows] using hc.admits row h
  | update row new => simpa [RowChange.rows] using ⟨hc.admits row h.1, h.2.1⟩

/-- **An accepted change leads from a content to a content.** -/
theorem Content.perform (hc : m.Content original) (h : m.Valid original change) :
    m.Content (m.perform original change) := by
  cases change with
  | insert row =>
    refine ⟨hc.keys.append_single (lookup_eq_none_of_free h.2), ?_⟩
    intro r hr
    rcases List.mem_append.mp hr with hr | hr
    · exact hc.admits r hr
    · rw [List.mem_singleton.mp hr]
      exact h.1
  | delete row =>
    exact ⟨hc.keys.dropKey _, fun r hr => hc.admits r (List.mem_filter.mp hr).1⟩
  | update row new =>
    refine ⟨(hc.keys.dropKey _).append_single ?_, ?_⟩
    · rw [lookup_dropKey]
      by_cases hk : m.key new = m.key row
      · rw [if_pos hk]
      · rw [if_neg hk]
        exact h.update_free hk
    · intro r hr
      rcases List.mem_append.mp hr with hr | hr
      · exact hc.admits r (List.mem_filter.mp hr).1
      · rw [List.mem_singleton.mp hr]
        exact h.2.1

/-! ## Replaying a change -/

theorem CarriesOver.key_eq_of_sameKeyImage (hm : m.CarriesOver) {row new : Row σ}
    (h : m.Admits row) (h' : m.Admits new) (hs : m.SameKeyImage row new) :
    m.key row = m.key new := by
  rw [hm.key_eq_iff h h']
  intro c hc
  obtain ⟨col, hcol, rfl⟩ := List.mem_map.mp hc
  obtain ⟨v, hv, ha⟩ := h.lookup (hm.key_mem hc)
  obtain ⟨w, hw, ha'⟩ := h'.lookup (hm.key_mem hc)
  have himg : m.srv.image col.name v = m.srv.image col.name w := by
    have := hs col.name hc
    rwa [hv, hw, Option.map_some, Option.map_some, Option.some.injEq] at this
  -- the comparison with the image of `v` is true of `v`, so the one with the image of `w` is
  have h1 := hm.equals col hcol v v ha ha
  have h2 := hm.equals col hcol v w ha ha'
  rw [himg, h2] at h1
  rw [hv, hw, Option.map_some, Option.map_some, of_decide_eq_true (h1.trans (by simp))]

theorem follow_keysNodup (hg : KeysNodup m.key ghost)
    (hf : m.follow ghost change = some ghost') : KeysNodup m.key ghost' := by
  cases change with
  | insert row =>
    rw [follow, Option.some.injEq] at hf
    exact hf ▸ Server.keysNodup_insertIgnore hg
  | delete row =>
    rw [follow, Option.some.injEq] at hf
    exact hf ▸ hg.dropKey _
  | update row new =>
    rw [follow] at hf
    split at hf
    · dsimp only at hf
      split at hf
      · next hcons =>
        cases hf
        exact List.pairwise_map.mpr (hcons.imp fun h => h.1)
      · simp at hf
    · rw [Option.some.injEq] at hf
      exact hf ▸ Server.keysNodup_insertIgnore (hg.dropKey _)

theorem projectedCell_insert (row : Row σ) :
    m.projectedCell (original ++ [row]) k
      = (m.projectedCell original k).or (if m.key row = k then some (m.project row) else none) := by
  unfold projectedCell
  rw [lookup_append_single]
  cases lookup m.key original k with
  | none => split <;> rfl
  | some q => rfl

theorem projectedCell_dropKey (k' : List κ) :
    m.projectedCell (dropKey m.key original k') k
      = if k = k' then none else m.projectedCell original k := by
  unfold projectedCell
  rw [lookup_dropKey]
  split <;> rfl

theorem CarriesOver.cell_insertIgnore (hm : m.CarriesOver) {row : Row σ} (h : m.Admits row)
    (hc : m.srv.Clean m.ix ghost (m.project row)) :
    m.cell (m.srv.insertIgnore m.ix ghost (m.project row)) k
      = (m.cell ghost k).or (if m.key row = k then some (m.project row) else none) := by
  rw [← hm.key_project h]
  exact Server.lookup_insertIgnore hc k

theorem or_some_cases {g v : Option (Row σ)} (row : Row σ) {P : Prop} (hv : v = none) :
    g.or (some row) = some row ∨ g.or (some row) = g ∧ (P ∨ g.isSome ≠ v.isSome) := by
  cases g with
  | none => exact .inl rfl
  | some q => exact .inr ⟨rfl, .inr (by simp [hv])⟩

theorem CarriesOver.cell_follow (hm : m.CarriesOver) (hc : m.Content original)
    (hv : m.Valid original change) (hclean : m.CleanChange ghost change)
    (hf : m.follow ghost change = some ghost') (k : List κ) :
    m.cell ghost' k = m.projectedCell (m.perform original change) k ∨
      m.cell ghost' k = m.cell ghost k ∧
        (m.projectedCell (m.perform original change) k = m.projectedCell original k ∧
            (∀ row, change.written = some row → m.key row ≠ k) ∨
          (m.cell ghost k).isSome ≠ (m.projectedCell original k).isSome) := by
  cases change with
  | insert row =>
    rw [follow] at hf
    cases hf
    rw [hm.cell_insertIgnore hv.1 hclean, perform, projectedCell_insert]
    by_cases hk : m.key row = k
    · have hnone : m.projectedCell original k = none := by
        unfold projectedCell
        rw [← hk, lookup_eq_none_of_free hv.2]
        rfl
      rw [if_pos hk, hnone, Option.none_or]
      exact or_some_cases _ rfl
    · rw [if_neg hk, Option.or_none, Option.or_none]
      exact .inr ⟨rfl, .inl ⟨rfl, fun r hr => Option.some.inj hr ▸ hk⟩⟩
  | delete row =>
    rw [follow] at hf
    cases hf
    rw [perform, projectedCell_dropKey, cell, lookup_dropKey]
    by_cases hk : k = m.key row
    · rw [if_pos hk, if_pos hk]
      exact .inl rfl
    · rw [if_neg hk, if_neg hk]
      exact .inr ⟨rfl, .inl ⟨rfl, fun r hr => by cases hr⟩⟩
  | update row new =>
    have hrow : m.Admits row := hc.admits row hv.1
    have hnew : m.Admits new := hv.2.1
    rw [perform, projectedCell_insert, projectedCell_dropKey]
    by_cases hs : m.SameKeyImage row new
    · -- an `update`: it writes the row if the ghost has one, and does nothing otherwise
      have hkey := hm.key_eq_of_sameKeyImage hrow hnew hs
      rw [follow, if_pos hs] at hf
      dsimp only at hf
      split at hf
      · cases hf
        rw [cell, lookup_rewriteKey fun _ _ _ => by rw [hm.key_project hnew, hkey]]
        by_cases hk : k = m.key row
        · rw [if_pos hk, if_pos hk, Option.none_or, if_pos (by rw [hk, hkey])]
          have hsome : m.projectedCell original k = some (m.project row) := by
            unfold projectedCell
            rw [hk, (lookup_eq_some_iff hc.keys).mpr ⟨hv.1, rfl⟩]
            rfl
          cases hg : lookup m.key ghost k with
          | none => exact .inr ⟨by rw [cell, hg]; rfl, .inr (by rw [cell, hg, hsome]; simp)⟩
          | some q => exact .inl rfl
        · have hne : m.key new ≠ k := fun h => hk (by rw [← h, hkey])
          rw [if_neg hk, if_neg hk, if_neg hne, Option.or_none]
          exact .inr ⟨rfl, .inl ⟨rfl, fun r hr => Option.some.inj hr ▸ hne⟩⟩
      · simp at hf
    · -- a `delete` and an `insert ignore`
      rw [follow, if_neg hs] at hf
      cases hf
      rw [hm.cell_insertIgnore hnew (hclean hs), cell, lookup_dropKey]
      by_cases hk : k = m.key row
      · rw [if_pos hk, if_pos hk]
        exact .inl rfl
      · rw [if_neg hk, if_neg hk]
        by_cases hk' : m.key new = k
        · have hnone : m.projectedCell original k = none := by
            unfold projectedCell
            rw [← hk', hv.update_free fun h => hk (by rw [← hk', h])]
            rfl
          rw [if_pos hk', hnone, Option.none_or]
          exact or_some_cases _ rfl
        · rw [if_neg hk', Option.or_none, Option.or_none]
          exact .inr ⟨rfl, .inl ⟨rfl, fun r hr => Option.some.inj hr ▸ hk'⟩⟩

/-- **Replaying the event of a change follows the change.** -/
theorem CarriesOver.follow_follows (hm : m.CarriesOver) (hc : m.Content original)
    (hv : m.Valid original change) (hclean : m.CleanChange ghost change)
    (hf : m.follow ghost change = some ghost') :
    Follows (m.projectedCell original) (m.projectedCell (m.perform original change))
      (m.cell ghost) (m.cell ghost') := by
  intro k
  refine (hm.cell_follow hc hv hclean hf k).imp_right fun h => ⟨h.1, ?_⟩
  exact h.2.imp And.left fun hne heq => hne (by rw [heq])

/-! ## Copying a chunk -/

/-- Every row of a chunk is clean where it is inserted. -/
def cleanRows (m : Migration σ κ) : List (Row σ) → List (Row σ) → Bool
  | _, [] => true
  | ghost, row :: rows =>
    decide (m.srv.Clean m.ix ghost row) &&
      m.cleanRows (m.srv.insertIgnore m.ix ghost row) rows

theorem insertIgnoreAll_keysNodup : ∀ (rows : List (Row σ)) {ghost : List (Row σ)},
    KeysNodup m.key ghost → KeysNodup m.key (m.insertIgnoreAll ghost rows)
  | [], _, hg => hg
  | _ :: rows, _, hg => insertIgnoreAll_keysNodup rows (Server.keysNodup_insertIgnore hg)

theorem mem_insertIgnoreAll {q : Row σ} : ∀ (rows : List (Row σ)) {ghost : List (Row σ)},
    q ∈ m.insertIgnoreAll ghost rows → q ∈ ghost ∨ q ∈ rows
  | [], _, h => .inl h
  | row :: rows, ghost, h => by
    rcases mem_insertIgnoreAll rows h with h | h
    · rcases Server.mem_insertIgnore h with h | rfl
      · exact .inl h
      · exact .inr List.mem_cons_self
    · exact .inr (List.mem_cons_of_mem _ h)

theorem cell_insertIgnoreAll (k : List κ) : ∀ {rows ghost : List (Row σ)},
    m.cleanRows ghost rows = true →
    m.cell (m.insertIgnoreAll ghost rows) k = (m.cell ghost k).or (lookup m.key rows k)
  | [], ghost, _ => by
    rw [lookup_nil, Option.or_none]
    rfl
  | row :: rows, ghost, h => by
    rw [cleanRows, Bool.and_eq_true, decide_eq_true_iff] at h
    have hrow : m.cell (m.srv.insertIgnore m.ix ghost row) k
        = (m.cell ghost k).or (if m.key row = k then some row else none) :=
      Server.lookup_insertIgnore h.1 k
    have hrest := cell_insertIgnoreAll k h.2
    calc m.cell (m.insertIgnoreAll ghost (row :: rows)) k
        = ((m.cell ghost k).or (if m.key row = k then some row else none)).or
            (lookup m.key rows k) := by rw [← hrow, ← hrest]; rfl
      _ = (m.cell ghost k).or (lookup m.key (row :: rows) k) := by
          rw [Option.or_assoc, lookup_cons]
          split <;> simp

theorem CarriesOver.lookup_chunkRows (hm : m.CarriesOver) (hc : m.Content original)
    {start stop : List κ} {incl : Bool} :
    lookup m.key (m.chunkRows original start stop incl) k
      = if InRange start stop incl k then m.projectedCell original k else none := by
  unfold chunkRows projectedCell
  rw [lookup_map fun r hr => hm.key_project (hc.admits r (List.mem_filter.mp hr).1)]
  have hfilter : lookup m.key
      (original.filter fun r => decide (InRange start stop incl (m.key r))) k = _ :=
    lookup_filter_key (p := fun k => decide (InRange start stop incl k))
  rw [hfilter]
  by_cases hk : InRange start stop incl k
  · rw [if_pos (by simpa using hk), if_pos hk]
  · rw [if_neg (by simpa using hk), if_neg hk]
    rfl

/-- **A clean chunk copy fills the cells of its range.** -/
theorem CarriesOver.insertIgnoreAll_fills (hm : m.CarriesOver) (hc : m.Content original)
    {start stop : List κ} {incl : Bool}
    (hclean : m.cleanRows ghost (m.chunkRows original start stop incl) = true) :
    Fills (m.projectedCell original) { k | InRange start stop incl k } (m.cell ghost)
      (m.cell (m.insertIgnoreAll ghost (m.chunkRows original start stop incl))) := by
  intro k
  rw [cell_insertIgnoreAll k hclean, hm.lookup_chunkRows hc]
  by_cases hk : InRange start stop incl k
  · rw [if_pos hk]
    cases hg : m.cell ghost k with
    | none => exact .inr ⟨hk, rfl, by rw [Option.none_or]⟩
    | some q => exact .inl ⟨rfl, fun _ h => absurd h (by simp)⟩
  · rw [if_neg hk, Option.or_none]
    exact .inl ⟨rfl, fun h => absurd h hk⟩

end Migration

end GhOst.Logic
