import Mathlib.Data.Finset.Card
import Mathlib.Data.List.Dedup
import Mathlib.Logic.Relation

/-!
# Following a link from place to place

Each place has at most one next place. `follow` goes from place to place until there is no next one,
or the next one was visited before. The place it starts from is not marked as visited, so it may be
seen twice, and every other place once.
-/

namespace Infra

variable {K : Type*}

/-- The step from a place to the next one. -/
def Next (next : K → Option K) (a b : K) : Prop := next a = some b

/-- Whether a place is reached by following links. -/
def Leads (next : K → Option K) : K → K → Prop := Relation.ReflTransGen (Next next)

/-- A place on a cycle. -/
def OnCycle (next : K → Option K) (a : K) : Prop := Relation.TransGen (Next next) a a

/-- How following ends. -/
inductive FollowEnd (K : Type*) where
  /-- a place with no next one -/
  | last (a : K)
  /-- a place whose next one was visited before -/
  | again (a b : K)
deriving DecidableEq, Repr

variable {next : K → Option K} {a b c : K}

/-! ## Chains and cycles -/

theorem next_unique : Relator.RightUnique (Next next) := by
  intro a b c hab hac
  exact Option.some.inj (hab.symm.trans hac)

theorem Leads.eq_of_last (h : Leads next a b) (hlast : next a = none) : a = b := by
  rcases Relation.ReflTransGen.cases_head h with heq | ⟨c, hc, -⟩
  · exact heq
  · rw [Next, hlast] at hc
    cases hc

/-- From everywhere on a cycle the way leads back. -/
theorem OnCycle.leads_back (h : OnCycle next a) (hb : Leads next a b) : Leads next b a := by
  induction hb with
  | refl => exact .refl
  | tail _ hstep ih =>
    rename_i x y _
    rcases Relation.ReflTransGen.cases_head ih with rfl | ⟨z, hz, hback⟩
    · obtain ⟨z, hz, hback⟩ := Relation.TransGen.head'_iff.mp h
      rwa [next_unique hstep hz]
    · rwa [next_unique hstep hz]

theorem OnCycle.next_ne_none (h : OnCycle next a) : next a ≠ none := by
  obtain ⟨b, hb, -⟩ := Relation.TransGen.head'_iff.mp h
  rw [hb]
  exact Option.some_ne_none b

/-- Two cycles on one way are the same. -/
theorem OnCycle.same (ha : OnCycle next a) (hb : OnCycle next b) (hca : Leads next c a)
    (hcb : Leads next c b) : Leads next a b ∧ Leads next b a := by
  rcases Relation.ReflTransGen.total_of_right_unique next_unique hca hcb with hab | hba
  · exact ⟨hab, ha.leads_back hab⟩
  · exact ⟨hb.leads_back hba, hba⟩

/-- A way that ends does not meet a cycle. -/
theorem not_onCycle_of_last (hlast : next a = none) (hca : Leads next c a) (hcb : Leads next c b) :
    ¬ OnCycle next b := by
  intro hcycle
  have hba : Leads next b a := by
    rcases Relation.ReflTransGen.total_of_right_unique next_unique hca hcb with hab | hba
    · rw [Leads.eq_of_last hab hlast]
      exact .refl
    · exact hba
  have heq : a = b := Leads.eq_of_last (hcycle.leads_back hba) hlast
  exact hcycle.next_ne_none (heq ▸ hlast)

theorem last_unique (ha : next a = none) (hb : next b = none) (hca : Leads next c a)
    (hcb : Leads next c b) : a = b := by
  rcases Relation.ReflTransGen.total_of_right_unique next_unique hca hcb with hab | hba
  · exact Leads.eq_of_last hab ha
  · exact (Leads.eq_of_last hba hb).symm

/-! ## Following -/

/-- What following finds: an end of the chain, or a place on its cycle. -/
def FollowEnd.Found (next : K → Option K) (a : K) : FollowEnd K → Prop
  | last e => Leads next a e ∧ next e = none
  | again c d => Leads next a c ∧ next c = some d ∧ Leads next d c

theorem FollowEnd.Found.onCycle (h : (FollowEnd.again b c).Found next a) : OnCycle next b :=
  Relation.TransGen.head' h.2.1 h.2.2

variable [DecidableEq K]

/-- Follow the links from `a`: how it ends, and the places seen. -/
def follow (next : K → Option K) : (fuel : Nat) → (a : K) → (visited : List K) →
    Option (FollowEnd K × List K)
  | 0, _, _ => none
  | fuel + 1, a, visited =>
    match next a with
    | none => some (.last a, [a])
    | some b =>
      if b ∈ visited then some (.again a b, [a])
      else (follow next fuel b (visited.insert b)).map fun found => (found.1, a :: found.2)

variable {places : Finset K} {visited : List K} {fuel : Nat}

theorem follow_mono {found : FollowEnd K × List K} {fuel' : Nat}
    (h : follow next fuel a visited = some found) (hle : fuel ≤ fuel') :
    follow next fuel' a visited = some found := by
  induction fuel generalizing a visited found fuel' with
  | zero => cases h
  | succ fuel ih =>
    obtain ⟨more, rfl⟩ : ∃ more, fuel' = more + 1 := Nat.exists_eq_succ_of_ne_zero (by omega)
    rw [follow] at h ⊢
    cases hnext : next a with
    | none => rwa [hnext] at h
    | some b =>
      rw [hnext] at h
      dsimp only at h ⊢
      by_cases hb : b ∈ visited
      · rwa [if_pos hb] at h ⊢
      · rw [if_neg hb] at h ⊢
        obtain ⟨inner, hinner, rfl⟩ := Option.map_eq_some_iff.mp h
        rw [ih hinner (by omega), Option.map_some]

/-- **Following ends**, after as many steps as there are places left. -/
theorem follow_spec (hclosed : ∀ a ∈ places, ∀ b, next a = some b → b ∈ places) (ha : a ∈ places)
    (hvisited : ∀ b ∈ visited, b ∈ places ∧ Leads next b a) (hnodup : visited.Nodup)
    (hfuel : places.card < fuel + visited.length) :
    ∃ found seen, follow next fuel a visited = some (found, a :: seen) ∧ found.Found next a ∧
      seen.Nodup ∧ ∀ b ∈ seen, b ∉ visited := by
  induction fuel generalizing a visited with
  | zero =>
    have hle : visited.toFinset.card ≤ places.card :=
      Finset.card_le_card fun b hb => (hvisited b (List.mem_toFinset.mp hb)).1
    rw [List.toFinset_card_of_nodup hnodup] at hle
    omega
  | succ fuel ih =>
    rw [follow]
    cases hnext : next a with
    | none => exact ⟨_, [], rfl, ⟨.refl, hnext⟩, List.nodup_nil, by simp⟩
    | some b =>
      dsimp only
      by_cases hb : b ∈ visited
      · rw [if_pos hb]
        exact ⟨_, [], rfl, ⟨.refl, hnext, (hvisited b hb).2⟩, List.nodup_nil, by simp⟩
      · -- one place more is visited, and every visited one leads there
        have hinsert : visited.insert b = b :: visited := List.insert_of_not_mem hb
        have hvisited' : ∀ c ∈ b :: visited, c ∈ places ∧ Leads next c b := by
          intro c hc
          rcases List.mem_cons.mp hc with rfl | hc
          · exact ⟨hclosed a ha _ hnext, .refl⟩
          · exact ⟨(hvisited c hc).1, (hvisited c hc).2.tail hnext⟩
        have hfuel' : places.card < fuel + (b :: visited).length := by
          rw [List.length_cons]
          omega
        obtain ⟨found, seen, hfollow, hfound, hseen, hnew⟩ :=
          ih (hclosed a ha b hnext) hvisited' (List.nodup_cons.mpr ⟨hb, hnodup⟩) hfuel'
        rw [if_neg hb, hinsert, hfollow]
        refine ⟨found, b :: seen, rfl, ?_, ?_, ?_⟩
        · cases found with
          | last e => exact ⟨hfound.1.head hnext, hfound.2⟩
          | again c d => exact ⟨hfound.1.head hnext, hfound.2⟩
        · exact List.nodup_cons.mpr ⟨fun hmem => hnew b hmem List.mem_cons_self, hseen⟩
        · intro c hc
          rcases List.mem_cons.mp hc with rfl | hc
          · exact hb
          · exact fun hmem => hnew c hc (List.mem_cons_of_mem _ hmem)

end Infra
