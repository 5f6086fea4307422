import Mathlib.Data.List.Basic
import Mathlib.Data.List.Infix
import Mathlib.Data.String.Basic

/-!
# Functions of the `strings` package of Go

Texts are lists of characters, but for `Split` and `Join`.
-/

namespace Infra

/-- A property of the characters of a text that can be tested, without a test of all characters. -/
theorem forall_mem_of_all {α : Type*} {p : α → Prop} [DecidablePred p] {l : List α}
    (h : (l.all fun a => decide (p a)) = true) : ∀ a ∈ l, p a :=
  fun a ha => of_decide_eq_true (List.all_eq_true.mp h a ha)

/-- `unicode.IsSpace`. -/
def isUnicodeSpace (c : Char) : Bool :=
  c ∈ [' ', '\t', '\n', '\x0b', '\x0c', '\r', '\u0085', '\u00a0', '\u1680', '\u2028',
    '\u2029', '\u202f', '\u205f', '\u3000'] || ('\u2000' ≤ c && c ≤ '\u200a')

def trimSpace (s : List Char) : List Char :=
  ((s.dropWhile isUnicodeSpace).reverse.dropWhile isUnicodeSpace).reverse

/-- `strings.FieldsFunc`, of a function with a state; `field` is what was read since the last
separator. -/
def fieldsFunc {S : Type*} (f : S → Char → S × Bool) : S → List Char → List Char → List (List Char)
  | _, field, [] => if field = [] then [] else [field]
  | st, field, c :: s =>
    if (f st c).2 then
      if field = [] then fieldsFunc f (f st c).1 [] s else field :: fieldsFunc f (f st c).1 [] s
    else fieldsFunc f (f st c).1 (field ++ [c]) s

/-! ## Fields -/

section Fields

variable {S : Type*} {f : S → Char → S × Bool} {st st' : S} {a b s : List Char}

/-- The state after a text that holds no separator. -/
def scan (f : S → Char → S × Bool) : S → List Char → Option S
  | st, [] => some st
  | st, c :: s => if (f st c).2 then none else scan f (f st c).1 s

theorem scan_append (h : scan f st a = some st') : scan f st (a ++ b) = scan f st' b := by
  induction a generalizing st with
  | nil => rw [← Option.some.inj h, List.nil_append]
  | cons c a ih =>
    rw [scan] at h
    rw [List.cons_append, scan]
    split at h
    · cases h
    · next hsep => rw [if_neg hsep, ih h]

theorem fieldsFunc_append (field : List Char) (h : scan f st a = some st') :
    fieldsFunc f st field (a ++ s) = fieldsFunc f st' (field ++ a) s := by
  induction a generalizing st field with
  | nil => rw [← Option.some.inj h, List.nil_append, List.append_nil]
  | cons c a ih =>
    rw [scan] at h
    rw [List.cons_append, fieldsFunc]
    split at h
    · cases h
    · next hsep =>
      rw [if_neg hsep, ih _ h, List.append_assoc, List.singleton_append]

/-- What stands before the first separator. -/
theorem exists_of_scan_eq_none (h : scan f st s = none) :
    ∃ a c b st', s = a ++ c :: b ∧ scan f st a = some st' ∧ (f st' c).2 = true := by
  induction s generalizing st with
  | nil => cases h
  | cons c s ih =>
    rw [scan] at h
    by_cases hsep : (f st c).2 = true
    · exact ⟨[], c, s, st, rfl, rfl, hsep⟩
    · rw [if_neg hsep] at h
      obtain ⟨a, d, b, st', rfl, ha, hd⟩ := ih h
      refine ⟨c :: a, d, b, st', rfl, ?_, hd⟩
      rw [scan, if_neg hsep]
      exact ha

theorem fieldsFunc_of_ne_nil {field : List Char} (h : field ≠ []) :
    ∃ more rest, fieldsFunc f st field s = (field ++ more) :: rest := by
  induction s generalizing st field with
  | nil =>
    rw [fieldsFunc, if_neg h]
    exact ⟨[], [], by rw [List.append_nil]⟩
  | cons c s ih =>
    rw [fieldsFunc]
    by_cases hsep : (f st c).2 = true
    · rw [if_pos hsep, if_neg h]
      exact ⟨[], _, by rw [List.append_nil]⟩
    · rw [if_neg hsep]
      obtain ⟨more, rest, hmore⟩ := @ih (f st c).1 (field ++ [c]) (by simp)
      exact ⟨c :: more, rest, by rw [hmore, List.append_assoc, List.singleton_append]⟩

end Fields

/-! ## Splitting and joining -/

/-- `strings.Split`, at a separator of one character. -/
def split (sep : Char) (s : String) : List String := (s.toList.splitOn sep).map String.ofList

def join (sep : Char) (parts : List String) : String :=
  String.ofList ([sep].intercalate (parts.map String.toList))

section Split

variable {sep : Char} {parts : List String} {part s : String}

theorem mem_splitOn {l l' : List Char} (h : l' ∈ l.splitOn sep) : sep ∉ l' ∧ l' ⊆ l := by
  induction l generalizing l' with
  | nil =>
    rw [List.splitOn_nil, List.mem_singleton] at h
    rw [h]
    exact ⟨List.not_mem_nil, fun _ hc => hc⟩
  | cons c l ih =>
    rw [List.splitOn_cons_eq_if_modifyHead] at h
    by_cases hc : c = sep
    · rw [if_pos (by simpa using hc)] at h
      rcases List.mem_cons.mp h with rfl | h
      · exact ⟨List.not_mem_nil, List.nil_subset _⟩
      · exact ⟨(ih h).1, fun _ hd => List.mem_cons_of_mem _ ((ih h).2 hd)⟩
    · rw [if_neg (by simpa using hc)] at h
      cases hsplit : l.splitOn sep with
      | nil => exact absurd hsplit (List.splitOn_ne_nil _ _)
      | cons first rest =>
        rw [hsplit, List.modifyHead_cons] at h
        rcases List.mem_cons.mp h with rfl | h
        · obtain ⟨hsep, hsub⟩ := ih (hsplit ▸ List.mem_cons_self)
          refine ⟨?_, List.cons_subset_cons c hsub⟩
          rw [List.mem_cons, not_or]
          exact ⟨fun heq => hc heq.symm, hsep⟩
        · obtain ⟨hsep, hsub⟩ := ih (hsplit ▸ List.mem_cons_of_mem _ h)
          exact ⟨hsep, fun _ hd => List.mem_cons_of_mem _ (hsub hd)⟩

theorem mem_split (h : part ∈ split sep s) : sep ∉ part.toList ∧ part.toList ⊆ s.toList := by
  obtain ⟨l, hl, rfl⟩ := List.mem_map.mp h
  rw [String.toList_ofList]
  exact mem_splitOn hl

theorem split_join (hne : parts ≠ []) (h : ∀ part ∈ parts, sep ∉ part.toList) :
    split sep (join sep parts) = parts := by
  have hparts : ∀ l ∈ parts.map String.toList, sep ∉ l := by
    intro l hl
    obtain ⟨part, hpart, rfl⟩ := List.mem_map.mp hl
    exact h part hpart
  unfold split join
  rw [String.toList_ofList, List.splitOn_intercalate sep hparts (by simpa using hne), List.map_map]
  refine (List.map_congr_left fun part _ => ?_).trans (List.map_id parts)
  exact String.ofList_toList

end Split

/-! ## White space around a text -/

theorem dropWhile_append_trimmed {p : Char → Bool} {a b : List Char} (ha : ∀ c ∈ a, p c = true)
    (hb : ∀ c, b.head? = some c → p c = false) : (a ++ b).dropWhile p = b := by
  rw [List.dropWhile_append_of_pos ha]
  cases b with
  | nil => rfl
  | cons c b => exact List.dropWhile_cons_of_neg (by rw [hb c rfl]; exact Bool.false_ne_true)

theorem trimSpace_eq {lead core trail : List Char} (hlead : ∀ c ∈ lead, isUnicodeSpace c = true)
    (htrail : ∀ c ∈ trail, isUnicodeSpace c = true)
    (hfirst : ∀ c, core.head? = some c → isUnicodeSpace c = false)
    (hlast : ∀ c, core.getLast? = some c → isUnicodeSpace c = false) :
    trimSpace (lead ++ core ++ trail) = core := by
  unfold trimSpace
  cases core with
  | nil =>
    have hall : ∀ c ∈ lead ++ trail, isUnicodeSpace c = true := by
      intro c hc
      exact (List.mem_append.mp hc).elim (hlead c) (htrail c)
    have hdrop : (lead ++ trail ++ []).dropWhile isUnicodeSpace = [] :=
      dropWhile_append_trimmed hall fun c hc => by cases hc
    rw [List.append_nil] at hdrop
    rw [List.append_nil, hdrop]
    rfl
  | cons d core =>
    have hdrop : (lead ++ (d :: core ++ trail)).dropWhile isUnicodeSpace = d :: core ++ trail :=
      dropWhile_append_trimmed hlead hfirst
    rw [List.append_assoc, hdrop, List.reverse_append]
    rw [dropWhile_append_trimmed (fun c hc => htrail c (List.mem_reverse.mp hc)),
      List.reverse_reverse]
    intro c hc
    rw [List.head?_reverse] at hc
    exact hlast c hc

theorem dropWhile_append_stop {p : Char → Bool} {a b : List Char} {c : Char} (hc : p c = false) :
    (a ++ c :: b).dropWhile p = a.dropWhile p ++ c :: b := by
  rw [List.dropWhile_append, List.dropWhile_cons_of_neg (by rw [hc]; exact Bool.false_ne_true)]
  by_cases hnil : (a.dropWhile p).isEmpty = true
  · rw [if_pos hnil, List.isEmpty_iff.mp hnil, List.nil_append]
  · rw [if_neg hnil]

theorem trimSpace_append_ne {a b : List Char} {c : Char} (hc : isUnicodeSpace c = false) :
    trimSpace (a ++ c :: b) ≠ trimSpace a := by
  intro heq
  have hlen := congrArg List.length heq
  unfold trimSpace at hlen
  rw [dropWhile_append_stop hc, List.reverse_append, List.reverse_cons, List.append_assoc,
    List.singleton_append, dropWhile_append_stop hc] at hlen
  have hle := (List.dropWhile_sublist isUnicodeSpace
    (l := (a.dropWhile isUnicodeSpace).reverse)).length_le
  simp only [List.length_reverse, List.length_append, List.length_cons] at hlen hle
  omega

/-! ## Text in quotes -/

section Quoted

variable {α : Type*} {q : α}

/-- Two cuts of a list at the same element are the same cut, or one comes first. -/
theorem append_cons_eq_append_cons {l r a b : List α}
    (h : l ++ q :: r = a ++ q :: b) :
    l = a ∧ r = b ∨ (∃ m, l = a ++ q :: m ∧ b = m ++ q :: r) ∨
      ∃ m, a = l ++ q :: m ∧ r = m ++ q :: b := by
  rcases List.append_eq_append_iff.mp h with ⟨m, rfl, hr⟩ | ⟨m, rfl, hb⟩
  · cases m with
    | nil => exact .inl ⟨by simp, (List.cons.inj hr).2⟩
    | cons c m =>
      obtain ⟨rfl, rfl⟩ := List.cons.inj hr
      exact .inr (.inr ⟨m, rfl, rfl⟩)
  · cases m with
    | nil => exact .inl ⟨by simp, (List.cons.inj hb).2.symm⟩
    | cons c m =>
      obtain ⟨rfl, rfl⟩ := List.cons.inj hb
      exact .inr (.inl ⟨m, rfl, rfl⟩)

theorem suffix_of_suffix_append_cons {w l v : List α} (hq : q ∉ w)
    (h : w <:+ l ++ q :: v) : w <:+ v := by
  obtain ⟨a, h⟩ := h
  rcases List.append_eq_append_iff.mp h with ⟨x, rfl, hx⟩ | ⟨x, rfl, hx⟩
  · exact absurd (hx ▸ List.mem_append_right x List.mem_cons_self) hq
  · cases x with
    | nil =>
      rw [List.nil_append] at hx
      exact absurd (hx ▸ List.mem_cons_self) hq
    | cons c x => exact ⟨x, (List.cons.inj hx).2.symm⟩

/-- Between quotes that follow a text `word`, the message has only the name of its key. -/
theorem eq_key_of_occurs {sep : α} {word lead values key name : List α}
    (hword : q ∉ sep :: word) (hlead : q ∉ lead) (hnot : ¬ word <:+ lead)
    (hvalues : ¬ word <:+: values) (hkey : q ∉ key)
    (h : word ++ q :: (name ++ [q]) <:+:
      lead ++ q :: (values ++ q :: (sep :: word ++ q :: (key ++ [q])))) : name = key := by
  obtain ⟨a, b, h⟩ := h
  have hq : q ∉ word := fun hmem => hword (List.mem_cons_of_mem _ hmem)
  have hcut : a ++ word ++ q :: (name ++ q :: b) =
      lead ++ q :: (values ++ q :: (sep :: word ++ q :: (key ++ [q]))) := by
    rw [← h]
    simp
  -- the quote after the word is the first of the message, one of the values, or a later one
  rcases append_cons_eq_append_cons hcut with ⟨heq, -⟩ | ⟨m, heq, hrest⟩ | ⟨m, heq, -⟩
  · exact absurd ⟨a, heq⟩ hnot
  · have hm : word <:+ m := suffix_of_suffix_append_cons hq ⟨a, heq⟩
    rcases append_cons_eq_append_cons hrest with ⟨rfl, hlast⟩ | ⟨m', rfl, -⟩ | ⟨m', rfl, hlast⟩
    · exact absurd hm.isInfix hvalues
    · exact absurd (hm.isInfix.trans (List.prefix_append _ _).isInfix) hvalues
    · rcases append_cons_eq_append_cons hlast with ⟨-, hname⟩ | ⟨x, hx, -⟩ | ⟨x, -, hname⟩
      · rcases append_cons_eq_append_cons hname with ⟨rfl, -⟩ | ⟨x, rfl, -⟩ | ⟨x, -, hx⟩
        · rfl
        · exact absurd (by simp) hkey
        · simp at hx
      · exact absurd (hx ▸ by simp) hword
      · rcases append_cons_eq_append_cons hname with ⟨-, hx⟩ | ⟨y, rfl, -⟩ | ⟨y, -, hx⟩
        · simp at hx
        · exact absurd (by simp) hkey
        · simp at hx
  · exact absurd (heq ▸ by simp) hlead

end Quoted

end Infra
