import GhOst.Properties.AlterTokens

/-!
# Where the `ALTER` statement is split

The splitter has one variable: the character that ends what is open. It is compared with the grammar
of the options, in which parentheses nest, three kinds of quotes hide what stands between them, and
a quote may be doubled or escaped. The splitter knows single quotes and the next closing parenthesis
only.
-/

namespace GhOst.Sql.AlterSplit

open Infra

variable {c : Char} {st : Option Char} {clause : List Char} {clauses : List (List Char)}

/-! ## The grammar of the options -/

/-- What may stand between two marks `q`. The backslash escapes, but not between backticks. -/
inductive Body (q : Char) : List Char → Prop where
  | nil : Body q []
  | char {c : Char} {s : List Char} : c ≠ q → (c = '\x5c' → q = '\x60') → Body q s → Body q (c :: s)
  | doubled {s : List Char} : Body q s → Body q (q :: q :: s)
  | escaped {c : Char} {s : List Char} : q ≠ '\x60' → Body q s → Body q ('\x5c' :: c :: s)

theorem Body.text {q : Char} {s : List Char} (h : ∀ c ∈ s, c ≠ q ∧ c ≠ '\x5c') : Body q s := by
  induction s with
  | nil => exact .nil
  | cons c s ih =>
    obtain ⟨hmark, hescape⟩ := h c List.mem_cons_self
    exact .char hmark (fun heq => absurd heq hescape) (ih fun d hd =>
      h d (List.mem_cons_of_mem _ hd))

/-- `'`, `"` and the backtick. -/
def marks : List Char := ['\x27', '\x22', '\x60']

/-- The text between two commas: every comma in it stands between quotes or parentheses. -/
inductive Clause : List Char → Prop where
  | nil : Clause []
  | char {c : Char} {s : List Char} : c ∉ [',', '(', ')'] ++ marks → Clause s → Clause (c :: s)
  | quoted {q : Char} {body s : List Char} : q ∈ marks → Body q body → Clause s →
      Clause (q :: (body ++ q :: s))
  | paren {clauses : List (List Char)} {s : List Char} : (∀ clause ∈ clauses, Clause clause) →
      Clause s → Clause ('(' :: ([','].intercalate clauses ++ ')' :: s))

theorem Clause.head_ne {s : List Char} (h : Clause (c :: s)) : c ≠ ',' := by
  cases h with
  | char hc _ =>
    rintro rfl
    exact hc (by simp)
  | quoted hq _ _ =>
    rintro rfl
    exact absurd hq (by decide)
  | paren _ _ => decide

theorem Clause.text {a s : List Char} (ha : ∀ c ∈ a, c ∉ [',', '(', ')'] ++ marks) (hs : Clause s) :
    Clause (a ++ s) := by
  induction a with
  | nil => exact hs
  | cons c a ih =>
    exact .char (ha c List.mem_cons_self) (ih fun d hd => ha d (List.mem_cons_of_mem _ hd))

/-! ## What the splitter takes as one -/

/-- Single characters, and what stands between single quotes or parentheses. -/
inductive Stretches : List Char → Prop where
  | nil : Stretches []
  | char {c : Char} {s : List Char} : c ≠ ',' → c ≠ '\x27' → c ≠ '(' → Stretches s →
      Stretches (c :: s)
  | quoted {q s : List Char} : '\x27' ∉ q → Stretches s → Stretches ('\x27' :: (q ++ '\x27' :: s))
  | paren {q s : List Char} : ')' ∉ q → Stretches s → Stretches ('(' :: (q ++ ')' :: s))

/-- A stretch that is not ended. -/
def Unended (s : List Char) : Prop :=
  ∃ a q, Stretches a ∧ (s = a ++ '\x27' :: q ∧ '\x27' ∉ q ∨ s = a ++ '(' :: q ∧ ')' ∉ q)

variable {s : List Char}

theorem splitsAt_some (q c : Char) :
    splitsAt (some q) c = (if c = q then none else some q, false) := by
  by_cases hc : c = q
  · simp [splitsAt, hc]
  · simp [splitsAt, hc]

theorem splitsAt_none_char {c : Char} (h₁ : c ≠ '\x27') (h₂ : c ≠ '(') :
    splitsAt none c = (none, decide (c = ',')) := by
  simp [splitsAt, h₁, h₂]

theorem eq_comma_of_splitsAt (h : (splitsAt st c).2 = true) : st = none ∧ c = ',' := by
  cases st with
  | some q =>
    rw [splitsAt_some] at h
    cases h
  | none =>
    refine ⟨rfl, ?_⟩
    by_cases h₁ : c = '\x27'
    · rw [h₁] at h
      exact absurd h (by decide)
    · by_cases h₂ : c = '('
      · rw [h₂] at h
        exact absurd h (by decide)
      · rw [splitsAt_none_char h₁ h₂] at h
        exact of_decide_eq_true h

theorem scan_some (q : Char) (s : List Char) :
    (∃ a b, s = a ++ q :: b ∧ q ∉ a ∧ scan splitsAt (some q) s = scan splitsAt none b) ∨
      q ∉ s ∧ scan splitsAt (some q) s = some (some q) := by
  induction s with
  | nil => exact .inr ⟨List.not_mem_nil, rfl⟩
  | cons c s ih =>
    rw [scan, splitsAt_some, if_neg Bool.false_ne_true]
    by_cases hc : c = q
    · rw [if_pos hc]
      exact .inl ⟨[], s, by rw [hc, List.nil_append], List.not_mem_nil, rfl⟩
    · rw [if_neg hc]
      rcases ih with ⟨a, b, rfl, ha, hscan⟩ | ⟨hs, hscan⟩
      · exact .inl ⟨c :: a, b, rfl, by simp [ha, Ne.symm hc], hscan⟩
      · exact .inr ⟨by simp [hs, Ne.symm hc], hscan⟩

theorem Stretches.whole (h : Stretches s) : Whole s := by
  induction h with
  | nil => rfl
  | char h₁ h₂ h₃ _ ih =>
    unfold Whole
    rw [scan, splitsAt_none_char h₂ h₃, if_neg (by simpa using h₁)]
    exact ih
  | quoted hq _ ih =>
    have happend := (whole_literal hq).append ih
    simpa using happend
  | paren hq _ ih =>
    have happend := (whole_paren hq).append ih
    simpa using happend

/-- What is read when the splitter comes to the end in the given state. -/
def Ends (st : Option Char) (s : List Char) : Prop := if st = none then Stretches s else Unended s

theorem Ends.prepend {p : List Char} (hp : ∀ {b : List Char}, Stretches b → Stretches (p ++ b))
    (h : Ends st s) : Ends st (p ++ s) := by
  unfold Ends at h ⊢
  by_cases hst : st = none
  · rw [if_pos hst] at h ⊢
    exact hp h
  · rw [if_neg hst] at h ⊢
    obtain ⟨a, q, ha, ⟨rfl, hq⟩ | ⟨rfl, hq⟩⟩ := h
    · exact ⟨p ++ a, q, hp ha, .inl ⟨by simp, hq⟩⟩
    · exact ⟨p ++ a, q, hp ha, .inr ⟨by simp, hq⟩⟩

/-- The stretch that begins with `c` and goes up to `q`, ended or not. -/
theorem ends_of_open {q : Char} (hsplit : splitsAt none c = (some q, false))
    (hended : ∀ {a b : List Char}, q ∉ a → Stretches b → Stretches (c :: a ++ q :: b))
    (hunended : q ∉ s → Unended (c :: s))
    (ih : ∀ b : List Char, b.length ≤ s.length → scan splitsAt none b = some st → Ends st b)
    (h : scan splitsAt none (c :: s) = some st) : Ends st (c :: s) := by
  rw [scan, hsplit, if_neg Bool.false_ne_true] at h
  rcases scan_some q s with ⟨a, b, rfl, ha, hscan⟩ | ⟨hs, hscan⟩
  · rw [hscan] at h
    have hrest := ih b (by simp; omega) h
    have hprepend := hrest.prepend (p := c :: a ++ [q]) fun hb => by simpa using hended ha hb
    simpa using hprepend
  · rw [hscan] at h
    obtain rfl : some q = st := Option.some.inj h
    exact hunended hs

theorem ends_of_scan (h : scan splitsAt none s = some st) : Ends st s := by
  induction hn : s.length using Nat.strong_induction_on generalizing s with
  | _ n ih =>
    cases s with
    | nil =>
      obtain rfl : none = st := Option.some.inj h
      exact Stretches.nil
    | cons c s =>
      have hrest : ∀ b : List Char, b.length ≤ s.length → scan splitsAt none b = some st →
          Ends st b := by
        intro b hb hscan
        rw [List.length_cons] at hn
        exact ih b.length (by omega) hscan rfl
      by_cases h₁ : c = '\x27'
      · subst h₁
        exact ends_of_open rfl (fun ha hb => .quoted ha hb)
          (fun hs => ⟨[], s, .nil, .inl ⟨rfl, hs⟩⟩) hrest h
      · by_cases h₂ : c = '('
        · subst h₂
          exact ends_of_open rfl (fun ha hb => .paren ha hb)
            (fun hs => ⟨[], s, .nil, .inr ⟨rfl, hs⟩⟩) hrest h
        · rw [scan, splitsAt_none_char h₁ h₂] at h
          by_cases h₃ : c = ','
          · rw [if_pos (decide_eq_true h₃)] at h
            cases h
          · rw [if_neg (by simpa using h₃)] at h
            exact (hrest s (Nat.le_refl _) h).prepend (p := [c]) fun hb => .char h₃ h₁ h₂ hb

theorem whole_iff : Whole s ↔ Stretches s := ⟨ends_of_scan, Stretches.whole⟩

theorem scan_isSome_iff : (scan splitsAt none s).isSome = true ↔ Stretches s ∨ Unended s := by
  constructor
  · intro h
    obtain ⟨st, hst⟩ := Option.isSome_iff_exists.mp h
    have hends := ends_of_scan hst
    unfold Ends at hends
    split at hends
    · exact .inl hends
    · exact .inr hends
  · rintro (h | ⟨a, q, ha, ⟨rfl, hq⟩ | ⟨rfl, hq⟩⟩)
    · rw [show scan splitsAt none s = some none from h.whole]
      rfl
    · rw [scan_append ha.whole, scan, if_neg (by decide)]
      rcases scan_some '\x27' q with ⟨b, c, rfl, -, -⟩ | ⟨-, hscan⟩
      · exact absurd (by simp) hq
      · rw [show (splitsAt none '\x27').1 = some '\x27' from rfl, hscan]
        rfl
    · rw [scan_append ha.whole, scan, if_neg (by decide)]
      rcases scan_some ')' q with ⟨b, c, rfl, -, -⟩ | ⟨-, hscan⟩
      · exact absurd (by simp) hq
      · rw [show (splitsAt none '(').1 = some ')' from rfl, hscan]
        rfl

/-! ## The split -/

theorem first_field_wrong {rest : List Char} (hclause : Clause clause)
    (h : scan splitsAt none clause = none ∨
      ∃ q, scan splitsAt none clause = some (some q) ∧ rest.head? = some ',') :
    clause ≠ [] ∧ ∃ field fields, fieldsFunc splitsAt none [] (clause ++ rest) = field :: fields ∧
      trimSpace field ≠ trimSpace clause := by
  have hcomma : isUnicodeSpace ',' = false := by decide
  rcases h with hnone | ⟨q, hopen, hrest⟩
  · obtain ⟨a, c, b, st, rfl, ha, hsep⟩ := exists_of_scan_eq_none hnone
    obtain ⟨rfl, rfl⟩ := eq_comma_of_splitsAt hsep
    have hne : a ≠ [] := by
      rintro rfl
      exact hclause.head_ne rfl
    refine ⟨by simp, a, fieldsFunc splitsAt none [] (b ++ rest), ?_, ?_⟩
    · rw [List.append_assoc, fieldsFunc_append [] ha, List.nil_append, List.cons_append, fieldsFunc,
        if_pos hsep, if_neg hne]
      rfl
    · exact (trimSpace_append_ne hcomma).symm
  · cases rest with
    | nil => cases hrest
    | cons c rest =>
      obtain rfl : c = ',' := Option.some.inj hrest
      have hne : clause ≠ [] := by
        rintro rfl
        cases hopen
      -- the comma is no separator here, whatever it does to the state
      obtain ⟨more, fields, hfields⟩ :=
        @fieldsFunc_of_ne_nil _ splitsAt (splitsAt (some q) ',').1 rest (clause ++ [',']) (by simp)
      refine ⟨hne, clause ++ [','] ++ more, fields, ?_, ?_⟩
      · have hsep : (splitsAt (some q) ',').2 = false := by rw [splitsAt_some]
        rw [fieldsFunc_append [] hopen, List.nil_append, fieldsFunc, hsep,
          if_neg Bool.false_ne_true]
        exact hfields
      · rw [List.append_assoc, List.singleton_append]
        exact trimSpace_append_ne hcomma

/-- The pieces as they should be returned: without the empty ones, and without white space around.
-/
def tokensOf (clauses : List (List Char)) : List (List Char) :=
  (clauses.filter (· ≠ [])).map trimSpace

/-- Each clause is made of stretches, of which only the very last one may be left open. -/
def Faithful : List (List Char) → Prop
  | [] => True
  | [clause] => Stretches clause ∨ Unended clause
  | clause :: next :: clauses => Stretches clause ∧ Faithful (next :: clauses)

theorem tokensOf_cons (clause : List Char) (clauses : List (List Char)) :
    tokensOf (clause :: clauses) =
      if clause = [] then tokensOf clauses else trimSpace clause :: tokensOf clauses := by
  unfold tokensOf
  by_cases h : clause = []
  · rw [if_pos h, List.filter_cons_of_neg (by simpa using h)]
  · rw [if_neg h, List.filter_cons_of_pos (by simpa using h), List.map_cons]

theorem tokenize_last (h : (scan splitsAt none s).isSome = true) :
    tokenizeAlterStatement s = tokensOf [s] := by
  obtain ⟨st, hst⟩ := Option.isSome_iff_exists.mp h
  have hfields := @fieldsFunc_append _ splitsAt none st s [] [] hst
  rw [List.append_nil, List.nil_append, fieldsFunc] at hfields
  unfold tokenizeAlterStatement
  rw [hfields, tokensOf_cons]
  split <;> rfl

theorem tokenize_cons (h : Whole clause) (rest : List Char) :
    tokenizeAlterStatement (clause ++ ',' :: rest) =
      if clause = [] then tokenizeAlterStatement rest
      else trimSpace clause :: tokenizeAlterStatement rest := by
  unfold tokenizeAlterStatement
  rw [fieldsFunc_append [] h, List.nil_append, fieldsFunc, if_pos (by decide)]
  split <;> rfl

theorem tokenize_ne {rest : List Char} (hclause : Clause clause)
    (h : scan splitsAt none clause = none ∨
      ∃ q, scan splitsAt none clause = some (some q) ∧ rest.head? = some ',') :
    tokenizeAlterStatement (clause ++ rest) ≠ tokensOf (clause :: clauses) := by
  obtain ⟨hne, field, fields, hfields, htrim⟩ := first_field_wrong hclause h
  unfold tokenizeAlterStatement
  rw [hfields, tokensOf_cons, if_neg hne, List.map_cons]
  exact fun heq => htrim (List.cons.inj heq).1

theorem tokenize_of_faithful (h : Faithful clauses) :
    tokenizeAlterStatement ([','].intercalate clauses) = tokensOf clauses := by
  induction clauses with
  | nil => rfl
  | cons clause clauses ih =>
    cases clauses with
    | nil =>
      rw [List.intercalate_singleton]
      exact tokenize_last (scan_isSome_iff.mpr h)
    | cons next clauses =>
      obtain ⟨hclause, hclauses⟩ := h
      rw [List.intercalate_cons_cons, List.append_assoc, List.singleton_append,
        tokenize_cons hclause.whole, tokensOf_cons, ih hclauses]

theorem faithful_of_tokenize (h : ∀ clause ∈ clauses, Clause clause)
    (htokens : tokenizeAlterStatement ([','].intercalate clauses) = tokensOf clauses) :
    Faithful clauses := by
  induction clauses with
  | nil => trivial
  | cons clause clauses ih =>
    have hclause := h clause List.mem_cons_self
    cases clauses with
    | nil =>
      rw [List.intercalate_singleton] at htokens
      refine scan_isSome_iff.mp ?_
      by_contra hscan
      rw [Option.isSome_iff_ne_none, ne_eq, not_not] at hscan
      have hwrong := @tokenize_ne clause [] [] hclause (.inl hscan)
      rw [List.append_nil] at hwrong
      exact hwrong htokens
    | cons next clauses =>
      rw [List.intercalate_cons_cons, List.append_assoc, List.singleton_append] at htokens
      have hwhole : Whole clause := by
        unfold Whole
        rcases hscan : scan splitsAt none clause with _ | _ | q
        · exact absurd htokens (tokenize_ne hclause (.inl hscan))
        · rfl
        · exact absurd htokens (tokenize_ne hclause (.inr ⟨q, hscan, rfl⟩))
      refine ⟨whole_iff.mp hwhole, ih (fun other ho => h other (List.mem_cons_of_mem _ ho)) ?_⟩
      rw [tokenize_cons hwhole, tokensOf_cons] at htokens
      by_cases hnil : clause = []
      · rwa [if_pos hnil, if_pos hnil] at htokens
      · rw [if_neg hnil, if_neg hnil] at htokens
        exact (List.cons.inj htokens).2

/-- **`tokenizeAlterStatement` splits at the commas outside quotes and parentheses exactly if it is
never misled** (`Faithful`). -/
theorem tokenize_splits_iff {clauses : List (List Char)} (h : ∀ clause ∈ clauses, Clause clause) :
    tokenizeAlterStatement ([','].intercalate clauses) = tokensOf clauses ↔ Faithful clauses :=
  ⟨faithful_of_tokenize h, tokenize_of_faithful⟩

theorem tokenize_splits_iff_small :
    tokenizeAlterStatement "drop a,add (b)".toList =
      tokensOf ["drop a".toList, "add (b)".toList] := by
  have hfirst : Clause "drop a".toList := by
    have hclause := @Clause.text "drop a".toList [] (forall_mem_of_all (by decide)) .nil
    rwa [List.append_nil] at hclause
  have hlast : Clause "add (b)".toList := by
    rw [show "add (b)".toList = "add ".toList ++ '(' :: ([','].intercalate [['b']] ++ ')' :: []) by
      decide]
    refine .text (forall_mem_of_all (by decide)) (.paren ?_ .nil)
    intro clause hclause
    rw [List.mem_singleton.mp hclause]
    exact .char (by decide) .nil
  have hclauses : ∀ clause ∈ ["drop a".toList, "add (b)".toList], Clause clause := by
    intro clause hclause
    rcases List.mem_cons.mp hclause with rfl | hclause
    · exact hfirst
    · rw [List.mem_singleton.mp hclause]
      exact hlast
  refine (tokenize_splits_iff hclauses).mpr ⟨whole_iff.mp (by decide),
    .inl (whole_iff.mp (by decide))⟩

/-- Nested parentheses, a comma between backticks, one between double quotes, and an escaped quote.
-/
theorem tokenize_splits_wrong :
    (Clause "add ((a),b)".toList ∧
      tokenizeAlterStatement "add ((a),b)".toList = ["add ((a)".toList, "b)".toList]) ∧
    (Clause "drop \x60a,b\x60".toList ∧
      tokenizeAlterStatement "drop \x60a,b\x60".toList = ["drop \x60a".toList, "b\x60".toList]) ∧
    (Clause "comment \x22a,b\x22".toList ∧
      tokenizeAlterStatement "comment \x22a,b\x22".toList =
        ["comment \x22a".toList, "b\x22".toList]) ∧
    (Clause "comment 'it\x5c's,b'".toList ∧
      tokenizeAlterStatement "comment 'it\x5c's,b'".toList =
        ["comment 'it\x5c's".toList, "b'".toList]) := by
  have hquoted {q : Char} {a body : List Char} (ha : ∀ c ∈ a, c ∉ [',', '(', ')'] ++ marks)
      (hq : q ∈ marks) (hbody : Body q body) : Clause (a ++ q :: (body ++ [q])) :=
    .text ha (.quoted hq hbody .nil)
  refine ⟨⟨?_, by decide⟩, ⟨?_, by decide⟩, ⟨?_, by decide⟩, ⟨?_, by decide⟩⟩
  · rw [show "add ((a),b)".toList =
      "add ".toList ++ '(' :: ([','].intercalate ["(a)".toList, ['b']] ++ ')' :: []) by decide]
    refine .text (forall_mem_of_all (by decide)) (.paren ?_ .nil)
    intro clause hclause
    rcases List.mem_cons.mp hclause with rfl | hclause
    · refine @Clause.paren [['a']] [] ?_ .nil
      intro inner hinner
      rw [List.mem_singleton.mp hinner]
      exact .char (by decide) .nil
    · rw [List.mem_singleton.mp hclause]
      exact .char (by decide) .nil
  · exact @hquoted '\x60' "drop ".toList "a,b".toList (forall_mem_of_all (by decide)) (by decide)
      (.text (forall_mem_of_all (by decide)))
  · exact @hquoted '\x22' "comment ".toList "a,b".toList (forall_mem_of_all (by decide)) (by decide)
      (.text (forall_mem_of_all (by decide)))
  · rw [show "comment 'it\x5c's,b'".toList =
      "comment ".toList ++ '\x27' :: ("it\x5c's,b".toList ++ ['\x27']) by decide]
    refine hquoted (forall_mem_of_all (by decide)) (by decide) ?_
    exact .char (by decide) (by decide) <| .char (by decide) (by decide) <|
      .escaped (by decide) (.text (forall_mem_of_all (by decide)))

end GhOst.Sql.AlterSplit
