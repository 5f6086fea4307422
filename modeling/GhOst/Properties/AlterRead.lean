import GhOst.Properties.AlterPhrases
import GhOst.Properties.AlterPrefix
import GhOst.Properties.AlterSplit

/-!
# What is read off the clauses of an `ALTER` statement

A clause is understood if the phrases that stand in it, its string literals emptied, are its own: a
name without spaces between backticks, no keyword inside a name or a double-quoted text, and no form
that the parser does not know (`RENAME COLUMN`, `RENAME` without `TO`).
-/

namespace GhOst.Sql.AlterRead

open Infra Infra.Regexp GhOst.Sql.AlterPrefix GhOst.Sql.AlterSplit

/-! ## Clauses -/

/-- A keyword, in any case. -/
structure Word (w : String) where
  chars : List Char
  spells : chars.map Char.toLower = w.toList

/-- The space between two words. -/
structure Gap where
  chars : List Char
  spaces : Spaces chars

/-- `COLUMN`, which may be left out. -/
abbrev Column := Option (Word "column" × Gap)

def Column.chars : Column → List Char
  | none => []
  | some (word, gap) => word.chars ++ gap.chars

/-- `TO` or `AS`. -/
structure Link where
  chars : List Char
  spells : chars.map Char.toLower = "to".toList ∨ chars.map Char.toLower = "as".toList
  gap : Gap

/-- A definition: anything that does not begin with a space. -/
structure Definition where
  chars : List Char
  ne_nil : chars ≠ []
  begins : ∀ c, chars.head? = some c → isSpace c = false

inductive AlterClause where
  | add (word : Word "add") (gap : Gap) (definition : Definition)
  | modify (word : Word "modify") (gap : Gap) (definition : Definition)
  | change (word : Word "change") (gap : Gap) (column : Column) (old : Ident) (gap₁ : Gap)
      (new : Ident) (gap₂ : Gap) (definition : Definition)
  | renameColumn (word : Word "rename") (gap : Gap) (column : Word "column") (gap₁ : Gap)
      (old : Ident) (gap₂ : Gap) (link : Word "to") (gap₃ : Gap) (new : Ident)
  | drop (word : Word "drop") (gap : Gap) (column : Column) (name : Ident)
  | renameTable (word : Word "rename") (gap : Gap) (link : Option Link) (table : Ident)
  | autoIncrement (word : Word "auto_increment") (before after : { w // Phrase.AnySpaces w })
      (n : { w // RunOf Char.isDigit w })

namespace AlterClause

/-- The clause up to its definition. -/
def front : AlterClause → List Char
  | add word gap _ => word.chars ++ gap.chars
  | modify word gap _ => word.chars ++ gap.chars
  | change word gap column old gap₁ new gap₂ _ =>
    word.chars ++ (gap.chars ++
      (column.chars ++ (old.text ++ (gap₁.chars ++ (new.text ++ gap₂.chars)))))
  | renameColumn word gap column gap₁ old gap₂ link gap₃ new =>
    word.chars ++ (gap.chars ++ (column.chars ++ (gap₁.chars ++ (old.text ++ (gap₂.chars ++
      (link.chars ++ (gap₃.chars ++ new.text)))))))
  | drop word gap column name => word.chars ++ (gap.chars ++ (column.chars ++ name.text))
  | renameTable word gap none table => word.chars ++ (gap.chars ++ table.text)
  | renameTable word gap (some link) table =>
    word.chars ++ (gap.chars ++ (link.chars ++ (link.gap.chars ++ table.text)))
  | autoIncrement word before after n => word.chars ++ (before.1 ++ ('=' :: (after.1 ++ n.1)))

def definition : AlterClause → List Char
  | add _ _ definition => definition.chars
  | modify _ _ definition => definition.chars
  | change _ _ _ _ _ _ _ definition => definition.chars
  | _ => []

def text (c : AlterClause) : List Char := c.front ++ c.definition

/-! ## What a clause means -/

/-- The old and the new name of a column. -/
def renamed : AlterClause → Option (String × String)
  | change _ _ _ old _ new _ _ => some (String.ofList old.name, String.ofList new.name)
  | renameColumn _ _ _ _ old _ _ _ new => some (String.ofList old.name, String.ofList new.name)
  | _ => none

def dropped : AlterClause → Option String
  | drop _ _ _ name => some (String.ofList name.name)
  | _ => none

def renamesTable : AlterClause → Bool
  | renameTable .. => true
  | _ => false

def definesAutoIncrement : AlterClause → Bool
  | autoIncrement .. => true
  | _ => false

/-- The phrase by which the parser knows the clause. -/
def phrase : AlterClause → Option Phrase
  | change .. => some .change
  | drop .. => some .drop
  | renameTable .. => some .renameTable
  | autoIncrement .. => some .autoIncrement
  | _ => none

end AlterClause

/-! ## The condition -/

/-- The text with its string literals emptied: each stands from a quote to the next. -/
def Blanks (text blanked : List Char) : Prop :=
  ∃ parts, (∀ part ∈ parts, '\x27' ∉ Part.content part) ∧ text = partChars parts ∧
    blanked = partsBlanked parts

/-- A name that is one word for the parser, and that it takes out of its backticks. -/
def Readable (i : Ident) : Prop := i.Clean ∧ ∀ c ∈ i.name, isSpace c = false

namespace AlterClause

/-- The names are read as they are, and the clause is of a form that the parser knows, or means
nothing. -/
def Known : AlterClause → Prop
  | change _ _ column old _ new _ _ =>
    Readable old ∧ Readable new ∧ (column = none → ¬ Spelled "column".toList old.text)
  | renameColumn _ _ _ _ old _ _ _ new => old.name = new.name
  | drop _ _ _ name => Readable name
  | renameTable _ _ link _ => link ≠ none
  | _ => True

/-- The clause is known, it does not end in white space, its names have no single quote, and no
other phrase stands in it. -/
structure Understood (c : AlterClause) : Prop where
  known : c.Known
  last : ∀ d, c.text.getLast? = some d → isUnicodeSpace d = false
  quotes : '\x27' ∉ c.front
  phrases : ∃ blanked, Blanks c.definition blanked ∧
    (∀ ph, c.phrase ≠ some ph → ¬ Stands ph.Begins (c.front ++ blanked)) ∧
    ¬ Stands Phrase.change.Begins blanked

end AlterClause

/-! ## Words and names -/

variable {i : Ident} {rest : List Char} {q : Option Char}
variable {w : String} {blanked statement : List Char}

theorem spelled_of_toLower {w kw : List Char} (h : kw.map Char.toLower = w) : Spelled w kw := by
  subst h
  induction kw with
  | nil => exact .nil
  | cons c kw ih => exact .cons (by simp [foldsTo]) ih

theorem Word.isWord (word : Word w) (hw : ∀ c ∈ w.toList, isWord c = true) :
    ∀ c ∈ word.chars, isWord c = true := by
  intro c hc
  refine isWord_of_toLower rfl (hw _ ?_)
  rw [← word.spells]
  exact List.mem_map_of_mem hc

theorem Word.ne_nil (word : Word w) (hw : w.toList ≠ []) : word.chars ≠ [] := by
  intro hnil
  have hspells := word.spells
  rw [hnil] at hspells
  exact hw hspells.symm

theorem Ident.text_eq (h : i.Clean) :
    i.text = i.name ∨ i.text = '\x60' :: (i.name ++ ['\x60']) := by
  cases hs : i.spelling with
  | plain => exact .inl (Ident.text_plain hs)
  | quoted => exact .inr (by rw [Ident.text_quoted hs, Ident.escape_eq (h hs)])

theorem Readable.run (h : Readable i) : Phrase.Run i.text := by
  have hname : ∀ c ∈ i.name, nonSpace c = true := by
    intro c hc
    rw [nonSpace, h.2 c hc]
    rfl
  rcases Ident.text_eq h.1 with htext | htext
  · rw [htext]
    exact ⟨i.name_ne_nil, hname⟩
  · rw [htext]
    refine ⟨List.cons_ne_nil _ _, fun c hc => ?_⟩
    rcases List.mem_cons.mp hc with rfl | hc
    · decide
    · rcases List.mem_append.mp hc with hc | hc
      · exact hname c hc
      · rw [List.mem_singleton.mp hc]
        decide

theorem Readable.unquoted (h : Readable i) : unquoted i.text = String.ofList i.name := by
  unfold Sql.unquoted
  cases hs : i.spelling with
  | plain =>
    rw [Ident.text_plain hs, unquote_eq_none, Option.getD_none]
    intro c hc
    have hident := List.all_eq_true.mp (i.bare hs) c (List.mem_of_mem_head? hc)
    refine ⟨?_, ?_, ?_⟩ <;> rintro rfl <;> exact absurd hident (by decide)
  | quoted =>
    have hbacktick := h.1 hs
    rw [Ident.text_quoted hs, Ident.escape_eq hbacktick, ← List.cons_append, unquote_raw hbacktick,
      Option.getD_some]
    congr 1
    refine List.filter_eq_self.mpr fun c hc => decide_eq_true ?_
    rintro rfl
    exact absurd (h.2 _ hc) (by decide)

theorem Readable.head (h : Readable i) :
    ∀ c, (i.text ++ rest).head? = some c → isSpace c = false := by
  intro c hc
  obtain ⟨d, text, htext⟩ := List.exists_cons_of_ne_nil h.run.1
  rw [htext, List.cons_append] at hc
  obtain rfl : d = c := Option.some.inj hc
  have hd := h.run.2 d (htext ▸ List.mem_cons_self)
  rwa [nonSpace, Bool.not_eq_true'] at hd

/-! ## The first match -/

theorem first_name (k : Nat) (h : Readable i)
    (hrest : ∀ c, rest.head? = some c → isSpace c = true) :
    (group k (plus nonSpace)).first q (i.text ++ rest) =
      some { taken := i.text, rest, groups := [(k, i.text)] } := by
  refine first_group (first_plus h.run.1 h.run.2 fun c hc => ?_)
  rw [nonSpace, hrest c hc]
  rfl

theorem Gap.first (gap : Gap) (hrest : ∀ c, rest.head? = some c → isSpace c = false) :
    (plus isSpace).first q (gap.chars ++ rest) = some { taken := gap.chars, rest } :=
  first_plus gap.spaces.1 gap.spaces.2 hrest

theorem Gap.getLast (gap : Gap) (l : List Char) :
    (l ++ gap.chars).getLast?.any Regexp.isWord = false := by
  rw [List.getLast?_append, List.getLast?_eq_some_getLast gap.spaces.1, Option.some_or,
    Option.any_some]
  by_contra hword
  rw [Bool.not_eq_false] at hword
  have hspace := gap.spaces.2 _ (List.getLast_mem gap.spaces.1)
  rw [isSpace_of_isWord hword] at hspace
  cases hspace

theorem Gap.head (gap : Gap) : ∀ c, (gap.chars ++ rest).head? = some c → isSpace c = true :=
  gap.spaces.head

theorem first_optionalColumn (column : Column)
    (hrest : ∀ c, rest.head? = some c → isSpace c = false)
    (hnone : column = none → ¬ Then (Spelled "column".toList) (Then Spaces Phrase.Anything) rest) :
    optionalColumn.first q (column.chars ++ rest) =
      some { taken := column.chars, rest, groups := [(1, column.chars)] } := by
  cases column with
  | some column =>
    obtain ⟨word, gap⟩ := column
    have hcolumn : (seq (caseless "column".toList) (plus isSpace)).first q
        (Column.chars (some (word, gap)) ++ rest) =
          some { taken := word.chars ++ gap.chars, rest } := by
      rw [Column.chars, List.append_assoc]
      exact first_seq (first_caseless word.spells) (gap.first hrest)
    exact first_group (first_alt_left hcolumn)
  | none =>
    have hrun : (seq (caseless "column".toList) (plus isSpace)).run q rest = [] := by
      by_contra hne
      exact hnone rfl ((((takes_caseless _).before takes_plus.accepts) q rest).mp hne)
    refine (first_group (?_ : Regexp.first _ q rest = some { taken := [], rest })).trans rfl
    rw [first_alt_right hrun]
    rfl

theorem first_keyword {t : Regexp} {m : Match} (word : Word w) (gap : Gap)
    (hw : ∀ c ∈ w.toList, isWord c = true) (hne : w.toList ≠ [])
    (hrest : ∀ c, rest.head? = some c → isSpace c = false) (h : ∀ q, t.first q rest = some m) :
    (keyword w t).first none (word.chars ++ (gap.chars ++ rest)) =
      some
        { taken := word.chars ++ (gap.chars ++ m.taken), rest := m.rest, groups := m.groups } := by
  have hboundary : wordBoundary.first none (word.chars ++ (gap.chars ++ rest)) =
      some { taken := [], rest := word.chars ++ (gap.chars ++ rest) } := by
    obtain ⟨c, chars, hchars⟩ := List.exists_cons_of_ne_nil (word.ne_nil hne)
    rw [hchars]
    exact first_wordBoundary (word.isWord hw c (hchars ▸ List.mem_cons_self)) rfl
  exact first_seq hboundary (first_seq (first_caseless word.spells)
    (first_seq (gap.first hrest) (h _)))

theorem eq_of_column {w : List Char} (hw : Phrase.Run w)
    (hrest : ∀ c, rest.head? = some c → isSpace c = true)
    (h : Then (Spelled "column".toList) (Then Spaces Phrase.Anything) (w ++ rest)) :
    Spelled "column".toList w ∧ rest ≠ [] := by
  obtain ⟨kw, tail, htail, hkw, sp, last, rfl, hsp, -⟩ := h
  have hword := isWord_of_spelled hkw (forall_mem_of_all (by decide))
  have hnonSpace {c : Char} (hc : isSpace c = true) : nonSpace c = false := by
    rw [nonSpace, hc]
    rfl
  obtain ⟨rfl, rfl⟩ := run_cancel htail hw.2
    (fun c hc => by rw [nonSpace, isSpace_of_isWord (hword c hc)]; rfl)
    (fun c hc => hnonSpace (hrest c hc)) (fun c hc => hnonSpace (hsp.head c hc))
  exact ⟨hkw, List.append_ne_nil_of_left_ne_nil hsp.1 _⟩

theorem Column.head {column : Column} (h : ∀ c, rest.head? = some c → isSpace c = false) :
    ∀ c, (column.chars ++ rest).head? = some c → isSpace c = false := by
  cases column with
  | none => exact h
  | some column =>
    obtain ⟨word, gap⟩ := column
    intro c hc
    obtain ⟨d, chars, hchars⟩ := List.exists_cons_of_ne_nil (word.ne_nil (by decide))
    rw [Column.chars, hchars] at hc
    obtain rfl : d = c := Option.some.inj hc
    exact isSpace_of_isWord
      (word.isWord (forall_mem_of_all (by decide)) d (hchars ▸ List.mem_cons_self))

theorem first_change (word : Word "change") (gap : Gap) (column : Column) {old new : Ident}
    (gap₁ gap₂ : Gap) (hold : Readable old) (hnew : Readable new)
    (hcolumn : column = none → ¬ Spelled "column".toList old.text)
    (hrest : ∀ c, rest.head? = some c → isSpace c = false) :
    renameColumnRegexp.first none (word.chars ++ (gap.chars ++ (column.chars ++
        (old.text ++ (gap₁.chars ++ (new.text ++ (gap₂.chars ++ rest))))))) =
      some { taken := word.chars ++ (gap.chars ++ (column.chars ++ (old.text ++ (gap₁.chars ++
               (new.text ++ gap₂.chars)))))
             rest, groups := [(1, column.chars), (2, old.text), (3, new.text)] } := by
  have hnone : column = none → ¬ Then (Spelled "column".toList) (Then Spaces Phrase.Anything)
      (old.text ++ (gap₁.chars ++ (new.text ++ (gap₂.chars ++ rest)))) :=
    fun hcol hthen => hcolumn hcol (eq_of_column hold.run gap₁.head hthen).1
  have htail := fun q => first_seq (@first_optionalColumn _ q column hold.head hnone)
    (first_seq (first_name 2 hold gap₁.head)
      (first_seq (gap₁.first hnew.head) (first_seq (first_name 3 hnew gap₂.head)
      (gap₂.first hrest))))
  exact first_keyword word gap (forall_mem_of_all (by decide)) (by decide) (Column.head hold.head)
    htail

theorem first_drop (word : Word "drop") (gap : Gap) (column : Column) {name : Ident}
    (hname : Readable name) :
    dropColumnRegexp.first none (word.chars ++ (gap.chars ++ (column.chars ++ name.text))) =
      some { taken := word.chars ++ (gap.chars ++ (column.chars ++ name.text))
             rest := [], groups := [(1, column.chars), (2, name.text)] } := by
  have hhead := @Readable.head name [] hname
  have hnil : ∀ c, ([] : List Char).head? = some c → isSpace c = true := fun _ h => nomatch h
  have hnone : column = none →
      ¬ Then (Spelled "column".toList) (Then Spaces Phrase.Anything) (name.text ++ []) :=
    fun _ hthen => (eq_of_column hname.run hnil hthen).2 rfl
  have hend {q : Option Char} : endOfText.first q [] = some { taken := [], rest := [] } := rfl
  have htail := fun q => first_seq (@first_optionalColumn _ q column hhead hnone)
    (first_seq (first_name 2 hname hnil) hend)
  have hfirst := first_keyword word gap (forall_mem_of_all (by decide)) (by decide)
    (Column.head hhead) htail
  simp only [Match.append, List.append_nil] at hfirst
  exact hfirst

theorem find_drop_nil (q : Option Char) : dropColumnRegexp.find q [] = none := by
  rw [find, Option.map_eq_none_iff, first_eq_none, dropColumnRegexp, keyword, run_seq,
    run_wordBoundary]
  split <;> rfl

/-! ## Emptied literals -/

theorem Blanks.sanitize {front definition : List Char} (hfront : '\x27' ∉ front)
    (h : Blanks definition blanked) :
    sanitizeQuotesFromAlterStatement (front ++ definition) = front ++ blanked := by
  obtain ⟨parts, hparts, rfl, rfl⟩ := h
  have hall : ∀ part ∈ Part.text front :: parts, '\x27' ∉ part.content :=
    List.forall_mem_cons.mpr ⟨hfront, hparts⟩
  have hsanitize := sanitize_parts hall
  rwa [partChars_cons, partsBlanked_cons] at hsanitize

theorem Blanks.head? {text : List Char} (h : Blanks text blanked) : blanked.head? = text.head? := by
  obtain ⟨parts, -, rfl, rfl⟩ := h
  induction parts with
  | nil => rfl
  | cons part parts ih =>
    rw [partChars_cons, partsBlanked_cons, List.head?_append, List.head?_append, ih]
    cases part <;> rfl

theorem Blanks.nil (h : Blanks [] blanked) : blanked = [] :=
  List.head?_eq_none_iff.mp h.head?

/-! ## What is read off a clause -/

namespace AlterClause

def changed : AlterClause → Option (String × String)
  | change _ _ _ old _ new _ _ => some (String.ofList old.name, String.ofList new.name)
  | _ => none

variable {c : AlterClause} {blanked : List Char}

/-- **The names of a `CHANGE` are found, and none in another clause.** -/
theorem findAll_change (hknown : c.Known) (hblanks : Blanks c.definition blanked)
    (hother : c.phrase ≠ some .change → ¬ Stands Phrase.change.Begins (c.front ++ blanked))
    (hdefinition : ¬ Stands Phrase.change.Begins blanked) :
    (renameColumnRegexp.findAllStringSubmatch (c.front ++ blanked)).map
      (fun found => (unquoted (found.submatch 2), unquoted (found.submatch 3))) =
        c.changed.toList := by
  by_cases hphrase : c.phrase = some .change
  · cases c with
    | change word gap column old gap₁ new gap₂ definition =>
      obtain ⟨hold, hnew, hcolumn⟩ := hknown
      have hrest : ∀ c, blanked.head? = some c → isSpace c = false := by
        rw [hblanks.head?]
        exact definition.begins
      have hfirst := first_change word gap column gap₁ gap₂ hold hnew hcolumn hrest
      have hlast := gap₂.getLast
        (word.chars ++ (gap.chars ++ (column.chars ++ (old.text ++ (gap₁.chars ++ new.text)))))
      simp only [List.append_assoc] at hlast
      simp only [front, List.append_assoc]
      rw [findAllStringSubmatch_eq_singleton ?_ hfirst ?_]
      · show [(unquoted old.text, unquoted new.text)] =
          [(String.ofList old.name, String.ofList new.name)]
        rw [hold.unquoted, hnew.unquoted]
      · exact List.append_ne_nil_of_left_ne_nil (word.ne_nil (by decide)) _
      · refine (@Phrase.find_eq_none_iff .change _ _ ?_).mpr hdefinition
        rw [Match.before, Option.or_none]
        exact hlast
    | _ => cases hphrase
  · have hnone : renameColumnRegexp.find none (c.front ++ blanked) = none :=
      (@Phrase.find_eq_none_iff .change _ _ rfl).mpr (hother hphrase)
    rw [findAllStringSubmatch_eq_nil hnone]
    cases c with
    | change => exact absurd rfl hphrase
    | _ => rfl

/-- **The name of a `DROP` is found, and none in another clause.** -/
theorem findAll_drop (hknown : c.Known) (hblanks : Blanks c.definition blanked)
    (hother : c.phrase ≠ some .drop → ¬ Stands Phrase.drop.Begins (c.front ++ blanked)) :
    (dropColumnRegexp.findAllStringSubmatch (c.front ++ blanked)).map
      (fun found => unquoted (found.submatch 2)) = c.dropped.toList := by
  by_cases hphrase : c.phrase = some .drop
  · cases c with
    | drop word gap column name =>
      have hknown : Readable name := hknown
      rw [hblanks.nil, List.append_nil]
      rw [front, findAllStringSubmatch_eq_singleton ?_ (first_drop word gap column hknown)
        (find_drop_nil _)]
      · show [unquoted name.text] = [String.ofList name.name]
        rw [hknown.unquoted]
      · exact List.append_ne_nil_of_left_ne_nil (word.ne_nil (by decide)) _
    | _ => cases hphrase
  · have hnone : dropColumnRegexp.find none (c.front ++ blanked) = none :=
      (@Phrase.find_eq_none_iff .drop _ _ rfl).mpr (hother hphrase)
    rw [findAllStringSubmatch_eq_nil hnone]
    cases c with
    | drop => exact absurd rfl hphrase
    | _ => rfl

theorem stands_of_begins {ph : Phrase} {s : List Char} (h : ph.Begins s) : Stands ph.Begins s :=
  ⟨[], s, rfl, rfl, h⟩

theorem matchString_renameTable (hknown : c.Known)
    (hother : c.phrase ≠ some .renameTable →
      ¬ Stands Phrase.renameTable.Begins (c.front ++ blanked)) :
    renameTableRegexp.matchString (c.front ++ blanked) = c.renamesTable := by
  rw [Bool.eq_iff_iff]
  refine (@Phrase.matchString_iff .renameTable _).trans ?_
  cases c with
  | renameTable word gap link table =>
    obtain ⟨link, rfl⟩ := Option.ne_none_iff_exists'.mp hknown
    refine iff_of_true (stands_of_begins ⟨word.chars, _, ?_, spelled_of_toLower word.spells,
      gap.chars, _, rfl, gap.spaces, link.chars, _, rfl, ?_, link.gap.chars, table.text ++ blanked,
      rfl, link.gap.spaces, trivial⟩) rfl
    · simp only [front, List.append_assoc]
    · exact link.spells.imp spelled_of_toLower spelled_of_toLower
  | _ => exact iff_of_false (hother nofun) nofun

theorem matchString_autoIncrement
    (hother : c.phrase ≠ some .autoIncrement →
      ¬ Stands Phrase.autoIncrement.Begins (c.front ++ blanked)) :
    autoIncrementRegexp.matchString (c.front ++ blanked) = c.definesAutoIncrement := by
  rw [Bool.eq_iff_iff]
  refine (@Phrase.matchString_iff .autoIncrement _).trans ?_
  cases c with
  | autoIncrement word before after n =>
    refine iff_of_true (stands_of_begins ⟨word.chars, _, ?_, spelled_of_toLower word.spells,
      before.1, _, rfl, before.2, ['='], _, rfl, rfl, after.1, _, rfl, after.2, n.1, blanked,
      rfl, n.2,
      trivial⟩) rfl
    simp only [front, List.append_assoc, List.cons_append, List.nil_append]
  | _ => exact iff_of_false (hother nofun) nofun

theorem parseToken_text (h : c.Understood) (atp : AlterTableParser) :
    (atp.parseToken c.text).columnRenameMap =
      c.changed.toList.foldl (fun m names => mapSet m names.1 names.2) atp.columnRenameMap ∧
    (atp.parseToken c.text).droppedColumns =
      c.dropped.toList.foldl (fun dropped name => dropped.insert name) atp.droppedColumns ∧
    (atp.parseToken c.text).isRenameTable = (atp.isRenameTable || c.renamesTable) ∧
    (atp.parseToken c.text).isAutoIncrementDefined =
      (atp.isAutoIncrementDefined || c.definesAutoIncrement) := by
  obtain ⟨blanked, hblanks, hother, hdefinition⟩ := h.phrases
  unfold AlterTableParser.parseToken
  rw [text, hblanks.sanitize h.quotes]
  refine ⟨?_, ?_, ?_, ?_⟩
  · rw [← findAll_change h.known hblanks (hother .change) hdefinition, List.foldl_map]
    rfl
  · rw [← findAll_drop h.known hblanks (hother .drop), List.foldl_map]
    rfl
  · rw [← matchString_renameTable h.known (hother .renameTable)]
    rfl
  · rw [← matchString_autoIncrement (hother .autoIncrement)]
    rfl

theorem foldl_parseToken_text {clauses : List AlterClause} (h : ∀ c ∈ clauses, c.Understood)
    (atp : AlterTableParser) :
    ((clauses.map text).foldl AlterTableParser.parseToken atp).columnRenameMap =
      (clauses.flatMap fun c => c.changed.toList).foldl (fun m names => mapSet m names.1 names.2)
        atp.columnRenameMap ∧
    ((clauses.map text).foldl AlterTableParser.parseToken atp).droppedColumns =
      (clauses.flatMap fun c => c.dropped.toList).foldl (fun dropped name => dropped.insert name)
        atp.droppedColumns ∧
    ((clauses.map text).foldl AlterTableParser.parseToken atp).isRenameTable =
      (atp.isRenameTable || clauses.any renamesTable) ∧
    ((clauses.map text).foldl AlterTableParser.parseToken atp).isAutoIncrementDefined =
      (atp.isAutoIncrementDefined || clauses.any definesAutoIncrement) := by
  induction clauses generalizing atp with
  | nil => exact ⟨rfl, rfl, (Bool.or_false _).symm, (Bool.or_false _).symm⟩
  | cons c clauses ih =>
    obtain ⟨hc, hclauses⟩ := List.forall_mem_cons.mp h
    obtain ⟨h₁, h₂, h₃, h₄⟩ := parseToken_text hc atp
    obtain ⟨ih₁, ih₂, ih₃, ih₄⟩ := ih hclauses (atp.parseToken c.text)
    rw [List.map_cons, List.foldl_cons, ih₁, ih₂, ih₃, ih₄, h₁, h₂, h₃, h₄]
    refine ⟨?_, ?_, ?_, ?_⟩
    · rw [List.flatMap_cons, List.foldl_append]
    · rw [List.flatMap_cons, List.foldl_append]
    · rw [List.any_cons, Bool.or_assoc]
    · rw [List.any_cons, Bool.or_assoc]

theorem changed_iff (hknown : c.Known) {old new : String} (hne : old ≠ new) :
    c.changed = some (old, new) ↔ c.renamed = some (old, new) := by
  cases c with
  | renameColumn _ _ _ _ o _ _ _ n =>
    have hnames : o.name = n.name := hknown
    refine iff_of_false nofun fun h => hne ?_
    obtain ⟨rfl, rfl⟩ := Prod.mk.inj (Option.some.inj h)
    rw [hnames]
  | _ => exact Iff.rfl

theorem changed_sublist (clauses : List AlterClause) :
    (clauses.flatMap fun c => c.changed.toList).Sublist (clauses.filterMap renamed) := by
  rw [List.filterMap_eq_flatMap_toList]
  induction clauses with
  | nil => exact List.Sublist.refl _
  | cons c clauses ih =>
    rw [List.flatMap_cons, List.flatMap_cons]
    refine List.Sublist.append ?_ ih
    cases c with
    | renameColumn => exact List.nil_sublist _
    | _ => exact List.Sublist.refl _

end AlterClause

/-! ## The statement -/

theorem foldl_mapSet {names m : List (String × String)} (h : ((m ++ names).map Prod.fst).Nodup) :
    names.foldl (fun m names => mapSet m names.1 names.2) m = m ++ names := by
  induction names generalizing m with
  | nil => exact (List.append_nil m).symm
  | cons p names ih =>
    have hset : mapSet m p.1 p.2 = m ++ [p] := by
      unfold mapSet
      congr 1
      refine List.filter_eq_self.mpr fun q hq => decide_eq_true fun heq => ?_
      rw [List.map_append, List.map_cons] at h
      exact (List.nodup_append.mp h).2.2 q.1 (List.mem_map_of_mem hq) p.1 List.mem_cons_self heq
    rw [List.foldl_cons, hset, ih (by rwa [List.append_assoc]), List.append_assoc,
      List.singleton_append]

theorem mem_foldl_insert {names l : List String} {name : String} :
    name ∈ names.foldl (fun dropped name => dropped.insert name) l ↔ name ∈ l ∨ name ∈ names := by
  induction names generalizing l with
  | nil => simp
  | cons other names ih =>
    rw [List.foldl_cons, ih, List.mem_insert_iff, List.mem_cons]
    tauto

structure Item where
  before : { w : List Char // ∀ c ∈ w, isUnicodeSpace c = true }
  clause : AlterClause
  after : { w : List Char // ∀ c ∈ w, isUnicodeSpace c = true }

def Item.text (item : Item) : List Char := item.before.1 ++ item.clause.text ++ item.after.1

def optionsOf (items : List Item) : List Char := [','].intercalate (items.map Item.text)

/-- The options are the statement without its prefix, or the whole statement, in which nothing is
read as one. -/
def Bears (statement opts : List Char) : Prop :=
  (statement = opts ∧ ∀ form ∈ schemaForms ++ tableForms, ¬ form.Stands statement) ∨
    ∃ head nm sp, statement = head ++ (TableName.text nm ++ (sp ++ opts)) ∧ Head head ∧ Spaces sp ∧
      Accepted nm statement opts

/-- What the parser has found is what the clauses mean. -/
structure Reads (parser : AlterTableParser) (clauses : List AlterClause) : Prop where
  renames : ∀ old new, (old, new) ∈ parser.getNonTrivialRenames ↔
    old ≠ new ∧ ∃ c ∈ clauses, c.renamed = some (old, new)
  dropped : ∀ name, name ∈ parser.droppedColumns ↔ ∃ c ∈ clauses, c.dropped = some name
  renameTable : parser.isRenameTable = true ↔ ∃ c ∈ clauses, c.renamesTable = true
  autoIncrement : parser.isAutoIncrementDefined = true ↔
    ∃ c ∈ clauses, c.definesAutoIncrement = true

theorem toNat_le_of_isWord {c : Char} (h : isWord c = true) : c.toNat ≤ 'z'.toNat := by
  rw [isWord, Bool.or_eq_true] at h
  rcases h with h | h
  · delta Char.isAlphanum Char.isAlpha Char.isUpper Char.isLower Char.isDigit at h
    simp only [Bool.or_eq_true, Bool.and_eq_true, decide_eq_true_eq, ge_iff_le,
      UInt32.le_iff_toNat_le] at h
    rcases h with (⟨-, h⟩ | ⟨-, h⟩) | ⟨-, h⟩
    · exact Nat.le_trans h (by decide)
    · exact h
    · exact Nat.le_trans h (by decide)
  · rw [of_decide_eq_true h]
    decide

theorem isUnicodeSpace_of_isWord {c : Char} (h : isWord c = true) : isUnicodeSpace c = false := by
  by_contra hspace
  rw [Bool.not_eq_false, isUnicodeSpace, Bool.or_eq_true] at hspace
  rcases hspace with hspace | hspace
  · have hlist : ∀ d ∈ [' ', '\t', '\n', '\x0b', '\x0c', '\r', '\u0085', '\u00a0', '\u1680',
        '\u2028', '\u2029', '\u202f', '\u205f', '\u3000'], isWord d = false :=
      forall_mem_of_all (by decide)
    rw [hlist c (of_decide_eq_true hspace)] at h
    cases h
  · rw [Bool.and_eq_true, decide_eq_true_eq] at hspace
    have hlow : '\u2000'.toNat ≤ c.toNat := hspace.1
    exact absurd (Nat.le_trans hlow (toNat_le_of_isWord h)) (by decide)

theorem AlterClause.front_head (c : AlterClause) :
    ∃ d rest, c.front = d :: rest ∧ isWord d = true := by
  have hword {w : String} {tail : List Char} (word : Word w) (hw : ∀ c ∈ w.toList, isWord c = true)
      (hne : w.toList ≠ []) : ∃ d rest, word.chars ++ tail = d :: rest ∧ isWord d = true := by
    obtain ⟨d, chars, hchars⟩ := List.exists_cons_of_ne_nil (word.ne_nil hne)
    exact ⟨d, chars ++ tail, by rw [hchars, List.cons_append],
      word.isWord hw d (hchars ▸ List.mem_cons_self)⟩
  cases c with
  | renameTable word gap link table =>
    cases link with
    | none => exact hword word (forall_mem_of_all (by decide)) (by decide)
    | some link => exact hword word (forall_mem_of_all (by decide)) (by decide)
  | _ word => exact hword word (forall_mem_of_all (by decide)) (by decide)

theorem Item.trimSpace_text {item : Item} (h : item.clause.Understood) :
    item.text ≠ [] ∧ trimSpace item.text = item.clause.text := by
  obtain ⟨d, rest, hfront, hd⟩ := item.clause.front_head
  have htext : item.clause.text = d :: (rest ++ item.clause.definition) := by
    rw [AlterClause.text, hfront, List.cons_append]
  constructor
  · rw [Item.text, htext]
    simp
  · refine trimSpace_eq item.before.2 item.after.2 (fun c hc => ?_) h.last
    rw [htext] at hc
    obtain rfl : d = c := Option.some.inj hc
    exact isUnicodeSpace_of_isWord hd

theorem tokensOf_items {items : List Item} (h : ∀ item ∈ items, item.clause.Understood) :
    tokensOf (items.map Item.text) = (items.map Item.clause).map AlterClause.text := by
  induction items with
  | nil => rfl
  | cons item items ih =>
    obtain ⟨hitem, hitems⟩ := List.forall_mem_cons.mp h
    obtain ⟨hne, htrim⟩ := Item.trimSpace_text hitem
    rw [List.map_cons, tokensOf_cons, if_neg hne, htrim, ih hitems]
    rfl

theorem Bears.parsed {opts : List Char} (h : Bears statement opts) :
    ∃ schema table, Parsed statement schema table opts := by
  rcases h with ⟨rfl, hnone⟩ | ⟨head, nm, sp, rfl, hhead, hsp, haccepted⟩
  · exact ⟨[], [], parsed_nothing_iff.mpr hnone⟩
  · exact ⟨_, _, parsed_of_accepted hhead hsp haccepted⟩

theorem parseExplicit_unread (atp : AlterTableParser) (statement : List Char) :
    (atp.parseExplicit statement).1.columnRenameMap = atp.columnRenameMap ∧
    (atp.parseExplicit statement).1.droppedColumns = atp.droppedColumns ∧
    (atp.parseExplicit statement).1.isRenameTable = atp.isRenameTable ∧
    (atp.parseExplicit statement).1.isAutoIncrementDefined = atp.isAutoIncrementDefined := by
  unfold AlterTableParser.parseExplicit
  cases AlterTableParser.firstSubmatch alterTableExplicitSchemaTableRegexps statement with
  | none =>
    dsimp only
    cases AlterTableParser.firstSubmatch alterTableExplicitTableRegexps statement with
    | none => exact ⟨rfl, rfl, rfl, rfl⟩
    | some found => exact ⟨rfl, rfl, rfl, rfl⟩
  | some found =>
    dsimp only
    cases AlterTableParser.firstSubmatch alterTableExplicitTableRegexps (found.submatch 3) with
    | none => exact ⟨rfl, rfl, rfl, rfl⟩
    | some found => exact ⟨rfl, rfl, rfl, rfl⟩

theorem parseAlterStatement_eq {schema table opts : List Char}
    (h : Parsed statement schema table opts) : ∃ atp : AlterTableParser,
      ({} : AlterTableParser).parseAlterStatement statement =
        (tokenizeAlterStatement opts).foldl AlterTableParser.parseToken atp ∧
      atp.columnRenameMap = [] ∧ atp.droppedColumns = [] ∧ atp.isRenameTable = false ∧
      atp.isAutoIncrementDefined = false := by
  have hunread := parseExplicit_unread {} statement
  obtain ⟨atp, opts', hexplicit⟩ :
      ∃ atp opts', ({} : AlterTableParser).parseExplicit statement = (atp, opts') := ⟨_, _, rfl⟩
  obtain ⟨-, -, rfl⟩ := (parsed_iff hexplicit).mp h
  rw [hexplicit] at hunread
  refine ⟨{ atp with alterStatementOptions := String.ofList opts' }, ?_, hunread⟩
  rw [AlterTableParser.parseAlterStatement, hexplicit]

theorem reads_of_understood {clauses : List AlterClause} {atp : AlterTableParser}
    (hdistinct : ((clauses.filterMap AlterClause.renamed).map Prod.fst).Nodup)
    (h : ∀ c ∈ clauses, c.Understood) (hrenames : atp.columnRenameMap = [])
    (hdropped : atp.droppedColumns = []) (htable : atp.isRenameTable = false)
    (hauto : atp.isAutoIncrementDefined = false) :
    Reads ((clauses.map AlterClause.text).foldl AlterTableParser.parseToken atp) clauses := by
  obtain ⟨h₁, h₂, h₃, h₄⟩ := AlterClause.foldl_parseToken_text h atp
  have hkeys : (([] ++ clauses.flatMap fun c : AlterClause => c.changed.toList).map
      Prod.fst).Nodup :=
    hdistinct.sublist ((AlterClause.changed_sublist clauses).map _)
  rw [hrenames, foldl_mapSet hkeys, List.nil_append] at h₁
  rw [hdropped] at h₂
  rw [htable, Bool.false_or] at h₃
  rw [hauto, Bool.false_or] at h₄
  refine ⟨fun old new => ?_, fun name => ?_, ?_, ?_⟩
  · rw [AlterTableParser.getNonTrivialRenames, h₁, List.mem_filter, List.mem_flatMap, and_comm,
      decide_eq_true_eq]
    refine and_congr_right fun hne => exists_congr fun c => and_congr_right fun hc => ?_
    rw [Option.mem_toList]
    exact AlterClause.changed_iff (h c hc).known hne
  · rw [h₂, mem_foldl_insert, List.mem_flatMap]
    exact (or_iff_right List.not_mem_nil).trans
      (exists_congr fun c => and_congr_right fun _ => Option.mem_toList)
  · rw [h₃, List.any_eq_true]
  · rw [h₄, List.any_eq_true]

theorem reads_of_parsed {schema table : List Char} {items : List Item}
    (hparsed : Parsed statement schema table (optionsOf items))
    (hsplit : Faithful (items.map Item.text))
    (hdistinct : (((items.map Item.clause).filterMap AlterClause.renamed).map Prod.fst).Nodup)
    (h : ∀ item ∈ items, item.clause.Understood) :
    Reads (({} : AlterTableParser).parseAlterStatement statement) (items.map Item.clause) := by
  obtain ⟨atp, hparse, hrenames, hdropped, htable, hauto⟩ := parseAlterStatement_eq hparsed
  rw [hparse, optionsOf, tokenize_of_faithful hsplit, tokensOf_items h]
  refine reads_of_understood hdistinct (fun c hc => ?_) hrenames hdropped htable hauto
  obtain ⟨item, hitem, rfl⟩ := List.mem_map.mp hc
  exact h item hitem

/-- **Every rename, drop, `RENAME TO` and `AUTO_INCREMENT` is found, and nothing else, if the
statement is read up to its clauses, the splitter is not misled, no column is renamed twice, and
each clause is understood.** -/
theorem alter_clauses_read {statement : List Char} {items : List Item}
    (hbears : Bears statement (optionsOf items)) (hsplit : Faithful (items.map Item.text))
    (hdistinct : (((items.map Item.clause).filterMap AlterClause.renamed).map Prod.fst).Nodup)
    (h : ∀ item ∈ items, item.clause.Understood) :
    Reads (({} : AlterTableParser).parseAlterStatement statement) (items.map Item.clause) := by
  obtain ⟨schema, table, hparsed⟩ := hbears.parsed
  exact reads_of_parsed hparsed hsplit hdistinct h

/-! ## Statements that are read, and statements that are not -/

def Gap.one : Gap := ⟨[' '], by decide, forall_mem_of_all (by decide)⟩

def bareName (name : List Char) (hne : name ≠ []) (h : name.all Mysql.isIdentChar = true) : Ident :=
  { spelling := .plain, name, name_ne_nil := hne, bare := fun _ => h }

def quotedName (name : List Char) (hne : name ≠ []) : Ident :=
  { spelling := .quoted, name, name_ne_nil := hne, bare := nofun }

/-- `change a b int` -/
def smallChange : AlterClause :=
  .change ⟨"change".toList, by decide⟩ .one none (bareName ['a'] (by decide) (by decide)) .one
    (bareName ['b'] (by decide) (by decide)) .one ⟨"int".toList, by decide, fun c hc => by
      obtain rfl : 'i' = c := Option.some.inj hc
      decide⟩

/-- `DROP c`, the name between backticks. -/
def smallDrop : AlterClause :=
  .drop ⟨"DROP".toList, by decide⟩ .one none (quotedName ['c'] (by decide))

/-- `add d int default '1,2'` -/
def smallAdd : AlterClause :=
  .add ⟨"add".toList, by decide⟩ .one ⟨"d int default '1,2'".toList, by decide, fun c hc => by
    obtain rfl : 'd' = c := Option.some.inj hc
    decide⟩

/-- Clauses with a space before each but the first. -/
def itemsOf : List AlterClause → List Item
  | [] => []
  | c :: clauses =>
    ⟨⟨[], List.forall_mem_nil _⟩, c, ⟨[], List.forall_mem_nil _⟩⟩ :: clauses.map fun c =>
      ⟨⟨[' '], forall_mem_of_all (by decide)⟩, c, ⟨[], List.forall_mem_nil _⟩⟩

theorem AlterClause.understood_of_tests {c : AlterClause} (parts : List Part) (hknown : c.Known)
    (hlast : c.text.getLast?.any isUnicodeSpace = false) (hquotes : '\x27' ∉ c.front)
    (hcontent : ∀ part ∈ parts, '\x27' ∉ part.content) (hparts : c.definition = partChars parts)
    (hother : ∀ ph : Phrase, c.phrase ≠ some ph →
      ph.regexp.matchString (c.front ++ partsBlanked parts) = false)
    (hdefinition : renameColumnRegexp.matchString (partsBlanked parts) = false) :
    c.Understood := by
  have hstands {ph : Phrase} {s : List Char} (h : ph.regexp.matchString s = false) :
      ¬ Stands ph.Begins s := by
    rw [← Phrase.matchString_iff, h]
    exact Bool.false_ne_true
  refine ⟨hknown, fun d hd => ?_, hquotes, partsBlanked parts, ⟨parts, hcontent, hparts, rfl⟩,
    fun ph hph => hstands (hother ph hph), @hstands .change _ hdefinition⟩
  rwa [hd] at hlast

theorem bareName_readable {name : List Char} (hne : name ≠ [])
    (h : name.all Mysql.isIdentChar = true) : Readable (bareName name hne h) :=
  ⟨nofun, fun _ hc => (Ident.bare_char rfl hc).1⟩

theorem smallChange_understood : smallChange.Understood :=
  AlterClause.understood_of_tests [.text "int".toList]
    ⟨bareName_readable _ _, bareName_readable _ _, fun _ h => absurd h.length_eq (by decide)⟩
    (by decide) (by decide) (by decide) (by decide) (fun ph => by cases ph <;> decide +kernel)
    (by decide +kernel)

theorem alter_clauses_read_small :
    Reads (newParserFromAlterStatement
      "ALTER TABLE \x60a b\x60.t change a b int, DROP \x60c\x60, add d int default '1,2'")
      [smallChange, smallDrop, smallAdd] := by
  have hopts : optionsOf (itemsOf [smallChange, smallDrop, smallAdd]) =
      "change a b int, DROP \x60c\x60, add d int default '1,2'".toList := by decide +kernel
  have hbears : Bears ("ALTER TABLE ".toList ++ (smallName.text ++ ([' '] ++
      optionsOf (itemsOf [smallChange, smallDrop, smallAdd]))))
      (optionsOf (itemsOf [smallChange, smallDrop, smallAdd])) := by
    have hhead : Head "ALTER TABLE ".toList :=
      ⟨"ALTER".toList, [' '], "TABLE".toList, [' '], by decide, by simp [Spelled, foldsTo],
        by simp [Spaces, isSpace], by simp [Spelled, foldsTo], by simp [Spaces, isSpace]⟩
    rw [hopts]
    refine .inr ⟨_, smallName, [' '], rfl, hhead, Gap.one.spaces, ?_⟩
    exact accepted_of_parsed hhead Gap.one.spaces
      ⟨by decide +kernel, by decide +kernel, by decide +kernel⟩
  have hdrop : smallDrop.Understood :=
    AlterClause.understood_of_tests [] ⟨fun _ => by decide, forall_mem_of_all (by decide)⟩
      (by decide)
      (by decide) (by decide) (by decide) (fun ph => by cases ph <;> decide +kernel)
      (by decide +kernel)
  have hadd : smallAdd.Understood :=
    AlterClause.understood_of_tests [.text "d int default ".toList, .literal "1,2".toList] trivial
      (by decide) (by decide) (by decide) (by decide) (fun ph => by cases ph <;> decide +kernel)
      (by decide +kernel)
  have hreads := alter_clauses_read hbears
    ⟨whole_iff.mp (by decide +kernel), whole_iff.mp (by decide +kernel),
      .inl (whole_iff.mp (by decide +kernel))⟩ (by decide)
      (by simp [itemsOf, smallChange_understood, hdrop, hadd])
  rw [hopts] at hreads
  exact hreads

/-- The statement is the text of the clauses, and is not read as they mean. -/
def Misread (statement : String) (clauses : List AlterClause) : Prop :=
  optionsOf (itemsOf clauses) = statement.toList ∧
    ¬ Reads (newParserFromAlterStatement statement) clauses

/-- `RENAME COLUMN`, `RENAME` without `TO`, a name with a space, a keyword between double quotes,
and a closing parenthesis in a literal. -/
theorem alter_clauses_misread :
    Misread "rename column a to b"
      [.renameColumn ⟨"rename".toList, by decide⟩ .one ⟨"column".toList, by decide⟩ .one
        (bareName ['a'] (by decide) (by decide)) .one ⟨"to".toList, by decide⟩ .one
        (bareName ['b'] (by decide) (by decide))] ∧
    Misread "rename t"
      [.renameTable ⟨"rename".toList, by decide⟩ .one none
        (bareName ['t'] (by decide) (by decide))] ∧
    Misread "change \x60a b\x60 c int"
      [.change ⟨"change".toList, by decide⟩ .one none (quotedName "a b".toList (by decide)) .one
        (bareName ['c'] (by decide) (by decide)) .one
        ⟨"int".toList, by decide, by simp [isSpace]⟩] ∧
    Misread "add c int comment \x22drop it\x22"
      [.add ⟨"add".toList, by decide⟩ .one
        ⟨"c int comment \x22drop it\x22".toList, by decide, by simp [isSpace]⟩] ∧
    Misread "modify a enum('x)','y'), drop z, add d int"
      [.modify ⟨"modify".toList, by decide⟩ .one
        ⟨"a enum('x)','y')".toList, by decide, by simp [isSpace]⟩,
        .drop ⟨"drop".toList, by decide⟩ .one none (bareName ['z'] (by decide) (by decide)),
        .add ⟨"add".toList, by decide⟩ .one ⟨"d int".toList, by decide, by simp [isSpace]⟩] := by
  refine ⟨⟨by decide +kernel, fun h => ?_⟩, ⟨by decide +kernel, fun h => ?_⟩,
    ⟨by decide +kernel, fun h => ?_⟩, ⟨by decide +kernel, fun h => ?_⟩,
    ⟨by decide +kernel, fun h => ?_⟩⟩
  · have hfound := (h.renames "a" "b").mpr ⟨by decide, _, List.mem_singleton_self _, rfl⟩
    exact absurd hfound (by decide +kernel)
  · have hfound := h.renameTable.mpr ⟨_, List.mem_singleton_self _, rfl⟩
    exact absurd hfound (by decide +kernel)
  · have hfound := (h.renames "a b" "c").mpr ⟨by decide, _, List.mem_singleton_self _, rfl⟩
    exact absurd hfound (by decide +kernel)
  · obtain ⟨c, hc, hdropped⟩ := (h.dropped "it\x22").mp (by decide +kernel)
    rw [List.mem_singleton.mp hc] at hdropped
    cases hdropped
  · have hfound := (h.dropped "z").mpr
      ⟨_, List.mem_cons_of_mem _ List.mem_cons_self, rfl⟩
    exact absurd hfound (by decide +kernel)

end GhOst.Sql.AlterRead
