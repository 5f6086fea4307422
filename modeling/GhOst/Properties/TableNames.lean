import GhOst.Base.TableNames
import GhOst.Infra.Strings
import GhOst.Mysql.Coordinates

/-!
# The names of the tables of a migration

A name is cut so that it has 64 bytes. The cut is between two characters or gives no text. The names
of one migration end in different letters, but one of them may be the name of the original table: a
name of underscores that is cut to itself, or a table that has a name derived from the forced one.
-/

namespace GhOst.Base

open Infra GhOst.Sql GhOst.Mysql

/-- The bytes of a name that are left for the base name. -/
def roomFor (suffix : List Char) : Nat := 62 - suffix.length

/-- A suffix as they are used: ASCII, and short enough. -/
structure IsSuffix (suffix : List Char) : Prop where
  ascii : ∀ c ∈ suffix, isAscii c
  short : suffix.length ≤ 62

variable {b : List UInt8} {suffix : List Char}

theorem length_encode_of_ascii {cs : List Char} (h : ∀ c ∈ cs, isAscii c) :
    (encode cs).length = cs.length := by
  induction cs with
  | nil => rfl
  | cons c cs ih =>
    rw [encode_cons, List.length_append, List.length_cons,
      encodeChar_ascii (h c List.mem_cons_self),
      ih fun d hd => h d (List.mem_cons_of_mem _ hd), List.length_singleton]
    omega

theorem isAscii_underscore : isAscii '_' := by decide

theorem length_derivedName (hsuffix : IsSuffix suffix) :
    (derivedName b suffix).length = b.length + (2 + suffix.length) := by
  have hascii : ∀ c ∈ '_' :: suffix, isAscii c := by
    intro c hc
    rcases List.mem_cons.mp hc with rfl | hc
    · exact isAscii_underscore
    · exact hsuffix.ascii c hc
  unfold derivedName
  rw [List.length_append, List.length_append, length_encode_of_ascii hascii,
    length_encode_of_ascii (forall_mem_of_all (by decide))]
  simp only [List.length_cons, List.length_nil]
  omega

/-- **The base name is cut to the bytes that are left**; the slice is never out of range. -/
theorem getSafeTableName_eq (hsuffix : IsSuffix suffix) :
    getSafeTableName b suffix = .ok (derivedName (b.take (roomFor suffix)) suffix) := by
  have hshort := hsuffix.short
  unfold getSafeTableName roomFor maxTableNameLength
  dsimp only
  rw [length_derivedName hsuffix]
  by_cases hfits : b.length + (2 + suffix.length) ≤ 64
  · rw [if_pos hfits, List.take_of_length_le (by omega)]
  · rw [if_neg hfits, if_pos (by omega)]
    congr 3
    omega

/-! ## Characters -/

/-- **A derived name is a text exactly if the base name is cut between two characters.** -/
theorem validUtf8_derivedName_iff {base : List Char} {n : Nat} :
    ValidUtf8 (derivedName ((encode base).take n) suffix) ↔
      ∃ k, (encode (base.take k)).length = min (encode base).length n := by
  unfold derivedName
  rw [validUtf8_between_iff isAscii_underscore, validUtf8_take_iff]

/-- A name of at most 64 characters, in valid UTF-8. -/
def IsName (b : List UInt8) : Prop := ∃ cs : List Char, encode cs = b ∧ cs.length ≤ 64

theorem isName_iff_validUtf8 (h : b.length ≤ 64) : IsName b ↔ ValidUtf8 b := by
  constructor
  · rintro ⟨cs, hcs, -⟩
    exact ⟨cs, hcs⟩
  · rintro ⟨cs, rfl⟩
    exact ⟨cs, rfl, (length_le_length_encode cs).trans h⟩

theorem length_derivedName_le (hsuffix : IsSuffix suffix) :
    (derivedName (b.take (roomFor suffix)) suffix).length ≤ 64 := by
  have hshort := hsuffix.short
  rw [length_derivedName hsuffix, List.length_take]
  unfold roomFor
  omega

/-! ## Distinct names -/

theorem encode_inj {cs ds : List Char} (h : encode cs = encode ds) : cs = ds := by
  obtain ⟨es, rfl, hes⟩ := encode_eq_append (h.trans (List.append_nil _).symm)
  have hlen := length_le_length_encode es
  rw [hes, List.length_nil, Nat.le_zero, List.length_eq_zero_iff] at hlen
  rw [hlen, List.append_nil]

theorem drop_derivedName {front tail : List Char} (hsplit : suffix = front ++ tail)
    (htail : (encode tail).length = 3) :
    (derivedName b suffix).drop ((derivedName b suffix).length - 3) = encode tail := by
  have happend : derivedName b suffix = derivedName b front ++ encode tail := by
    unfold derivedName
    rw [hsplit, ← List.cons_append, encode_append, List.append_assoc, List.append_assoc,
      List.append_assoc]
  rw [happend]
  refine List.drop_left' ?_
  rw [List.length_append, htail]
  omega

theorem take_succ_of_begins {α : Type*} {a : α} {l : List α} {n : Nat}
    (h : a :: l.take n <+: l) : l.take (n + 1) = a :: l.take n := by
  have hlen := h.length_le
  have htake := List.prefix_iff_eq_take.mp h
  rw [List.length_cons, List.length_take] at hlen htake
  rw [Nat.min_eq_left (by omega)] at htake
  exact htake.symm

theorem take_eq_replicate {α : Type*} {a : α} {l : List α} {n : Nat} (h : a :: l.take n <+: l) :
    l.take (n + 1) = List.replicate (n + 1) a := by
  induction n with
  | zero => exact take_succ_of_begins h
  | succ n ih =>
    have hshorter : a :: l.take n <+: l :=
      (List.cons_prefix_cons.mpr ⟨rfl, List.take_prefix_take_left (Nat.le_succ n)⟩).trans h
    rw [take_succ_of_begins h, ih hshorter]
    rfl

theorem encode_underscores (n : Nat) :
    encode (List.replicate n '_') = List.replicate n '_'.val.toUInt8 := by
  induction n with
  | zero => rfl
  | succ n ih =>
    rw [List.replicate_succ, encode_cons, encodeChar_ascii isAscii_underscore, ih]
    rfl

/-- **A name is cut to itself exactly if it has underscores up to the suffix.** -/
theorem derivedName_eq_self_iff {base : List Char} (hsuffix : IsSuffix suffix) :
    encode base = derivedName ((encode base).take (roomFor suffix)) suffix ↔
      base = List.replicate (64 - suffix.length) '_' ++ suffix := by
  have hshort := hsuffix.short
  have hform : ∀ x : List UInt8, derivedName x suffix =
      ('_'.val.toUInt8 :: x) ++ '_'.val.toUInt8 :: encode suffix := by
    intro x
    unfold derivedName
    rw [encode_cons, encode_cons, encodeChar_ascii isAscii_underscore]
    rfl
  have hroom : 64 - suffix.length = roomFor suffix + 2 := by
    unfold roomFor
    omega
  constructor
  · intro h
    rw [hform] at h
    have hlen := congrArg List.length h
    rw [List.length_append, List.length_cons, List.length_cons, List.length_take] at hlen
    have hbegins : '_'.val.toUInt8 :: (encode base).take (roomFor suffix) <+: encode base :=
      ⟨_, h.symm⟩
    have hfront := (take_succ_of_begins hbegins).symm.trans (take_eq_replicate hbegins)
    rw [hfront] at h
    refine encode_inj (h.trans ?_)
    rw [encode_append, encode_underscores, hroom, List.replicate_succ' (n := roomFor suffix + 1),
      List.append_assoc, List.singleton_append]
  · rintro rfl
    rw [hform, encode_append, encode_underscores, hroom,
      List.take_append_of_le_length (by rw [List.length_replicate]; omega), List.take_replicate,
      Nat.min_eq_left (by omega), ← List.replicate_succ,
      List.replicate_succ' (n := roomFor suffix + 1), List.append_assoc, List.singleton_append]

/-! ## The names of a forward migration -/

theorem isAscii_of_isDigit {c : Char} (h : c.isDigit = true) : isAscii c := by
  rw [Char.isDigit, Bool.and_eq_true, decide_eq_true_iff, decide_eq_true_iff] at h
  refine Char.utf8Size_eq_one_iff.mpr (UInt32.le_iff_toNat_le.mpr ?_)
  have hle : c.val.toNat ≤ 57 := UInt32.le_iff_toNat_le.mp h.2
  show c.val.toNat ≤ 127
  omega

theorem twoDigits_spec {n : Nat} (h : n < 100) :
    (twoDigits n).length = 2 ∧ ∀ c ∈ twoDigits n, isAscii c := by
  have hlen : (Nat.toDigits 10 n).length ≤ 2 :=
    (Nat.length_toDigits_le_iff (by omega) (by omega)).mpr h
  unfold twoDigits
  refine ⟨by rw [List.length_leftpad]; omega, fun c hc => ?_⟩
  unfold List.leftpad at hc
  rcases List.mem_append.mp hc with hc | hc
  · rw [(List.mem_replicate.mp hc).2]
    decide
  · exact isAscii_of_isDigit (isDigit_of_mem_digits hc)

theorem toString_spec {n : Int} (hl : -10 ^ 12 < n) (hg : n < 10 ^ 12) :
    (toString n).toList.length ≤ 13 ∧ ∀ c ∈ (toString n).toList, isAscii c := by
  cases n with
  | ofNat m =>
    rw [toList_toString_ofNat]
    have hm : m < 10 ^ 12 := by
      have : (m : Int) < 10 ^ 12 := hg
      omega
    have hlen := (Nat.length_toDigits_le_iff (by omega : 1 < 10) (by omega : 0 < 12)).mpr hm
    exact ⟨by omega, fun c hc => isAscii_of_isDigit (isDigit_of_mem_digits hc)⟩
  | negSucc m =>
    rw [toList_toString_negSucc]
    have hm : m + 1 < 10 ^ 12 := by omega
    have hlen := (Nat.length_toDigits_le_iff (by omega : 1 < 10) (by omega : 0 < 12)).mpr hm
    refine ⟨by rw [List.length_cons]; omega, fun c hc => ?_⟩
    rcases List.mem_cons.mp hc with rfl | hc
    · decide
    · exact isAscii_of_isDigit (isDigit_of_mem_digits hc)

theorem timestamp_spec (t : StartTime) :
    t.timestamp.length ≤ 23 ∧ ∀ c ∈ t.timestamp, isAscii c := by
  obtain ⟨hyear, hyear'⟩ := toString_spec t.year_gt t.year_lt
  have hmonth := t.month_le
  have hday := t.day_le
  have hhour := t.hour_lt
  have hminute := t.minute_lt
  have hsecond := t.second_lt
  obtain ⟨h₁, h₁'⟩ := twoDigits_spec (by omega : t.month < 100)
  obtain ⟨h₂, h₂'⟩ := twoDigits_spec (by omega : t.day < 100)
  obtain ⟨h₃, h₃'⟩ := twoDigits_spec (by omega : t.hour < 100)
  obtain ⟨h₄, h₄'⟩ := twoDigits_spec (by omega : t.minute < 100)
  obtain ⟨h₅, h₅'⟩ := twoDigits_spec (by omega : t.second < 100)
  unfold StartTime.timestamp
  constructor
  · simp only [List.length_append, h₁, h₂, h₃, h₄, h₅]
    omega
  · intro c hc
    simp only [List.mem_append] at hc
    rcases hc with ((((hc | hc) | hc) | hc) | hc) | hc
    · exact hyear' c hc
    · exact h₁' c hc
    · exact h₂' c hc
    · exact h₃' c hc
    · exact h₄' c hc
    · exact h₅' c hc

namespace NamesContext

variable (mctx : NamesContext)

/-- The ghost, old, changelog and checkpoint names. -/
def tableNames : Except Fault (List (List UInt8)) :=
  mctx.getGhostTableName.bind fun ghost => mctx.getOldTableName.bind fun old =>
    mctx.getChangelogTableName.bind fun changelog =>
      mctx.getCheckpointTableName.bind fun checkpoint => .ok [ghost, old, changelog, checkpoint]

def suffixes : List (List Char) := ["gho".toList, mctx.oldSuffix, "ghc".toList, "ghk".toList]

/-- The original table has the name that is derived with a suffix. -/
def Clashes (suffix : List Char) : Prop :=
  if mctx.forceTmpTableName = "" then
    mctx.originalTableName.toList = List.replicate (64 - suffix.length) '_' ++ suffix
  else
    encode mctx.originalTableName.toList =
      derivedName ((encode mctx.forceTmpTableName.toList).take (roomFor suffix)) suffix

/-- The base name is cut between two characters, or not at all. -/
def CutsBetween (suffix : List Char) : Prop :=
  ∃ k, (encode (mctx.baseName.toList.take k)).length =
    min (encode mctx.baseName.toList).length (roomFor suffix)

end NamesContext

/-- Names that can be used next to the original one. -/
structure Usable (original : List UInt8) (names : List (List UInt8)) : Prop where
  isName : ∀ name ∈ names, IsName name
  nodup : names.Nodup
  original : original ∉ names

section Forward

variable {mctx : NamesContext}

theorem oldSuffix_eq (hforward : mctx.revert = false) :
    ∃ front, mctx.oldSuffix = front ++ "del".toList ∧ front.length ≤ 24 ∧
      ∀ c ∈ front, isAscii c := by
  unfold NamesContext.oldSuffix
  rw [hforward, if_neg Bool.false_ne_true]
  cases mctx.timestampOldTable with
  | false => exact ⟨[], rfl, by decide, by simp⟩
  | true =>
    obtain ⟨hlen, hascii⟩ := timestamp_spec mctx.startTime
    refine ⟨mctx.startTime.timestamp ++ ['_'], by simp, by simp; omega, fun c hc => ?_⟩
    rcases List.mem_append.mp hc with hc | hc
    · exact hascii c hc
    · rw [List.mem_singleton.mp hc]
      exact isAscii_underscore

theorem isSuffix_of_mem (hforward : mctx.revert = false) : ∀ suffix ∈ mctx.suffixes,
    IsSuffix suffix := by
  obtain ⟨front, hold, hlen, hascii⟩ := oldSuffix_eq hforward
  have hfixed : ∀ suffix ∈ ["gho".toList, "ghc".toList, "ghk".toList, "del".toList],
      IsSuffix suffix := by
    intro suffix hsuffix
    simp only [List.mem_cons, List.not_mem_nil, or_false] at hsuffix
    rcases hsuffix with rfl | rfl | rfl | rfl <;>
      exact ⟨forall_mem_of_all (by decide), by decide⟩
  intro suffix hsuffix
  unfold NamesContext.suffixes at hsuffix
  rcases List.mem_cons.mp hsuffix with rfl | hsuffix
  · exact hfixed _ (by simp)
  · rcases List.mem_cons.mp hsuffix with rfl | hsuffix
    · rw [hold]
      refine ⟨fun c hc => ?_, by simp; omega⟩
      rcases List.mem_append.mp hc with hc | hc
      · exact hascii c hc
      · exact (hfixed "del".toList (by simp)).ascii c hc
    · refine hfixed suffix ?_
      simp only [List.mem_cons, List.not_mem_nil, or_false] at hsuffix ⊢
      rcases hsuffix with rfl | rfl
      · exact .inr (.inl rfl)
      · exact .inr (.inr (.inl rfl))

def nameWith (mctx : NamesContext) (suffix : List Char) : List UInt8 :=
  derivedName ((encode mctx.baseName.toList).take (roomFor suffix)) suffix

theorem tableNames_eq (hforward : mctx.revert = false) :
    mctx.tableNames = .ok (mctx.suffixes.map (nameWith mctx)) := by
  have hsafe : ∀ suffix ∈ mctx.suffixes,
      getSafeTableName (encode mctx.baseName.toList) suffix = .ok (nameWith mctx suffix) :=
    fun suffix hsuffix => getSafeTableName_eq (isSuffix_of_mem hforward suffix hsuffix)
  unfold NamesContext.suffixes at hsafe
  unfold NamesContext.tableNames NamesContext.getGhostTableName NamesContext.getOldTableName
    NamesContext.getChangelogTableName NamesContext.getCheckpointTableName NamesContext.suffixes
  rw [hforward, if_neg Bool.false_ne_true, hsafe _ (by simp), hsafe _ (by simp), hsafe _ (by simp),
    hsafe _ (by simp)]
  rfl

theorem nodup_names (hforward : mctx.revert = false) :
    (mctx.suffixes.map (nameWith mctx)).Nodup := by
  obtain ⟨front, hold, -, -⟩ := oldSuffix_eq hforward
  refine List.Nodup.of_map (fun name => name.drop (name.length - 3)) ?_
  have hends : (mctx.suffixes.map (nameWith mctx)).map (fun name => name.drop (name.length - 3)) =
      ["gho", "del", "ghc", "ghk"].map fun tail => encode tail.toList := by
    have hfixed : ∀ tail ∈ ["gho", "ghc", "ghk"], ∀ b,
        (derivedName b tail.toList).drop ((derivedName b tail.toList).length - 3) =
          encode tail.toList := by
      intro tail htail b
      simp only [List.mem_cons, List.not_mem_nil, or_false] at htail
      rcases htail with rfl | rfl | rfl <;>
        exact drop_derivedName (List.nil_append _).symm (by decide +kernel)
    unfold NamesContext.suffixes nameWith
    simp only [List.map_cons, List.map_nil, drop_derivedName hold (by decide +kernel)]
    rw [hfixed "gho" (by simp), hfixed "ghc" (by simp), hfixed "ghk" (by simp)]
  rw [hends]
  decide +kernel

theorem clashes_iff {suffix : List Char} (hsuffix : IsSuffix suffix) :
    encode mctx.originalTableName.toList = nameWith mctx suffix ↔ mctx.Clashes suffix := by
  unfold nameWith NamesContext.Clashes NamesContext.baseName
  by_cases hforce : mctx.forceTmpTableName = ""
  · rw [if_pos hforce, if_neg (not_not_intro hforce)]
    exact derivedName_eq_self_iff hsuffix
  · rw [if_neg hforce, if_pos hforce]

/-- **The names of a forward migration can be used exactly if, for each suffix, the base name is cut
between two characters and the original does not have the derived name.** -/
theorem table_names_usable_iff (mctx : NamesContext) (hforward : mctx.revert = false) :
    ∃ names, mctx.tableNames = .ok names ∧
      (Usable (encode mctx.originalTableName.toList) names ↔
        ∀ suffix ∈ mctx.suffixes, mctx.CutsBetween suffix ∧ ¬ mctx.Clashes suffix) := by
  have hsuffix := isSuffix_of_mem hforward
  have hname : ∀ suffix ∈ mctx.suffixes,
      (IsName (nameWith mctx suffix) ↔ mctx.CutsBetween suffix) :=
    fun suffix hs => (isName_iff_validUtf8 (length_derivedName_le (hsuffix suffix hs))).trans
      validUtf8_derivedName_iff
  refine ⟨_, tableNames_eq hforward, ?_⟩
  constructor
  · intro h suffix hs
    refine ⟨(hname suffix hs).mp (h.isName _ (List.mem_map_of_mem hs)), fun hclash => ?_⟩
    rw [← clashes_iff (hsuffix suffix hs)] at hclash
    exact h.original (hclash ▸ List.mem_map_of_mem hs)
  · intro h
    refine ⟨fun name hmem => ?_, nodup_names hforward, fun hmem => ?_⟩
    · obtain ⟨suffix, hs, rfl⟩ := List.mem_map.mp hmem
      exact (hname suffix hs).mpr (h suffix hs).1
    · obtain ⟨suffix, hs, heq⟩ := List.mem_map.mp hmem
      exact (h suffix hs).2 ((clashes_iff (hsuffix suffix hs)).mp heq.symm)

end Forward

/-- A migration that began on the first of January 2024. -/
def migrationOf (originalTableName : String) (timestampOldTable : Bool) : NamesContext where
  originalTableName := originalTableName
  timestampOldTable := timestampOldTable
  startTime :=
    ⟨2024, 1, 1, 0, 0, 0, by decide, by decide, by decide, by decide, by decide, by decide,
      by decide⟩

theorem table_names_usable_iff_small :
    ∃ names, (migrationOf "users" true).tableNames = .ok names ∧
      Usable (encode "users".toList) names := by
  obtain ⟨names, hnames, hiff⟩ := table_names_usable_iff (migrationOf "users" true) rfl
  refine ⟨names, hnames, hiff.mpr fun suffix hsuffix => ⟨⟨5, ?_⟩, ?_⟩⟩
  · revert suffix
    decide +kernel
  · revert suffix
    unfold NamesContext.Clashes
    decide +kernel

/-- A name of 21 characters is cut inside of one, and a name of underscores is the ghost name of
itself. -/
theorem table_names_unusable_wrong :
    (∃ names, (migrationOf (String.ofList (List.replicate 21 'あ')) false).tableNames = .ok names ∧
      ¬ ∀ name ∈ names, ValidUtf8 name) ∧
    (∃ names, (migrationOf (String.ofList (List.replicate 61 '_' ++ "gho".toList))
      false).tableNames =
        .ok names ∧
      encode (List.replicate 61 '_' ++ "gho".toList) ∈ names) := by
  refine ⟨⟨_, tableNames_eq rfl, fun h => ?_⟩, ⟨_, tableNames_eq rfl, by decide +kernel⟩⟩
  obtain ⟨k, hk⟩ := validUtf8_derivedName_iff.mp (h _ (List.mem_map_of_mem List.mem_cons_self))
  by_cases hlt : k < 21
  · revert hk
    revert k
    decide +kernel
  · rw [List.take_of_length_le (Nat.not_lt.mp hlt)] at hk
    revert hk
    decide +kernel

end GhOst.Base
