import GhOst.Logic.CopyReplay
import GhOst.Logic.Tables
import GhOst.Properties.Inspect
import GhOst.Properties.Statements

/-!
# The two write paths on values

When does the event application store what the row copy stores? Integers and `BINARY(n)` always
agree. `ENUM` turned into text and text whose character set changes depend on a conversion that the
inspection asks for only where a column keeps its name. `Agrees` is the exact condition, column by
column.
-/

namespace GhOst.Logic

open GhOst.Sql

variable {τ : Type}

/-- The pairings of a column of the original with a column of the ghost that are handled. -/
def Handled : SqlType τ → SqlType τ → Prop
  | .integer _ _, .integer _ _ => True
  | .binary _, .binary _ => True
  | .enum _ _, .text _ _ => True
  | .text _ _, .text _ _ => True
  | _, _ => False

/-- The two write paths agree on a value of a column, `renamed` or not. -/
def Agrees (d : Dialect τ) (renamed : Bool) : SqlType τ → SqlType τ → Stored → Prop
  | .enum labels _, .text target _, .enum i =>
    if renamed then
      -- the index is written in the place of the label
      d.encode target (labelOf labels i) = d.convert .utf8mb4 target (formatUint i)
    else i ≠ 0
  | .text source blob, .text target _, .bytes b =>
    -- the bytes of the log are stored, or what the library decodes
    source = target ∨
      (if renamed = true ∨ source = .utf8mb4 ∧ blob = true then b
        else d.convert .utf8mb4 target (d.decoded source b)) = d.convert source target b
  | _, _, _ => True

/-- What the event application stores for a value of a column, `renamed` or not. -/
def written (d : Dialect τ) (renamed : Bool) : SqlType τ → SqlType τ → Stored → Stored
  | .integer _ _, .integer w unsigned, .int i => .int (w.clip unsigned i)
  | .binary _, .binary n, .bytes b => .bytes (fitBinary n b)
  | .enum labels _, .text target _, .enum i =>
    if renamed then .bytes (d.convert .utf8mb4 target (formatUint i))
    else if i = 0 then .null
    else .bytes (d.encode target (labelOf labels i))
  | .text source blob, .text target _, .bytes b =>
    if source = target ∨ renamed = true ∨ source = .utf8mb4 ∧ blob = true then .bytes b
    else .bytes (d.convert .utf8mb4 target (d.decoded source b))
  | _, _, _ => .null

inductive HandledValue : SqlType τ → SqlType τ → Stored → Prop where
  | null {source target : SqlType τ} : HandledValue source target .null
  | integer {w w' : IntWidth} {u u' : Bool} {i : Int} :
      (SqlType.integer w u : SqlType τ).admits (.int i) = true →
      HandledValue (.integer w u) (.integer w' u') (.int i)
  | binary {n n' : Nat} {b : List UInt8} : b.length = n →
      HandledValue (.binary n) (.binary n') (.bytes b)
  | enum {labels : List (List τ)} {charset target : Charset} {blob : Bool} {i : Nat} :
      i ≤ labels.length → i < 65536 →
      HandledValue (.enum labels charset) (.text target blob) (.enum i)
  | text {source target : Charset} {blob blob' : Bool} {b : List UInt8} :
      HandledValue (.text source blob) (.text target blob') (.bytes b)

/-- **The values that a column of a handled pairing holds.** -/
theorem handledValue {source target : SqlType τ} (hp : Handled source target) {v : Stored}
    (hv : source.admits v = true) : HandledValue source target v := by
  cases v with
  | null => exact .null
  | int i =>
    cases source with
    | integer w u =>
      cases target with
      | integer w' u' => exact .integer hv
      | _ => exact hp.elim
    | _ => simp [SqlType.admits] at hv
  | bytes b =>
    cases source with
    | binary n =>
      cases target with
      | binary n' => exact .binary (by simpa [SqlType.admits] using hv)
      | _ => exact hp.elim
    | text charset blob =>
      cases target with
      | text charset' blob' => exact .text
      | _ => exact hp.elim
    | _ => simp [SqlType.admits] at hv
  | enum i =>
    cases source with
    | enum labels charset =>
      cases target with
      | text charset' blob =>
        rw [SqlType.admits, decide_eq_true_iff] at hv
        exact .enum hv.1 hv.2
      | _ => exact hp.elim
    | _ => simp [SqlType.admits] at hv

theorem image_null (source : SqlType τ) : source.image .null = .null := by cases source <;> rfl

theorem written_null {d : Dialect τ} {renamed : Bool} (source target : SqlType τ) :
    written d renamed source target .null = .null := by
  cases source <;> cases target <;> rfl

/-- What the inspection says of a column of a type. -/
def Describes (d : Dialect τ) (cl : Column) : SqlType τ → Prop
  | .integer w unsigned => cl.isUnsigned = unsigned ∧ cl.type ≠ .enum ∧
    (cl.type = .mediumInt ↔ w = .mediumint)
  | .binary n => cl.type = .binary ∧ cl.charset = "" ∧ contains cl.mySQLType "binary" = true ∧
    cl.binaryOctetLength = n
  | .enum labels _ => cl.type = .enum ∧ d.literals cl.enumValues = labels
  | .text charset _ => cl.type ≠ .binary ∧ cl.type ≠ .enum ∧ cl.charset = charset.name

/-- The token for a column of the original: only `ENUM` columns that keep their name have their own.
-/
def tokenFor (renamed : Bool) (enumValues : String) : SqlType τ → ValueToken
  | .enum _ _ => if renamed then .plain else .elt enumValues
  | _ => .plain

/-- The two columns of a pair as the inspection prepares them. A conversion is asked for unless the
column is renamed. -/
structure Prepared (d : Dialect τ) (renamed : Bool) (source target : SqlType τ) (cl : Column)
    (token : ValueToken) : Prop where
  describes : Describes d cl source
  conversion : ∀ s b t b', source = .text s b → target = .text t b' →
    (cl.charsetConversion = none ↔ renamed = true ∨ s = t)
  token : token = tokenFor renamed cl.enumValues source

/-! ## One value -/

section Values

variable {d : Dialect τ} {cl : Column} {renamed : Bool} {token : ValueToken}
variable {i : Nat} {target : Charset} {blob : Bool} {source : SqlType τ}

theorem convertArg_null {enc : Encodings} : cl.convertArg enc .null = .null := by
  unfold Column.convertArg
  simp only [Value.asBytes, Column.convertUnsigned]
  split
  · rfl
  · rfl

theorem bind_null {type : SqlType τ} (htoken : token = .plain ∨ ∃ values, token = .elt values) :
    d.bind type token .null = .null := by
  rcases htoken with rfl | ⟨values, rfl⟩
  · rfl
  · rfl

theorem convertUnsigned_ne_null {arg : Value} (h : arg ≠ .null) :
    cl.convertUnsigned arg ≠ .null := by
  cases arg with
  | null => exact absurd rfl h
  | int32 i =>
    unfold Column.convertUnsigned
    dsimp only
    split
    · split
      · simp
      · simp
    · simp
  | _ => simp [Column.convertUnsigned]

theorem convertArg_imageInt_ne_null {enc : Encodings} (w : IntWidth) (i : Int) :
    cl.convertArg enc (SqlType.imageInt w i) ≠ .null := by
  have hne : SqlType.imageInt w i ≠ .null := by cases w <;> simp [SqlType.imageInt]
  unfold Column.convertArg
  rw [SqlType.asBytes_imageInt]
  dsimp only
  split
  · exact convertUnsigned_ne_null hne
  · exact hne

theorem store_integer {w : IntWidth} {unsigned : Bool} {arg : Value} (h : arg ≠ .null) :
    d.store (.integer w unsigned) arg = .int (w.clip unsigned arg.number) := by
  cases arg with
  | null => exact absurd rfl h
  | _ => rfl

theorem bind_integer {w w' : IntWidth} {u u' : Bool} {i : Int}
    (hc : Describes d cl (.integer w u))
    (ha : (SqlType.integer w u : SqlType τ).admits (.int i) = true) :
    d.bind (.integer w' u') .plain (cl.convertArg d.enc (SqlType.imageInt w i))
      = .int (w'.clip u' i) := by
  obtain ⟨rfl, _, hm⟩ := hc
  rw [Dialect.bind, store_integer (convertArg_imageInt_ne_null w i),
    SqlType.number_convertArg hm ha]

theorem bind_binary {n n' : Nat} {b : List UInt8} (hc : Describes d cl (.binary n : SqlType τ))
    (hb : b.length = n) :
    d.bind (.binary n') .plain (cl.convertArg d.enc (.string (b.rdropWhile (· = 0))))
      = .bytes (fitBinary n' b) := by
  obtain ⟨ht, hcharset, hm, hn⟩ := hc
  rw [Column.convertArg_binary ht hcharset hm (by rw [hb, hn])]
  rfl

theorem convertArg_enum (enc : Encodings) (cl : Column) (hi : i < 65536) :
    cl.convertArg enc (.int64 (Int64.ofNat i)) = .int64 (Int64.ofNat i) ∨
      cl.convertArg enc (.int64 (Int64.ofNat i)) = .string (formatUint i) := by
  unfold Column.convertArg Column.convertUnsigned
  dsimp only [Value.asBytes]
  by_cases hu : cl.isUnsigned = true
  · rw [if_pos hu, Int64.toUInt64_ofNat', UInt64.toNat_ofNat', Nat.mod_eq_of_lt (by omega)]
    exact .inr rfl
  · rw [if_neg hu]
    exact .inl rfl

theorem toInt_ofNat (hi : i < 65536) : (Int64.ofNat i).toInt = i := by
  rw [← Int64.ofInt_eq_ofNat]
  exact Int64.toInt_ofInt_of_le (by omega) (by omega)

theorem bind_enum_plain (hi : i < 65536) :
    d.bind (.text target blob) .plain (cl.convertArg d.enc (.int64 (Int64.ofNat i)))
      = .bytes (d.convert .utf8mb4 target (formatUint i)) := by
  rcases convertArg_enum d.enc cl hi with h | h
  · rw [h]
    show Stored.bytes (d.convert .utf8mb4 target (formatInt (Int64.ofNat i).toInt)) = _
    rw [toInt_ofNat hi, formatInt, if_neg (by omega), Int.toNat_natCast]
  · rw [h]
    rfl

theorem convert_encode (target : Charset) (s : List τ) :
    d.convert .utf8mb4 target (d.encode .utf8mb4 s) = d.encode target s := by
  unfold Dialect.convert
  split
  · next h => rw [h]
  · rw [d.decode_encode]

theorem bind_enum_elt {labels : List (List τ)} {values : String} (hl : d.literals values = labels)
    (hle : i ≤ labels.length) (hi : i < 65536) :
    d.bind (.text target blob) (.elt values) (cl.convertArg d.enc (.int64 (Int64.ofNat i)))
      = if i = 0 then .null else .bytes (d.encode target (labelOf labels i)) := by
  obtain ⟨hne, hnum⟩ : cl.convertArg d.enc (.int64 (Int64.ofNat i)) ≠ .null ∧
      (cl.convertArg d.enc (.int64 (Int64.ofNat i))).number = i := by
    rcases convertArg_enum d.enc cl hi with h | h
    · rw [h]
      exact ⟨by simp, toInt_ofNat hi⟩
    · rw [h]
      exact ⟨by simp, congrArg Nat.cast (parseUint_formatUint i)⟩
  rw [Dialect.bind, if_neg hne, hnum, hl]
  cases i with
  | zero => rfl
  | succ i =>
    have hget : Dialect.elt labels ((i + 1 : Nat) : Int) = some (labelOf labels (i + 1)) := by
      have hlt : i < labels.length := by omega
      unfold Dialect.elt
      rw [if_pos (by omega), labelOf, List.getD_eq_getElem?_getD]
      simp [List.getElem?_eq_getElem hlt]
    rw [hget, if_neg (by omega)]
    show Stored.bytes (d.convert .utf8mb4 target (d.encode .utf8mb4 _)) = _
    rw [convert_encode]

theorem convertArg_text {source : Charset} (hc : Describes d cl (.text source blob))
    (b : List UInt8) :
    cl.convertArg d.enc (if blob then .bytes b else .string b)
      = if cl.charsetConversion = none ∨ source = .utf8mb4 ∧ blob = true then .bytes b
        else .string (d.decoded source b) := by
  obtain ⟨htype, _, hcharset⟩ := hc
  have hne : cl.charset ≠ "" := by
    rw [hcharset]
    cases source <;> simp [Charset.name]
  have hbytes : (if blob then Value.bytes b else .string b).asBytes = some b := by
    cases blob <;> rfl
  unfold Column.convertArg Column.convertBytes
  rw [hbytes]
  dsimp only
  rw [if_neg htype]
  by_cases hconv : cl.charsetConversion = none
  · rw [if_pos ⟨hne, hconv⟩, if_pos (.inl hconv)]
  · rw [if_neg fun h => hconv h.2, if_neg fun h => hne h.1, hcharset]
    cases source with
    | latin1 => exact (if_neg (by simp [hconv])).symm
    | gbk => exact (if_neg (by simp [hconv])).symm
    | utf8mb4 =>
      -- there is no decoder for `utf8mb4`, and the value is what the log has
      cases blob with
      | true => exact (if_pos (.inr ⟨rfl, rfl⟩)).symm
      | false => exact (if_neg (by simp [hconv])).symm

/-- **Text is decoded and converted unless its column is renamed**, or holds `utf8mb4` blobs. -/
theorem bind_text {source : Charset} {blob' : Bool} (hc : Describes d cl (.text source blob))
    (hconv : cl.charsetConversion = none ↔ renamed = true ∨ source = target) (b : List UInt8) :
    d.bind (.text target blob') .plain
        (cl.convertArg d.enc (if blob then .bytes b else .string b))
      = if source = target ∨ renamed = true ∨ source = .utf8mb4 ∧ blob = true then .bytes b
        else .bytes (d.convert .utf8mb4 target (d.decoded source b)) := by
  have hraw : (cl.charsetConversion = none ∨ source = .utf8mb4 ∧ blob = true) ↔
      (source = target ∨ renamed = true ∨ source = .utf8mb4 ∧ blob = true) := by
    rw [hconv, or_assoc, or_left_comm]
  rw [convertArg_text hc]
  split
  · next h =>
    rw [if_pos (hraw.mp h)]
    rfl
  · next h =>
    rw [if_neg fun h' => h (hraw.mpr h')]
    rfl

theorem token_plain_or_elt {target : SqlType τ} (h : Prepared d renamed source target cl token) :
    token = .plain ∨ ∃ values, token = .elt values := by
  rw [h.token]
  cases source with
  | enum labels charset =>
    cases renamed with
    | true => exact .inl rfl
    | false => exact .inr ⟨_, rfl⟩
  | _ => exact .inl rfl

/-- **What the event application stores.** -/
theorem bind_eq_written {target : SqlType τ} (hp : Handled source target)
    (h : Prepared d renamed source target cl token) {v : Stored} (hv : source.admits v = true) :
    d.bind target token (cl.convertArg d.enc (source.image v)) =
      written d renamed source target v := by
  have htokens := token_plain_or_elt h
  have htoken := h.token
  cases handledValue hp hv with
  | null => rw [image_null, convertArg_null, bind_null htokens, written_null]
  | integer ha =>
    rw [htoken]
    exact bind_integer h.describes ha
  | binary hb =>
    rw [htoken]
    exact bind_binary h.describes hb
  | enum hle hlt =>
    rw [htoken]
    cases renamed with
    | true => exact bind_enum_plain hlt
    | false => exact bind_enum_elt h.describes.2 hle hlt
  | text =>
    rw [htoken]
    exact bind_text h.describes (h.conversion _ _ _ _ rfl rfl) _

theorem written_eq_select_iff {target : SqlType τ} (hp : Handled source target) {v : Stored}
    (hv : source.admits v = true) :
    written d renamed source target v = d.select source target v ↔
      Agrees d renamed source target v := by
  cases handledValue hp hv with
  | null =>
    have hselect : d.select source target .null = .null := by
      cases source <;> cases target <;> rfl
    have hagrees : Agrees d renamed source target .null := by
      cases source <;> cases target <;> trivial
    rw [written_null, hselect]
    exact iff_of_true rfl hagrees
  | integer => exact iff_of_true rfl trivial
  | binary => exact iff_of_true rfl trivial
  | @enum labels charset target blob i =>
    cases renamed with
    | true =>
      show Stored.bytes _ = .bytes _ ↔ _
      rw [Stored.bytes.injEq, eq_comm]
      rfl
    | false =>
      show (if i = 0 then Stored.null else .bytes _) = .bytes _ ↔ i ≠ 0
      by_cases hi : i = 0
      · simp [hi]
      · simp [hi]
  | @text source target blob blob' b =>
    show (if source = target ∨ renamed = true ∨ source = .utf8mb4 ∧ blob = true then Stored.bytes b
      else .bytes (d.convert .utf8mb4 target (d.decoded source b))) =
        .bytes (d.convert source target b) ↔ source = target ∨ _
    by_cases hsame : source = target
    · rw [if_pos (.inl hsame)]
      exact iff_of_true (congrArg Stored.bytes (if_pos hsame).symm) (.inl hsame)
    · simp only [hsame, false_or]
      rw [← apply_ite Stored.bytes, Stored.bytes.injEq]

end Values

/-! ## A pair of columns -/

section Pairs

variable {d : Dialect τ}

/-- A column with what its row in `information_schema.columns` says. -/
def ColumnDef.column (c : ColumnDef d) : Column := c.info.apply { name := c.name }

theorem ColumnDef.column_charset (c : ColumnDef d) : c.column.charset = charsetName c.type := by
  show (if charsetName c.type ≠ "" then charsetName c.type else "") = charsetName c.type
  split
  · rfl
  · next h => exact (not_not.mp h).symm

theorem ColumnDef.column_type_plain (c : ColumnDef d) (h : PlainType c.columnType) :
    c.column.type = if contains c.columnType "mediumint" then .mediumInt else .unknown :=
  readColumnType_plain h .unknown

theorem ColumnDef.column_type_binary (c : ColumnDef d)
    (h : startsWith c.columnType "binary" = true) : c.column.type = .binary := by
  show readColumnType c.columnType .unknown = .binary
  unfold readColumnType
  rw [if_pos h]

/-- **The inspection describes the columns of the handled types as they are.** -/
theorem ColumnDef.describes (c : ColumnDef d) : Describes d c.column c.type := by
  have hcharset := c.column_charset
  have hr := c.renders
  cases ht : c.type with
  | integer w unsigned =>
    rw [ht] at hr
    obtain ⟨hplain, hunsigned, hmedium⟩ := hr
    refine ⟨?_, ?_, ?_⟩
    · show (false || contains c.columnType "unsigned") = unsigned
      rw [hunsigned, Bool.false_or]
    · rw [c.column_type_plain hplain]
      split
      · simp
      · simp
    · rw [c.column_type_plain hplain, ← hmedium]
      split
      · next h => simp [h]
      · next h => simp [h]
  | binary n =>
    rw [ht] at hr hcharset
    have hr : startsWith c.columnType "binary" = true := hr
    refine ⟨c.column_type_binary hr, hcharset, contains_of_startsWith hr, ?_⟩
    show (if startsWith c.columnType "binary" = true then c.info.characterOctetLength else 0) = n
    rw [if_pos hr]
    unfold ColumnDef.info
    rw [ht]
  | enum labels charset =>
    rw [ht] at hr
    obtain ⟨values, htext, hline, hlabels⟩ := hr
    obtain ⟨hstarts, htype⟩ := readColumnType_enum values .unknown
    refine ⟨?_, ?_⟩
    · show readColumnType c.columnType .unknown = .enum
      rw [htext, htype]
    · show d.literals (if startsWith c.columnType "enum" = true then parseEnumValues c.columnType
        else "") = labels
      rw [htext, if_pos hstarts, parseEnumValues_eq hline, hlabels]
  | text charset blob =>
    rw [ht] at hr hcharset
    have htype := c.column_type_plain hr
    refine ⟨?_, ?_, hcharset⟩
    · rw [htype]
      split
      · simp
      · simp
    · rw [htype]
      split
      · simp
      · simp

theorem Charset.name_injective {s t : Charset} (h : s.name = t.name) : s = t := by
  cases s <;> cases t <;> first | rfl | simp [Charset.name] at h

theorem ColumnDef.column_type_ne (c : ColumnDef d) :
    c.column.type ≠ .dateTime ∧ c.column.type ≠ .json := by
  have hplain : PlainType c.columnType → c.column.type ≠ .dateTime ∧ c.column.type ≠ .json := by
    intro h
    rw [c.column_type_plain h]
    split
    · simp
    · simp
  have hr := c.renders
  cases ht : c.type with
  | integer w unsigned =>
    rw [ht] at hr
    exact hplain hr.1
  | binary n =>
    rw [ht] at hr
    rw [c.column_type_binary hr]
    simp
  | enum labels charset =>
    have hd := c.describes
    rw [ht] at hd
    rw [hd.1]
    simp
  | text charset blob =>
    rw [ht] at hr
    exact hplain hr

theorem convertedShared_describes {cl mappedColumn : Column} {type : SqlType τ}
    (h : Describes d cl type) : Describes d (convertedShared cl mappedColumn) type := by
  unfold convertedShared
  split
  · cases type <;> exact h
  · exact h

theorem convertedShared_enumValues (cl mappedColumn : Column) :
    (convertedShared cl mappedColumn).enumValues = cl.enumValues := by
  unfold convertedShared
  split
  · rfl
  · rfl

theorem convertedShared_conversion (source target : ColumnDef d) :
    (convertedShared source.column target.column).charsetConversion = none ↔
      source.name ≠ target.name ∨ charsetName source.type = charsetName target.type := by
  have hneeds : needsCharsetConversion source.column target.column = true ↔
      source.name = target.name ∧ charsetName source.type ≠ charsetName target.type := by
    unfold needsCharsetConversion
    rw [decide_eq_true_iff, source.column_charset, target.column_charset]
    rfl
  unfold convertedShared
  split
  · next h =>
    obtain ⟨hname, hne⟩ := hneeds.mp h
    simp [setCharsetConversion, hname, hne]
  · next h =>
    refine iff_of_true rfl ?_
    by_contra hc
    exact h (hneeds.mpr ⟨by simpa using fun hn => hc (.inl hn), fun he => hc (.inr he)⟩)

theorem convertedMapped_token (tz : String) (source target : ColumnDef d) :
    (convertedMapped tz source.column target.column).valueToken
      = if needsEnumToTextConversion source.column target.column then
          .elt source.column.enumValues
        else .plain := by
  have htz : needsTimezoneConversion source.column target.column = false := by
    unfold needsTimezoneConversion
    rw [decide_eq_false_iff_not]
    exact fun h => source.column_type_ne.1 h.2.1
  unfold convertedMapped
  simp only [htz, Bool.false_eq_true, if_false]
  split
  · rfl
  · have hjson := target.column_type_ne.2
    show (if target.column.type = .json then ValueToken.convertUtf8mb4 else .plain) = .plain
    rw [if_neg hjson]

/-- **The inspection prepares every handled pair.** -/
theorem prepared_of_handled (tz : String) {source target : ColumnDef d}
    (hp : Handled source.type target.type) :
    Prepared d (decide (source.name ≠ target.name)) source.type target.type
      (convertedShared source.column target.column)
      (convertedMapped tz source.column target.column).valueToken where
  describes := convertedShared_describes source.describes
  conversion := by
    intro s b t b' hs ht
    rw [convertedShared_conversion, hs, ht, decide_eq_true_iff]
    exact or_congr Iff.rfl ⟨fun h => Charset.name_injective h, fun h => by subst h; rfl⟩
  token := by
    have hsource := source.describes
    rw [convertedMapped_token, convertedShared_enumValues]
    unfold needsEnumToTextConversion
    cases hst : source.type with
    | enum labels charset =>
      rw [hst] at hp hsource
      cases htt : target.type with
      | text target' blob =>
        have hcharset : target.column.charset ≠ "" := by
          rw [target.column_charset, htt]
          cases target' <;> simp [charsetName, Charset.name]
        have hname : source.column.name = source.name := rfl
        have hname' : target.column.name = target.name := rfl
        by_cases hn : source.name = target.name
        · simp [tokenFor, hname, hname', hn, hsource.1, hcharset]
        · simp [tokenFor, hname, hname', hn]
      | _ => rw [htt] at hp; exact hp.elim
    | integer w u =>
      rw [hst] at hsource
      simp [tokenFor, hsource.2.1]
    | binary n =>
      rw [hst] at hsource
      simp [tokenFor, hsource.1]
    | text charset blob =>
      rw [hst] at hsource
      simp [tokenFor, hsource.2.1]

end Pairs

end GhOst.Logic
