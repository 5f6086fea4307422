import Mathlib.Data.List.Basic

/-!
# Texts as bytes

The UTF-8 form of a text. It can be cut between two characters only, and an ASCII character is one
byte that occurs in the form of no other character.
-/

namespace Infra

def encode (cs : List Char) : List UInt8 := cs.flatMap String.utf8EncodeChar

def ValidUtf8 (b : List UInt8) : Prop := ∃ cs, encode cs = b

variable {c : Char} {cs ds : List Char} {x t : List UInt8}

@[simp] theorem encode_nil : encode [] = [] := rfl

theorem encode_cons (c : Char) (cs : List Char) :
    encode (c :: cs) = String.utf8EncodeChar c ++ encode cs := List.flatMap_cons

theorem encode_append (cs ds : List Char) : encode (cs ++ ds) = encode cs ++ encode ds :=
  List.flatMap_append

theorem length_le_length_encode (cs : List Char) : cs.length ≤ (encode cs).length := by
  induction cs with
  | nil => exact Nat.le_refl _
  | cons c cs ih =>
    rw [encode_cons, List.length_append, List.length_cons, String.length_utf8EncodeChar]
    have := c.utf8Size_pos
    omega

/-! ## Cutting -/

/-- No form of a character is the beginning of another. -/
theorem encodeChar_inj {d : Char}
    (h : String.utf8EncodeChar c ++ x = String.utf8EncodeChar d ++ t) : c = d ∧ x = t := by
  have hbytes := congrArg List.toByteArray h
  rw [List.toByteArray_append, List.toByteArray_append] at hbytes
  have hdecode := congrArg (ByteArray.utf8DecodeChar? · 0) hbytes
  rw [ByteArray.utf8DecodeChar?_utf8EncodeChar_append,
    ByteArray.utf8DecodeChar?_utf8EncodeChar_append] at hdecode
  obtain rfl := Option.some.inj hdecode
  exact ⟨rfl, List.append_cancel_left h⟩

/-- **What precedes in the bytes precedes in the text.** -/
theorem encode_eq_append (h : encode cs = encode ds ++ t) :
    ∃ es, cs = ds ++ es ∧ encode es = t := by
  induction ds generalizing cs with
  | nil => exact ⟨cs, rfl, h⟩
  | cons d ds ih =>
    rw [encode_cons, List.append_assoc] at h
    cases cs with
    | nil =>
      have hnil := (List.append_eq_nil_iff.mp h.symm).1
      exact absurd hnil String.utf8EncodeChar_ne_nil
    | cons c cs =>
      rw [encode_cons] at h
      obtain ⟨rfl, hrest⟩ := encodeChar_inj h
      obtain ⟨es, rfl, hes⟩ := ih hrest
      exact ⟨es, rfl, hes⟩

/-- **The first bytes of a text are a text exactly if they end between two characters.** -/
theorem validUtf8_take_iff {n : Nat} :
    ValidUtf8 ((encode cs).take n) ↔
      ∃ k, (encode (cs.take k)).length = min (encode cs).length n := by
  constructor
  · rintro ⟨ds, hds⟩
    have happend : encode cs = encode ds ++ (encode cs).drop n := by
      rw [hds, List.take_append_drop]
    obtain ⟨es, rfl, -⟩ := encode_eq_append happend
    refine ⟨ds.length, ?_⟩
    rw [List.take_left, hds, List.length_take, Nat.min_comm]
  · rintro ⟨k, hk⟩
    refine ⟨cs.take k, ?_⟩
    have happend : encode cs = encode (cs.take k) ++ encode (cs.drop k) := by
      rw [← encode_append, List.take_append_drop]
    rw [happend, List.length_append] at hk
    rw [happend, List.take_append]
    by_cases hn : (encode (cs.take k)).length ≤ n
    · have hzero : (encode (cs.drop k)).take (n - (encode (cs.take k)).length) = [] := by
        rw [List.take_eq_nil_iff, ← List.length_eq_zero_iff]
        omega
      rw [List.take_of_length_le hn, hzero, List.append_nil]
    · omega

/-! ## ASCII -/

def isAscii (c : Char) : Prop := c.utf8Size = 1

instance : DecidablePred isAscii := fun c => inferInstanceAs (Decidable (c.utf8Size = 1))

theorem encodeChar_ascii (h : isAscii c) : String.utf8EncodeChar c = [c.val.toUInt8] :=
  String.utf8EncodeChar_eq_singleton h

/-- The bytes of every other character have the highest bit. -/
theorem le_of_mem_encodeChar (h : ¬ isAscii c) {b : UInt8} (hb : b ∈ String.utf8EncodeChar c) :
    128 ≤ b.toNat := by
  have hor : ∀ (a m : UInt8), 128 ≤ m.toNat → 128 ≤ (a ||| m).toNat := by
    intro a m hm
    rw [UInt8.toNat_or]
    exact Nat.le_trans hm Nat.right_le_or
  rcases c.utf8Size_eq with hsize | hsize | hsize | hsize
  · exact absurd hsize h
  · rw [String.utf8EncodeChar_eq_cons_cons hsize] at hb
    simp only [List.mem_cons, List.not_mem_nil, or_false] at hb
    rcases hb with rfl | rfl <;> exact hor _ _ (by decide)
  · rw [String.utf8EncodeChar_eq_cons_cons_cons hsize] at hb
    simp only [List.mem_cons, List.not_mem_nil, or_false] at hb
    rcases hb with rfl | rfl | rfl <;> exact hor _ _ (by decide)
  · rw [String.utf8EncodeChar_eq_cons_cons_cons_cons hsize] at hb
    simp only [List.mem_cons, List.not_mem_nil, or_false] at hb
    rcases hb with rfl | rfl | rfl | rfl <;> exact hor _ _ (by decide)

theorem toNat_lt_of_ascii (h : isAscii c) : c.val.toUInt8.toNat < 128 := by
  have hle : c.val.toNat ≤ 127 := Char.utf8Size_eq_one_iff.mp h
  rw [UInt32.toNat_toUInt8, Nat.mod_eq_of_lt (by omega)]
  omega

/-- **Where there is the byte of an ASCII character, a text can be cut.** -/
theorem encode_eq_append_ascii (hc : isAscii c) (h : encode cs = x ++ c.val.toUInt8 :: t) :
    ValidUtf8 x := by
  induction cs generalizing x with
  | nil =>
    have hlen := congrArg List.length h
    simp at hlen
  | cons d cs ih =>
    rw [encode_cons] at h
    rcases List.append_eq_append_iff.mp h with ⟨x', rfl, hrest⟩ | ⟨more, hd, hrest⟩
    · obtain ⟨ds, hds⟩ := ih hrest
      exact ⟨d :: ds, by rw [encode_cons, hds]⟩
    · cases x with
      | nil => exact ⟨[], rfl⟩
      | cons b x =>
        cases more with
        | nil =>
          rw [List.append_nil] at hd
          exact ⟨[d], by rw [encode_cons, encode_nil, List.append_nil, hd]⟩
        | cons b' more =>
          -- the byte would be in the form of a longer character
          obtain ⟨rfl, -⟩ := List.cons.inj hrest
          have hsize : ¬ isAscii d := by
            intro hascii
            have hlen := congrArg List.length hd
            rw [encodeChar_ascii hascii] at hlen
            simp at hlen
          have hmem : c.val.toUInt8 ∈ String.utf8EncodeChar d := by
            rw [hd]
            simp
          have hge := le_of_mem_encodeChar hsize hmem
          have hlt := toNat_lt_of_ascii hc
          omega

theorem ValidUtf8.append (hx : ValidUtf8 x) (ht : ValidUtf8 t) : ValidUtf8 (x ++ t) := by
  obtain ⟨cs, rfl⟩ := hx
  obtain ⟨ds, rfl⟩ := ht
  exact ⟨cs ++ ds, encode_append cs ds⟩

/-- Between a text and an ASCII character. -/
theorem validUtf8_between_iff {d : Char} {es : List Char} (hd : isAscii d) :
    ValidUtf8 (encode ds ++ x ++ encode (d :: es)) ↔ ValidUtf8 x := by
  constructor
  · rintro ⟨cs, hcs⟩
    rw [List.append_assoc] at hcs
    obtain ⟨rest, -, hrest⟩ := encode_eq_append hcs
    rw [encode_cons, encodeChar_ascii hd, List.singleton_append] at hrest
    exact encode_eq_append_ascii hd hrest
  · intro hx
    exact (ValidUtf8.append ⟨ds, rfl⟩ hx).append ⟨d :: es, rfl⟩

end Infra
