import Mathlib.Data.Finset.Max
import GhOst.Infra.RegexpMatches
import GhOst.Logic.InstanceKeys

/-!
# Lists of instance keys are read back, but for IPv6 addresses

A key is printed as `host:port`. A host without a colon is read back, by the first of the
expressions. An IPv6 address is printed without brackets, so that the text is read as one longer
address, with the default port.
-/

namespace GhOst.Logic

open Infra Infra.Regexp GhOst.Mysql

/-! ## What the expressions match -/

section Expressions

variable {p : Char → Bool} {s host port : List Char} {m : Match}

/-- `host:port`, with no other colon. -/
structure IsHostPort (s host port : List Char) : Prop where
  text : s = host ++ ':' :: port
  host_ne : host ≠ []
  colon : ':' ∉ host
  port_ne : port ≠ []
  digits : ∀ c ∈ port, c.isDigit = true

theorem IsHostPort.unique {host' port' : List Char} (h : IsHostPort s host port)
    (h' : IsHostPort s host' port') : host = host' ∧ port = port' := by
  have hhost : ∀ {host port : List Char}, IsHostPort s host port →
      s.takeWhile (· ≠ ':') = host := by
    intro host port h
    have hne : ∀ c ∈ host, decide (c ≠ ':') = true := by
      intro c hc
      exact decide_eq_true fun heq => h.colon (heq ▸ hc)
    rw [h.text, List.takeWhile_append_of_pos hne, List.takeWhile_cons_of_neg (by simp),
      List.append_nil]
  have heq : host = host' := (hhost h).symm.trans (hhost h')
  have htext := h.text.symm.trans h'.text
  rw [heq] at htext
  exact ⟨heq, (List.cons.inj (List.append_cancel_left htext)).2⟩

theorem findAtStart_whole :
    (wholeRegexp p).findAtStart s = some m ↔
      s ≠ [] ∧ (∀ c ∈ s, p c = true) ∧ m = { taken := s, rest := [], groups := [(1, s)] } := by
  have hmem : ∀ m, m ∈ (wholeRegexp p).run none s ↔
      s ≠ [] ∧ (∀ c ∈ s, p c = true) ∧ m = { taken := s, rest := [], groups := [(1, s)] } := by
    intro m
    rw [wholeRegexp, mem_run_group_plus_seq]
    constructor
    · rintro ⟨w, rest, rfl, hne, hw, m', hm', rfl⟩
      obtain ⟨rfl, rfl⟩ := mem_run_endOfText.mp hm'
      rw [List.append_nil]
      exact ⟨hne, hw, rfl⟩
    · rintro ⟨hne, hs, rfl⟩
      exact ⟨s, [], (List.append_nil s).symm, hne, hs, _, mem_run_endOfText.mpr ⟨rfl, rfl⟩,
        by rw [List.append_nil]⟩
  constructor
  · intro h
    exact (hmem m).mp (mem_of_first h)
  · intro h
    refine first_eq_of_unique ((hmem m).mpr h) fun m' hm' => ?_
    rw [((hmem m').mp hm').2.2, h.2.2]

theorem mem_run_hostPort : m ∈ ipv4HostPortRegexp.run none s ↔
    ∃ host port, IsHostPort s host port ∧
      m = { taken := s, rest := [], groups := [(1, host), (2, port)] } := by
  rw [ipv4HostPortRegexp, mem_run_group_plus_seq]
  constructor
  · rintro ⟨host, rest, rfl, hne, hhost, m', hm', rfl⟩
    obtain ⟨rest', rfl, m₁, hm₁, rfl⟩ := mem_run_literal_seq.mp hm'
    obtain ⟨port, rest'', rfl, hport, hdigits, m₂, hm₂, rfl⟩ := mem_run_group_plus_seq.mp hm₁
    obtain ⟨rfl, rfl⟩ := mem_run_endOfText.mp hm₂
    refine ⟨host, port, ⟨by simp, hne, ?_, hport, hdigits⟩, by simp⟩
    intro hcolon
    exact absurd (hhost _ hcolon) (by decide)
  · rintro ⟨host, port, h, rfl⟩
    refine ⟨host, ':' :: port, h.text, h.host_ne, ?_, _, mem_run_literal_seq.mpr ⟨port, rfl, _,
      mem_run_group_plus_seq.mpr ⟨port, [], (List.append_nil port).symm, h.port_ne, h.digits, _,
        mem_run_endOfText.mpr ⟨rfl, rfl⟩, rfl⟩, rfl⟩, ?_⟩
    · intro c hc
      exact decide_eq_true fun heq => h.colon (heq ▸ hc)
    · simp [h.text]

theorem hostPort_of_find (h : ipv4HostPortRegexp.findAtStart s = some m) :
    IsHostPort s (m.submatch 1) (m.submatch 2) := by
  obtain ⟨host, port, hform, rfl⟩ := mem_run_hostPort.mp (mem_of_first h)
  exact hform

theorem find_hostPort (h : IsHostPort s host port) :
    ipv4HostPortRegexp.findAtStart s =
      some { taken := s, rest := [], groups := [(1, host), (2, port)] } := by
  refine first_eq_of_unique (mem_run_hostPort.mpr ⟨host, port, h, rfl⟩) fun m' hm' => ?_
  obtain ⟨host', port', h', rfl⟩ := mem_run_hostPort.mp hm'
  obtain ⟨rfl, rfl⟩ := h.unique h'
  rfl

theorem find_hostPort_eq_none (h : ∀ host port, ¬ IsHostPort s host port) :
    ipv4HostPortRegexp.findAtStart s = none := by
  cases hfind : ipv4HostPortRegexp.findAtStart s with
  | none => rfl
  | some m => exact absurd (hostPort_of_find hfind) (h _ _)

theorem bracketed_of_find (h : ipv6HostPortRegexp.findAtStart s = some m) :
    ∃ host port, s = '[' :: host ++ ']' :: ':' :: port ∧ host ≠ [] ∧
      (∀ c ∈ host, isAddressChar c = true) ∧ port ≠ [] ∧ (∀ c ∈ port, c.isDigit = true) ∧
      m.submatch 1 = host ∧ m.submatch 2 = port := by
  have hmem := mem_of_first h
  rw [ipv6HostPortRegexp, mem_run_literal_seq] at hmem
  obtain ⟨rest, rfl, m₁, hm₁, rfl⟩ := hmem
  obtain ⟨host, rest', rfl, hne, hhost, m₂, hm₂, rfl⟩ := mem_run_group_plus_seq.mp hm₁
  obtain ⟨rest'', rfl, m₃, hm₃, rfl⟩ := mem_run_literal_seq.mp hm₂
  obtain ⟨m₄, hm₄, m₅, hm₅, rfl⟩ := mem_run_seq.mp hm₃
  obtain ⟨m₆, hm₆, rfl⟩ := mem_run_group.mp hm₄
  obtain ⟨hrest, hport, hdigits, hgroups⟩ := taken_of_mem_run_upTo hm₆
  obtain ⟨hend, rfl⟩ := mem_run_endOfText.mp hm₅
  dsimp only at hend
  rw [hend, List.append_nil] at hrest
  refine ⟨host, m₆.taken, by simp [hrest], hne, hhost, hport, hdigits, rfl, rfl⟩

end Expressions

/-! ## What is parsed -/

/-- A host, or `host:port`, with no other colon. -/
def PlainAddress (s : List Char) : Prop := ':' ∉ s ∨ ∃ host port, IsHostPort s host port

structure Listed (key : InstanceKey) : Prop where
  hostname_ne : key.hostname.toList ≠ []
  comma : ',' ∉ key.hostname.toList
  port_nonneg : 0 ≤ key.port
  port_lt : key.port < 2 ^ 63
  /-- only an IPv6 address has a colon -/
  address : ':' ∈ key.hostname.toList → ∀ c ∈ key.hostname.toList, isAddressChar c = true

section Parsing

variable {hostPort : String} {hostname port : List Char} {key : InstanceKey}

theorem atoi_digits_nonneg {s : List Char} {n : Int} (hs : ∀ c ∈ s, c.isDigit = true)
    (h : atoi s = some n) : 0 ≤ n := by
  unfold atoi at h
  dsimp only at h
  split at h
  · exact absurd (hs '-' List.mem_cons_self) (by decide)
  · exact absurd (hs '+' List.mem_cons_self) (by decide)
  · split at h
    · cases h
    · split at h
      · cases h
      · rw [if_neg Bool.false_ne_true] at h
        split at h
        · cases h
          exact Int.natCast_nonneg _
        · cases h

theorem instanceKeyOf_spec (hdigits : ∀ c ∈ port, c.isDigit = true)
    (h : instanceKeyOf hostname port = .ok key) :
    key.hostname.toList = hostname ∧ 0 ≤ key.port ∧ key.port < 2 ^ 63 := by
  unfold instanceKeyOf at h
  split at h
  · cases h
    exact ⟨String.toList_ofList, (by decide : 0 ≤ defaultInstancePort),
      (by decide : defaultInstancePort < 2 ^ 63)⟩
  · split at h
    · next n hn =>
      cases h
      exact ⟨String.toList_ofList, atoi_digits_nonneg hdigits hn, (atoi_range hn).2⟩
    · cases h

/-- **What `ParseInstanceKey` accepts**: a plain address gives a host without a colon, anything else
an IPv6 address. -/
theorem parseInstanceKey_spec (h : parseInstanceKey hostPort = .ok key)
    (hcomma : ',' ∉ hostPort.toList) :
    Listed key ∧ (PlainAddress hostPort.toList ↔ ':' ∉ key.hostname.toList) := by
  unfold parseInstanceKey newRawInstanceKey at h
  generalize hostPort.toList = s at h hcomma
  split at h
  · next m hfind =>
    have hform := hostPort_of_find hfind
    obtain ⟨hname, hnonneg, hlt⟩ := instanceKeyOf_spec hform.digits h
    refine ⟨⟨hname ▸ hform.host_ne, fun hc => hcomma ?_, hnonneg, hlt, fun hc => ?_⟩, ?_⟩
    · rw [hname] at hc
      exact hform.text ▸ List.mem_append_left _ hc
    · exact absurd (hname ▸ hc) hform.colon
    · exact iff_of_true (.inr ⟨_, _, hform⟩) (hname ▸ hform.colon)
  · next hnone =>
    have hnot : ∀ host port, ¬ IsHostPort s host port := by
      intro host port hform
      rw [find_hostPort hform] at hnone
      cases hnone
    split at h
    · next m hfind =>
      obtain ⟨hne, hall, rfl⟩ := findAtStart_whole.mp hfind
      have hcolon : ':' ∉ s := fun hc => absurd (hall _ hc) (by decide)
      obtain ⟨hname, hnonneg, hlt⟩ := instanceKeyOf_spec (by simp) h
      have hname : key.hostname.toList = s := hname
      exact ⟨⟨hname ▸ hne, hname ▸ hcomma, hnonneg, hlt, fun hc => absurd (hname ▸ hc) hcolon⟩,
        iff_of_true (.inl hcolon) (hname ▸ hcolon)⟩
    · next hnone₂ =>
      -- a colon, and not of the form `host:port`
      have hcolon : ':' ∈ s ∨ s = [] := by
        by_contra hno
        rw [not_or] at hno
        have hne : ∀ c ∈ s, decide (c ≠ ':') = true := by
          intro c hc
          exact decide_eq_true fun heq => hno.1 (heq ▸ hc)
        rw [ipv4HostRegexp, findAtStart_whole.mpr ⟨hno.2, hne, rfl⟩] at hnone₂
        cases hnone₂
      split at h
      · next m hfind =>
        obtain ⟨host, port, rfl, hne, haddress, hport, hdigits, hhost, hsub⟩ :=
          bracketed_of_find hfind
        rw [hhost, hsub] at h
        obtain ⟨hname, hnonneg, hlt⟩ := instanceKeyOf_spec hdigits h
        have hcolon' : ':' ∈ host := by
          by_contra hno
          refine hnot ('[' :: host ++ [']']) port ⟨by simp, by simp, ?_, hport, hdigits⟩
          simpa using hno
        refine ⟨⟨hname ▸ hne, fun hc => hcomma ?_, hnonneg, hlt, fun _ => hname ▸ haddress⟩, ?_⟩
        · rw [hname] at hc
          simp [hc]
        · refine iff_of_false ?_ (not_not_intro (hname ▸ hcolon'))
          rintro (hno | ⟨host', port', hform⟩)
          · exact hno (by simp)
          · exact hnot _ _ hform
      · split at h
        · next m hfind =>
          obtain ⟨hne, hall, rfl⟩ := findAtStart_whole.mp hfind
          obtain ⟨hname, hnonneg, hlt⟩ := instanceKeyOf_spec (by simp) h
          have hname : key.hostname.toList = s := hname
          have hcolon' : ':' ∈ s := hcolon.resolve_right hne
          refine ⟨⟨hname ▸ hne, hname ▸ hcomma, hnonneg, hlt, fun _ => hname ▸ hall⟩,
            iff_of_false ?_ (not_not_intro (hname ▸ hcolon'))⟩
          rintro (hno | ⟨host', port', hform⟩)
          · exact hno hcolon'
          · exact hnot _ _ hform
        · cases h

end Parsing

/-! ## What is printed -/

namespace InstanceKey

def reread (key : InstanceKey) : InstanceKey :=
  if ':' ∈ key.hostname.toList then { hostname := key.stringCode, port := defaultInstancePort }
  else key

variable {key : InstanceKey}

theorem toList_stringCode (h : 0 ≤ key.port) :
    key.stringCode.toList = key.hostname.toList ++ ':' :: Nat.toDigits 10 key.port.toNat := by
  obtain ⟨n, hn⟩ := Int.eq_ofNat_of_zero_le h
  unfold stringCode
  rw [String.toList_append, String.toList_append, List.append_assoc, hn]
  show key.hostname.toList ++ ':' :: (toString (Int.ofNat n)).toList = _
  rw [toList_toString_ofNat]
  rfl

theorem comma_not_mem_stringCode (h : Listed key) : ',' ∉ key.stringCode.toList := by
  rw [toList_stringCode h.port_nonneg, List.mem_append, List.mem_cons]
  rintro (hc | hc | hc)
  · exact h.comma hc
  · exact absurd hc (by decide)
  · exact absurd (isDigit_of_mem_digits hc) (by decide)

/-- **A printed key is read back, except that an IPv6 address takes the port for its last part.** -/
theorem parse_stringCode (h : Listed key) : parseInstanceKey key.stringCode = .ok key.reread := by
  have htext := toList_stringCode h.port_nonneg
  have hdigits : ∀ c ∈ Nat.toDigits 10 key.port.toNat, c.isDigit = true := fun c hc =>
    isDigit_of_mem_digits hc
  unfold parseInstanceKey newRawInstanceKey reread
  by_cases hcolon : ':' ∈ key.hostname.toList
  · have hall : ∀ c ∈ key.stringCode.toList, isAddressChar c = true := by
      intro c hc
      rw [htext, List.mem_append, List.mem_cons] at hc
      rcases hc with hc | rfl | hc
      · exact h.address hcolon c hc
      · decide
      · simp [isAddressChar, hdigits c hc]
    have hfirst : ipv4HostPortRegexp.findAtStart key.stringCode.toList = none := by
      refine find_hostPort_eq_none fun host port hform => ?_
      -- the colon of the host is not before the last part
      have htwo : 2 ≤ key.stringCode.toList.count ':' := by
        rw [htext, List.count_append, List.count_cons_self]
        have := List.count_pos_iff.mpr hcolon
        omega
      have hone : key.stringCode.toList.count ':' = 1 := by
        rw [hform.text, List.count_append, List.count_cons_self,
          List.count_eq_zero_of_not_mem hform.colon,
          List.count_eq_zero_of_not_mem fun hc => absurd (hform.digits _ hc) (by decide)]
      omega
    have hsecond : ipv4HostRegexp.findAtStart key.stringCode.toList = none := by
      cases hfind : ipv4HostRegexp.findAtStart key.stringCode.toList with
      | none => rfl
      | some m =>
        have hcolon' : ':' ∈ key.stringCode.toList := htext ▸ List.mem_append_left _ hcolon
        exact absurd ((findAtStart_whole.mp hfind).2.1 _ hcolon') (by decide)
    have hthird : ipv6HostPortRegexp.findAtStart key.stringCode.toList = none := by
      cases hfind : ipv6HostPortRegexp.findAtStart key.stringCode.toList with
      | none => rfl
      | some m =>
        obtain ⟨host, port, hs, -⟩ := bracketed_of_find hfind
        exact absurd (hall '[' (hs ▸ by simp)) (by decide)
    have hne : key.stringCode.toList ≠ [] := by
      rw [htext]
      simp
    rw [hfirst, hsecond, hthird, ipv6HostRegexp, findAtStart_whole.mpr ⟨hne, hall, rfl⟩,
      if_pos hcolon]
    show instanceKeyOf key.stringCode.toList [] = _
    rw [instanceKeyOf, if_pos rfl, String.ofList_toList]
  · have hform : IsHostPort key.stringCode.toList key.hostname.toList
        (Nat.toDigits 10 key.port.toNat) :=
      ⟨htext, h.hostname_ne, hcolon, Nat.toDigits_ne_nil, hdigits⟩
    have hport : atoi (Nat.toDigits 10 key.port.toNat) = some key.port := by
      obtain ⟨n, hn⟩ := Int.eq_ofNat_of_zero_le h.port_nonneg
      have hread := atoi_toString (by have := h.port_nonneg; omega : -(2 ^ 63) ≤ key.port) h.port_lt
      rw [hn] at hread ⊢
      exact toList_toString_ofNat n ▸ hread
    rw [find_hostPort hform, if_neg hcolon]
    show instanceKeyOf key.hostname.toList (Nat.toDigits 10 key.port.toNat) = _
    rw [instanceKeyOf, if_neg Nat.toDigits_ne_nil, hport, String.ofList_toList]

end InstanceKey

/-! ## Reading lists -/

section Lists

variable {ikm m order : List InstanceKey} {tokens : List String} {list : String}

theorem readTokens_cons {token : String} (h : readTokens ikm (token :: tokens) = (m, none)) :
    ∃ key, parseInstanceKey token = .ok key ∧ readTokens (ikm.insert key) tokens = (m, none) := by
  rw [readTokens] at h
  split at h
  · cases h
  · next key hkey => exact ⟨key, hkey, h⟩

theorem readTokens_nodup (h : readTokens ikm tokens = (m, none)) (hikm : ikm.Nodup) : m.Nodup := by
  induction tokens generalizing ikm with
  | nil =>
    obtain rfl : ikm = m := congrArg Prod.fst h
    exact hikm
  | cons token tokens ih =>
    obtain ⟨key, -, hrest⟩ := readTokens_cons h
    exact ih hrest (hikm.insert)

theorem mem_readTokens (h : readTokens ikm tokens = (m, none)) (key : InstanceKey) :
    key ∈ m ↔ key ∈ ikm ∨ ∃ token ∈ tokens, parseInstanceKey token = .ok key := by
  induction tokens generalizing ikm with
  | nil =>
    obtain rfl : ikm = m := congrArg Prod.fst h
    simp
  | cons token tokens ih =>
    obtain ⟨first, hfirst, hrest⟩ := readTokens_cons h
    rw [ih hrest, List.mem_insert_iff, List.exists_mem_cons_iff, hfirst, Except.ok.injEq,
      eq_comm (a := first), or_assoc, or_left_comm]

theorem parsed_of_readTokens (h : readTokens ikm tokens = (m, none)) :
    ∀ token ∈ tokens, ∃ key, parseInstanceKey token = .ok key := by
  induction tokens generalizing ikm with
  | nil => exact fun _ htoken => absurd htoken List.not_mem_nil
  | cons first tokens ih =>
    obtain ⟨key, hkey, hrest⟩ := readTokens_cons h
    intro token htoken
    rcases List.mem_cons.mp htoken with rfl | htoken
    · exact ⟨key, hkey⟩
    · exact ih hrest token htoken

theorem readTokens_succeeds (h : ∀ token ∈ tokens, ∃ key, parseInstanceKey token = .ok key) :
    ∃ m, readTokens ikm tokens = (m, none) := by
  induction tokens generalizing ikm with
  | nil => exact ⟨ikm, rfl⟩
  | cons token tokens ih =>
    obtain ⟨key, hkey⟩ := h token List.mem_cons_self
    rw [readTokens, hkey]
    exact ih fun other hother => h other (List.mem_cons_of_mem _ hother)

def listTokens (list : String) : List String := if list = "" then [] else split ',' list

theorem readCommaDelimitedList_eq (ikm : List InstanceKey) (list : String) :
    readCommaDelimitedList ikm list = readTokens ikm (listTokens list) := by
  unfold readCommaDelimitedList listTokens
  split <;> rfl

theorem comma_not_mem_listTokens {token : String} (h : token ∈ listTokens list) :
    ',' ∉ token.toList := by
  unfold listTokens at h
  split at h
  · cases h
  · exact (mem_split h).1

theorem listTokens_toCommaDelimitedList (h : ∀ key ∈ order, Listed key) :
    listTokens (toCommaDelimitedList order) = order.map InstanceKey.stringCode := by
  unfold listTokens toCommaDelimitedList
  cases order with
  | nil => rfl
  | cons first rest =>
    have hsplit := @split_join ',' ((first :: rest).map InstanceKey.stringCode) (by simp)
      fun part hpart => by
        obtain ⟨key, hkey, rfl⟩ := List.mem_map.mp hpart
        exact InstanceKey.comma_not_mem_stringCode (h key hkey)
    have hne : join ',' ((first :: rest).map InstanceKey.stringCode) ≠ "" := by
      intro hempty
      rw [hempty] at hsplit
      have hfirst := congrArg String.toList (List.cons.inj hsplit).1
      rw [InstanceKey.toList_stringCode (h first List.mem_cons_self).port_nonneg] at hfirst
      simp at hfirst
    rw [if_neg hne, hsplit]

theorem no_colon_of_reread_mem (h : ∀ key ∈ m, key.reread ∈ m) :
    ∀ key ∈ m, ':' ∉ key.hostname.toList := by
  intro key hkey hcolon
  let addresses := m.toFinset.filter fun key => ':' ∈ key.hostname.toList
  have hne : addresses.Nonempty := ⟨key, by simp [addresses, hkey, hcolon]⟩
  obtain ⟨longest, hlongest, hmax⟩ :=
    addresses.exists_max_image (fun key => key.hostname.toList.length) hne
  rw [Finset.mem_filter, List.mem_toFinset] at hlongest
  have hreread := h longest hlongest.1
  unfold InstanceKey.reread at hreread
  rw [if_pos hlongest.2] at hreread
  have hlonger : longest.hostname.toList.length < longest.stringCode.toList.length := by
    unfold InstanceKey.stringCode
    simp only [String.toList_append, List.length_append]
    have : (":" : String).toList.length = 1 := rfl
    omega
  have hcolon' : ':' ∈ longest.stringCode.toList := by
    unfold InstanceKey.stringCode
    simp only [String.toList_append, List.mem_append]
    exact .inl (.inl hlongest.2)
  have hle := hmax _ (Finset.mem_filter.mpr ⟨List.mem_toFinset.mpr hreread, hcolon'⟩)
  dsimp only at hle
  omega

/-- **The text of a list that was read gives the same set, in every order, exactly if no entry of
the list is an IPv6 address**: each is a host, or a host and a port, with no other colon. -/
theorem control_replicas_round_trip_iff {list : String} {m : List InstanceKey}
    (h : readCommaDelimitedList [] list = (m, none)) (order : List InstanceKey)
    (horder : order.Perm m) :
    (∃ m', readCommaDelimitedList [] (toCommaDelimitedList order) = (m', none) ∧ m'.Perm m) ↔
      ∀ token ∈ split ',' list, PlainAddress token.toList := by
  rw [readCommaDelimitedList_eq] at h
  have hmem := mem_readTokens h
  have hspec : ∀ token ∈ listTokens list, ∀ key, parseInstanceKey token = .ok key →
      Listed key ∧ (PlainAddress token.toList ↔ ':' ∉ key.hostname.toList) :=
    fun token htoken key hkey => parseInstanceKey_spec hkey (comma_not_mem_listTokens htoken)
  have hlisted : ∀ key ∈ order, Listed key := by
    intro key hkey
    rcases (hmem key).mp (horder.mem_iff.mp hkey) with hkey | ⟨token, htoken, hparsed⟩
    · cases hkey
    · exact (hspec token htoken key hparsed).1
  -- the condition on the list is one on the keys
  have hplain : (∀ token ∈ split ',' list, PlainAddress token.toList) ↔
      ∀ key ∈ m, ':' ∉ key.hostname.toList := by
    have hparsed : ∀ token ∈ listTokens list, ∃ key, parseInstanceKey token = .ok key :=
      parsed_of_readTokens h
    have htokens : (∀ token ∈ split ',' list, PlainAddress token.toList) ↔
        ∀ token ∈ listTokens list, PlainAddress token.toList := by
      unfold listTokens
      split
      · next hempty =>
        rw [hempty]
        exact iff_of_true (by simp [split, PlainAddress]) (by simp)
      · rfl
    rw [htokens]
    constructor
    · intro hall key hkey
      rcases (hmem key).mp hkey with hkey | ⟨token, htoken, hparsed⟩
      · cases hkey
      · exact (hspec token htoken key hparsed).2.mp (hall token htoken)
    · intro hall token htoken
      obtain ⟨key, hkey⟩ := hparsed token htoken
      exact (hspec token htoken key hkey).2.mpr
        (hall key ((hmem key).mpr (.inr ⟨token, htoken, hkey⟩)))
  have hreread : ∃ m', readTokens [] (order.map InstanceKey.stringCode) = (m', none) := by
    refine readTokens_succeeds fun token htoken => ?_
    obtain ⟨key, hkey, rfl⟩ := List.mem_map.mp htoken
    exact ⟨_, InstanceKey.parse_stringCode (hlisted key hkey)⟩
  obtain ⟨m', hm'⟩ := hreread
  have hmem' : ∀ key, key ∈ m' ↔ ∃ other ∈ m, other.reread = key := by
    intro key
    rw [mem_readTokens hm']
    constructor
    · rintro (hkey | ⟨token, htoken, hparsed⟩)
      · cases hkey
      · obtain ⟨other, hother, rfl⟩ := List.mem_map.mp htoken
        rw [InstanceKey.parse_stringCode (hlisted other hother)] at hparsed
        exact ⟨other, horder.mem_iff.mp hother, Except.ok.inj hparsed⟩
    · rintro ⟨other, hother, rfl⟩
      have hother' := horder.mem_iff.mpr hother
      exact .inr ⟨_, List.mem_map_of_mem hother', InstanceKey.parse_stringCode (hlisted _ hother')⟩
  rw [hplain, readCommaDelimitedList_eq, listTokens_toCommaDelimitedList hlisted]
  constructor
  · rintro ⟨m'', hm'', hperm⟩
    obtain rfl : m' = m'' := congrArg Prod.fst (hm'.symm.trans hm'')
    exact no_colon_of_reread_mem fun key hkey => hperm.mem_iff.mp ((hmem' _).mpr ⟨key, hkey, rfl⟩)
  · intro hcolon
    have hsame : ∀ key ∈ m, key.reread = key := fun key hkey => if_neg (hcolon key hkey)
    refine ⟨m', hm', (List.perm_ext_iff_of_nodup (readTokens_nodup hm' List.nodup_nil)
      (readTokens_nodup h List.nodup_nil)).mpr fun key => ?_⟩
    rw [hmem']
    constructor
    · rintro ⟨other, hother, rfl⟩
      rw [hsame other hother]
      exact hother
    · exact fun hkey => ⟨key, hkey, hsame key hkey⟩

theorem control_replicas_round_trip_iff_small :
    ∃ m', readCommaDelimitedList [] (toCommaDelimitedList [⟨"b", 3307⟩, ⟨"a", 3306⟩]) = (m', none) ∧
      m'.Perm [⟨"b", 3307⟩, ⟨"a", 3306⟩] := by
  refine (control_replicas_round_trip_iff
    (by decide +kernel : readCommaDelimitedList [] "a,b:3307" = ([⟨"b", 3307⟩, ⟨"a", 3306⟩], none))
    _ (List.Perm.refl _)).mpr ?_
  intro token htoken
  have htokens : split ',' "a,b:3307" = ["a", "b:3307"] := by decide +kernel
  rw [htokens, List.mem_cons, List.mem_singleton] at htoken
  rcases htoken with rfl | rfl
  · exact .inl (by decide)
  · exact .inr ⟨['b'], "3307".toList, by decide, by decide, by decide, by decide,
      forall_mem_of_all (by decide)⟩

/-- An IPv6 address, with and without a port. -/
theorem control_replicas_reread_wrong :
    readCommaDelimitedList [] "[2001:db8::1]:3308" = ([⟨"2001:db8::1", 3308⟩], none) ∧
    toCommaDelimitedList [⟨"2001:db8::1", 3308⟩] = "2001:db8::1:3308" ∧
    readCommaDelimitedList [] "2001:db8::1:3308" = ([⟨"2001:db8::1:3308", 3306⟩], none) ∧
    readCommaDelimitedList [] "::1" = ([⟨"::1", 3306⟩], none) ∧
    readCommaDelimitedList [] (toCommaDelimitedList [⟨"::1", 3306⟩]) =
      ([⟨"::1:3306", 3306⟩], none) := by
  decide +kernel

end Lists

end GhOst.Logic
