import Mathlib.Data.List.GetD
import Mathlib.Tactic.NormNum
import Dnsid.Transport.IpSpellings

/-! # Which addresses are unsafe, and which are private

`isUnsafeIp` and `isPrivateOrLoopbackIp` as functions of the address that a text denotes. An IPv6 address is sixteen bytes; as
a number it has the first twelve bytes, `high`, above the thirty-two bits of the quad that can be embedded in it.
-/
namespace Dnsid.Transport
open Dnsid.Foundations
open Dnsid.Foundations.JsonText (isHexDigit)
set_option autoImplicit false

/-! ## Addresses -/

structure Ipv6Address where
  bytes : List ℕ
  length_bytes : bytes.length = 16
  lt_of_mem : ∀ b ∈ bytes, b < 0x100

inductive IpAddress where
  | v4 (quad : Quad)
  | v6 (address : Ipv6Address)

/-- The number that bytes are, the first one on top. -/
def bytesValue (bytes : List ℕ) : ℕ := bytes.foldl (fun n b => n * 0x100 + b) 0

def Quad.value (q : Quad) : ℕ := bytesValue q.bytes

def Ipv6Address.value (a : Ipv6Address) : ℕ := bytesValue a.bytes

/-- The text is a spelling of the address. A zone index may follow an IPv6 address. -/
def Spells (text : List Char) : IpAddress → Prop
  | .v4 q => text = q.text
  | .v6 a => ∃ (s : Spelling) (zone : List Char), text = s.text ++ zone ∧ isZone zone = true ∧ s.bytes = a.bytes

/-- A spelling of the address, in brackets or without. -/
def Denotes (address : List Char) (a : IpAddress) : Prop :=
  Spells address a ∨ ∃ text, Spells text a ∧ address = '[' :: (text ++ [']'])

/-- What is left of the text without brackets and zone index spells the address. -/
def NormalizesTo (address : List Char) : IpAddress → Prop
  | .v4 q => normalizeAddress address = q.text
  | .v6 a => ∃ s : Spelling, normalizeAddress address = s.text ∧ s.bytes = a.bytes

/-- The block of the addresses that agree with `base` above the `host` lowest bits. -/
def InBlock (host value base : ℕ) : Prop := value / 2 ^ host = base / 2 ^ host

/-- 10.0.0.0/8, 127.0.0.0/8, 172.16.0.0/12, 192.168.0.0/16. -/
def Quad.Private (q : Quad) : Prop :=
  InBlock 24 q.value (Quad.value ⟨10, 0, 0, 0⟩) ∨ InBlock 24 q.value (Quad.value ⟨127, 0, 0, 0⟩) ∨
    InBlock 20 q.value (Quad.value ⟨172, 16, 0, 0⟩) ∨ InBlock 16 q.value (Quad.value ⟨192, 168, 0, 0⟩)

/-- The IPv4-mapped or the IPv4-compatible form of the quad. -/
def Ipv6Address.Embeds (a : Ipv6Address) (q : Quad) : Prop := a.value = 0xffff * 2 ^ 32 + q.value ∨ a.value = q.value

/-- Private addresses, the loopback address ::1, fc00::/7, and the forms of private quads. -/
def IpAddress.Private : IpAddress → Prop
  | .v4 q => q.Private
  | .v6 a => a.value = 1 ∨ InBlock 121 a.value (0xfc * 2 ^ 120) ∨ ∃ q : Quad, q.Private ∧ a.Embeds q

/-! ## Numbers of bytes -/

theorem bytesValue_append (front back : List ℕ) :
    bytesValue (front ++ back) = bytesValue front * 0x100 ^ back.length + bytesValue back := by
  induction back using List.reverseRecOn with
  | nil => simp [bytesValue]
  | append_singleton back b ih =>
    have hsnoc : ∀ bytes : List ℕ, bytesValue (bytes ++ [b]) = bytesValue bytes * 0x100 + b := by
      intro bytes
      rw [bytesValue, List.foldl_append]
      rfl
    rw [← List.append_assoc, hsnoc, hsnoc, ih, List.length_append, List.length_singleton, Nat.pow_succ, Nat.add_mul,
      Nat.mul_assoc, Nat.add_assoc]

theorem bytesValue_lt {bytes : List ℕ} (h : ∀ b ∈ bytes, b < 0x100) : bytesValue bytes < 0x100 ^ bytes.length := by
  induction bytes with
  | nil => exact Nat.one_pos
  | cons b bytes ih =>
    rw [List.forall_mem_cons] at h
    have hsplit := bytesValue_append [b] bytes
    have hb : bytesValue [b] = b := by simp [bytesValue]
    rw [List.singleton_append, hb] at hsplit
    have hrest := ih h.2
    rw [hsplit, List.length_cons, Nat.pow_succ]
    have hle : (b + 1) * 0x100 ^ bytes.length ≤ 0x100 * 0x100 ^ bytes.length := Nat.mul_le_mul_right _ h.1
    rw [Nat.add_mul, Nat.one_mul] at hle
    omega

theorem bytesValue_eq_zero {bytes : List ℕ} : bytesValue bytes = 0 ↔ bytes.all (· = 0) = true := by
  rw [List.all_eq_true]
  induction bytes with
  | nil => simp [bytesValue]
  | cons b bytes ih =>
    have hsplit := bytesValue_append [b] bytes
    have hb : bytesValue [b] = b := by simp [bytesValue]
    rw [List.singleton_append, hb] at hsplit
    rw [hsplit, List.forall_mem_cons, ← ih, Nat.add_eq_zero_iff, Nat.mul_eq_zero, decide_eq_true_eq]
    simp

theorem Quad.value_eq (q : Quad) :
    q.value = ((q.a.toNat * 0x100 + q.b.toNat) * 0x100 + q.c.toNat) * 0x100 + q.d.toNat := by
  simp [Quad.value, Quad.bytes, bytesValue]

theorem Quad.lt_of_mem (q : Quad) : ∀ b ∈ q.bytes, b < 0x100 := by
  simp only [Quad.bytes, List.forall_mem_cons]
  exact ⟨q.a.toNat_lt, q.b.toNat_lt, q.c.toNat_lt, q.d.toNat_lt, List.forall_mem_nil _⟩

theorem Quad.value_lt (q : Quad) : q.value < 2 ^ 32 := by
  have ha := q.a.toNat_lt
  have hb := q.b.toNat_lt
  have hc := q.c.toNat_lt
  have hd := q.d.toNat_lt
  rw [q.value_eq]
  omega

theorem Quad.value_injective {q r : Quad} (h : q.value = r.value) : q = r := by
  rw [q.value_eq, r.value_eq] at h
  have hq := q.lt_of_mem
  have hr := r.lt_of_mem
  simp only [Quad.bytes, List.forall_mem_cons] at hq hr
  obtain ⟨ha, hb, hc, hd, -⟩ := hq
  obtain ⟨ha', hb', hc', hd', -⟩ := hr
  cases q
  cases r
  simp only [Quad.mk.injEq, ← UInt8.toNat_inj] at h ⊢
  dsimp only at ha hb hc hd ha' hb' hc' hd'
  omega

/-- The bytes of a spelling are an address. -/
theorem partBytes_lt (groups : List Segment) (quad : Option Quad) : ∀ b ∈ partBytes groups quad, b < 0x100 := by
  refine List.forall_mem_append.mpr ⟨?_, ?_⟩
  · rintro b hb
    obtain ⟨group, -, hb⟩ := List.mem_flatMap.mp hb
    have hlt := segment_number_lt group
    simp only [segmentBytes, List.mem_cons, List.not_mem_nil, or_false] at hb
    rcases hb with rfl | rfl <;> omega
  · rintro b hb
    obtain ⟨q, -, hb⟩ := List.mem_flatMap.mp hb
    exact q.lt_of_mem b hb

theorem length_partBytes (groups : List Segment) (quad : Option Quad) :
    (partBytes groups quad).length = 2 * (groups.length + 2 * quad.toList.length) := by
  have hgroups : ∀ groups : List Segment, (groups.flatMap segmentBytes).length = 2 * groups.length := by
    intro groups
    induction groups with
    | nil => rfl
    | cons group groups ih =>
      rw [List.flatMap_cons, List.length_append, ih, List.length_cons, segmentBytes, List.length_cons, List.length_singleton]
      omega
  rw [partBytes, List.length_append, hgroups]
  cases quad with
  | none => rfl
  | some q => simp [Quad.bytes]; omega

theorem Spelling.length_bytes (s : Spelling) : s.bytes.length = 16 := by
  cases s with
  | full groups quad h => rw [Spelling.bytes, length_partBytes, h]
  | elided left right quad h =>
    have hleft := length_partBytes left none
    rw [partBytes, Option.toList_none, List.flatMap_nil, List.append_nil, List.length_nil] at hleft
    rw [Spelling.bytes, List.length_append, List.length_append, List.length_replicate, length_partBytes, hleft]
    omega

theorem Spelling.lt_of_mem (s : Spelling) : ∀ b ∈ s.bytes, b < 0x100 := by
  cases s with
  | full groups quad h => exact partBytes_lt groups quad
  | elided left right quad h =>
    have hleft := partBytes_lt left none
    rw [partBytes, Option.toList_none, List.flatMap_nil, List.append_nil] at hleft
    refine List.forall_mem_append.mpr ⟨hleft, List.forall_mem_append.mpr ⟨fun b hb => ?_, partBytes_lt right quad⟩⟩
    rw [(List.mem_replicate.mp hb).2]
    decide

def Spelling.address (s : Spelling) : Ipv6Address where
  bytes := s.bytes
  length_bytes := s.length_bytes
  lt_of_mem := s.lt_of_mem

/-! ## The parts of an IPv6 address -/

namespace Ipv6Address
variable (a : Ipv6Address)

/-- The number of the first twelve bytes. -/
def high : ℕ := bytesValue (a.bytes.take 12)

/-- The last four bytes. -/
def embedded : Quad :=
  ⟨.ofNat (a.bytes.getD 12 0), .ofNat (a.bytes.getD 13 0), .ofNat (a.bytes.getD 14 0), .ofNat (a.bytes.getD 15 0)⟩

theorem embedded_bytes : a.embedded.bytes = a.bytes.drop 12 := by
  obtain ⟨bytes, hlen, hlt⟩ := a
  have hsplit := List.take_append_drop 12 bytes
  have hdrop : (bytes.drop 12).length = 4 := by rw [List.length_drop, hlen]
  have htake : (bytes.take 12).length = 12 := by rw [List.length_take, hlen]; rfl
  obtain ⟨p, q, r, t, hquad⟩ := List.length_eq_four.mp hdrop
  have hbound : ∀ b ∈ [p, q, r, t], b < 0x100 := fun b hb => hlt b (List.mem_of_mem_drop (hquad ▸ hb))
  have hget : ∀ k, bytes.getD (12 + k) 0 = [p, q, r, t].getD k 0 := by
    intro k
    rw [← hsplit, hquad, List.getD_append_right _ _ _ _ (by omega), htake, Nat.add_sub_cancel_left]
  have h0 := hget 0
  have h1 := hget 1
  have h2 := hget 2
  have h3 := hget 3
  simp only [List.forall_mem_cons] at hbound
  obtain ⟨hp, hq, hr, ht, -⟩ := hbound
  simp only [embedded, Quad.bytes, UInt8.toNat_ofNat', hquad]
  rw [show (12 : ℕ) = 12 + 0 from rfl, show (13 : ℕ) = 12 + 1 from rfl, show (14 : ℕ) = 12 + 2 from rfl,
    show (15 : ℕ) = 12 + 3 from rfl, h0, h1, h2, h3]
  simp only [List.getD_cons_zero, List.getD_cons_succ]
  rw [Nat.mod_eq_of_lt hp, Nat.mod_eq_of_lt hq, Nat.mod_eq_of_lt hr, Nat.mod_eq_of_lt ht]

theorem value_eq : a.value = a.high * 2 ^ 32 + a.embedded.value := by
  have hlen : (a.bytes.drop 12).length = 4 := by rw [List.length_drop, a.length_bytes]
  have hsplit := bytesValue_append (a.bytes.take 12) (a.bytes.drop 12)
  have hpow : 0x100 ^ 4 = 2 ^ 32 := by norm_num
  rw [List.take_append_drop, hlen, hpow] at hsplit
  rw [value, hsplit, high, Quad.value, embedded_bytes]

theorem embeddedText : joinDots ((a.bytes.drop 12).take 4) = a.embedded.text := by
  have hlen : (a.bytes.drop 12).length = 4 := by rw [List.length_drop, a.length_bytes]
  rw [List.take_of_length_le hlen.le, ← embedded_bytes]
  rfl

theorem compatible_eq : ipv4FromCompatibleIpv6 a.bytes = if a.high = 0 then some a.embedded.text else none := by
  rw [ipv4FromCompatibleIpv6, embeddedText, high]
  exact if_congr bytesValue_eq_zero.symm rfl rfl

theorem mapped_eq : ipv4FromMappedIpv6 a.bytes = if a.high = 0xffff then some a.embedded.text else none := by
  have hlen : (a.bytes.take 12).length = 12 := by rw [List.length_take, a.length_bytes]; rfl
  have htail : ((a.bytes.take 12).drop 10).length = 2 := by rw [List.length_drop, hlen]
  obtain ⟨b, c, hbc⟩ := List.length_eq_two.mp htail
  have hfront : (a.bytes.take 12).take 10 = a.bytes.take 10 := by rw [List.take_take]; rfl
  have hsplit : a.bytes.take 12 = a.bytes.take 10 ++ [b, c] := by
    rw [← hfront, ← hbc, List.take_append_drop]
  have hbound : b < 0x100 ∧ c < 0x100 := by
    have hmem : ∀ x ∈ [b, c], x < 0x100 := by
      intro x hx
      rw [← hbc] at hx
      exact a.lt_of_mem x (List.mem_of_mem_take (List.mem_of_mem_drop hx))
    exact ⟨hmem b List.mem_cons_self, hmem c (List.mem_cons_of_mem _ List.mem_cons_self)⟩
  have hget : a.bytes[10]? = some b ∧ a.bytes[11]? = some c := by
    have hten : (a.bytes.take 10).length = 10 := by rw [List.length_take, a.length_bytes]; rfl
    have htake : ∀ k < 12, a.bytes[k]? = (a.bytes.take 12)[k]? := fun k hk => (List.getElem?_take_of_lt hk).symm
    rw [htake 10 (by decide), htake 11 (by decide), hsplit]
    constructor
    · rw [List.getElem?_append_right (by omega), hten]
      rfl
    · rw [List.getElem?_append_right (by omega), hten]
      rfl
  have hhigh : a.high = bytesValue (a.bytes.take 10) * 0x10000 + (b * 0x100 + c) := by
    rw [high, hsplit, bytesValue_append]
    simp [bytesValue]
  rw [ipv4FromMappedIpv6, embeddedText, hget.1, hget.2]
  refine if_congr ?_ rfl rfl
  simp only [Bool.and_eq_true, decide_eq_true_eq, Option.some.injEq]
  rw [← bytesValue_eq_zero, hhigh]
  omega

/-- The first byte on top of the others. -/
theorem value_first : ∃ rest < 2 ^ 120, a.value = a.bytes.getD 0 0 * 2 ^ 120 + rest ∧ a.bytes.getD 0 0 < 0x100 := by
  obtain ⟨bytes, hlen, hlt⟩ := a
  cases bytes with
  | nil => cases hlen
  | cons b rest =>
    have hrest : rest.length = 15 := by simpa using hlen
    have hsplit := bytesValue_append [b] rest
    have hb : bytesValue [b] = b := by simp [bytesValue]
    rw [List.singleton_append, hb, hrest] at hsplit
    have hbound : bytesValue rest < 0x100 ^ rest.length := bytesValue_lt fun x hx => hlt x (List.mem_cons_of_mem _ hx)
    have hpow : 0x100 ^ 15 = 2 ^ 120 := by norm_num
    rw [hrest, hpow] at hbound
    rw [hpow] at hsplit
    exact ⟨bytesValue rest, hbound, hsplit, hlt b List.mem_cons_self⟩

theorem mask_first : ∀ b < 0x100, (b &&& 0xfe = 0xfc) ↔ b / 2 = 126 := by decide +kernel

theorem uniqueLocal_iff : (a.bytes.getD 0 0 &&& 0xfe = 0xfc) ↔ InBlock 121 a.value (0xfc * 2 ^ 120) := by
  obtain ⟨rest, hrest, hvalue, hbyte⟩ := a.value_first
  rw [mask_first _ hbyte, InBlock, hvalue]
  omega

end Ipv6Address

/-! ## The texts that reach the classification -/

/-- The characters of a spelling. -/
def isAddressChar (c : Char) : Bool := isHexDigit c || c = ':' || c = '.'

theorem mem_joinColons {parts : List (List Char)} {c : Char} (h : c ∈ joinColons parts) :
    c = ':' ∨ ∃ part ∈ parts, c ∈ part := by
  induction parts with
  | nil => cases h
  | cons part parts ih =>
    cases parts with
    | nil =>
      rw [joinColons, List.intercalate_singleton] at h
      exact .inr ⟨part, List.mem_cons_self, h⟩
    | cons next parts =>
      rw [joinColons, List.intercalate_cons_cons, List.mem_append, List.mem_append, List.mem_singleton] at h
      rcases h with (h | h) | h
      · exact .inr ⟨part, List.mem_cons_self, h⟩
      · exact .inl h
      · rcases ih h with rfl | ⟨p, hp, hc⟩
        · exact .inl rfl
        · exact .inr ⟨p, List.mem_cons_of_mem _ hp, hc⟩

theorem Quad.addressChar {q : Quad} {c : Char} (h : c ∈ q.text) : isAddressChar c = true := by
  rcases q.mem_text h with hdigit | rfl
  · simp [isAddressChar, isHexDigit, hdigit]
  · decide

theorem Spelling.addressChar {s : Spelling} {c : Char} (h : c ∈ s.text) : isAddressChar c = true := by
  have hsegment : ∀ groups : List Segment, ∀ part ∈ groups.map Subtype.val, c ∈ part → isAddressChar c = true := by
    rintro groups part hpart hc
    obtain ⟨group, -, rfl⟩ := List.mem_map.mp hpart
    simp [isAddressChar, (isSegment_iff.mp group.2).2.2 c hc]
  have hjoined : ∀ parts : List (List Char), (∀ part ∈ parts, c ∈ part → isAddressChar c = true) → c ∈ joinColons parts →
      isAddressChar c = true := by
    intro parts hparts hc
    rcases mem_joinColons hc with rfl | ⟨part, hpart, hc⟩
    · decide
    · exact hparts part hpart hc
  have hparts : ∀ groups quad, ∀ part ∈ partTexts groups quad, c ∈ part → isAddressChar c = true := by
    intro groups quad
    refine List.forall_mem_append.mpr ⟨hsegment groups, ?_⟩
    rintro part hpart hc
    obtain ⟨q, -, rfl⟩ := List.mem_map.mp hpart
    exact q.addressChar hc
  cases s with
  | full groups quad hlen => exact hjoined _ (hparts groups quad) h
  | elided left right quad hlen =>
    rw [Spelling.text, List.mem_append, List.mem_cons, List.mem_cons] at h
    rcases h with h | rfl | rfl | h
    · exact hjoined _ (hsegment left) h
    · decide
    · decide
    · exact hjoined _ (hparts right quad) h

theorem Spelling.colon_mem (s : Spelling) : ':' ∈ s.text := by
  cases s with
  | elided left right quad h => exact List.mem_append_right _ List.mem_cons_self
  | full groups quad h =>
    have hlen : 2 ≤ (partTexts groups quad).length := by
      rw [partTexts, List.length_append, List.length_map, List.length_map]
      cases quad <;> simp at h ⊢ <;> omega
    rcases List.eq_nil_or_concat' (partTexts groups quad) with hnil | ⟨front, last, hparts⟩
    · rw [hnil] at hlen
      cases hlen
    · have hfront : front ≠ [] := by
        rintro rfl
        rw [hparts] at hlen
        simp at hlen
      rw [Spelling.text, hparts, joinColons_append _ _ hfront]
      exact List.mem_append_right _ List.mem_cons_self

theorem takeWhile_zone {text : List Char} (h : ∀ c ∈ text, isAddressChar c = true) :
    text.takeWhile (· ≠ '%') = text ∧ text.dropWhile (· ≠ '%') = [] := by
  have hall : ∀ c ∈ text, decide (c ≠ '%') = true := by
    intro c hc
    rw [decide_eq_true_eq]
    rintro rfl
    exact absurd (h '%' hc) (by decide)
  exact ⟨List.takeWhile_eq_self_iff.mpr hall, List.dropWhile_eq_nil_iff.mpr hall⟩

theorem head_ne_bracket {text : List Char} (h : ∀ c ∈ text, isAddressChar c = true) : text.head? ≠ some '[' := by
  intro hhead
  exact absurd (h '[' (List.mem_of_head? hhead)) (by decide)

theorem normalizeAddress_self {text : List Char} (h : ∀ c ∈ text, isAddressChar c = true) : normalizeAddress text = text := by
  rw [normalizeAddress, if_neg (fun hbrackets => head_ne_bracket h hbrackets.1), (takeWhile_zone h).1]

theorem normalizeAddress_brackets (text : List Char) :
    normalizeAddress ('[' :: (text ++ [']'])) = text.takeWhile (· ≠ '%') := by
  have hbrackets : ('[' :: (text ++ [']'])).head? = some '[' ∧ ('[' :: (text ++ [']'])).getLast? = some ']' := by
    refine ⟨rfl, ?_⟩
    rw [← List.cons_append, List.getLast?_append]
    rfl
  rw [normalizeAddress, if_pos hbrackets, List.tail_cons, List.dropLast_concat]

theorem isIP_quad (q : Quad) : isIP q.text = 4 := by
  rw [isIP, if_pos (isIPv4_iff.mpr ⟨q, rfl⟩)]

theorem zone_cases {zone : List Char} (h : isZone zone = true) : zone = [] ∨ ∃ name, zone = '%' :: name := by
  cases zone with
  | nil => exact .inl rfl
  | cons c name =>
    simp only [isZone, Bool.or_eq_true, Bool.and_eq_true, decide_eq_true_eq, List.head?_cons, Option.some.injEq] at h
    rcases h with h | ⟨⟨rfl, -⟩, -⟩
    · cases h
    · exact .inr ⟨name, rfl⟩

theorem takeWhile_spelling (s : Spelling) {zone : List Char} (h : isZone zone = true) :
    (s.text ++ zone).takeWhile (· ≠ '%') = s.text ∧ (s.text ++ zone).dropWhile (· ≠ '%') = zone := by
  obtain ⟨htake, hdrop⟩ := takeWhile_zone fun c (hc : c ∈ s.text) => s.addressChar hc
  have hall := List.takeWhile_eq_self_iff.mp htake
  rw [List.takeWhile_append_of_pos hall, List.dropWhile_append_of_pos hall]
  rcases zone_cases h with rfl | ⟨name, rfl⟩
  · simp
  · simp

theorem isIP_spelling (s : Spelling) {zone : List Char} (h : isZone zone = true) : isIP (s.text ++ zone) = 6 := by
  have hv4 : ¬ isIPv4 (s.text ++ zone) = true := by
    intro h
    obtain ⟨q, hq⟩ := isIPv4_iff.mp h
    have hcolon : ':' ∈ s.text ++ zone := List.mem_append_left _ s.colon_mem
    rw [hq] at hcolon
    exact q.ne_of_not_mem (by decide) (by decide) hcolon
  have hv6 : isIPv6 (s.text ++ zone) = true := by
    rw [isIPv6, (takeWhile_spelling s h).1, (takeWhile_spelling s h).2, isIPv6Address_iff.mpr ⟨s, rfl⟩, h]
    rfl
  rw [isIP, if_neg hv4, if_pos hv6]

theorem isIP_text (s : Spelling) : isIP s.text = 6 := by
  have hempty := isIP_spelling s (show isZone [] = true by decide)
  rwa [List.append_nil] at hempty

/-- What `net.isIP` accepts, with the zone index it may have. -/
theorem isIP_cases (text : List Char) : (isIP text = 4 ∧ ∃ q : Quad, text = q.text) ∨
    (isIP text = 6 ∧ ∃ (s : Spelling) (zone : List Char), text = s.text ++ zone ∧ isZone zone = true) ∨ isIP text = 0 := by
  rw [isIP]
  split_ifs with hv4 hv6
  · exact .inl ⟨rfl, isIPv4_iff.mp hv4⟩
  · rw [isIPv6, Bool.and_eq_true] at hv6
    obtain ⟨s, hs⟩ := isIPv6Address_iff.mp hv6.1
    refine .inr (.inl ⟨rfl, s, _, ?_, hv6.2⟩)
    rw [← hs, List.takeWhile_append_dropWhile]
  · exact .inr (.inr rfl)

theorem normalizeAddress_zone (address : List Char) :
    (normalizeAddress address).takeWhile (· ≠ '%') = normalizeAddress address := by
  rw [normalizeAddress, List.takeWhile_eq_self_iff]
  intro c hc
  exact List.all_eq_true.mp List.all_takeWhile c hc

/-- Every text comes to an address, or is refused. -/
theorem normalizesTo_cases (address : List Char) :
    (isIP (normalizeAddress address) = 4 ∧ ∃ q, NormalizesTo address (.v4 q)) ∨
      (isIP (normalizeAddress address) = 6 ∧
        ∃ s : Spelling, normalizeAddress address = s.text ∧ NormalizesTo address (.v6 s.address)) ∨
      isIP (normalizeAddress address) = 0 := by
  rcases isIP_cases (normalizeAddress address) with ⟨h, hq⟩ | ⟨h, s, zone, hs, hzone⟩ | h
  · exact .inl ⟨h, hq⟩
  · have hnormal := normalizeAddress_zone address
    rw [hs, (takeWhile_spelling s hzone).1, ← hs] at hnormal
    exact .inr (.inl ⟨h, s, hnormal.symm, s, hnormal.symm, rfl⟩)
  · exact .inr (.inr h)

/-- `net.isIP` accepts the spellings of addresses, and nothing else. -/
theorem isIP_iff {text : List Char} : isIP text ≠ 0 ↔ ∃ a, Spells text a := by
  constructor
  · intro h
    rcases isIP_cases text with ⟨-, q, hq⟩ | ⟨-, s, zone, hs, hzone⟩ | h0
    · exact ⟨.v4 q, hq⟩
    · exact ⟨.v6 s.address, s, zone, hs, hzone, rfl⟩
    · exact absurd h0 h
  · rintro ⟨a, ha⟩
    cases a with
    | v4 q =>
      rw [show text = q.text from ha, isIP_quad]
      decide
    | v6 a =>
      obtain ⟨s, zone, rfl, hzone, -⟩ := ha
      rw [isIP_spelling s hzone]
      decide

/-- Brackets and a zone index change nothing. -/
theorem Spells.normalizesTo {text : List Char} {a : IpAddress} (h : Spells text a) :
    NormalizesTo text a ∧ NormalizesTo ('[' :: (text ++ [']'])) a := by
  cases a with
  | v4 q =>
    obtain rfl : text = q.text := h
    have hchars : ∀ c ∈ q.text, isAddressChar c = true := fun c hc => q.addressChar hc
    refine ⟨normalizeAddress_self hchars, ?_⟩
    rw [NormalizesTo, normalizeAddress_brackets, (takeWhile_zone hchars).1]
  | v6 a =>
    obtain ⟨s, zone, rfl, hzone, hbytes⟩ := h
    have htake := (takeWhile_spelling s hzone).1
    have hhead : (s.text ++ zone).head? ≠ some '[' := by
      intro hhead
      have hcons : s.text ++ zone = '[' :: (s.text ++ zone).tail := (List.cons_head?_tail hhead).symm
      rw [hcons, List.takeWhile_cons_of_pos (by decide)] at htake
      have hmem : '[' ∈ s.text := htake ▸ List.mem_cons_self
      exact absurd (s.addressChar hmem) (by decide)
    refine ⟨⟨s, ?_, hbytes⟩, s, ?_, hbytes⟩
    · rw [normalizeAddress, if_neg (fun hbrackets => hhead hbrackets.1), htake]
    · rw [normalizeAddress_brackets, htake]

theorem Denotes.normalizesTo {address : List Char} {a : IpAddress} (h : Denotes address a) : NormalizesTo address a := by
  rcases h with h | ⟨text, h, rfl⟩
  · exact h.normalizesTo.1
  · exact h.normalizesTo.2

/-! ## The classification of an address -/

theorem isPrivateIpv4_text {q : Quad} : isPrivateIpv4 q.text = true ↔ q.a.toNat = 10 ∨ q.a.toNat = 127 ∨
    (q.a.toNat = 172 ∧ 16 ≤ q.b.toNat ∧ q.b.toNat ≤ 31) ∨ (q.a.toNat = 192 ∧ q.b.toNat = 168) := by
  rw [isPrivateIpv4, q.octetsOf_text]
  simp [Quad.bytes, or_assoc]

theorem isPrivateIpv4_iff (q : Quad) : isPrivateIpv4 q.text = true ↔ q.Private := by
  have ha := q.a.toNat_lt
  have hb := q.b.toNat_lt
  have hc := q.c.toNat_lt
  have hd := q.d.toNat_lt
  rw [isPrivateIpv4_text, Quad.Private, InBlock, InBlock, InBlock, InBlock, q.value_eq]
  simp only [Quad.value_eq]
  simp only [UInt8.reduceToNat]
  omega

theorem unsafe_of_private {q : Quad} (h : isPrivateIpv4 q.text = true) : isUnsafeIpv4 q.text = true := by
  rw [isPrivateIpv4_text] at h
  rw [isUnsafeIpv4, q.fourBytes_text]
  dsimp only
  rcases h with h | h | ⟨h, hlow, hhigh⟩ | ⟨h, hb⟩
  · simp [h]
  · simp [h]
  · simp [h, hlow, hhigh]
  · simp [h, hb]

/-- What the code makes of sixteen bytes. -/
def isPrivateBytes (a : Ipv6Address) : Bool :=
  if a.high = 0xffff ∨ a.high = 0 then isPrivateIpv4 a.embedded.text
  else ((a.bytes.take 15).all (· = 0) && a.bytes.getD 15 0 = 1) || a.bytes.getD 0 0 &&& 0xfe = 0xfc

theorem privateOrLoopback_quad (recur : List Char → Except InvalidArrayLength Bool) {address : List Char} {q : Quad}
    (h : NormalizesTo address (.v4 q)) : privateOrLoopback recur address = .ok (isPrivateIpv4 q.text) := by
  have hnormal : normalizeAddress address = q.text := h
  rw [privateOrLoopback, hnormal, if_pos (isIP_quad q)]

theorem normalizesTo_text (q : Quad) : NormalizesTo q.text (.v4 q) := normalizeAddress_self fun _ hc => q.addressChar hc

theorem privateOrLoopback_bytes {recur : List Char → Except InvalidArrayLength Bool}
    (hrecur : ∀ q : Quad, recur q.text = .ok (isPrivateIpv4 q.text)) {address : List Char} {a : Ipv6Address}
    (h : NormalizesTo address (.v6 a)) : privateOrLoopback recur address = .ok (isPrivateBytes a) := by
  obtain ⟨s, hnormal, hbytes⟩ := h
  rw [privateOrLoopback, hnormal, if_neg (by rw [isIP_text]; decide), if_neg (by rw [isIP_text]; decide),
    ipv6ToBytes_text, ok_bind]
  dsimp only
  rw [hbytes, a.mapped_eq, a.compatible_eq, isPrivateBytes]
  by_cases hmapped : a.high = 0xffff
  · have hembedded : a.high = 0xffff ∨ a.high = 0 := .inl hmapped
    rw [if_pos hmapped, if_pos hembedded]
    exact hrecur a.embedded
  · rw [if_neg hmapped]
    by_cases hcompatible : a.high = 0
    · have hembedded : a.high = 0xffff ∨ a.high = 0 := .inr hcompatible
      rw [if_pos hembedded, if_pos hcompatible]
      exact hrecur a.embedded
    · rw [if_neg hcompatible, if_neg (not_or.mpr ⟨hmapped, hcompatible⟩)]
      rfl

theorem isPrivateOrLoopbackIp_quad {address : List Char} {q : Quad} (h : NormalizesTo address (.v4 q)) :
    isPrivateOrLoopbackIp address = .ok (isPrivateIpv4 q.text) := privateOrLoopback_quad _ h

theorem isPrivateOrLoopbackIp_bytes {address : List Char} {a : Ipv6Address} (h : NormalizesTo address (.v6 a)) :
    isPrivateOrLoopbackIp address = .ok (isPrivateBytes a) :=
  privateOrLoopback_bytes (fun q => privateOrLoopback_quad _ (normalizesTo_text q)) h

theorem privateOrLoopback_refused (recur : List Char → Except InvalidArrayLength Bool) {address : List Char}
    (h : isIP (normalizeAddress address) = 0) : privateOrLoopback recur address = .ok false := by
  rw [privateOrLoopback, if_neg (by rw [h]; decide), if_pos (by rw [h]; decide)]

/-- The function calls itself, and the call ends. -/
theorem isPrivateOrLoopbackIp_eq (address : List Char) :
    isPrivateOrLoopbackIp address = privateOrLoopback isPrivateOrLoopbackIp address := by
  rcases normalizesTo_cases address with ⟨-, q, hq⟩ | ⟨-, s, -, hs⟩ | h
  · rw [isPrivateOrLoopbackIp_quad hq, privateOrLoopback_quad _ hq]
  · rw [isPrivateOrLoopbackIp_bytes hs,
      privateOrLoopback_bytes (fun q => isPrivateOrLoopbackIp_quad (normalizesTo_text q)) hs]
  · rw [isPrivateOrLoopbackIp, privateOrLoopback_refused _ h, privateOrLoopback_refused _ h]

theorem isUnsafeIp_quad {address : List Char} {q : Quad} (h : NormalizesTo address (.v4 q)) :
    isUnsafeIp address = .ok (isUnsafeIpv4 q.text) := by
  have hnormal : normalizeAddress address = q.text := h
  rw [isUnsafeIp, hnormal, if_pos (isIP_quad q)]

theorem isUnsafeIp_bytes {address : List Char} {a : Ipv6Address} (h : NormalizesTo address (.v6 a)) :
    isUnsafeIp address = .ok (isUnsafeBytes a.bytes) := by
  obtain ⟨s, hnormal, hbytes⟩ := h
  rw [isUnsafeIp, hnormal, if_neg (by rw [isIP_text]; decide), if_pos (isIP_text s), isUnsafeIpv6,
    ipv6ToBytes_text, ok_bind, hbytes]
  rfl

theorem isUnsafeBytes_embedded {a : Ipv6Address} (h : a.high = 0xffff ∨ a.high = 0) :
    isUnsafeBytes a.bytes = isUnsafeIpv4 a.embedded.text := by
  rw [isUnsafeBytes, a.mapped_eq, a.compatible_eq]
  rcases h with h | h
  · rw [if_pos h]
  · rw [if_neg (by rw [h]; decide), if_pos h]

theorem isUnsafeBytes_private {a : Ipv6Address} (h : isPrivateBytes a = true) : isUnsafeBytes a.bytes = true := by
  rw [isPrivateBytes] at h
  split_ifs at h with hembedded
  · rw [isUnsafeBytes_embedded hembedded]
    exact unsafe_of_private h
  · obtain ⟨hmapped, hcompatible⟩ := not_or.mp hembedded
    rw [isUnsafeBytes, a.mapped_eq, a.compatible_eq, if_neg hmapped, if_neg hcompatible]
    dsimp only
    simp only [Bool.or_eq_true] at h ⊢
    rcases h with h | h
    · rw [h]
      simp only [or_true, true_or]
    · rw [h]
      simp only [or_true, true_or]

/-- The form of a quad has it as its last bytes. -/
theorem embeds_iff {a : Ipv6Address} {q : Quad} :
    a.Embeds q ↔ (a.high = 0xffff ∨ a.high = 0) ∧ a.embedded = q := by
  have hq := q.value_lt
  have ha := a.embedded.value_lt
  rw [Ipv6Address.Embeds, a.value_eq]
  constructor
  · rintro (h | h)
    · exact ⟨.inl (by omega), Quad.value_injective (by omega)⟩
    · exact ⟨.inr (by omega), Quad.value_injective (by omega)⟩
  · rintro ⟨h | h, rfl⟩
    · rw [h]
      exact .inl rfl
    · rw [h, Nat.zero_mul, Nat.zero_add]
      exact .inr rfl

/-- The loopback test comes after the one for embedded quads, which takes ::1 for a form of 0.0.0.1. -/
theorem isPrivateBytes_iff {a : Ipv6Address} :
    isPrivateBytes a = true ↔ InBlock 121 a.value (0xfc * 2 ^ 120) ∨ ∃ q : Quad, q.Private ∧ a.Embeds q := by
  rw [isPrivateBytes]
  split_ifs with hembedded
  · have hblock : ¬ InBlock 121 a.value (0xfc * 2 ^ 120) := by
      have ha := a.embedded.value_lt
      rw [InBlock, a.value_eq]
      omega
    rw [isPrivateIpv4_iff, or_iff_right hblock]
    constructor
    · intro h
      exact ⟨a.embedded, h, embeds_iff.mpr ⟨hembedded, rfl⟩⟩
    · rintro ⟨q, hq, hembeds⟩
      rwa [(embeds_iff.mp hembeds).2]
  · have hloopback : ((a.bytes.take 15).all (· = 0) && a.bytes.getD 15 0 = 1) = false := by
      rw [Bool.and_eq_false_iff]
      refine .inl (Bool.eq_false_iff.mpr fun hzero => hembedded (.inr ?_))
      rw [Ipv6Address.high, bytesValue_eq_zero, List.all_eq_true]
      have htake : a.bytes.take 12 = (a.bytes.take 15).take 12 := by rw [List.take_take]; rfl
      intro b hb
      rw [htake] at hb
      exact List.all_eq_true.mp hzero b (List.mem_of_mem_take hb)
    have hnone : ¬ ∃ q : Quad, q.Private ∧ a.Embeds q := by
      rintro ⟨q, -, hembeds⟩
      exact hembedded (embeds_iff.mp hembeds).1
    rw [hloopback, Bool.false_or, decide_eq_true_eq, a.uniqueLocal_iff, or_iff_left hnone]

/-- ::1 is no other private address. -/
theorem private_of_value_one {a : Ipv6Address} (hone : a.value = 1) : isPrivateBytes a = false := by
  rw [Bool.eq_false_iff]
  intro h
  rcases isPrivateBytes_iff.mp h with hblock | ⟨q, hq, hembeds⟩
  · rw [InBlock] at hblock
    omega
  · rw [Ipv6Address.Embeds, hone] at hembeds
    simp only [Quad.Private, InBlock, Quad.value_eq, UInt8.reduceToNat] at hq
    have hvalue := q.value_eq
    omega

/-- The exception for private addresses is right for every address but ::1, in whatever spelling. -/
theorem isPrivateOrLoopbackIp_private_iff (address : List Char) (a : IpAddress) (h : Denotes address a) :
    (isPrivateOrLoopbackIp address = .ok true ↔ a.Private) ↔ ∀ v6, a = .v6 v6 → v6.value ≠ 1 := by
  have hnormal := h.normalizesTo
  cases a with
  | v4 q =>
    rw [isPrivateOrLoopbackIp_quad hnormal, Except.ok.injEq, isPrivateIpv4_iff]
    refine ⟨fun _ v6 hv6 => ?_, fun _ => Iff.rfl⟩
    cases hv6
  | v6 v6 =>
    rw [isPrivateOrLoopbackIp_bytes hnormal, Except.ok.injEq]
    constructor
    · intro hiff other hother hone
      cases hother
      have hprivate := hiff.mpr (.inl hone)
      rw [private_of_value_one hone] at hprivate
      cases hprivate
    · intro hne
      rw [isPrivateBytes_iff, IpAddress.Private, or_iff_right (hne v6 rfl)]

/-- The quad 172.31.0.7. -/
def testQuad : Quad := ⟨172, 31, 0, 7⟩

/-- The address of a quad in the compatible form, spelled with the quad itself. -/
def compatibleSpelling (q : Quad) : Spelling := .elided [] [] (some q) (by simp)

theorem isPrivateOrLoopbackIp_private_iff_compatible :
    (isPrivateOrLoopbackIp "[::172.31.0.7%eth0]".toList = .ok true ↔
      (IpAddress.v6 (compatibleSpelling testQuad).address).Private) ↔
      ∀ v6, IpAddress.v6 (compatibleSpelling testQuad).address = .v6 v6 → v6.value ≠ 1 := by
  refine isPrivateOrLoopbackIp_private_iff _ _ (.inr ⟨"::172.31.0.7%eth0".toList, ?_, by decide⟩)
  exact ⟨compatibleSpelling testQuad, "%eth0".toList, by decide, by decide, rfl⟩

def loopbackSpelling : Spelling := .elided [] [⟨['1'], by decide⟩] none (by decide)

/-- The loopback address of IPv6 is not covered. -/
theorem isPrivateOrLoopbackIp_loopback :
    ∃ a, Denotes "::1".toList a ∧ a.Private ∧ isPrivateOrLoopbackIp "::1".toList = .ok false := by
  have hspells : Spells "::1".toList (.v6 loopbackSpelling.address) := ⟨loopbackSpelling, [], by decide, by decide, rfl⟩
  refine ⟨_, .inl hspells, .inl (by decide), ?_⟩
  rw [isPrivateOrLoopbackIp_bytes hspells.normalizesTo.1, private_of_value_one (by decide)]

theorem isUnsafeIp_total (address : List Char) : ∃ decision, isUnsafeIp address = .ok decision := by
  rcases normalizesTo_cases address with ⟨-, q, hq⟩ | ⟨-, s, -, hs⟩ | h
  · exact ⟨_, isUnsafeIp_quad hq⟩
  · exact ⟨_, isUnsafeIp_bytes hs⟩
  · refine ⟨false, ?_⟩
    rw [isUnsafeIp, if_neg (by rw [h]; decide), if_neg (by rw [h]; decide)]

theorem isUnsafeIp_of_private {address : List Char} (h : isPrivateOrLoopbackIp address = .ok true) :
    isUnsafeIp address = .ok true := by
  rcases normalizesTo_cases address with ⟨-, q, hq⟩ | ⟨-, s, -, hs⟩ | hnone
  · rw [isPrivateOrLoopbackIp_quad hq, Except.ok.injEq] at h
    rw [isUnsafeIp_quad hq, unsafe_of_private h]
  · rw [isPrivateOrLoopbackIp_bytes hs, Except.ok.injEq] at h
    rw [isUnsafeIp_bytes hs, isUnsafeBytes_private h]
  · rw [isPrivateOrLoopbackIp, privateOrLoopback_refused _ hnone] at h
    cases h

/-- No spelling gets around the check. The bytes are those of the address, so that the answer depends on the address only, and a
form of a quad gets the quad's answer. What the exception for private addresses takes is unsafe, and no text makes the check
fail. -/
theorem isUnsafeIp_spelling :
    (∀ text, isIP text ≠ 0 → ∃ a, Spells text a) ∧
    (∀ address a, Denotes address (.v6 a) → ipv6ToBytes (normalizeAddress address) = .ok (some a.bytes)) ∧
    (∀ address address' a, Denotes address a → Denotes address' a → isUnsafeIp address = isUnsafeIp address') ∧
    (∀ address address' a q, Denotes address (.v6 a) → a.Embeds q → Denotes address' (.v4 q) →
      isUnsafeIp address = isUnsafeIp address') ∧
    (∀ address, isPrivateOrLoopbackIp address = .ok true → isUnsafeIp address = .ok true) ∧
    ∀ address, ∃ decision, isUnsafeIp address = .ok decision := by
  refine ⟨fun text h => isIP_iff.mp h, ?_, ?_, ?_, fun address h => isUnsafeIp_of_private h, isUnsafeIp_total⟩
  · intro address a h
    obtain ⟨s, hnormal, hbytes⟩ := h.normalizesTo
    rw [hnormal, ipv6ToBytes_text, hbytes]
  · intro address address' a h h'
    have hnormal := h.normalizesTo
    have hnormal' := h'.normalizesTo
    cases a with
    | v4 q => rw [isUnsafeIp_quad hnormal, isUnsafeIp_quad hnormal']
    | v6 a => rw [isUnsafeIp_bytes hnormal, isUnsafeIp_bytes hnormal']
  · intro address address' a q h hembeds h'
    obtain ⟨hhigh, rfl⟩ := embeds_iff.mp hembeds
    rw [isUnsafeIp_bytes h.normalizesTo, isUnsafeIp_quad h'.normalizesTo, isUnsafeBytes_embedded hhigh]

end Dnsid.Transport
