import Mathlib.Algebra.Group.Nat.Defs
import Mathlib.Data.List.Induction
import Dnsid.Transport.IpAddresses
import Dnsid.Foundations.UrlEncoded

/-! # Spellings of IP addresses

The texts that RFC 4291 gives an IPv6 address: groups of one to four hexadecimal digits, one run of zero groups left out, a
dotted quad for the last two groups. `net.isIP` accepts these texts (`isIPv6Address_iff`), and `ipv6ToBytes` reads the sixteen
bytes of every one of them (`ipv6ToBytes_text`).
-/
namespace Dnsid.Transport
open Dnsid.Foundations
open Dnsid.Foundations.JsonText (isHexDigit hexValue)
set_option autoImplicit false

abbrev Segment := {text : List Char // isSegment text = true}

structure Quad where
  a : UInt8
  b : UInt8
  c : UInt8
  d : UInt8
  deriving DecidableEq, Repr

def Quad.bytes (q : Quad) : List ℕ := [q.a.toNat, q.b.toNat, q.c.toNat, q.d.toNat]

def Quad.text (q : Quad) : List Char := joinDots q.bytes

def joinColons (parts : List (List Char)) : List Char := List.intercalate [':'] parts

/-- Groups, and a quad behind them or none. -/
def partTexts (groups : List Segment) (quad : Option Quad) : List (List Char) :=
  groups.map Subtype.val ++ quad.toList.map Quad.text

def segmentBytes (group : Segment) : List ℕ := [hexNumber group.1 / 0x100, hexNumber group.1 % 0x100]

def partBytes (groups : List Segment) (quad : Option Quad) : List ℕ :=
  groups.flatMap segmentBytes ++ quad.toList.flatMap Quad.bytes

inductive Spelling where
  | full (groups : List Segment) (quad : Option Quad) (h : groups.length + 2 * quad.toList.length = 8)
  /-- `::` stands for one group of zeros or more. -/
  | elided (left right : List Segment) (quad : Option Quad) (h : left.length + right.length + 2 * quad.toList.length ≤ 7)

def Spelling.text : Spelling → List Char
  | .full groups quad _ => joinColons (partTexts groups quad)
  | .elided left right quad _ => joinColons (left.map Subtype.val) ++ ':' :: ':' :: joinColons (partTexts right quad)

def Spelling.bytes : Spelling → List ℕ
  | .full groups quad _ => partBytes groups quad
  | .elided left right quad _ => left.flatMap segmentBytes ++
      (List.replicate (2 * (8 - left.length - right.length - 2 * quad.toList.length)) 0 ++ partBytes right quad)

/-! ## Dotted quads -/

theorem isOctet_iff {part : List Char} : isOctet part = true ↔ ∃ b : UInt8, part = Nat.toDigits 10 b.toNat := by
  rw [isOctet, List.any_eq_true]
  constructor
  · rintro ⟨n, hn, hpart⟩
    rw [List.mem_range] at hn
    rw [decide_eq_true_eq] at hpart
    refine ⟨.ofNat n, ?_⟩
    rw [UInt8.toNat_ofNat', Nat.mod_eq_of_lt hn, hpart]
  · rintro ⟨b, rfl⟩
    exact ⟨b.toNat, List.mem_range.mpr b.toNat_lt, decide_eq_true rfl⟩

theorem not_mem_toDigits {c : Char} (hc : c.isDigit = false) (n : ℕ) : c ∉ Nat.toDigits 10 n := by
  intro hmem
  rw [Nat.isDigit_of_mem_toDigits (by decide) (by decide) hmem] at hc
  cases hc

theorem Quad.splitOn_text (q : Quad) : q.text.splitOn '.' = q.bytes.map (Nat.toDigits 10) := by
  refine List.splitOn_intercalate '.' ?_ (List.cons_ne_nil _ _)
  rintro part hpart
  obtain ⟨n, -, rfl⟩ := List.mem_map.mp hpart
  exact not_mem_toDigits (by decide) n

theorem isIPv4_iff {text : List Char} : isIPv4 text = true ↔ ∃ q : Quad, text = q.text := by
  rw [isIPv4, Bool.and_eq_true, decide_eq_true_eq, List.all_eq_true]
  constructor
  · rintro ⟨hlen, hall⟩
    have hjoin : List.intercalate ['.'] (text.splitOn '.') = text := List.intercalate_splitOn '.'
    obtain ⟨p, q, r, s, hparts⟩ := List.length_eq_four.mp hlen
    rw [hparts] at hall hjoin
    simp only [List.forall_mem_cons, isOctet_iff] at hall
    obtain ⟨⟨a, rfl⟩, ⟨b, rfl⟩, ⟨c, rfl⟩, ⟨d, rfl⟩, -⟩ := hall
    exact ⟨⟨a, b, c, d⟩, hjoin.symm⟩
  · rintro ⟨q, rfl⟩
    rw [q.splitOn_text]
    refine ⟨rfl, ?_⟩
    simp only [Quad.bytes, List.map_cons, List.map_nil, List.forall_mem_cons]
    exact ⟨isOctet_iff.mpr ⟨_, rfl⟩, isOctet_iff.mpr ⟨_, rfl⟩, isOctet_iff.mpr ⟨_, rfl⟩, isOctet_iff.mpr ⟨_, rfl⟩,
      List.forall_mem_nil _⟩

theorem decimalNumber_toDigits (n : ℕ) : decimalNumber (Nat.toDigits 10 n) = some n := by
  have hdigits : Nat.toDigits 10 n ≠ [] ∧ (Nat.toDigits 10 n).all Char.isDigit = true :=
    ⟨Nat.toDigits_ne_nil, List.all_eq_true.mpr fun c hc => Nat.isDigit_of_mem_toDigits (by decide) (by decide) hc⟩
  rw [decimalNumber, if_pos hdigits, Nat.ofDigitChars_ten_toDigits]

theorem Quad.octetsOf_text (q : Quad) : octetsOf q.text = q.bytes.map some := by
  rw [octetsOf, q.splitOn_text, List.map_map]
  exact List.map_congr_left fun n _ => decimalNumber_toDigits n

theorem Quad.fourBytes_text (q : Quad) :
    fourBytes (octetsOf q.text) = some (q.a.toNat, q.b.toNat, q.c.toNat, q.d.toNat) := by
  have hbyte : ∀ b : UInt8, isByte (some b.toNat) = true := by
    intro b
    have := b.toNat_lt
    simp only [isByte, Option.any_some, decide_eq_true_eq]
    omega
  rw [q.octetsOf_text]
  simp [Quad.bytes, fourBytes, hbyte]

/-- The characters of a quad: digits and dots. -/
theorem Quad.mem_text {q : Quad} {c : Char} (h : c ∈ q.text) : c.isDigit = true ∨ c = '.' := by
  by_contra hc
  rw [not_or, Bool.not_eq_true] at hc
  have hmem : c ∈ List.intercalate ['.'] (q.bytes.map (Nat.toDigits 10)) := h
  simp only [Quad.bytes, List.map_cons, List.map_nil, List.intercalate_cons_cons, List.intercalate_singleton,
    List.mem_append, List.mem_singleton, not_mem_toDigits hc.1, hc.2, or_self] at hmem

theorem Quad.dot_mem_text (q : Quad) : '.' ∈ q.text := by
  have htext : q.text = List.intercalate ['.'] (q.bytes.map (Nat.toDigits 10)) := rfl
  rw [htext]
  simp [Quad.bytes, List.intercalate_cons_cons]

theorem Quad.ne_of_not_mem {q : Quad} {c : Char} (hc : c.isDigit = false) (hdot : c ≠ '.') : c ∉ q.text := by
  intro h
  rcases q.mem_text h with hdigit | rfl
  · rw [hc] at hdigit
    cases hdigit
  · exact hdot rfl

/-! ## Groups -/

theorem isSegment_iff {part : List Char} :
    isSegment part = true ↔ part ≠ [] ∧ part.length ≤ 4 ∧ ∀ c ∈ part, isHexDigit c = true := by
  simp only [isSegment, Bool.and_eq_true, decide_eq_true_eq, List.all_eq_true, and_assoc, ne_eq]

theorem segment_ne_nil (group : Segment) : group.1 ≠ [] := (isSegment_iff.mp group.2).1

theorem not_mem_segment (group : Segment) {c : Char} (hc : isHexDigit c = false) : c ∉ group.1 := by
  intro hmem
  rw [(isSegment_iff.mp group.2).2.2 c hmem] at hc
  cases hc

theorem Quad.not_segment (q : Quad) : isSegment q.text = false := by
  rw [← Bool.not_eq_true]
  intro h
  exact absurd ((isSegment_iff.mp h).2.2 '.' q.dot_mem_text) (by decide)

theorem hexValue_lt {c : Char} (h : isHexDigit c = true) : hexValue c < 16 := by
  have hdigit : ∀ d : Char, d.isDigit = true → d.toNat - 0x30 < 16 := by
    intro d hd
    simp only [Char.isDigit, Bool.and_eq_true, decide_eq_true_eq] at hd
    have hle : d.toNat ≤ '9'.toNat := hd.2
    have hnine : '9'.toNat = 0x39 := rfl
    omega
  simp only [isHexDigit, Bool.or_eq_true, Bool.and_eq_true, decide_eq_true_eq] at h
  rw [hexValue]
  split_ifs with hd ha
  · exact hdigit c hd
  · rcases h with (h | ⟨-, h⟩) | ⟨-, h⟩
    · exact absurd h hd
    · have hle : c.toNat ≤ 'f'.toNat := h
      have hf : 'f'.toNat = 0x66 := rfl
      omega
    · have hle : c.toNat ≤ 'F'.toNat := h
      have hf : 'F'.toNat = 0x46 := rfl
      omega
  · rcases h with (h | ⟨h, -⟩) | ⟨-, h⟩
    · exact absurd h hd
    · exact absurd h ha
    · have hle : c.toNat ≤ 'F'.toNat := h
      have hf : 'F'.toNat = 0x46 := rfl
      omega

theorem hexNumber_append (front : List Char) (c : Char) : hexNumber (front ++ [c]) = hexNumber front * 16 + hexValue c := by
  rw [hexNumber, List.foldl_append]
  rfl

theorem hexNumber_lt {text : List Char} (h : ∀ c ∈ text, isHexDigit c = true) : hexNumber text < 16 ^ text.length := by
  induction text using List.reverseRecOn with
  | nil => exact Nat.one_pos
  | append_singleton front c ih =>
    rw [List.forall_mem_append, List.forall_mem_singleton] at h
    have hfront := ih h.1
    have hc := hexValue_lt h.2
    rw [hexNumber_append, List.length_append, List.length_singleton, Nat.pow_succ]
    omega

theorem segment_number_lt (group : Segment) : hexNumber group.1 < 0x10000 := by
  obtain ⟨-, hlen, hall⟩ := isSegment_iff.mp group.2
  exact (hexNumber_lt hall).trans_le (Nat.pow_le_pow_right (by decide) hlen)

theorem hexDigitChar : ∀ d < 16, isHexDigit (Nat.digitChar d) = true ∧ hexValue (Nat.digitChar d) = d := by decide

/-- `Number.parseInt(n.toString(16), 16)`. -/
theorem hexNumber_toDigits (n : ℕ) :
    (∀ c ∈ Nat.toDigits 16 n, isHexDigit c = true) ∧ hexNumber (Nat.toDigits 16 n) = n := by
  induction n using Nat.strongRecOn with
  | ind n ih =>
    rcases Nat.lt_or_ge n 16 with hsmall | hlarge
    · rw [Nat.toDigits_of_lt_base hsmall, List.forall_mem_singleton]
      have hdigit := hexDigitChar n hsmall
      refine ⟨hdigit.1, ?_⟩
      rw [hexNumber, List.foldl_cons, List.foldl_nil, hdigit.2, Nat.zero_mul, Nat.zero_add]
    · have hdiv := ih (n / 16) (by omega)
      have hdigit := hexDigitChar (n % 16) (by omega)
      rw [Nat.toDigits_of_base_le (by decide) hlarge, List.forall_mem_append, List.forall_mem_singleton, hexNumber_append,
        hdiv.2, hdigit.2]
      exact ⟨⟨hdiv.1, hdigit.1⟩, by omega⟩

theorem isSegment_toDigits {n : ℕ} (h : n < 0x10000) : isSegment (Nat.toDigits 16 n) = true := by
  refine isSegment_iff.mpr ⟨Nat.toDigits_ne_nil, ?_, (hexNumber_toDigits n).1⟩
  exact (Nat.length_toDigits_le_iff (by decide) (by decide)).mpr h

/-- Two bytes as a group. -/
theorem shift_or (high low : UInt8) : (high.toNat <<< 8) ||| low.toNat = high.toNat * 0x100 + low.toNat := by
  rw [← Nat.shiftLeft_add_eq_or_of_lt low.toNat_lt, Nat.shiftLeft_eq]

def byteGroup (high low : UInt8) : Segment :=
  ⟨Nat.toDigits 16 ((high.toNat <<< 8) ||| low.toNat), isSegment_toDigits (by
    have hhigh := high.toNat_lt
    have hlow := low.toNat_lt
    rw [shift_or]
    omega)⟩

theorem segmentBytes_byteGroup (high low : UInt8) : segmentBytes (byteGroup high low) = [high.toNat, low.toNat] := by
  have hlow := low.toNat_lt
  have hnumber : hexNumber (byteGroup high low).1 = high.toNat * 0x100 + low.toNat := by
    rw [byteGroup, (hexNumber_toDigits _).2, shift_or]
  have hdiv : (high.toNat * 0x100 + low.toNat) / 0x100 = high.toNat := by omega
  have hmod : (high.toNat * 0x100 + low.toNat) % 0x100 = low.toNat := by omega
  rw [segmentBytes, hnumber, hdiv, hmod]

/-- The groups, with those that a quad at the end stands for. -/
def allGroups (groups : List Segment) (quad : Option Quad) : List Segment :=
  groups ++ quad.toList.flatMap fun q => [byteGroup q.a q.b, byteGroup q.c q.d]

theorem length_allGroups (groups : List Segment) (quad : Option Quad) :
    (allGroups groups quad).length = groups.length + 2 * quad.toList.length := by
  cases quad <;> simp [allGroups]

theorem bytes_allGroups (groups : List Segment) (quad : Option Quad) :
    (allGroups groups quad).flatMap segmentBytes = partBytes groups quad := by
  cases quad with
  | none => simp [allGroups, partBytes]
  | some q => simp [allGroups, partBytes, segmentBytes_byteGroup, Quad.bytes]

/-! ## Splitting and joining -/

theorem joinColons_append (parts : List (List Char)) (part : List Char) (h : parts ≠ []) :
    joinColons (parts ++ [part]) = joinColons parts ++ ':' :: part := by
  induction parts with
  | nil => exact absurd rfl h
  | cons p parts ih =>
    cases parts with
    | nil => simp [joinColons]
    | cons q parts =>
      have hrest := ih (List.cons_ne_nil _ _)
      rw [joinColons, joinColons, List.cons_append, List.cons_append, List.intercalate_cons_cons,
        List.intercalate_cons_cons, ← List.cons_append, ← joinColons, hrest, joinColons]
      simp

/-- Parts that a colon can stand between: none is empty or has a colon. -/
def Parts (parts : List (List Char)) : Prop := ∀ part ∈ parts, part ≠ [] ∧ ':' ∉ part

theorem parts_segments (groups : List Segment) : Parts (groups.map Subtype.val) := by
  rintro part hpart
  obtain ⟨group, -, rfl⟩ := List.mem_map.mp hpart
  exact ⟨segment_ne_nil group, not_mem_segment group (by decide)⟩

theorem parts_partTexts (groups : List Segment) (quad : Option Quad) : Parts (partTexts groups quad) := by
  refine List.forall_mem_append.mpr ⟨parts_segments groups, ?_⟩
  rintro part hpart
  obtain ⟨q, -, rfl⟩ := List.mem_map.mp hpart
  exact ⟨List.ne_nil_of_mem q.dot_mem_text, q.ne_of_not_mem (by decide) (by decide)⟩

theorem splitElision_cons {c : Char} (hc : c ≠ ':') (text : List Char) :
    splitElision (c :: text) = (splitElision text).modifyHead (c :: ·) := by
  cases text with
  | nil => rfl
  | cons d text => rw [splitElision, if_neg (fun h => hc h.1)]

theorem splitElision_part {part : List Char} (h : ':' ∉ part) (text : List Char) :
    splitElision (part ++ text) = (splitElision text).modifyHead (part ++ ·) := by
  induction part with
  | nil =>
    rw [List.nil_append]
    cases splitElision text <;> rfl
  | cons c part ih =>
    rw [List.mem_cons, not_or] at h
    rw [List.cons_append, splitElision_cons (Ne.symm h.1), ih h.2]
    cases splitElision text <;> rfl

/-- One colon alone is no elision. -/
theorem splitElision_colon {c : Char} (hc : c ≠ ':') (text : List Char) :
    splitElision (':' :: c :: text) = (splitElision (c :: text)).modifyHead (':' :: ·) := by
  rw [splitElision, if_neg (fun h => hc h.2)]

theorem splitElision_joinColons {parts : List (List Char)} (h : Parts parts) (text : List Char) :
    splitElision (joinColons parts ++ text) = (splitElision text).modifyHead (joinColons parts ++ ·) := by
  induction parts with
  | nil =>
    have hnil : joinColons [] = [] := rfl
    rw [hnil, List.nil_append]
    cases splitElision text <;> rfl
  | cons p parts ih =>
    have hp := (h p List.mem_cons_self).2
    cases parts with
    | nil =>
      have hsingle : joinColons [p] = p := List.intercalate_singleton
      rw [hsingle]
      exact splitElision_part hp text
    | cons q parts =>
      have hrest := ih fun part hpart => h part (List.mem_cons_of_mem _ hpart)
      obtain ⟨hne, hq⟩ := h q (List.mem_cons_of_mem _ List.mem_cons_self)
      obtain ⟨c, tail, rfl⟩ := List.exists_cons_of_ne_nil hne
      have hc : c ≠ ':' := by
        rintro rfl
        exact hq List.mem_cons_self
      have hcons : joinColons (p :: (c :: tail) :: parts) = p ++ ':' :: joinColons ((c :: tail) :: parts) := by
        rw [joinColons, List.intercalate_cons_cons, joinColons]
        simp
      obtain ⟨more, hmore⟩ : ∃ more, joinColons ((c :: tail) :: parts) = c :: more := by
        cases parts with
        | nil => exact ⟨tail, List.intercalate_singleton⟩
        | cons r parts => exact ⟨_, by rw [joinColons, List.intercalate_cons_cons, List.cons_append, List.cons_append]⟩
      rw [hmore, List.cons_append] at hrest
      rw [hcons, hmore, List.append_assoc, splitElision_part hp, List.cons_append, List.cons_append, splitElision_colon hc,
        hrest]
      cases splitElision text <;> simp

theorem splitOn_joinColons {parts : List (List Char)} (h : Parts parts) (hne : parts ≠ []) :
    (joinColons parts).splitOn ':' = parts :=
  List.splitOn_intercalate ':' (fun part hpart => (h part hpart).2) hne

theorem joinColons_eq_nil {parts : List (List Char)} (h : Parts parts) : joinColons parts = [] ↔ parts = [] := by
  constructor
  · intro hjoin
    by_contra hne
    have hsplit := splitOn_joinColons h hne
    rw [hjoin, List.splitOn_nil] at hsplit
    have hempty := h [] (hsplit ▸ List.mem_singleton_self _)
    exact hempty.1 rfl
  · rintro rfl
    rfl

theorem segments_joinColons {parts : List (List Char)} (h : Parts parts) : segments (joinColons parts) = parts := by
  rw [segments]
  split_ifs with hnil
  · exact ((joinColons_eq_nil h).mp hnil).symm
  · exact splitOn_joinColons h fun hparts => hnil ((joinColons_eq_nil h).mpr hparts)

theorem groupsOf_joinColons {parts : List (List Char)} (h : Parts parts) : groupsOf (joinColons parts) = parts := by
  rw [groupsOf]
  split_ifs with hnil
  · rw [splitOn_joinColons h fun hparts => hnil ((joinColons_eq_nil h).mpr hparts), List.filter_eq_self]
    exact fun part hpart => decide_eq_true (h part hpart).1
  · exact ((joinColons_eq_nil h).mp (not_not.mp hnil)).symm

/-- A text without an elision is one half, a text with one is two. -/
theorem splitElision_full {parts : List (List Char)} (h : Parts parts) : splitElision (joinColons parts) = [joinColons parts] := by
  have hsplit := splitElision_joinColons h []
  rw [List.append_nil] at hsplit
  rw [hsplit, splitElision, List.modifyHead_cons, List.append_nil]

theorem splitElision_elided {left right : List (List Char)} (hleft : Parts left) (hright : Parts right) :
    splitElision (joinColons left ++ ':' :: ':' :: joinColons right) = [joinColons left, joinColons right] := by
  rw [splitElision_joinColons hleft, splitElision, if_pos ⟨rfl, rfl⟩, splitElision_full hright, List.modifyHead_cons,
    List.append_nil]

theorem splitElision_ne_nil (text : List Char) : splitElision text ≠ [] := by
  induction text using splitElision.induct with
  | case1 => exact List.cons_ne_nil _ _
  | case2 c => exact List.cons_ne_nil _ _
  | case3 c d text h ih =>
    rw [splitElision, if_pos h]
    exact List.cons_ne_nil _ _
  | case4 c d text h ih =>
    rw [splitElision, if_neg h]
    cases hsplit : splitElision (d :: text) with
    | nil => exact absurd hsplit ih
    | cons first rest => exact List.cons_ne_nil _ _

theorem join_splitElision (text : List Char) : List.intercalate [':', ':'] (splitElision text) = text := by
  induction text using splitElision.induct with
  | case1 => rfl
  | case2 c => rfl
  | case3 c d text h ih =>
    obtain ⟨rfl, rfl⟩ := h
    rw [splitElision, if_pos ⟨rfl, rfl⟩]
    cases hsplit : splitElision text with
    | nil => exact absurd hsplit (splitElision_ne_nil text)
    | cons first rest =>
      rw [hsplit] at ih
      rw [List.intercalate_cons_cons, ih]
      rfl
  | case4 c d text h ih =>
    rw [splitElision, if_neg h]
    cases hsplit : splitElision (d :: text) with
    | nil =>
      rw [hsplit] at ih
      cases ih
    | cons first rest =>
      rw [hsplit] at ih
      rw [List.modifyHead_cons]
      cases rest with
      | nil =>
        rw [List.intercalate_singleton] at ih ⊢
        rw [ih]
      | cons second rest =>
        rw [List.intercalate_cons_cons] at ih ⊢
        rw [List.cons_append, List.cons_append, ih]

/-! ## The texts that are accepted -/

theorem groupCount_partTexts (groups : List Segment) (quad : Option Quad) :
    groupCount true (partTexts groups quad) = some (groups.length + 2 * quad.toList.length) := by
  induction groups with
  | nil =>
    cases quad with
    | none => rfl
    | some q =>
      have hquad : isIPv4 q.text = true := isIPv4_iff.mpr ⟨q, rfl⟩
      have htexts : partTexts [] (some q) = [q.text] := rfl
      rw [htexts, groupCount, q.not_segment, if_neg Bool.false_ne_true, hquad]
      rfl
  | cons group groups ih =>
    have htexts : partTexts (group :: groups) quad = group.1 :: partTexts groups quad := rfl
    rw [htexts, groupCount, if_pos group.2, ih, Option.map_some, List.length_cons]
    congr 1
    omega

theorem groupCount_segments (groups : List Segment) : groupCount false (groups.map Subtype.val) = some groups.length := by
  induction groups with
  | nil => rfl
  | cons group groups ih => rw [List.map_cons, groupCount, if_pos group.2, ih, Option.map_some, List.length_cons]

theorem exists_of_groupCount {quad : Bool} {parts : List (List Char)} {n : ℕ} (h : groupCount quad parts = some n) :
    ∃ groups q, parts = partTexts groups q ∧ n = groups.length + 2 * q.toList.length ∧ (quad = false → q = none) := by
  induction parts generalizing n with
  | nil =>
    cases h
    exact ⟨[], none, rfl, rfl, fun _ => rfl⟩
  | cons part parts ih =>
    rw [groupCount] at h
    split_ifs at h with hsegment hquad
    · obtain ⟨m, hm, rfl⟩ := Option.map_eq_some_iff.mp h
      obtain ⟨groups, q, rfl, rfl, hnone⟩ := ih hm
      refine ⟨⟨part, hsegment⟩ :: groups, q, rfl, ?_, hnone⟩
      rw [List.length_cons]
      omega
    · cases h
      simp only [Bool.and_eq_true, List.isEmpty_iff] at hquad
      obtain ⟨⟨htrue, hv4⟩, rfl⟩ := hquad
      obtain ⟨q, rfl⟩ := isIPv4_iff.mp hv4
      exact ⟨[], some q, rfl, rfl, fun hfalse => by rw [hfalse] at htrue; cases htrue⟩

theorem joinColons_segments (half : List Char) : joinColons (segments half) = half := by
  rw [segments]
  split_ifs with hnil
  · rw [hnil]
    rfl
  · exact List.intercalate_splitOn ':'

/-- **The accepted texts are the spellings.** -/
theorem isIPv6Address_iff {text : List Char} : isIPv6Address text = true ↔ ∃ s : Spelling, text = s.text := by
  constructor
  · intro h
    have hjoin := join_splitElision text
    rw [isIPv6Address] at h
    split at h
    next whole hsplit =>
      rw [hsplit, List.intercalate_singleton] at hjoin
      obtain ⟨groups, q, hparts, hcount, -⟩ := exists_of_groupCount (of_decide_eq_true h)
      refine ⟨.full groups q hcount.symm, ?_⟩
      rw [Spelling.text, ← hparts, joinColons_segments, hjoin]
    next left right hsplit =>
      rw [hsplit, List.intercalate_cons_cons, List.intercalate_singleton] at hjoin
      simp only [Option.any_eq_true, decide_eq_true_eq] at h
      obtain ⟨l, hl, r, hr, hle⟩ := h
      obtain ⟨leftGroups, none', hleft, hl', hnone⟩ := exists_of_groupCount hl
      obtain rfl := hnone rfl
      obtain ⟨rightGroups, q, hright, hr', -⟩ := exists_of_groupCount hr
      have hlen : leftGroups.length + rightGroups.length + 2 * q.toList.length ≤ 7 := by
        simp only [Option.toList_none, List.length_nil] at hl'
        omega
      refine ⟨.elided leftGroups rightGroups q hlen, ?_⟩
      have hleftTexts : segments left = leftGroups.map Subtype.val := by
        rw [hleft, partTexts, Option.toList_none, List.map_nil, List.append_nil]
      rw [Spelling.text, ← hright, ← hleftTexts, joinColons_segments, joinColons_segments, ← hjoin]
      simp
    next => cases h
  · rintro ⟨s, rfl⟩
    rw [isIPv6Address]
    cases s with
    | full groups quad h =>
      rw [Spelling.text, splitElision_full (parts_partTexts groups quad)]
      dsimp only
      rw [segments_joinColons (parts_partTexts groups quad), groupCount_partTexts, h]
      rfl
    | elided left right quad h =>
      rw [Spelling.text, splitElision_elided (parts_segments left) (parts_partTexts right quad)]
      dsimp only
      rw [segments_joinColons (parts_segments left), segments_joinColons (parts_partTexts right quad),
        groupCount_partTexts, groupCount_segments]
      simp only [Option.any_some, decide_eq_true_eq]
      omega

/-! ## The bytes that are read -/

/-- `lastIndexOf(':')` finds what stands before the last part. -/
theorem last_part {front last : List Char} (h : ':' ∉ last) :
    ((front ++ ':' :: last).reverse.takeWhile (· ≠ ':')).reverse = last ∧
      (front ++ ':' :: last).take ((front ++ ':' :: last).length - last.length) = front ++ [':'] := by
  constructor
  · have hreverse : (front ++ ':' :: last).reverse = last.reverse ++ ':' :: front.reverse := by simp
    have hall : ∀ c ∈ last.reverse, (decide (c ≠ ':')) = true := by
      intro c hc
      rw [decide_eq_true_eq]
      rintro rfl
      exact h (List.mem_reverse.mp hc)
    rw [hreverse, List.takeWhile_append_of_pos hall, List.takeWhile_cons_of_neg (by simp), List.append_nil,
      List.reverse_reverse]
  · have hassoc : front ++ ':' :: last = (front ++ [':']) ++ last := by simp
    rw [hassoc, List.length_append, Nat.add_sub_cancel, List.take_left]

theorem expandQuad_plain {front last : List Char} (h : ':' ∉ last) (hdot : '.' ∉ last) :
    expandQuad (front ++ ':' :: last) = some (front ++ ':' :: last) := by
  rw [expandQuad, (last_part h).1]
  exact if_neg fun hquad => hdot hquad.2

theorem expandQuad_quad (front : List Char) (q : Quad) : expandQuad (front ++ ':' :: q.text) =
    some (front ++ ':' :: ((byteGroup q.a q.b).1 ++ ':' :: (byteGroup q.c q.d).1)) := by
  have hcolon : ':' ∉ q.text := q.ne_of_not_mem (by decide) (by decide)
  obtain ⟨hlast, htake⟩ := @last_part front q.text hcolon
  have hquad : ':' ∈ front ++ ':' :: q.text ∧ '.' ∈ q.text :=
    ⟨List.mem_append_right _ List.mem_cons_self, q.dot_mem_text⟩
  rw [expandQuad, hlast, htake]
  dsimp only
  rw [if_pos hquad, q.fourBytes_text]
  simp [byteGroup]

/-- In a text that goes on part by part, the two groups of a quad take its place. -/
theorem expandQuad_last {f : List (List Char) → List Char}
    (hf : ∀ parts part, parts ≠ [] → f (parts ++ [part]) = f parts ++ ':' :: part) {parts : List (List Char)} {front : List Char}
    (hfront : ∀ last, f (parts ++ [last]) = front ++ ':' :: last) (q : Quad) :
    expandQuad (f (parts ++ [q.text])) = some (f (parts ++ [(byteGroup q.a q.b).1, (byteGroup q.c q.d).1])) := by
  have hassoc : parts ++ [(byteGroup q.a q.b).1, (byteGroup q.c q.d).1] =
      (parts ++ [(byteGroup q.a q.b).1]) ++ [(byteGroup q.c q.d).1] := by simp
  rw [hfront, expandQuad_quad, hassoc, hf _ _ (by simp), hfront, List.append_assoc, List.cons_append]

theorem map_allGroups_some (groups : List Segment) (q : Quad) : (allGroups groups (some q)).map Subtype.val =
    groups.map Subtype.val ++ [(byteGroup q.a q.b).1, (byteGroup q.c q.d).1] := by
  simp [allGroups]

theorem partTexts_none (groups : List Segment) : partTexts groups none = (allGroups groups none).map Subtype.val := by
  simp [partTexts, allGroups]

theorem expandQuad_full {groups : List Segment} {quad : Option Quad} (h : groups.length + 2 * quad.toList.length = 8) :
    expandQuad (joinColons (partTexts groups quad)) = some (joinColons ((allGroups groups quad).map Subtype.val)) := by
  cases quad with
  | none =>
    rw [partTexts_none]
    have hgroups : groups ≠ [] := by
      rintro rfl
      simp at h
    obtain ⟨front, last, rfl⟩ := (List.eq_nil_or_concat' groups).resolve_left hgroups
    have hfront : front.map Subtype.val ≠ [] := by
      simp only [Option.toList_none, List.length_nil, List.length_append, List.length_singleton] at h
      intro hnil
      rw [List.map_eq_nil_iff.mp hnil] at h
      cases h
    have htext : (allGroups (front ++ [last]) none).map Subtype.val = front.map Subtype.val ++ [last.1] := by
      simp [allGroups]
    rw [htext, joinColons_append _ _ hfront]
    exact expandQuad_plain (not_mem_segment last (by decide)) (not_mem_segment last (by decide))
  | some q =>
    have hgroups : groups.map Subtype.val ≠ [] := by
      intro hnil
      rw [List.map_eq_nil_iff.mp hnil] at h
      cases h
    rw [map_allGroups_some]
    exact expandQuad_last joinColons_append (fun last => joinColons_append _ last hgroups) q

theorem expandQuad_elided (left : List Char) (groups : List Segment) (quad : Option Quad) :
    expandQuad (left ++ ':' :: ':' :: joinColons (partTexts groups quad)) =
      some (left ++ ':' :: ':' :: joinColons ((allGroups groups quad).map Subtype.val)) := by
  have hjoin : ∀ parts part, parts ≠ [] → left ++ ':' :: ':' :: joinColons (parts ++ [part]) =
      (left ++ ':' :: ':' :: joinColons parts) ++ ':' :: part := by
    intro parts part hparts
    rw [joinColons_append parts part hparts]
    simp
  have hfront : ∀ parts, ∃ front, ∀ last, left ++ ':' :: ':' :: joinColons (parts ++ [last]) = front ++ ':' :: last := by
    intro parts
    by_cases hparts : parts = []
    · refine ⟨left ++ [':'], fun last => ?_⟩
      rw [hparts, List.nil_append, joinColons, List.intercalate_singleton]
      simp
    · exact ⟨_, fun last => hjoin parts last hparts⟩
  cases quad with
  | none =>
    rw [partTexts_none]
    rcases List.eq_nil_or_concat' groups with rfl | ⟨front, last, rfl⟩
    · have htext : left ++ ':' :: ':' :: joinColons ((allGroups [] none).map Subtype.val) = (left ++ [':']) ++ ':' :: [] := by
        simp [allGroups, joinColons]
      rw [htext]
      exact expandQuad_plain List.not_mem_nil List.not_mem_nil
    · have htext : (allGroups (front ++ [last]) none).map Subtype.val = front.map Subtype.val ++ [last.1] := by
        simp [allGroups]
      obtain ⟨before, hbefore⟩ := hfront (front.map Subtype.val)
      rw [htext, hbefore]
      exact expandQuad_plain (not_mem_segment last (by decide)) (not_mem_segment last (by decide))
  | some q =>
    obtain ⟨before, hbefore⟩ := hfront (groups.map Subtype.val)
    rw [map_allGroups_some]
    exact expandQuad_last (f := fun parts => left ++ ':' :: ':' :: joinColons parts) hjoin hbefore q

theorem groupBytes_append {groups groups' : List (List Char)} {bytes bytes' : List ℕ} (h : groupBytes groups = some bytes)
    (h' : groupBytes groups' = some bytes') : groupBytes (groups ++ groups') = some (bytes ++ bytes') := by
  rw [groupBytes] at h h' ⊢
  split_ifs at h h' with hall hall'
  cases h
  cases h'
  rw [List.all_append, hall, hall', List.flatMap_append]
  rfl

theorem groupBytes_segments (groups : List Segment) :
    groupBytes (groups.map Subtype.val) = some (groups.flatMap segmentBytes) := by
  have hall : (groups.map Subtype.val).all isSegment = true := by
    rw [List.all_eq_true]
    rintro part hpart
    obtain ⟨group, -, rfl⟩ := List.mem_map.mp hpart
    exact group.2
  rw [groupBytes, if_pos hall, List.flatMap_map]
  congr 1
  refine List.flatMap_congr fun group _ => ?_
  have hlt := segment_number_lt group
  have hmask : ∀ n : ℕ, n &&& 0xff = n % 0x100 := fun n => Nat.and_two_pow_sub_one_eq_mod n 8
  have hhigh : hexNumber group.1 >>> 8 = hexNumber group.1 / 0x100 := Nat.shiftRight_eq_div_pow _ 8
  rw [segmentBytes, hmask, hmask, hhigh, Nat.mod_eq_of_lt (by omega)]

theorem groupBytes_zeros (n : ℕ) : groupBytes (List.replicate n ['0']) = some (List.replicate (2 * n) 0) := by
  induction n with
  | zero => rfl
  | succ n ih =>
    have hzero : groupBytes [['0']] = some [0, 0] := by decide
    have hstep := groupBytes_append hzero ih
    rw [List.replicate_succ, Nat.mul_succ]
    exact hstep

/-- **The sixteen bytes of every spelling are read.** -/
theorem ipv6ToBytes_text (s : Spelling) : ipv6ToBytes s.text = .ok (some s.bytes) := by
  rw [ipv6ToBytes]
  cases s with
  | full groups quad h =>
    have hparts := parts_segments (allGroups groups quad)
    rw [Spelling.text, expandQuad_full h]
    dsimp only
    rw [splitElision_full hparts]
    dsimp only
    rw [groupsOf_joinColons hparts, if_pos (by rw [List.length_map, length_allGroups, h]), groupBytes_segments,
      bytes_allGroups, Spelling.bytes]
  | elided left right quad h =>
    have hleft := parts_segments left
    have hright := parts_segments (allGroups right quad)
    have hlen : ¬ 8 < (left.map Subtype.val).length + ((allGroups right quad).map Subtype.val).length := by
      rw [List.length_map, List.length_map, length_allGroups]
      omega
    have hmissing : 8 - (left.map Subtype.val).length - ((allGroups right quad).map Subtype.val).length =
        8 - left.length - right.length - 2 * quad.toList.length := by
      rw [List.length_map, List.length_map, length_allGroups, Nat.sub_add_eq]
    rw [Spelling.text, expandQuad_elided]
    dsimp only
    rw [splitElision_elided hleft hright]
    dsimp only
    rw [groupsOf_joinColons hleft, groupsOf_joinColons hright, throwIf_bind hlen, hmissing,
      groupBytes_append (groupBytes_segments left) (groupBytes_append (groupBytes_zeros _) (groupBytes_segments _)),
      bytes_allGroups, Spelling.bytes]
    rfl

end Dnsid.Transport
