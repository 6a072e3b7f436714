import Dnsid.Foundations.Der
import Dnsid.Foundations.ExceptRun
import Dnsid.Keys.AwsKms
import Mathlib.Data.Int.Notation

/-! # ECDSA signatures of AWS KMS (`derEcdsaSignatureToJose` of `key-aws/src/index.ts`)

AWS KMS signs in DER; JOSE has both integers in fields of one width. Errors are the texts of `ArgumentError`.
-/
namespace Dnsid.Keys
open Dnsid.Foundations
open Dnsid.Foundations.Der
set_option autoImplicit false

/-- The loop of `readDerLength` over `lenBytes` more bytes. Of two bytes at most the word is the number. -/
def readLengthBytes (der : Bytes) : ℕ → ℕ → ℕ → Except String (ℕ × ℕ)
  | 0, offset, length => .ok (length, offset)
  | lenBytes + 1, offset, length =>
    match der[offset]? with
    | none => .error "invalid DER: truncated length"
    | some b => readLengthBytes der lenBytes (offset + 1) (length <<< 8 ||| b.toNat)

/-- The length and the offset after it. -/
def readDerLength (der : Bytes) (offset : ℕ) : Except String (ℕ × ℕ) :=
  match der[offset]? with
  | none => .error "invalid DER: missing length"
  | some first =>
    if first &&& 0x80 = 0 then .ok (first.toNat, offset + 1)
    else
      let lenBytes := (first &&& 0x7f).toNat
      if lenBytes = 0 ∨ 2 < lenBytes then .error "invalid DER: unsupported length encoding"
      else readLengthBytes der lenBytes (offset + 1) 0

/-- The content and the offset after it. -/
def readDerInteger (der : Bytes) (offset : ℕ) : Except String (Bytes × ℕ) := do
  throwIf (der[offset]? ≠ some 0x02) "invalid ECDSA signature DER: expected integer"
  let len ← readDerLength der (offset + 1)
  throwIf (der.length < len.2 + len.1) "invalid ECDSA signature DER: truncated integer"
  return ((der.drop len.2).take len.1, len.2 + len.1)

def integerToFixedUnsigned (bytes : Bytes) (length : ℕ) : Except String Bytes :=
  let value := bytes.dropWhile (· = 0)
  if length < value.length then .error "invalid ECDSA signature DER: integer too large"
  else .ok (List.replicate (length - value.length) 0 ++ value)

def derEcdsaSignatureToJose (der : Bytes) (partLength : ℕ) : Except String Bytes := do
  throwIf (der[0]? ≠ some 0x30) "invalid ECDSA signature DER: expected sequence"
  let seqLength ← readDerLength der 1
  throwIf ((seqLength.1 : ℤ) ≠ der.length - seqLength.2) "invalid ECDSA signature DER: bad sequence length"
  let r ← readDerInteger der seqLength.2
  let s ← readDerInteger der r.2
  throwIf (s.2 ≠ der.length) "invalid ECDSA signature DER: trailing bytes"
  let first ← integerToFixedUnsigned r.1 partLength
  let second ← integerToFixedUnsigned s.1 partLength
  return first ++ second

def signatureBytesForJose (algorithm : AwsKmsSigningAlgorithm) (signature : Bytes) : Except String Bytes :=
  match algorithm with
  | .ecdsaSha256 => derEcdsaSignatureToJose signature 32
  | .ed25519Sha512 => .ok signature

/-! ## Reading inside appended bytes -/

theorem readLengthBytes_append (front bytes rest : Bytes) (length : ℕ) :
    readLengthBytes (front ++ (bytes ++ rest)) bytes.length front.length length =
      .ok (bytes.foldl (fun n b => n * 256 + b.toNat) length, front.length + bytes.length) := by
  induction bytes generalizing front length with
  | nil => rfl
  | cons b bytes ih =>
    have hread : (front ++ (b :: bytes ++ rest))[front.length]? = some b := by simp
    have hshift : length <<< 8 ||| b.toNat = length * 256 + b.toNat := by
      rw [← Nat.shiftLeft_add_eq_or_of_lt b.toNat_lt, Nat.shiftLeft_eq]
    have hassoc : front ++ (b :: bytes ++ rest) = front ++ [b] ++ (bytes ++ rest) := by simp
    have hrest := ih (front ++ [b]) (length * 256 + b.toNat)
    rw [List.length_append, List.length_singleton] at hrest
    rw [List.length_cons, readLengthBytes, hread]
    dsimp only
    rw [hshift, hassoc, hrest, List.foldl_cons, Nat.add_assoc, Nat.add_comm 1]

/-- The loop fails at the end of the bytes. -/
theorem readLengthBytes_truncated (front bytes : Bytes) {lenBytes : ℕ} (length : ℕ) (h : bytes.length < lenBytes) :
    readLengthBytes (front ++ bytes) lenBytes front.length length = .error "invalid DER: truncated length" := by
  induction bytes generalizing front lenBytes length with
  | nil =>
    obtain ⟨n, rfl⟩ : ∃ n, lenBytes = n + 1 := ⟨lenBytes - 1, by simp at h; omega⟩
    rw [readLengthBytes, List.append_nil, List.getElem?_eq_none (Nat.le_refl _)]
  | cons b bytes ih =>
    obtain ⟨n, rfl⟩ : ∃ n, lenBytes = n + 1 := ⟨lenBytes - 1, by simp at h; omega⟩
    have hread : (front ++ b :: bytes)[front.length]? = some b := by simp
    have hassoc : front ++ b :: bytes = front ++ [b] ++ bytes := by simp
    have hlen : bytes.length < n := by simpa using h
    have hrest := ih (front ++ [b]) (length <<< 8 ||| b.toNat) hlen
    rw [List.length_append, List.length_singleton] at hrest
    rw [readLengthBytes, hread]
    dsimp only
    rw [hassoc, hrest]

theorem and_top_bit (b : UInt8) : b &&& 0x80 = 0 ↔ b.toNat < 128 := by
  have hall : ∀ n < 256, (n &&& 128 = 0 ↔ n < 128) := by decide +kernel
  rw [← UInt8.toNat_inj, UInt8.toNat_and]
  exact hall b.toNat b.toNat_lt

theorem and_low_bits (b : UInt8) : (b &&& 0x7f).toNat = b.toNat % 128 := by
  rw [UInt8.toNat_and]
  exact Nat.and_two_pow_sub_one_eq_mod b.toNat 7

/-- The prefix of a long length counts its bytes. -/
theorem long_prefix {k : ℕ} (hk : k ≤ 126) :
    ¬ (UInt8.ofNat (128 + k) &&& 0x80 = 0) ∧ (UInt8.ofNat (128 + k) &&& 0x7f).toNat = k := by
  rw [and_top_bit, and_low_bits, UInt8.toNat_ofNat']
  omega

theorem readDerLength_append {n : ℕ} {len : Bytes} (h : derLength n = some len) (front rest : Bytes) :
    readDerLength (front ++ (len ++ rest)) front.length =
      if n < 2 ^ 16 then .ok (n, front.length + len.length) else .error "invalid DER: unsupported length encoding" := by
  rw [derLength] at h
  split at h
  next hshort =>
    obtain rfl := Option.some.inj h
    have hread : (front ++ ([UInt8.ofNat n] ++ rest))[front.length]? = some (UInt8.ofNat n) := by simp
    have hbyte : (UInt8.ofNat n).toNat = n := by
      rw [UInt8.toNat_ofNat']
      omega
    rw [readDerLength, hread]
    dsimp only
    rw [if_pos ((and_top_bit _).mpr (by omega)), if_pos (by omega), hbyte, List.length_singleton]
  next hlong =>
    split at h
    next hlen =>
      obtain rfl := Option.some.inj h
      obtain ⟨htop, hlow⟩ := long_prefix hlen
      have hread : (front ++ (UInt8.ofNat (128 + (bigEndian n).length) :: bigEndian n ++ rest))[front.length]? =
          some (UInt8.ofNat (128 + (bigEndian n).length)) := by simp
      have hpos : (bigEndian n).length ≠ 0 := by
        intro hzero
        have := length_bigEndian_le.mp (Nat.le_of_eq hzero)
        omega
      have htwo : (bigEndian n).length ≤ 2 ↔ n < 2 ^ 16 := length_bigEndian_le
      rw [readDerLength, hread]
      dsimp only
      rw [if_neg htop, hlow]
      by_cases hn : n < 2 ^ 16
      · have hassoc : front ++ (UInt8.ofNat (128 + (bigEndian n).length) :: bigEndian n ++ rest) =
            front ++ [UInt8.ofNat (128 + (bigEndian n).length)] ++ (bigEndian n ++ rest) := by simp
        have hloop := readLengthBytes_append (front ++ [UInt8.ofNat (128 + (bigEndian n).length)]) (bigEndian n) rest 0
        rw [List.length_append, List.length_singleton] at hloop
        have hvalue := ofBigEndian_bigEndian n
        rw [ofBigEndian] at hvalue
        rw [if_neg (by omega), if_pos hn, hassoc, hloop, hvalue, List.length_cons, Nat.add_assoc, Nat.add_comm 1]
      · rw [if_pos (by omega), if_neg hn]
    next => cases h

/-- A length that is cut off does not read. -/
theorem readDerLength_truncated {n : ℕ} {len front cut : Bytes} (h : derLength n = some len) (hcut : cut <+: len)
    (hne : cut ≠ len) : ∃ message, readDerLength (front ++ cut) front.length = .error message := by
  cases cut with
  | nil =>
    rw [List.append_nil, readDerLength, List.getElem?_eq_none (Nat.le_refl _)]
    exact ⟨_, rfl⟩
  | cons b cut =>
    rw [derLength] at h
    split at h
    next =>
      obtain rfl := Option.some.inj h
      obtain ⟨rfl, hnil⟩ := List.cons_prefix_cons.mp hcut
      obtain rfl := List.prefix_nil.mp hnil
      exact absurd rfl hne
    next =>
      split at h
      next hlen =>
        obtain rfl := Option.some.inj h
        obtain ⟨rfl, hdigits⟩ := List.cons_prefix_cons.mp hcut
        obtain ⟨htop, hlow⟩ := long_prefix hlen
        have hshort : cut.length < (bigEndian n).length := by
          refine Nat.lt_of_le_of_ne hdigits.length_le fun heq => hne ?_
          rw [hdigits.eq_of_length heq]
        have hread : (front ++ UInt8.ofNat (128 + (bigEndian n).length) :: cut)[front.length]? =
            some (UInt8.ofNat (128 + (bigEndian n).length)) := by simp
        have hassoc : front ++ UInt8.ofNat (128 + (bigEndian n).length) :: cut =
            front ++ [UInt8.ofNat (128 + (bigEndian n).length)] ++ cut := by simp
        have hloop := readLengthBytes_truncated (front ++ [UInt8.ofNat (128 + (bigEndian n).length)]) cut 0 hshort
        rw [List.length_append, List.length_singleton] at hloop
        rw [readDerLength, hread]
        dsimp only
        rw [if_neg htop, hlow]
        by_cases htwo : 2 < (bigEndian n).length
        · exact ⟨_, if_pos (.inr htwo)⟩
        · rw [if_neg (by omega), hassoc, hloop]
          exact ⟨_, rfl⟩
      next => cases h

/-! ## Integers -/

theorem readDerInteger_append {n : ℕ} {encoded : Bytes} (h : derInteger n = some encoded) (front rest : Bytes) :
    readDerInteger (front ++ (encoded ++ rest)) front.length =
      if (unsignedContent n).length < 2 ^ 16 then .ok (unsignedContent n, front.length + encoded.length)
      else .error "invalid DER: unsupported length encoding" := by
  rw [derInteger] at h
  obtain ⟨len, hlen, h⟩ := Option.bind_eq_some_iff.mp h
  obtain rfl := Option.some.inj h
  have hread : (front ++ (0x02 :: (len ++ unsignedContent n) ++ rest))[front.length]? = some 0x02 := by simp
  have hassoc : front ++ (0x02 :: (len ++ unsignedContent n) ++ rest) =
      front ++ [0x02] ++ (len ++ (unsignedContent n ++ rest)) := by simp
  have hlength := readDerLength_append hlen (front ++ [0x02]) (unsignedContent n ++ rest)
  rw [List.length_append, List.length_singleton] at hlength
  rw [readDerInteger, throwIf_bind (not_not.mpr hread), hassoc, hlength]
  by_cases hn : (unsignedContent n).length < 2 ^ 16
  · have hdrop : (front ++ [0x02] ++ (len ++ (unsignedContent n ++ rest))).drop (front.length + 1 + len.length) =
        unsignedContent n ++ rest := by
      rw [← List.append_assoc, List.drop_left' (by simp only [List.length_append, List.length_singleton])]
    rw [if_pos hn, if_pos hn, ok_bind, throwIf_bind, hdrop, List.take_left' rfl]
    · have hend : front.length + 1 + len.length + (unsignedContent n).length =
          front.length + (0x02 :: (len ++ unsignedContent n)).length := by
        simp only [List.length_cons, List.length_append]
        omega
      rw [hend]
      rfl
    · simp only [List.length_append, List.length_singleton]
      omega
  · rw [if_neg hn, if_neg hn]
    rfl

/-- The content of an integer fits its field exactly when the integer does. -/
theorem integerToFixedUnsigned_content {n width : ℕ} {out : Bytes} :
    integerToFixedUnsigned (unsignedContent n) width = .ok out ↔ n < 256 ^ width ∧ out = fixedBigEndian width n := by
  rw [integerToFixedUnsigned, dropWhile_unsignedContent, ← length_bigEndian_le]
  split
  next hlong =>
    constructor
    · intro h
      cases h
    · rintro ⟨hle, -⟩
      omega
  next hfits =>
    rw [Except.ok.injEq, fixedBigEndian_eq (length_bigEndian_le.mp (by omega))]
    constructor
    · rintro rfl
      exact ⟨by omega, rfl⟩
    · rintro ⟨-, rfl⟩
      rfl

/-! ## Signatures -/

/-- The encoding of the sequence of two integers. -/
def derSignature (r s : ℕ) : Option Bytes := do
  let first ← derInteger r
  let second ← derInteger s
  derSequence (first ++ second)

example : derSignature 1 200 = some [0x30, 0x07, 0x02, 0x01, 0x01, 0x02, 0x02, 0x00, 0xc8] := by
  simp [derSignature, derInteger, derSequence, derLength, unsignedContent, bigEndian_pos]

/-- An integer of a field of 32 bytes has a content of 33 at most. -/
theorem derInteger_short {n : ℕ} (h : n < 256 ^ 32) :
    ∃ encoded, derInteger n = some encoded ∧ encoded.length ≤ 35 := by
  have hbytes : (bigEndian n).length ≤ 32 := length_bigEndian_le.mpr h
  have hcontent := length_unsignedContent n
  rw [derInteger, derLength_short (by omega)]
  refine ⟨_, rfl, ?_⟩
  simp only [List.length_cons, List.length_append, List.length_nil]
  omega

theorem derSignature_short {r s : ℕ} (hr : r < 256 ^ 32) (hs : s < 256 ^ 32) : ∃ der, derSignature r s = some der := by
  obtain ⟨first, hfirst, hfirstLen⟩ := derInteger_short hr
  obtain ⟨second, hsecond, hsecondLen⟩ := derInteger_short hs
  have hbody : (first ++ second).length < 128 := by
    rw [List.length_append]
    omega
  rw [derSignature, hfirst, hsecond]
  simp only [Option.bind_eq_bind, Option.bind_some, derSequence, derLength_short hbody]
  exact ⟨_, rfl⟩

theorem content_lt_encoded {n : ℕ} {encoded : Bytes} (h : derInteger n = some encoded) :
    (unsignedContent n).length < encoded.length := by
  obtain ⟨len, -, h⟩ := Option.bind_eq_some_iff.mp h
  obtain rfl := Option.some.inj h
  simp only [List.length_cons, List.length_append]
  omega

/-- Both fields are laid out exactly when both integers fit. -/
theorem fields_eq_ok {r s width : ℕ} {out : Bytes} :
    (do
      let first ← integerToFixedUnsigned (unsignedContent r) width
      let second ← integerToFixedUnsigned (unsignedContent s) width
      return first ++ second) = .ok out ↔
      (r < 256 ^ width ∧ s < 256 ^ width) ∧ out = fixedBigEndian width r ++ fixedBigEndian width s := by
  simp only [bind_eq_ok, integerToFixedUnsigned_content, pure_eq_ok]
  constructor
  · rintro ⟨_, ⟨hr, rfl⟩, _, ⟨hs, rfl⟩, rfl⟩
    exact ⟨⟨hr, hs⟩, rfl⟩
  · rintro ⟨⟨hr, hs⟩, rfl⟩
    exact ⟨_, ⟨hr, rfl⟩, _, ⟨hs, rfl⟩, rfl⟩

/-- What the conversion makes of the encoding of two integers. -/
theorem toJose_derSignature {r s : ℕ} {der : Bytes} (h : derSignature r s = some der) (out : Bytes) :
    derEcdsaSignatureToJose der 32 = .ok out ↔
      (r < 256 ^ 32 ∧ s < 256 ^ 32) ∧ out = fixedBigEndian 32 r ++ fixedBigEndian 32 s := by
  obtain ⟨first, hfirst, h⟩ := Option.bind_eq_some_iff.mp h
  obtain ⟨second, hsecond, h⟩ := Option.bind_eq_some_iff.mp h
  obtain ⟨len, hlen, h⟩ := Option.bind_eq_some_iff.mp h
  obtain rfl := Option.some.inj h
  have hlength := readDerLength_append hlen [0x30] (first ++ second)
  rw [derEcdsaSignatureToJose, throwIf_bind (by simp), ← List.singleton_append]
  rw [List.length_singleton] at hlength
  rw [hlength]
  by_cases hbody : (first ++ second).length < 2 ^ 16
  · have hr := readDerInteger_append hfirst ([0x30] ++ len) second
    have hs := readDerInteger_append hsecond ([0x30] ++ len ++ first) []
    have hrcontent := content_lt_encoded hfirst
    have hscontent := content_lt_encoded hsecond
    rw [List.length_append] at hbody
    rw [if_pos (by omega), List.append_assoc, List.length_append, List.length_singleton] at hr
    rw [if_pos (by omega), List.append_nil, List.append_assoc, List.append_assoc, List.length_append, List.length_append,
      List.length_singleton] at hs
    rw [if_pos (by rw [List.length_append]; exact hbody), ok_bind, throwIf_bind, hr, ok_bind, hs, ok_bind, throwIf_bind]
    · exact fields_eq_ok
    · simp only [List.length_append, List.length_singleton]
      omega
    · simp only [List.length_append, List.length_singleton]
      omega
  · rw [if_neg hbody]
    constructor
    · intro h
      cases h
    · rintro ⟨⟨hr, hs⟩, -⟩
      obtain ⟨first', hfirst', hfirstLen⟩ := derInteger_short hr
      obtain ⟨second', hsecond', hsecondLen⟩ := derInteger_short hs
      obtain rfl := Option.some.inj (hfirst.symm.trans hfirst')
      obtain rfl := Option.some.inj (hsecond.symm.trans hsecond')
      rw [List.length_append] at hbody
      omega

theorem exists_error_iff {ε α : Type} {x : Except ε α} : (∃ e, x = .error e) ↔ ∀ a, x ≠ .ok a := by
  cases x <;> simp

/-- A sequence that is cut off, or followed by something, does not convert. -/
theorem toJose_derSequence {body der : Bytes} (h : derSequence body = some der) (width : ℕ) :
    (∀ cut, cut <+: der → cut ≠ der → ∃ message, derEcdsaSignatureToJose cut width = .error message) ∧
      ∀ more, more ≠ [] → ∃ message, derEcdsaSignatureToJose (der ++ more) width = .error message := by
  obtain ⟨len, hlen, h⟩ := Option.bind_eq_some_iff.mp h
  obtain rfl := Option.some.inj h
  -- behind a whole length there must be as many bytes as it says
  have hwhole : ∀ rest : Bytes, rest.length ≠ body.length →
      ∃ message, derEcdsaSignatureToJose (0x30 :: (len ++ rest)) width = .error message := by
    intro rest hrest
    have hlength := readDerLength_append hlen [0x30] rest
    rw [List.length_singleton] at hlength
    rw [derEcdsaSignatureToJose, throwIf_bind (by simp), ← List.singleton_append, hlength]
    split
    · rw [ok_bind, throwIf, if_pos]
      · exact ⟨_, rfl⟩
      · simp only [List.length_append, List.length_singleton]
        omega
    · exact ⟨_, rfl⟩
  constructor
  · intro cut hcut hne
    cases cut with
    | nil => exact ⟨_, rfl⟩
    | cons b cut =>
      obtain ⟨rfl, hrest⟩ := List.cons_prefix_cons.mp hcut
      rcases Nat.lt_or_ge cut.length len.length with hlt | hge
      · have hprefix := List.prefix_of_prefix_length_le hrest (List.prefix_append len body) hlt.le
        have hshort : cut ≠ len := fun heq => Nat.lt_irrefl _ (heq ▸ hlt)
        obtain ⟨message, hmessage⟩ : ∃ message, readDerLength ([0x30] ++ cut) [0x30].length = .error message :=
          readDerLength_truncated hlen hprefix hshort
        rw [List.length_singleton] at hmessage
        rw [derEcdsaSignatureToJose, throwIf_bind (by simp), ← List.singleton_append, hmessage]
        exact ⟨message, rfl⟩
      · obtain ⟨rest, rfl⟩ := List.prefix_of_prefix_length_le (List.prefix_append len body) hrest hge
        have hbody := (List.prefix_append_right_inj len).mp hrest
        refine hwhole rest fun hlength => hne ?_
        rw [hbody.eq_of_length hlength]
  · intro more hmore
    rw [List.cons_append, List.append_assoc]
    refine hwhole (body ++ more) ?_
    have := List.length_pos_iff.mpr hmore
    rw [List.length_append]
    omega

/-- **The conversion is exact.** Integers of 32 bytes are laid out in their fields, larger ones are refused, and so is
an encoding that is cut off or followed by something. -/
theorem derEcdsaSignatureToJose_exact (r s : ℕ) :
    (r < 2 ^ 256 → s < 2 ^ 256 → ∃ der, derSignature r s = some der ∧
      derEcdsaSignatureToJose der 32 = .ok (fixedBigEndian 32 r ++ fixedBigEndian 32 s)) ∧
    ∀ der, derSignature r s = some der →
      (2 ^ 256 ≤ r ∨ 2 ^ 256 ≤ s → ∃ message, derEcdsaSignatureToJose der 32 = .error message) ∧
      (∀ cut, cut <+: der → cut ≠ der → ∃ message, derEcdsaSignatureToJose cut 32 = .error message) ∧
      ∀ more, more ≠ [] → ∃ message, derEcdsaSignatureToJose (der ++ more) 32 = .error message := by
  have hwidth : 2 ^ 256 = 256 ^ 32 := by norm_num
  rw [hwidth]
  constructor
  · intro hr hs
    obtain ⟨der, hder⟩ := derSignature_short hr hs
    exact ⟨der, hder, (toJose_derSignature hder _).mpr ⟨⟨hr, hs⟩, rfl⟩⟩
  · intro der hder
    constructor
    · intro hlarge
      rw [exists_error_iff]
      intro out hout
      obtain ⟨⟨hr, hs⟩, -⟩ := (toJose_derSignature hder out).mp hout
      rcases hlarge with hr' | hs'
      · exact Nat.not_lt.mpr hr' hr
      · exact Nat.not_lt.mpr hs' hs
    · obtain ⟨first, -, hrest⟩ := Option.bind_eq_some_iff.mp hder
      obtain ⟨second, -, hsequence⟩ := Option.bind_eq_some_iff.mp hrest
      exact toJose_derSequence hsequence 32

end Dnsid.Keys
