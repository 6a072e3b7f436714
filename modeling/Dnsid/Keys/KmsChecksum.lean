import Dnsid.Foundations.Word32
import Dnsid.Foundations.ReflectedCrc
import Dnsid.Protocol.Encoding

/-! # Checksums of Google Cloud KMS (`crc32c` and `checksumMatches` of `key-gcp/src/index.ts`)

The loop works on signed words. The register of the polynomial division is such a word, taken modulo `2 ^ 32`.
-/
namespace Dnsid.Keys
open Dnsid.Foundations
open Dnsid.Protocol (Bytes)
set_option autoImplicit false

/-- One turn of the inner loop. -/
def crc32cBit (crc : ℤ) : ℤ :=
  Word32.xor (Word32.shiftRightUnsigned crc 1) (if Word32.and crc 1 ≠ 0 then 0x82f63b78 else 0)

/-- One turn of the outer loop. -/
def crc32cByte (crc : ℤ) (byte : UInt8) : ℤ := crc32cBit^[8] (Word32.xor crc byte.toNat)

def crc32c (bytes : Bytes) : ℤ :=
  Word32.shiftRightUnsigned (Word32.xor (bytes.foldl crc32cByte 0xffffffff) 0xffffffff) 0

/-- `value` is `String(checksum.value)`, if there is one. -/
def checksumMatches (bytes : Bytes) (value : Option (List Char)) : Bool :=
  match value with
  | none => false
  | some text =>
    if text ≠ [] ∧ text.all Char.isDigit = true then
      let value := Nat.ofDigitChars 10 text 0
      value ≤ 2 ^ 53 - 1 && value ≤ 0xffffffff && (value : ℤ) = crc32c bytes
    else false

/-! ## The register -/

/-- The polynomial of CRC-32C without its highest power. -/
def castagnoli : BitVec 32 := 0x82f63b78

theorem and_one_eq_zero (crc : ℤ) : Word32.and crc 1 = 0 ↔ (Word32.toInt32 crc).getLsbD 0 = false := by
  have hone : Word32.toInt32 1 = 1#32 := rfl
  rw [Word32.and, Word32.eq_zero_of_toInt32, hone, BitVec.and_one_eq_setWidth_ofBool_getLsbD]
  cases (Word32.toInt32 crc).getLsbD 0 <;> decide

theorem toInt32_crc32cBit (crc : ℤ) : Word32.toInt32 (crc32cBit crc) = Crc.shiftBit castagnoli (Word32.toInt32 crc) := by
  rw [crc32cBit, Word32.toInt32_xor, Word32.toInt32_shiftRightUnsigned, Crc.shiftBit]
  cases hbit : (Word32.toInt32 crc).getLsbD 0 with
  | false =>
    rw [if_neg (not_not.mpr ((and_one_eq_zero crc).mpr hbit))]
    rfl
  | true =>
    have hne : Word32.and crc 1 ≠ 0 := by
      intro hzero
      rw [(and_one_eq_zero crc).mp hzero] at hbit
      cases hbit
    rw [if_pos hne]
    rfl

theorem toInt32_crc32cByte (crc : ℤ) (byte : UInt8) :
    Word32.toInt32 (crc32cByte crc byte) = Crc.shiftByte castagnoli (Word32.toInt32 crc) byte.toBitVec := by
  have hbits : ∀ n c, Word32.toInt32 (crc32cBit^[n] c) = (Crc.shiftBit castagnoli)^[n] (Word32.toInt32 c) := by
    intro n c
    induction n with
    | zero => rfl
    | succ n ih => rw [Function.iterate_succ_apply', Function.iterate_succ_apply', toInt32_crc32cBit, ih]
  have hbyte : Word32.toInt32 (byte.toNat : ℤ) = byte.toBitVec.setWidth 32 := BitVec.ofNat_toNat _ _
  rw [crc32cByte, hbits, Word32.toInt32_xor, Crc.shiftByte, hbyte]

theorem toInt32_crc32cBytes (crc : ℤ) (bytes : Bytes) :
    Word32.toInt32 (bytes.foldl crc32cByte crc) =
      Crc.register castagnoli (Word32.toInt32 crc) (bytes.map UInt8.toBitVec) := by
  induction bytes generalizing crc with
  | nil => rfl
  | cons byte bytes ih =>
    rw [List.foldl_cons, ih, toInt32_crc32cByte]
    rfl

theorem crc32c_eq_register (bytes : Bytes) :
    crc32c bytes = (Crc.register castagnoli 0xffffffff (bytes.map UInt8.toBitVec) ^^^ 0xffffffff).toNat := by
  rw [crc32c, Word32.shiftRightUnsigned_zero, Word32.toInt32_xor, toInt32_crc32cBytes]
  rfl

/-- **The checksum is CRC-32C**: an unsigned word, and the one that the polynomial division gives. -/
theorem crc32c_isCheck (bytes : Bytes) :
    0 ≤ crc32c bytes ∧ crc32c bytes ≤ 2 ^ 32 - 1 ∧
      ∀ check : BitVec 32, crc32c bytes = check.toNat ↔
        Crc.IsCheck castagnoli 0xffffffff 0xffffffff (bytes.map UInt8.toBitVec) check := by
  rw [crc32c_eq_register]
  refine ⟨by omega, by omega, fun check => ?_⟩
  rw [Crc.isCheck_iff _ _ _ (by decide), Nat.cast_inj, BitVec.toNat_inj]
  exact eq_comm

/-- The check value of CRC-32C, that of the digits 1 to 9. -/
example : crc32c [0x31, 0x32, 0x33, 0x34, 0x35, 0x36, 0x37, 0x38, 0x39] = 0xe3069283 := by decide +kernel

theorem checksumMatches_iff (bytes : Bytes) (text : List Char) :
    checksumMatches bytes (some text) = true ↔
      text ≠ [] ∧ text.all Char.isDigit = true ∧ (Nat.ofDigitChars 10 text 0 : ℤ) = crc32c bytes := by
  obtain ⟨_, hle, _⟩ := crc32c_isCheck bytes
  simp only [checksumMatches]
  split
  next hdigits =>
    simp only [Bool.and_eq_true, decide_eq_true_eq]
    constructor
    · rintro ⟨-, hvalue⟩
      exact ⟨hdigits.1, hdigits.2, hvalue⟩
    · rintro ⟨-, -, hvalue⟩
      refine ⟨⟨?_, ?_⟩, hvalue⟩ <;> omega
  next hdigits =>
    constructor
    · intro h
      cases h
    · rintro ⟨hne, hall, -⟩
      exact absurd ⟨hne, hall⟩ hdigits

end Dnsid.Keys
