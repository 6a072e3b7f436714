import Mathlib.Data.Nat.Notation
import Mathlib.Data.List.Basic
import Mathlib.Tactic.Ring

/-! # DER lengths, integers and sequences

The distinguished encoding of a natural number and of a sequence. A length from 128 on has a prefix that counts its own
bytes; a length that needs more than 126 bytes has no encoding.
-/
namespace Dnsid.Foundations.Der
set_option autoImplicit false

abbrev Bytes := List UInt8

/-! ## Big-endian numbers -/

/-- The bytes of a number, without a zero at the start. -/
def bigEndian (n : ℕ) : Bytes :=
  if n = 0 then [] else bigEndian (n / 256) ++ [UInt8.ofNat n]

/-- The number in a field of `width` bytes. -/
def fixedBigEndian : ℕ → ℕ → Bytes
  | 0, _ => []
  | width + 1, n => fixedBigEndian width (n / 256) ++ [UInt8.ofNat n]

def ofBigEndian (bytes : Bytes) : ℕ := bytes.foldl (fun n b => n * 256 + b.toNat) 0

@[simp] theorem bigEndian_zero : bigEndian 0 = [] := by
  rw [bigEndian, if_pos rfl]

theorem bigEndian_pos {n : ℕ} (h : n ≠ 0) : bigEndian n = bigEndian (n / 256) ++ [UInt8.ofNat n] := by
  rw [bigEndian, if_neg h]

theorem ofBigEndian_append (bytes : Bytes) (b : UInt8) : ofBigEndian (bytes ++ [b]) = ofBigEndian bytes * 256 + b.toNat := by
  rw [ofBigEndian, ofBigEndian, List.foldl_append]
  rfl

theorem ofBigEndian_bigEndian (n : ℕ) : ofBigEndian (bigEndian n) = n := by
  induction n using Nat.strongRecOn with
  | ind n ih =>
    by_cases hn : n = 0
    · rw [hn, bigEndian_zero]
      rfl
    · rw [bigEndian_pos hn, ofBigEndian_append, ih (n / 256) (by omega), UInt8.toNat_ofNat']
      omega

/-- The first byte is not zero. -/
theorem bigEndian_head (n : ℕ) : (bigEndian n).head? ≠ some 0 := by
  induction n using Nat.strongRecOn with
  | ind n ih =>
    by_cases hn : n = 0
    · rw [hn, bigEndian_zero]
      simp
    · rw [bigEndian_pos hn]
      by_cases hlow : n / 256 = 0
      · rw [hlow, bigEndian_zero, List.nil_append, List.head?_cons]
        intro h
        have hbyte := congrArg UInt8.toNat (Option.some.inj h)
        rw [UInt8.toNat_ofNat'] at hbyte
        have hzero : (0 : UInt8).toNat = 0 := rfl
        omega
      · have hne : bigEndian (n / 256) ≠ [] := by
          rw [bigEndian_pos hlow]
          simp
        rw [List.head?_append_of_ne_nil _ hne]
        exact ih (n / 256) (by omega)

theorem length_bigEndian_le {width n : ℕ} : (bigEndian n).length ≤ width ↔ n < 256 ^ width := by
  induction width generalizing n with
  | zero =>
    by_cases hn : n = 0
    · simp [hn]
    · rw [bigEndian_pos hn]
      simp [hn]
  | succ width ih =>
    by_cases hn : n = 0
    · simp [hn]
    · rw [bigEndian_pos hn, List.length_append, List.length_singleton, Nat.add_le_add_iff_right, ih,
        Nat.div_lt_iff_lt_mul (by decide), pow_succ]

/-- A field is the number with zeros before it. -/
theorem fixedBigEndian_eq {width n : ℕ} (h : n < 256 ^ width) :
    fixedBigEndian width n = List.replicate (width - (bigEndian n).length) 0 ++ bigEndian n := by
  induction width generalizing n with
  | zero =>
    obtain rfl : n = 0 := by simpa using h
    rw [bigEndian_zero]
    rfl
  | succ width ih =>
    have hdiv : n / 256 < 256 ^ width := by
      rw [Nat.div_lt_iff_lt_mul (by decide), ← pow_succ]
      exact h
    rw [fixedBigEndian, ih hdiv]
    by_cases hn : n = 0
    · rw [hn, Nat.zero_div, bigEndian_zero, List.append_nil, List.append_nil, List.length_nil, Nat.sub_zero, Nat.sub_zero,
        List.replicate_succ']
      rfl
    · rw [bigEndian_pos hn, List.append_assoc, List.length_append, List.length_singleton, Nat.add_sub_add_right]

/-! ## Encodings -/

def derLength (n : ℕ) : Option Bytes :=
  if n < 128 then some [UInt8.ofNat n]
  else if (bigEndian n).length ≤ 126 then some (UInt8.ofNat (128 + (bigEndian n).length) :: bigEndian n)
  else none

/-- The two's complement of a number that is not negative: no byte too many, and the first bit is clear. -/
def unsignedContent (n : ℕ) : Bytes :=
  match bigEndian n with
  | [] => [0]
  | b :: bytes => if 128 ≤ b.toNat then 0 :: b :: bytes else b :: bytes

def derInteger (n : ℕ) : Option Bytes := do
  let length ← derLength (unsignedContent n).length
  return 0x02 :: (length ++ unsignedContent n)

def derSequence (body : Bytes) : Option Bytes := do
  let length ← derLength body.length
  return 0x30 :: (length ++ body)

theorem derLength_short {n : ℕ} (h : n < 128) : derLength n = some [UInt8.ofNat n] := if_pos h

/-- Without the zeros at its start the content is the number. -/
theorem dropWhile_unsignedContent (n : ℕ) : (unsignedContent n).dropWhile (· = 0) = bigEndian n := by
  have hhead := bigEndian_head n
  rw [unsignedContent]
  cases hb : bigEndian n with
  | nil => rfl
  | cons b bytes =>
    have hne : b ≠ 0 := by
      rintro rfl
      rw [hb] at hhead
      exact hhead rfl
    dsimp only
    split
    · rw [List.dropWhile_cons_of_pos (by simp), List.dropWhile_cons_of_neg (by simpa using hne)]
    · rw [List.dropWhile_cons_of_neg (by simpa using hne)]

theorem length_unsignedContent (n : ℕ) : (unsignedContent n).length ≤ (bigEndian n).length + 1 := by
  rw [unsignedContent]
  cases bigEndian n with
  | nil => simp
  | cons b bytes =>
    dsimp only
    split <;> simp

end Dnsid.Foundations.Der
