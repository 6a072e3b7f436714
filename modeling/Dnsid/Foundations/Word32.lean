import Mathlib.Data.Nat.Notation
import Mathlib.Data.Int.Notation

/-! # 32-bit operators of the language

A number is an integer. An operator takes its operands modulo `2 ^ 32` (`ToInt32`); its result is a signed word, that of
`>>>` an unsigned one.
-/
namespace Dnsid.Foundations.Word32
set_option autoImplicit false

def toInt32 (n : ℤ) : BitVec 32 := BitVec.ofInt 32 n

/-- `a & b`. -/
def and (a b : ℤ) : ℤ := (toInt32 a &&& toInt32 b).toInt

/-- `a | b`. -/
def or (a b : ℤ) : ℤ := (toInt32 a ||| toInt32 b).toInt

/-- `a ^ b`. -/
def xor (a b : ℤ) : ℤ := (toInt32 a ^^^ toInt32 b).toInt

/-- `a << n` with `n < 32`. -/
def shiftLeft (a : ℤ) (n : ℕ) : ℤ := (toInt32 a <<< n).toInt

/-- `a >> n` with `n < 32`. -/
def shiftRight (a : ℤ) (n : ℕ) : ℤ := ((toInt32 a).sshiftRight n).toInt

/-- `a >>> n` with `n < 32`. -/
def shiftRightUnsigned (a : ℤ) (n : ℕ) : ℤ := (toInt32 a >>> n).toNat

@[simp] theorem toInt32_toInt (x : BitVec 32) : toInt32 x.toInt = x := BitVec.ofInt_toInt

@[simp] theorem toInt32_natCast (n : ℕ) : toInt32 n = BitVec.ofNat 32 n := rfl

@[simp] theorem toInt32_shiftRightUnsigned (a : ℤ) (n : ℕ) : toInt32 (shiftRightUnsigned a n) = toInt32 a >>> n := by
  rw [shiftRightUnsigned, toInt32_natCast, BitVec.ofNat_toNat, BitVec.setWidth_eq]

@[simp] theorem toInt32_xor (a b : ℤ) : toInt32 (xor a b) = toInt32 a ^^^ toInt32 b := toInt32_toInt _

theorem shiftRightUnsigned_zero (a : ℤ) : shiftRightUnsigned a 0 = (toInt32 a).toNat := by
  rw [shiftRightUnsigned, BitVec.ushiftRight_zero]

theorem eq_zero_of_toInt32 {x : BitVec 32} : x.toInt = 0 ↔ x = 0 := by
  constructor
  · intro h
    exact BitVec.eq_of_toInt_eq (by simpa using h)
  · rintro rfl
    rfl

end Dnsid.Foundations.Word32
