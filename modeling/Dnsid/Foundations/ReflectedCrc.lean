import Mathlib.Algebra.CharP.Two
import Mathlib.Algebra.Field.ZMod
import Mathlib.Algebra.Polynomial.Div
import Mathlib.Data.ZMod.Basic
import Mathlib.RingTheory.AdjoinRoot

/-! # Reflected cyclic redundancy checks

A word of `w` bits stands for a polynomial over GF(2) with its lowest bit at the highest power (`reflected`). The check
of a message is the remainder of the message, moved up by `w`, with the initial value moved up by the length of the
message (`checkPolynomial`). A register that is shifted down one bit at a time, with the generator added for each bit
that leaves it, holds that remainder.
-/
namespace Dnsid.Foundations.Crc
open Polynomial
set_option autoImplicit false

variable {w : ℕ}

def bit (b : Bool) : ZMod 2 := if b then 1 else 0

theorem bit_injective : Function.Injective bit := by decide

theorem bit_xor (a b : Bool) : bit (a ^^ b) = bit a + bit b := by
  revert a b
  decide

/-- The lowest bit is the coefficient of `X ^ (w - 1)`. -/
noncomputable def reflected (r : BitVec w) : (ZMod 2)[X] := ∑ k ∈ Finset.range w, C (bit (r.getMsbD k)) * X ^ k

@[simp] theorem coeff_reflected (r : BitVec w) (k : ℕ) : (reflected r).coeff k = bit (r.getMsbD k) := by
  rw [reflected, finsetSum_coeff]
  simp only [coeff_C_mul_X_pow]
  by_cases hk : k < w
  · rw [Finset.sum_eq_single k (fun j _ hj => if_neg fun h => hj h.symm) fun h => absurd (Finset.mem_range.mpr hk) h]
    exact if_pos rfl
  · rw [BitVec.getMsbD_of_ge r k (Nat.le_of_not_lt hk)]
    refine Finset.sum_eq_zero fun j hj => if_neg ?_
    rintro rfl
    exact hk (Finset.mem_range.mp hj)

theorem reflected_injective : Function.Injective (reflected (w := w)) := by
  intro r s h
  refine BitVec.eq_of_getMsbD_eq fun k _ => bit_injective ?_
  rw [← coeff_reflected, ← coeff_reflected, h]

theorem degree_reflected (r : BitVec w) : (reflected r).degree < w := by
  refine (degree_lt_iff_coeff_zero _ _).mpr fun k hk => ?_
  rw [coeff_reflected, BitVec.getMsbD_of_ge r k hk]
  rfl

theorem reflected_xor (r s : BitVec w) : reflected (r ^^^ s) = reflected r + reflected s := by
  ext k
  simp only [coeff_reflected, coeff_add, BitVec.getMsbD_xor, bit_xor]

/-- A shorter word in the low bits of a longer one. -/
theorem reflected_setWidth {m : ℕ} (hm : m ≤ w) (b : BitVec m) :
    reflected (b.setWidth w) = X ^ (w - m) * reflected b := by
  ext k
  rw [coeff_reflected, BitVec.getMsbD_setWidth, coeff_X_pow_mul']
  by_cases hk : w - m ≤ k
  · rw [if_pos hk, coeff_reflected, decide_eq_true hk, Bool.true_and]
    congr 2
    omega
  · rw [if_neg hk, decide_eq_false hk, Bool.false_and]
    rfl

/-! ## The register -/

/-- The generator without its highest power is the word `g`. -/
noncomputable def generator (g : BitVec w) : (ZMod 2)[X] := X ^ w + reflected g

theorem generator_monic (g : BitVec w) : (generator g).Monic := monic_X_pow_add (degree_reflected g)

theorem degree_generator (g : BitVec w) : (generator g).degree = w := by
  rw [generator, degree_add_eq_left_of_degree_lt, degree_X_pow]
  rw [degree_X_pow]
  exact degree_reflected g

def shiftBit (g r : BitVec w) : BitVec w := (r >>> 1) ^^^ (if r.getLsbD 0 then g else 0)

/-- The bit that leaves the register is the coefficient of `X ^ w`. -/
theorem X_mul_reflected (r : BitVec w) (hw : 0 < w) :
    X * reflected r = reflected (r >>> 1) + C (bit (r.getLsbD 0)) * X ^ w := by
  ext k
  rw [coeff_add, coeff_reflected, coeff_C_mul_X_pow]
  cases k with
  | zero =>
    rw [coeff_X_mul_zero, if_neg (by omega), add_zero]
    simp [BitVec.getMsbD_ushiftRight, bit]
  | succ k =>
    rw [coeff_X_mul, coeff_reflected, BitVec.getMsbD_ushiftRight]
    by_cases hk : k + 1 = w
    · subst hk
      simp [BitVec.getMsbD_eq_getLsbD, bit]
    · rw [if_neg hk, add_zero]
      congr 1
      by_cases hlt : k + 1 < w
      · simp [hlt]
      · rw [BitVec.getMsbD_of_ge r k (by omega)]
        simp [hlt]

theorem reflected_shiftBit (g r : BitVec w) (hw : 0 < w) :
    reflected (shiftBit g r) + C (bit (r.getLsbD 0)) * generator g = X * reflected r := by
  rw [X_mul_reflected r hw, shiftBit, reflected_xor, generator]
  cases r.getLsbD 0 with
  | false => simp [bit, reflected]
  | true =>
    simp only [bit, if_true, map_one, one_mul]
    rw [add_comm (X ^ w) (reflected g), add_assoc, ← add_assoc (reflected g), CharTwo.add_self_eq_zero, zero_add]

/-- Modulo the generator a shift is a multiplication with `X`. -/
theorem mk_shiftBit (g r : BitVec w) (hw : 0 < w) :
    AdjoinRoot.mk (generator g) (reflected (shiftBit g r)) = AdjoinRoot.mk (generator g) (X * reflected r) := by
  rw [← reflected_shiftBit g r hw, map_add, map_mul, AdjoinRoot.mk_self, mul_zero, add_zero]

theorem mk_shifts (g r : BitVec w) (hw : 0 < w) (n : ℕ) :
    AdjoinRoot.mk (generator g) (reflected ((shiftBit g)^[n] r)) = AdjoinRoot.mk (generator g) (X ^ n * reflected r) := by
  induction n with
  | zero => rw [Function.iterate_zero, id_eq, pow_zero, one_mul]
  | succ n ih =>
    rw [Function.iterate_succ_apply', mk_shiftBit g _ hw, map_mul, ih, ← map_mul, pow_succ', mul_assoc]

def shiftByte (g r : BitVec w) (b : BitVec 8) : BitVec w := (shiftBit g)^[8] (r ^^^ b.setWidth w)

theorem mk_shiftByte (g r : BitVec w) (hw : 8 ≤ w) (b : BitVec 8) :
    AdjoinRoot.mk (generator g) (reflected (shiftByte g r b)) =
      AdjoinRoot.mk (generator g) (X ^ 8 * reflected r + X ^ w * reflected b) := by
  rw [shiftByte, mk_shifts g _ (by omega), reflected_xor, reflected_setWidth hw, mul_add, ← mul_assoc, ← pow_add,
    Nat.add_sub_of_le hw]

def register (g init : BitVec w) (bytes : List (BitVec 8)) : BitVec w := bytes.foldl (shiftByte g) init

/-! ## The check of a message -/

/-- The first byte is at the highest powers, and of each byte the lowest bit. -/
noncomputable def message : List (BitVec 8) → (ZMod 2)[X]
  | [] => 0
  | b :: bytes => X ^ (8 * bytes.length) * reflected b + message bytes

/-- The dividend: the message and, over its first bits, the initial value. -/
noncomputable def dividend (init : BitVec w) (bytes : List (BitVec 8)) : (ZMod 2)[X] :=
  X ^ w * message bytes + X ^ (8 * bytes.length) * reflected init

theorem mk_register (g init : BitVec w) (hw : 8 ≤ w) (bytes : List (BitVec 8)) :
    AdjoinRoot.mk (generator g) (reflected (register g init bytes)) = AdjoinRoot.mk (generator g) (dividend init bytes) := by
  induction bytes generalizing init with
  | nil => simp [register, dividend, message]
  | cons b bytes ih =>
    have hstep : register g init (b :: bytes) = register g (shiftByte g init b) bytes := rfl
    rw [hstep, ih, dividend, map_add, map_mul _ (X ^ (8 * bytes.length)), mk_shiftByte g init hw, ← map_mul, ← map_add]
    congr 1
    rw [dividend, message, List.length_cons, Nat.mul_succ, pow_add]
    ring

/-- `check` is the reflected check of the message, with `last` added at the end. -/
def IsCheck (g init last : BitVec w) (bytes : List (BitVec 8)) (check : BitVec w) : Prop :=
  reflected (check ^^^ last) = dividend init bytes %ₘ generator g

/-- The register holds the remainder of the polynomial division. -/
theorem reflected_register (g init : BitVec w) (hw : 8 ≤ w) (bytes : List (BitVec 8)) :
    reflected (register g init bytes) = dividend init bytes %ₘ generator g := by
  have hmod := modByMonic_eq_of_dvd_sub (generator_monic g) (AdjoinRoot.mk_eq_mk.mp (mk_register g init hw bytes))
  have hself : reflected (register g init bytes) %ₘ generator g = reflected (register g init bytes) := by
    rw [modByMonic_eq_self_iff (generator_monic g), degree_generator]
    exact degree_reflected _
  exact hself.symm.trans hmod

theorem isCheck_iff (g init last : BitVec w) (hw : 8 ≤ w) (bytes : List (BitVec 8)) (check : BitVec w) :
    IsCheck g init last bytes check ↔ check = register g init bytes ^^^ last := by
  rw [IsCheck, ← reflected_register g init hw, reflected_injective.eq_iff]
  constructor
  · intro h
    rw [← h, BitVec.xor_assoc, BitVec.xor_self, BitVec.xor_zero]
  · rintro rfl
    rw [BitVec.xor_assoc, BitVec.xor_self, BitVec.xor_zero]

end Dnsid.Foundations.Crc
