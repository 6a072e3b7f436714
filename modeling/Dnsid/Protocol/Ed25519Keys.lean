import Mathlib.Data.List.GetD
import Mathlib.NumberTheory.LegendreSymbol.Basic
import Dnsid.Foundations.Edwards
import Dnsid.Foundations.Primality
import Dnsid.Protocol.SignatureKeys

/-! # Points of small order among Ed25519 keys

`publicKeyEncodingValid` refuses an encoding by a comparison of bytes and by a table of ten texts. The comparison finds the
numbers from `p` on, and the table holds the points of order 1, 2, 4 and 8 of edwards25519, each with either sign of `x`.
-/
namespace Dnsid.Protocol
open Dnsid.Foundations
set_option autoImplicit false

/-! ## The curve -/

/-- `2 ^ 255 - 19`. -/
abbrev fieldPrime : ℕ := 57896044618658097711785492504343953926634992332820282019728792003956564819949

theorem fieldPrime_eq : fieldPrime = 2 ^ 255 - 19 := by norm_num [fieldPrime]

instance : Fact fieldPrime.Prime := ⟨fieldPrime_eq ▸ prime_255_19⟩

/-- A square root of -1. -/
def rootOfMinusOne : ℕ := 19681161376707505956807079304988542015446066515923890162744021073123829784752

/-- The residue that is -121665/121666. -/
def curveParameter : ℕ := 37095705934669439343138083508754565189542113879843219016388785533085940283555

theorem natCast_zero {n : ℕ} (h : n % fieldPrime = 0) : (n : ZMod fieldPrime) = 0 :=
  (ZMod.natCast_eq_zero_iff n fieldPrime).mpr (Nat.dvd_of_mod_eq_zero h)

theorem rootOfMinusOne_sq : (-1 : ZMod fieldPrime) = rootOfMinusOne * rootOfMinusOne := by
  have hzero := natCast_zero (n := rootOfMinusOne * rootOfMinusOne + 1) (by norm_num [rootOfMinusOne])
  push_cast at hzero
  linear_combination -hzero

theorem natCast_ne_zero {n : ℕ} (h : n % fieldPrime ≠ 0) : (n : ZMod fieldPrime) ≠ 0 := by
  intro hzero
  exact h (Nat.mod_eq_zero_of_dvd ((ZMod.natCast_eq_zero_iff n fieldPrime).mp hzero))

theorem curveParameter_eq : (-121665 / 121666 : ZMod fieldPrime) = curveParameter := by
  have hne : (121666 : ZMod fieldPrime) ≠ 0 := by
    exact_mod_cast natCast_ne_zero (n := 121666) (by norm_num)
  have hzero := natCast_zero (n := 121666 * curveParameter + 121665) (by norm_num [curveParameter])
  push_cast at hzero
  rw [div_eq_iff hne]
  linear_combination -hzero

theorem curveParameter_not_isSquare : ¬ IsSquare (-121665 / 121666 : ZMod fieldPrime) := by
  have hne : (curveParameter : ZMod fieldPrime) ≠ 0 := natCast_ne_zero (by norm_num [curveParameter])
  rw [curveParameter_eq, ZMod.euler_criterion fieldPrime hne]
  have hpower : (37095705934669439343138083508754565189542113879843219016388785533085940283555 : ZMod fieldPrime) ^
      28948022309329048855892746252171976963317496166410141009864396001978282409974 ≠ 1 := by
    reduce_mod_char
    decide
  have hhalf : fieldPrime / 2 = 28948022309329048855892746252171976963317496166410141009864396001978282409974 := by
    norm_num [fieldPrime]
  rw [hhalf, curveParameter, Nat.cast_ofNat]
  exact hpower

/-- The curve of Ed25519: `-x² + y² = 1 - (121665/121666) x² y²`. -/
def edwards25519 : EdwardsCurve (ZMod fieldPrime) where
  a := -1
  d := -121665 / 121666
  two_ne_zero := by exact_mod_cast natCast_ne_zero (n := 2) (by norm_num)
  a_ne_zero := neg_ne_zero.mpr one_ne_zero
  isSquare_a := ⟨_, rootOfMinusOne_sq⟩
  not_isSquare_d := curveParameter_not_isSquare

/-! ## The points of the table -/

/-- A point of order 8: `x` is `y` times the root of -1. -/
def orderEight : edwards25519.Point where
  x := 14399317868200118260347934320527232580618823971194345261214217575416788799818
  y := 2707385501144840649318225287225658788936804267575313519463743609750303402022
  on_curve := by
    simp only [edwards25519]
    rw [curveParameter_eq, curveParameter, Nat.cast_ofNat]
    reduce_mod_char

theorem orderEight_y_sq : orderEight.y ^ 2 = edwards25519.a * orderEight.x ^ 2 := by
  simp only [edwards25519, orderEight]
  reduce_mod_char

/-- The `y` of the table are those of the points of small order. -/
theorem smallOrderYs_iff {y : ℕ} (hy : y < fieldPrime) :
    y ∈ smallOrderYs ↔ ∃ P : edwards25519.Point, P.y.val = y ∧ P.SmallOrder := by
  have hcast : smallOrderYs.map (Nat.cast : ℕ → ZMod fieldPrime) = [1, -1, 0, orderEight.y, -orderEight.y] := by
    simp only [smallOrderYs, orderEight, List.map_cons, List.map_nil, Nat.cast_one, Nat.cast_zero, Nat.cast_ofNat]
    norm_num
    constructor
    · reduce_mod_char
    · reduce_mod_char
  have hlt : ∀ n ∈ smallOrderYs, n < fieldPrime := by decide
  constructor
  · intro hmem
    have hcasted : (y : ZMod fieldPrime) ∈ smallOrderYs.map (Nat.cast : ℕ → ZMod fieldPrime) := List.mem_map_of_mem hmem
    rw [hcast, ← EdwardsCurve.small_order_y_iff orderEight_y_sq] at hcasted
    obtain ⟨P, hP, hsmall⟩ := hcasted
    exact ⟨P, by rw [hP, ZMod.val_cast_of_lt hy], hsmall⟩
  · rintro ⟨P, rfl, hsmall⟩
    have hmem := (EdwardsCurve.small_order_y_iff orderEight_y_sq P.y).mp ⟨P, rfl, hsmall⟩
    rw [← hcast] at hmem
    obtain ⟨n, hn, hcastn⟩ := List.mem_map.mp hmem
    rw [← hcastn, ZMod.val_cast_of_lt (hlt n hn)]
    exact hn

/-! ## The two tests -/

theorem littleEndian_lt (bytes : Bytes) : littleEndian bytes < 256 ^ bytes.length := by
  induction bytes with
  | nil => exact Nat.one_pos
  | cons b bytes ih =>
    have hb := b.toNat_lt
    rw [littleEndian_cons, List.length_cons, pow_succ]
    omega

/-- Only bytes that are all ones make the largest number. -/
theorem littleEndian_max {bytes : Bytes} (h : littleEndian bytes = 256 ^ bytes.length - 1) : ∀ b ∈ bytes, b = 0xff := by
  induction bytes with
  | nil => exact List.forall_mem_nil _
  | cons b bytes ih =>
    have hb := b.toNat_lt
    have hlt := littleEndian_lt bytes
    rw [littleEndian_cons, List.length_cons, pow_succ] at h
    have hrest : littleEndian bytes = 256 ^ bytes.length - 1 := by omega
    have hbyte : b.toNat = 255 := by omega
    exact List.forall_mem_cons.mpr ⟨UInt8.toNat_inj.mp hbyte, ih hrest⟩

theorem littleEndian_injective {a b : Bytes} (hlen : a.length = b.length) (h : littleEndian a = littleEndian b) : a = b := by
  induction a generalizing b with
  | nil => exact (List.length_eq_zero_iff.mp hlen.symm).symm
  | cons x a ih =>
    cases b with
    | nil => cases hlen
    | cons y b =>
      have hx := x.toNat_lt
      have hy := y.toNat_lt
      rw [littleEndian_cons, littleEndian_cons] at h
      have hhead : x.toNat = y.toNat := by omega
      have htail : littleEndian a = littleEndian b := by omega
      rw [UInt8.toNat_inj.mp hhead, ih (Nat.succ.inj hlen) htail]

/-- The first byte, the thirty between and the last one. -/
theorem exists_parts {x : Bytes} (hlen : x.length = 32) :
    ∃ first middle last, x = first :: (middle ++ [last]) ∧ middle.length = 30 := by
  cases x with
  | nil => cases hlen
  | cons first rest =>
    have hrest : rest.length = 31 := Nat.succ.inj hlen
    rcases List.eq_nil_or_concat' rest with rfl | ⟨middle, last, rfl⟩
    · cases hrest
    · rw [List.length_append, List.length_singleton] at hrest
      exact ⟨first, middle, last, rfl, Nat.succ.inj hrest⟩

theorem yAtLeastP_parts (first : UInt8) {middle : Bytes} (hlen : middle.length = 30) (last : UInt8) :
    yAtLeastP (first :: (middle ++ [last])) = true ↔
      last.toNat % 128 = 127 ∧ (∀ b ∈ middle, b = 0xff) ∧ 237 ≤ first.toNat := by
  have hlast : (first :: (middle ++ [last])).getD 31 0 = last := by
    rw [List.getD_cons_succ, List.getD_append_right _ _ _ _ (by omega), hlen]
    rfl
  have hmiddle : ((first :: (middle ++ [last])).take 31).drop 1 = middle := by
    rw [List.take_succ_cons, List.drop_succ_cons, List.drop_zero, List.take_append_of_le_length (by omega),
      List.take_of_length_le (by omega)]
  have hbits : last &&& 0x7f = 0x7f ↔ last.toNat % 128 = 127 := by
    rw [← UInt8.toNat_inj, UInt8.toNat_and]
    exact Eq.congr (Nat.and_two_pow_sub_one_eq_mod last.toNat 7) rfl
  rw [yAtLeastP, hlast, hmiddle]
  simp only [Bool.and_eq_true, decide_eq_true_eq, List.all_eq_true, hbits, and_assoc]
  rfl

theorem yAtLeastP_iff {x : Bytes} (hlen : x.length = 32) : yAtLeastP x = true ↔ 2 ^ 255 - 19 ≤ yCoordinate x := by
  refine ⟨yCoordinate_of_yAtLeastP hlen, fun h => ?_⟩
  obtain ⟨first, middle, last, rfl, hmiddle⟩ := exists_parts hlen
  have hfirst := first.toNat_lt
  have hlt := littleEndian_lt middle
  rw [yCoordinate, littleEndian_cons, littleEndian_append, hmiddle, littleEndian_cons] at h
  have hnil : littleEndian [] = 0 := rfl
  rw [hmiddle] at hlt
  rw [hnil] at h
  have hall : littleEndian middle = 256 ^ middle.length - 1 := by
    rw [hmiddle]
    omega
  refine (yAtLeastP_parts first hmiddle last).mpr ⟨?_, littleEndian_max hall, ?_⟩
  · omega
  · omega

theorem smallOrderBytes_value : ∀ y ∈ smallOrderYs, ∀ n ∈ [y, y + 2 ^ 255],
    ∃ bytes ∈ smallOrderBytes, bytes.length = 32 ∧ littleEndian bytes = n := by
  decide

theorem smallOrder_iff_y {x : Bytes} (hlen : x.length = 32) :
    ed25519SmallOrder.contains (toHex x) = true ↔ yCoordinate x ∈ smallOrderYs := by
  refine ⟨yCoordinate_of_smallOrder, fun h => ?_⟩
  have hlt := littleEndian_lt x
  rw [hlen] at hlt
  -- The top bit is the sign of `x`.
  have hsign : littleEndian x ∈ [yCoordinate x, yCoordinate x + 2 ^ 255] := by
    simp only [yCoordinate, List.mem_cons, List.not_mem_nil, or_false]
    omega
  obtain ⟨bytes, hmem, hlen', hvalue⟩ := smallOrderBytes_value _ h _ hsign
  rw [List.contains_iff_mem, ← smallOrderBytes_hex, littleEndian_injective (hlen.trans hlen'.symm) hvalue.symm]
  exact List.mem_map_of_mem hmem

/-- The filter for keys of Ed25519 refuses what is not 32 bytes, the numbers from `p` on, and the `y` of the points of order 1, 2,
4 and 8, and nothing else. The sign of `x` has no part in it. -/
theorem publicKeyEncodingValid_exact (key : KeyMaterial) (hkty : key.kty = "OKP") (x : Bytes)
    (hx : decodeMember key.x = some x) :
    publicKeyEncodingValid key = some false ↔
      x.length ≠ 32 ∨ 2 ^ 255 - 19 ≤ yCoordinate x ∨
        ∃ P : edwards25519.Point, P.y.val = yCoordinate x ∧ addOrderOf P ∈ [1, 2, 4, 8] := by
  have hnot : key.kty ≠ "EC" := by
    rw [hkty]
    decide
  have hkey : publicKeyEncodingValid key = if x.length ≠ 32 then some false
      else some (!yAtLeastP x && !ed25519SmallOrder.contains (toHex x)) := by
    rw [publicKeyEncodingValid, if_neg hnot, if_neg (not_not_intro hkty), hx]
    rfl
  rw [hkey]
  by_cases hlen : x.length = 32
  · have hgoal : (yAtLeastP x = true ∨ ed25519SmallOrder.contains (toHex x) = true) ↔
        2 ^ 255 - 19 ≤ yCoordinate x ∨ ∃ P : edwards25519.Point, P.y.val = yCoordinate x ∧ addOrderOf P ∈ [1, 2, 4, 8] := by
      rw [yAtLeastP_iff hlen, smallOrder_iff_y hlen]
      refine or_congr_right' fun hcanonical => ?_
      rw [← fieldPrime_eq, not_le] at hcanonical
      exact smallOrderYs_iff hcanonical
    rw [if_neg (not_not_intro hlen), or_iff_right (not_not_intro hlen), ← hgoal, Option.some.injEq]
    cases yAtLeastP x <;> cases ed25519SmallOrder.contains (toHex x) <;> decide
  · rw [if_pos hlen]
    exact iff_of_true rfl (.inl hlen)

/-- The neutral element, which is `y = 1`. -/
def identityKey : KeyMaterial where
  kty := "OKP"
  crv := some "Ed25519"
  x := some (String.ofList ('A' :: 'Q' :: List.replicate 41 'A'))

def identityBytes : Bytes := 1 :: List.replicate 31 0

theorem publicKeyEncodingValid_exact_identity :
    publicKeyEncodingValid identityKey = some false ↔
      identityBytes.length ≠ 32 ∨ 2 ^ 255 - 19 ≤ yCoordinate identityBytes ∨
        ∃ P : edwards25519.Point, P.y.val = yCoordinate identityBytes ∧ addOrderOf P ∈ [1, 2, 4, 8] := by
  refine publicKeyEncodingValid_exact identityKey rfl identityBytes ?_
  rw [identityKey, decodeMember, String.toList_ofList]
  decide

end Dnsid.Protocol
