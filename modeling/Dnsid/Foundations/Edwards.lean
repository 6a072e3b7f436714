import Mathlib.GroupTheory.OrderOfElement
import Mathlib.Tactic.FieldSimp
import Mathlib.Tactic.LinearCombination
import Mathlib.Tactic.Ring

/-! # Twisted Edwards curves

The points of `a x² + y² = 1 + d x² y²` over a field, where `a` is a square and `d` is none. The denominators of the addition law
are then never zero (`sq_ne_one`), so that one law adds any two points, and the points are a group. A point whose order divides 8
is told by its `y` alone (`small_order_y_iff`).
-/
namespace Dnsid.Foundations
set_option autoImplicit false

structure EdwardsCurve (K : Type) [Field K] where
  a : K
  d : K
  two_ne_zero : (2 : K) ≠ 0
  a_ne_zero : a ≠ 0
  isSquare_a : IsSquare a
  not_isSquare_d : ¬ IsSquare d

namespace EdwardsCurve
variable {K : Type} [Field K] {E : EdwardsCurve K}

@[ext]
structure Point (E : EdwardsCurve K) where
  x : K
  y : K
  on_curve : E.a * x ^ 2 + y ^ 2 = 1 + E.d * x ^ 2 * y ^ 2

/-! ## Denominators -/

/-- Completing the square with either sign. -/
theorem root_sq {α s x1 y1 x2 y2 d : K} (h1 : α * α * x1 ^ 2 + y1 ^ 2 = 1 + d * x1 ^ 2 * y1 ^ 2)
    (h2 : α * α * x2 ^ 2 + y2 ^ 2 = 1 + d * x2 ^ 2 * y2 ^ 2) (hs : s ^ 2 = 1) (h : (d * x1 * x2 * y1 * y2) ^ 2 = 1) :
    (α * x1 + s * (d * x1 * x2 * y1 * y2) * y1) ^ 2 = d * (x1 * y1 * (α * x2 + s * y2)) ^ 2 := by
  linear_combination h1 - d * x1 ^ 2 * y1 ^ 2 * h2 + (y1 ^ 2 * s ^ 2 - 1) * h + (y1 ^ 2 - d * x1 ^ 2 * y1 ^ 2 * y2 ^ 2) * hs

theorem sq_ne_one (P Q : E.Point) : (E.d * P.x * Q.x * P.y * Q.y) ^ 2 ≠ 1 := by
  intro h
  obtain ⟨α, hα⟩ := E.isSquare_a
  have h1 := P.on_curve
  have h2 := Q.on_curve
  rw [hα] at h1 h2
  have hx : P.x ≠ 0 := by
    intro hzero
    simp [hzero] at h
  have hy : P.y ≠ 0 := by
    intro hzero
    simp [hzero] at h
  have hy' : Q.y ≠ 0 := by
    intro hzero
    simp [hzero] at h
  have hroot : ∀ s : K, s ^ 2 = 1 → α * Q.x + s * Q.y = 0 := by
    intro s hs
    by_contra hne
    have hden : P.x * P.y * (α * Q.x + s * Q.y) ≠ 0 := mul_ne_zero (mul_ne_zero hx hy) hne
    refine E.not_isSquare_d ⟨(α * P.x + s * (E.d * P.x * Q.x * P.y * Q.y) * P.y) / (P.x * P.y * (α * Q.x + s * Q.y)), ?_⟩
    rw [div_mul_div_comm, ← sq, ← sq, root_sq h1 h2 hs h, mul_div_assoc, div_self (pow_ne_zero 2 hden), mul_one]
  have hplus := hroot 1 (by ring)
  have hminus := hroot (-1) (by ring)
  have htwo : 2 * Q.y = 0 := by linear_combination hplus - hminus
  exact (mul_ne_zero E.two_ne_zero hy') htwo

theorem one_add_ne_zero (P Q : E.Point) : 1 + E.d * P.x * Q.x * P.y * Q.y ≠ 0 := by
  intro h
  refine sq_ne_one P Q ?_
  linear_combination (E.d * P.x * Q.x * P.y * Q.y - 1) * h

theorem one_sub_ne_zero (P Q : E.Point) : 1 - E.d * P.x * Q.x * P.y * Q.y ≠ 0 := by
  intro h
  refine sq_ne_one P Q ?_
  linear_combination -(1 + E.d * P.x * Q.x * P.y * Q.y) * h

/-! ## The addition law -/

theorem sum_identity {a d x1 y1 x2 y2 : K} (h1 : a * x1 ^ 2 + y1 ^ 2 = 1 + d * x1 ^ 2 * y1 ^ 2)
    (h2 : a * x2 ^ 2 + y2 ^ 2 = 1 + d * x2 ^ 2 * y2 ^ 2) :
    a * (x1 * y2 + y1 * x2) ^ 2 * (1 - d * x1 * x2 * y1 * y2) ^ 2 +
      (y1 * y2 - a * x1 * x2) ^ 2 * (1 + d * x1 * x2 * y1 * y2) ^ 2 =
    (1 + d * x1 * x2 * y1 * y2) ^ 2 * (1 - d * x1 * x2 * y1 * y2) ^ 2 +
      d * (x1 * y2 + y1 * x2) ^ 2 * (y1 * y2 - a * x1 * x2) ^ 2 := by
  linear_combination
    -(
      a ^ 2 * d * x1 ^ 2 * x2 ^ 4 * y2 ^ 2 + 2 * a ^ 2 * x2 ^ 4 * y2 ^ 2 - a ^ 2 * x2 ^ 4
      - a * d ^ 2 * x1 ^ 2 * x2 ^ 4 * y2 ^ 4 + a * d * x1 ^ 2 * x2 ^ 2 * y2 ^ 4
      + a * d * y1 ^ 2 * x2 ^ 4 * y2 ^ 2 - 2 * a * d * x2 ^ 4 * y2 ^ 4 + 2 * a * x2 ^ 2 * y2 ^ 4
      - 4 * a * x2 ^ 2 * y2 ^ 2 - d ^ 3 * x1 ^ 2 * y1 ^ 2 * x2 ^ 4 * y2 ^ 4 - d ^ 2 * y1 ^ 2 * x2 ^ 4 * y2 ^ 4
      + d ^ 2 * x2 ^ 4 * y2 ^ 4 + d * y1 ^ 2 * x2 ^ 2 * y2 ^ 4 + 2 * d * x2 ^ 2 * y2 ^ 2 - y2 ^ 4) * h1 -
    (
      -a ^ 2 * d * x1 ^ 4 * x2 ^ 2 * y2 ^ 2 - 2 * a ^ 2 * x1 ^ 2 * x2 ^ 2 * y2 ^ 2 + a ^ 2 * x1 ^ 2 * x2 ^ 2
      + 2 * a * d * x1 ^ 2 * x2 ^ 2 * y2 ^ 2 + a * x1 ^ 2 * y2 ^ 2 - 2 * a * y1 ^ 2 * x2 ^ 2 * y2 ^ 2
      + a * y1 ^ 2 * x2 ^ 2 + 2 * a * x2 ^ 2 * y2 ^ 2 - a * x2 ^ 2 - d * y1 ^ 4 * x2 ^ 2 * y2 ^ 2
      + 2 * d * y1 ^ 2 * x2 ^ 2 * y2 ^ 2 - d * x2 ^ 2 * y2 ^ 2 + y1 ^ 2 * y2 ^ 2 - y2 ^ 2 - 1) * h2

/-- Fractions on the curve, cleared. -/
theorem on_curve_div {a d p q b c : K} (hb : b ≠ 0) (hc : c ≠ 0)
    (h : a * p ^ 2 * c ^ 2 + q ^ 2 * b ^ 2 = b ^ 2 * c ^ 2 + d * p ^ 2 * q ^ 2) :
    a * (p / b) ^ 2 + (q / c) ^ 2 = 1 + d * (p / b) ^ 2 * (q / c) ^ 2 := by
  field_simp
  linear_combination h

instance : Add E.Point where
  add P Q :=
    { x := (P.x * Q.y + P.y * Q.x) / (1 + E.d * P.x * Q.x * P.y * Q.y)
      y := (P.y * Q.y - E.a * P.x * Q.x) / (1 - E.d * P.x * Q.x * P.y * Q.y)
      on_curve := on_curve_div (one_add_ne_zero P Q) (one_sub_ne_zero P Q) (sum_identity P.on_curve Q.on_curve) }

instance : Zero E.Point where
  zero := { x := 0, y := 1, on_curve := by ring }

instance : Neg E.Point where
  neg P := { x := -P.x, y := P.y, on_curve := by linear_combination P.on_curve }

theorem add_x (P Q : E.Point) : (P + Q).x = (P.x * Q.y + P.y * Q.x) / (1 + E.d * P.x * Q.x * P.y * Q.y) := rfl

theorem add_y (P Q : E.Point) : (P + Q).y = (P.y * Q.y - E.a * P.x * Q.x) / (1 - E.d * P.x * Q.x * P.y * Q.y) := rfl

@[simp] theorem zero_x : (0 : E.Point).x = 0 := rfl

@[simp] theorem zero_y : (0 : E.Point).y = 1 := rfl

@[simp] theorem neg_x (P : E.Point) : (-P).x = -P.x := rfl

@[simp] theorem neg_y (P : E.Point) : (-P).y = P.y := rfl

/-! ## Associativity -/

section Associativity
variable {a d x1 y1 x2 y2 x3 y3 : K} (h1 : a * x1 ^ 2 + y1 ^ 2 = 1 + d * x1 ^ 2 * y1 ^ 2)
  (h2 : a * x2 ^ 2 + y2 ^ 2 = 1 + d * x2 ^ 2 * y2 ^ 2) (h3 : a * x3 ^ 2 + y3 ^ 2 = 1 + d * x3 ^ 2 * y3 ^ 2)
include h1 h2 h3

theorem assoc_x_identity :
    ((x1 * y2 + y1 * x2) * (1 - d * x1 * x2 * y1 * y2) * y3 + (y1 * y2 - a * x1 * x2) * (1 + d * x1 * x2 * y1 * y2) * x3) *
      ((1 + d * x2 * x3 * y2 * y3) * (1 - d * x2 * x3 * y2 * y3) +
        d * x1 * (x2 * y3 + y2 * x3) * y1 * (y2 * y3 - a * x2 * x3)) =
    (x1 * (y2 * y3 - a * x2 * x3) * (1 + d * x2 * x3 * y2 * y3) + y1 * (x2 * y3 + y2 * x3) * (1 - d * x2 * x3 * y2 * y3)) *
      ((1 + d * x1 * x2 * y1 * y2) * (1 - d * x1 * x2 * y1 * y2) +
        d * (x1 * y2 + y1 * x2) * x3 * (y1 * y2 - a * x1 * x2) * y3) := by
  linear_combination
    -d * x2 * y2 * (
      a ^ 2 * x1 * x2 ^ 3 * x3 ^ 2 * y3 + a ^ 2 * x1 * x2 ^ 2 * y2 * x3 ^ 3
      - a * d * x1 * x2 ^ 3 * y2 ^ 2 * x3 ^ 2 * y3 - a * x1 * x2 ^ 2 * y2 * x3 + a * y1 * x2 ^ 3 * x3 * y3 ^ 2
      - a * y1 * x2 * y2 ^ 2 * x3 ^ 3 + d * x1 * x2 ^ 2 * y2 ^ 3 * x3 * y3 ^ 2
      - d * y1 * x2 ^ 3 * y2 ^ 2 * x3 * y3 ^ 2 - d * y1 * x2 ^ 2 * y2 ^ 3 * x3 ^ 2 * y3
      - x1 * x2 * y2 ^ 2 * y3 ^ 3 + x1 * x2 * y2 ^ 2 * y3 - x1 * y2 ^ 3 * x3 * y3 ^ 2
      - y1 * x2 ^ 2 * y2 * y3 ^ 3 + y1 * x2 ^ 2 * y2 * y3 + y1 * x2 * y2 ^ 2 * x3 + y1 * y2 ^ 3 * x3 ^ 2 * y3) * h1 -
    d * x2 * y2 * (
      -a ^ 2 * x1 ^ 3 * x2 * x3 ^ 2 * y3 + a ^ 2 * x1 ^ 2 * y1 * x2 * x3 ^ 3 + a * x1 ^ 3 * y2 * x3 * y3 ^ 2
      - a * x1 ^ 2 * y1 * x2 * x3 - a * x1 * y1 ^ 2 * y2 * x3 ^ 3 + a * x1 * x2 * x3 ^ 2 * y3
      + x1 ^ 2 * y1 * y2 * y3 ^ 3 - x1 ^ 2 * y1 * y2 * y3 + x1 * y1 ^ 2 * x2 * y3 ^ 3 - x1 * y1 ^ 2 * x2 * y3
      + x1 * y1 ^ 2 * y2 * x3 - x1 * y2 * x3 * y3 ^ 2 - y1 ^ 3 * x2 * x3 * y3 ^ 2 - y1 ^ 3 * y2 * x3 ^ 2 * y3
      + y1 * x2 * x3 * y3 ^ 2 + y1 * y2 * x3 ^ 2 * y3) * h2 -
    d * x2 * y2 * (
      -a ^ 2 * x1 ^ 3 * x2 ^ 2 * y2 * x3 - a ^ 2 * x1 ^ 2 * y1 * x2 ^ 3 * x3
      + a * d * x1 ^ 2 * y1 * x2 ^ 3 * y2 ^ 2 * x3 + a * x1 ^ 3 * x2 * y2 ^ 2 * y3
      - a * x1 * y1 ^ 2 * x2 ^ 3 * y3 + a * x1 * x2 ^ 2 * y2 * x3 + d * x1 ^ 2 * y1 * x2 ^ 2 * y2 ^ 3 * y3
      + d * x1 * y1 ^ 2 * x2 ^ 3 * y2 ^ 2 * y3 - d * x1 * y1 ^ 2 * x2 ^ 2 * y2 ^ 3 * x3
      - x1 ^ 2 * y1 * y2 ^ 3 * y3 + x1 * y1 ^ 2 * y2 ^ 3 * x3 - x1 * x2 * y2 ^ 2 * y3
      + y1 ^ 3 * x2 ^ 2 * y2 * y3 + y1 ^ 3 * x2 * y2 ^ 2 * x3 - y1 * x2 ^ 2 * y2 * y3 - y1 * x2 * y2 ^ 2 * x3) * h3

theorem assoc_y_identity :
    ((y1 * y2 - a * x1 * x2) * (1 + d * x1 * x2 * y1 * y2) * y3 -
        a * ((x1 * y2 + y1 * x2) * (1 - d * x1 * x2 * y1 * y2)) * x3) *
      ((1 + d * x2 * x3 * y2 * y3) * (1 - d * x2 * x3 * y2 * y3) -
        d * x1 * (x2 * y3 + y2 * x3) * y1 * (y2 * y3 - a * x2 * x3)) =
    (y1 * (y2 * y3 - a * x2 * x3) * (1 + d * x2 * x3 * y2 * y3) -
        a * x1 * ((x2 * y3 + y2 * x3) * (1 - d * x2 * x3 * y2 * y3))) *
      ((1 + d * x1 * x2 * y1 * y2) * (1 - d * x1 * x2 * y1 * y2) -
        d * (x1 * y2 + y1 * x2) * x3 * (y1 * y2 - a * x1 * x2) * y3) := by
  linear_combination
    -d * x2 * y2 * (
      -a ^ 2 * x1 * x2 ^ 3 * x3 * y3 ^ 2 + a ^ 2 * x1 * x2 * y2 ^ 2 * x3 ^ 3 + a ^ 2 * y1 * x2 ^ 3 * x3 ^ 2 * y3
      + a ^ 2 * y1 * x2 ^ 2 * y2 * x3 ^ 3 + a * d * x1 * x2 ^ 3 * y2 ^ 2 * x3 * y3 ^ 2
      + a * d * x1 * x2 ^ 2 * y2 ^ 3 * x3 ^ 2 * y3 - a * d * y1 * x2 ^ 3 * y2 ^ 2 * x3 ^ 2 * y3
      + a * x1 * x2 ^ 2 * y2 * y3 ^ 3 - a * x1 * x2 ^ 2 * y2 * y3 - a * x1 * x2 * y2 ^ 2 * x3
      - a * x1 * y2 ^ 3 * x3 ^ 2 * y3 - a * y1 * x2 ^ 2 * y2 * x3 + d * y1 * x2 ^ 2 * y2 ^ 3 * x3 * y3 ^ 2
      - y1 * x2 * y2 ^ 2 * y3 ^ 3 + y1 * x2 * y2 ^ 2 * y3 - y1 * y2 ^ 3 * x3 * y3 ^ 2) * h1 -
    d * x2 * y2 * (
      a ^ 2 * x1 ^ 3 * x2 * x3 * y3 ^ 2 + a ^ 2 * x1 ^ 3 * y2 * x3 ^ 2 * y3 - a ^ 2 * x1 ^ 2 * y1 * y2 * x3 ^ 3
      - a ^ 2 * x1 * y1 ^ 2 * x2 * x3 ^ 3 + a * x1 ^ 2 * y1 * x2 * y3 ^ 3 - a * x1 ^ 2 * y1 * x2 * y3
      + a * x1 ^ 2 * y1 * y2 * x3 + a * x1 * y1 ^ 2 * x2 * x3 - a * x1 * x2 * x3 * y3 ^ 2
      - a * x1 * y2 * x3 ^ 2 * y3 - a * y1 ^ 3 * x2 * x3 ^ 2 * y3 + a * y1 * x2 * x3 ^ 2 * y3
      - x1 * y1 ^ 2 * y2 * y3 ^ 3 + x1 * y1 ^ 2 * y2 * y3 + y1 ^ 3 * y2 * x3 * y3 ^ 2 - y1 * y2 * x3 * y3 ^ 2) * h2 -
    d * x2 * y2 * (
      -a ^ 2 * x1 ^ 3 * x2 ^ 2 * y2 * y3 - a ^ 2 * x1 ^ 3 * x2 * y2 ^ 2 * x3 - a ^ 2 * x1 ^ 2 * y1 * x2 ^ 3 * y3
      + a ^ 2 * x1 * y1 ^ 2 * x2 ^ 3 * x3 + a * d * x1 ^ 2 * y1 * x2 ^ 3 * y2 ^ 2 * y3
      - a * d * x1 ^ 2 * y1 * x2 ^ 2 * y2 ^ 3 * x3 - a * d * x1 * y1 ^ 2 * x2 ^ 3 * y2 ^ 2 * x3
      + a * x1 ^ 2 * y1 * y2 ^ 3 * x3 + a * x1 * x2 ^ 2 * y2 * y3 + a * x1 * x2 * y2 ^ 2 * x3
      - a * y1 ^ 3 * x2 ^ 2 * y2 * x3 + a * y1 * x2 ^ 2 * y2 * x3 - d * x1 * y1 ^ 2 * x2 ^ 2 * y2 ^ 3 * y3
      + x1 * y1 ^ 2 * y2 ^ 3 * y3 + y1 ^ 3 * x2 * y2 ^ 2 * y3 - y1 * x2 * y2 ^ 2 * y3) * h3

end Associativity

/-- The fractions of a sum, cleared. -/
theorem x_of_div {p q b c e u v w z : K} (hb : b ≠ 0) (hc : c ≠ 0) (h : 1 + e * (p / b) * w * (q / c) * z ≠ 0) :
    b * c + e * p * w * q * z ≠ 0 ∧
      (p / b * u + q / c * v) / (1 + e * (p / b) * w * (q / c) * z) = (p * c * u + q * b * v) / (b * c + e * p * w * q * z) := by
  have hbc : b * c ≠ 0 := mul_ne_zero hb hc
  have hden : b * c + e * p * w * q * z = b * c * (1 + e * (p / b) * w * (q / c) * z) := by field_simp
  have hnum : p * c * u + q * b * v = b * c * (p / b * u + q / c * v) := by
    field_simp
  rw [hden, hnum]
  exact ⟨mul_ne_zero hbc h, (mul_div_mul_left _ _ hbc).symm⟩

theorem y_of_div {a p q b c e u v w z : K} (hb : b ≠ 0) (hc : c ≠ 0) (h : 1 - e * (p / b) * w * (q / c) * z ≠ 0) :
    b * c - e * p * w * q * z ≠ 0 ∧
      (q / c * u - a * (p / b) * v) / (1 - e * (p / b) * w * (q / c) * z) =
        (q * b * u - a * (p * c) * v) / (b * c - e * p * w * q * z) := by
  have hbc : b * c ≠ 0 := mul_ne_zero hb hc
  have hden : b * c - e * p * w * q * z = b * c * (1 - e * (p / b) * w * (q / c) * z) := by field_simp
  have hnum : q * b * u - a * (p * c) * v = b * c * (q / c * u - a * (p / b) * v) := by
    field_simp
  rw [hden, hnum]
  exact ⟨mul_ne_zero hbc h, (mul_div_mul_left _ _ hbc).symm⟩

theorem add_comm_points (P Q : E.Point) : P + Q = Q + P := by
  ext
  · rw [add_x, add_x]
    congr 1 <;> ring
  · rw [add_y, add_y]
    congr 1 <;> ring

theorem add_assoc_points (P Q R : E.Point) : P + Q + R = P + (Q + R) := by
  have hadd := one_add_ne_zero P Q
  have hsub := one_sub_ne_zero P Q
  have hadd' := one_add_ne_zero Q R
  have hsub' := one_sub_ne_zero Q R
  ext
  · have hleft := one_add_ne_zero (P + Q) R
    have hright := one_add_ne_zero (Q + R) P
    rw [add_comm_points P (Q + R)]
    rw [add_x (P + Q), add_x (Q + R)]
    rw [add_x P Q, add_y P Q] at hleft ⊢
    rw [add_x Q R, add_y Q R] at hright ⊢
    obtain ⟨hne, heq⟩ := x_of_div hadd hsub hleft
    obtain ⟨hne', heq'⟩ := x_of_div hadd' hsub' hright
    rw [heq, heq', div_eq_div_iff hne hne']
    linear_combination assoc_x_identity P.on_curve Q.on_curve R.on_curve
  · have hleft := one_sub_ne_zero (P + Q) R
    have hright := one_sub_ne_zero (Q + R) P
    rw [add_comm_points P (Q + R)]
    rw [add_y (P + Q), add_y (Q + R)]
    rw [add_x P Q, add_y P Q] at hleft ⊢
    rw [add_x Q R, add_y Q R] at hright ⊢
    obtain ⟨hne, heq⟩ := y_of_div hadd hsub hleft
    obtain ⟨hne', heq'⟩ := y_of_div hadd' hsub' hright
    rw [heq, heq', div_eq_div_iff hne hne']
    linear_combination assoc_y_identity P.on_curve Q.on_curve R.on_curve

instance : AddCommGroup E.Point where
  add_assoc := add_assoc_points
  zero_add P := by
    rw [add_comm_points]
    ext
    · simp [add_x]
    · simp [add_y]
  add_zero P := by
    ext
    · simp [add_x]
    · simp [add_y]
  neg_add_cancel P := by
    have hsub := one_sub_ne_zero (-P) P
    ext
    · rw [add_x, neg_x, neg_y, zero_x]
      have hzero : -P.x * P.y + P.y * P.x = 0 := by ring
      rw [hzero, zero_div]
    · rw [add_y, zero_y, div_eq_one_iff_eq hsub, neg_x, neg_y]
      linear_combination P.on_curve
  add_comm := add_comm_points
  nsmul := nsmulRec
  zsmul := zsmulRec

/-! ## Points of small order -/

theorem two_nsmul_eq_zero (P : E.Point) : 2 • P = 0 ↔ P.x = 0 := by
  rw [two_nsmul, add_eq_zero_iff_eq_neg, Point.ext_iff, neg_x, neg_y]
  constructor
  · rintro ⟨hx, -⟩
    have htwo : 2 * P.x = 0 := by linear_combination hx
    exact (mul_eq_zero.mp htwo).resolve_left E.two_ne_zero
  · intro hx
    rw [hx, neg_zero]
    exact ⟨rfl, rfl⟩

theorem double_x_eq_zero (P : E.Point) : (2 • P).x = 0 ↔ P.x = 0 ∨ P.y = 0 := by
  have hnum : P.x * P.y + P.y * P.x = 2 * (P.x * P.y) := by ring
  rw [two_nsmul, add_x, div_eq_zero_iff, or_iff_left (one_add_ne_zero P P), hnum, mul_eq_zero, or_iff_right E.two_ne_zero,
    mul_eq_zero]

theorem double_y_eq_zero (P : E.Point) : (2 • P).y = 0 ↔ P.y ^ 2 = E.a * P.x ^ 2 := by
  rw [two_nsmul, add_y, div_eq_zero_iff, or_iff_left (one_sub_ne_zero P P), sub_eq_zero, mul_assoc, ← sq, ← sq]

theorem four_nsmul_eq_zero (P : E.Point) : 4 • P = 0 ↔ P.x = 0 ∨ P.y = 0 := by
  rw [show 4 = 2 * 2 from rfl, mul_nsmul, two_nsmul_eq_zero, double_x_eq_zero]

theorem eight_nsmul_eq_zero (P : E.Point) : 8 • P = 0 ↔ P.x = 0 ∨ P.y = 0 ∨ P.y ^ 2 = E.a * P.x ^ 2 := by
  rw [show 8 = 2 * 4 from rfl, mul_nsmul, four_nsmul_eq_zero, double_x_eq_zero, double_y_eq_zero, or_assoc]

/-- Order 1, 2, 4 or 8. -/
def Point.SmallOrder (P : E.Point) : Prop := addOrderOf P ∈ [1, 2, 4, 8]

theorem smallOrder_iff (P : E.Point) : P.SmallOrder ↔ 8 • P = 0 := by
  rw [← addOrderOf_dvd_iff_nsmul_eq_zero, Point.SmallOrder]
  have hdivisors : ∀ n, n ∣ 8 ↔ n ∈ [1, 2, 4, 8] := by
    intro n
    constructor
    · intro h
      have hle := Nat.le_of_dvd (by decide) h
      revert h
      revert n
      decide
    · intro h
      revert h
      simp only [List.mem_cons, List.not_mem_nil, or_false]
      rintro (rfl | rfl | rfl | rfl) <;> decide
  exact (hdivisors _).symm

/-- Where `y² = a x²` the curve leaves a quadratic equation for `y²`. Its roots have the product `a / d`, which is no square, so
that one of them at most is a square. -/
theorem sq_eq_of_eight {P R : E.Point} (hP : P.y ^ 2 = E.a * P.x ^ 2) (hR : R.y ^ 2 = E.a * R.x ^ 2) : P.y ^ 2 = R.y ^ 2 := by
  obtain ⟨α, hα⟩ := E.isSquare_a
  have hquadratic : ∀ Q : E.Point, Q.y ^ 2 = E.a * Q.x ^ 2 → E.d * (Q.y ^ 2) ^ 2 = E.a * (2 * Q.y ^ 2 - 1) := by
    intro Q hQ
    linear_combination E.d * Q.y ^ 2 * hQ - E.a * Q.on_curve - E.a * hQ
  have hne : ∀ Q : E.Point, Q.y ^ 2 = E.a * Q.x ^ 2 → Q.y ≠ 0 := by
    intro Q hQ hzero
    have hcurve := Q.on_curve
    rw [← hQ, hzero] at hcurve
    simp at hcurve
  by_contra hdiffer
  have hsub : P.y ^ 2 - R.y ^ 2 ≠ 0 := sub_ne_zero.mpr hdiffer
  have hsum : E.d * (P.y ^ 2 + R.y ^ 2) = 2 * E.a := by
    refine mul_left_cancel₀ hsub ?_
    linear_combination hquadratic P hP - hquadratic R hR
  have hproduct : E.d * (P.y * R.y) ^ 2 = E.a := by
    linear_combination P.y ^ 2 * hsum - hquadratic P hP
  refine E.not_isSquare_d ⟨α / (P.y * R.y), ?_⟩
  have hyy : P.y * R.y ≠ 0 := mul_ne_zero (hne P hP) (hne R hR)
  rw [div_mul_div_comm, ← hα, ← sq, ← hproduct, mul_div_assoc, div_self (pow_ne_zero 2 hyy), mul_one]

/-- With a point of order 8 at hand, the `y` of the points of small order. -/
theorem small_order_y_iff {R : E.Point} (hR : R.y ^ 2 = E.a * R.x ^ 2) (y : K) :
    (∃ P : E.Point, P.y = y ∧ P.SmallOrder) ↔ y ∈ [1, -1, 0, R.y, -R.y] := by
  simp only [List.mem_cons, List.not_mem_nil, or_false]
  constructor
  · rintro ⟨P, rfl, hP⟩
    rcases (eight_nsmul_eq_zero P).mp ((smallOrder_iff P).mp hP) with hx | hy | height
    · have hsq : P.y ^ 2 = 1 ^ 2 := by
        have hcurve := P.on_curve
        simpa [hx] using hcurve
      rcases sq_eq_sq_iff_eq_or_eq_neg.mp hsq with h | h
      · exact .inl h
      · exact .inr (.inl h)
    · exact .inr (.inr (.inl hy))
    · exact .inr (.inr (.inr (sq_eq_sq_iff_eq_or_eq_neg.mp (sq_eq_of_eight height hR))))
  · have horder : ∀ P : E.Point, P.x = 0 ∨ P.y = 0 ∨ P.y ^ 2 = E.a * P.x ^ 2 → ∃ P' : E.Point, P'.y = P.y ∧ P'.SmallOrder :=
      fun P h => ⟨P, rfl, (smallOrder_iff P).mpr ((eight_nsmul_eq_zero P).mpr h)⟩
    obtain ⟨α, hα⟩ := E.isSquare_a
    have hne : α ≠ 0 := mul_self_ne_zero.mp (hα ▸ E.a_ne_zero)
    rintro (rfl | rfl | rfl | rfl | rfl)
    · exact horder 0 (.inl rfl)
    · exact horder { x := 0, y := -1, on_curve := by ring } (.inl rfl)
    · refine horder { x := α⁻¹, y := 0, on_curve := ?_ } (.inr (.inl rfl))
      rw [hα]
      field_simp
      ring
    · exact horder R (.inr (.inr hR))
    · refine horder { x := R.x, y := -R.y, on_curve := ?_ } (.inr (.inr ?_))
      · linear_combination R.on_curve
      · linear_combination hR

end EdwardsCurve

end Dnsid.Foundations
