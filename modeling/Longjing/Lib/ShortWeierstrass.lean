import Mathlib.AlgebraicGeometry.EllipticCurve.Affine.Point
import Mathlib.Tactic.LinearCombination

/-!
The points of a curve y² = x³ + b as pairs of coordinates, with two zeros for the point at infinity, which are
not on the curve.
-/

/-- The coefficient of a curve without singular points. -/
structure ShortWeierstrass (K : Type) [Field K] where
  b : K
  b_ne_zero : b ≠ 0
  two_ne_zero : (2 : K) ≠ 0
  three_ne_zero : (3 : K) ≠ 0

namespace ShortWeierstrass

variable {K : Type} [Field K]

def curve (E : ShortWeierstrass K) : WeierstrassCurve.Affine K := ⟨0, 0, 0, 0, E.b⟩

abbrev Point (E : ShortWeierstrass K) : Type := E.curve.Point

variable {E : ShortWeierstrass K} {x y : K}

theorem equation_iff : E.curve.Equation x y ↔ y ^ 2 = x ^ 3 + E.b := by
  rw [WeierstrassCurve.Affine.equation_iff]
  simp [curve]

theorem nonsingular (h : y ^ 2 = x ^ 3 + E.b) : E.curve.Nonsingular x y := by
  rw [WeierstrassCurve.Affine.nonsingular_iff]
  refine ⟨equation_iff.mpr h, ?_⟩
  simp only [curve, zero_mul, mul_zero, add_zero, sub_zero]
  by_contra hsingular
  push Not at hsingular
  obtain ⟨hx, hy⟩ := hsingular
  -- both derivatives vanish only at (0, 0)
  have hx : x = 0 := by
    have hthree : 3 * x ^ 2 = 0 := hx.symm
    simpa [E.three_ne_zero] using hthree
  have hy : y = 0 := by
    have htwo : 2 * y = 0 := by linear_combination hy
    simpa [E.two_ne_zero] using htwo
  subst hx hy
  exact E.b_ne_zero (by linear_combination -h)

theorem not_origin (h : y ^ 2 = x ^ 3 + E.b) : ¬ (x = 0 ∧ y = 0) := by
  rintro ⟨rfl, rfl⟩
  exact E.b_ne_zero (by linear_combination -h)

variable [DecidableEq K]

/-- The point with these coordinates, `none` if there is none. -/
def read (E : ShortWeierstrass K) (x y : K) : Option E.Point :=
  if x = 0 ∧ y = 0 then
    some 0
  else if h : y ^ 2 = x ^ 3 + E.b then
    some (.some x y (nonsingular h))
  else
    none

def write (E : ShortWeierstrass K) : E.Point → K × K
  | .zero => (0, 0)
  | .some x y _ => (x, y)

theorem read_write (P : E.Point) : E.read (E.write P).1 (E.write P).2 = some P := by
  cases P with
  | zero => exact if_pos ⟨rfl, rfl⟩
  | some x y h =>
    have hpoint := equation_iff.mp h.1
    unfold read write
    rw [if_neg (not_origin hpoint), dif_pos hpoint]

theorem read_neg {P : E.Point} (h : E.read x y = some P) : E.read x (-y) = some (-P) := by
  unfold read at h ⊢
  split at h
  next hzero =>
    rw [if_pos ⟨hzero.1, neg_eq_zero.mpr hzero.2⟩]
    obtain rfl := Option.some.inj h
    rfl
  next =>
    split at h
    next hpoint =>
      obtain rfl := Option.some.inj h
      have hneg : (-y) ^ 2 = x ^ 3 + E.b := by rw [neg_sq, hpoint]
      rw [if_neg (not_origin hneg), dif_pos hneg, WeierstrassCurve.Affine.Point.neg_some]
      simp [WeierstrassCurve.Affine.negY, curve]
    next => contradiction

end ShortWeierstrass
