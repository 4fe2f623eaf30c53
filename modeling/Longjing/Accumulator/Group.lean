import Longjing.Accumulator.Basic
import Longjing.Lib.Edwards
import Mathlib.FieldTheory.Finite.Basic
import Mathlib.NumberTheory.LegendreSymbol.Basic

/-!
This module contains the group that the arithmetic of `accumulator.ts` computes in: Baby Jubjub as a
complete twisted Edwards curve, and the generators as elements of order `SUBGROUP_ORDER`.
-/

namespace Longjing
namespace Accumulator

theorem isSquare_A : IsSquare (168700 : F) := by
  refine ⟨7214280148105020021932206872019688659210616427216992810330019057549499971851, ?_⟩
  have h : (((168700 : Nat)) : F)
      = ((7214280148105020021932206872019688659210616427216992810330019057549499971851
        * 7214280148105020021932206872019688659210616427216992810330019057549499971851 : Nat) : F) := by
    rw [ZMod.natCast_eq_natCast_iff']
    decide +kernel
  push_cast at h
  exact h

theorem not_isSquare_D : ¬ IsSquare (168696 : F) := by
  have hne : (168696 : F) ≠ 0 := by
    have h : (((168696 : Nat)) : F) ≠ ((0 : Nat) : F) := by
      rw [ne_eq, ZMod.natCast_eq_natCast_iff']
      decide +kernel
    push_cast at h
    exact h
  rw [ZMod.euler_criterion FIELD_MODULUS hne]
  have h := powMod_eq_one_iff FIELD_MODULUS.one_lt 168696 (FIELD_MODULUS / 2)
  push_cast at h
  rw [← h]
  decide +kernel

theorem two_ne_zero : (2 : F) ≠ 0 := by
  have h : (((2 : Nat)) : F) ≠ ((0 : Nat) : F) := by
    rw [ne_eq, ZMod.natCast_eq_natCast_iff']
    decide +kernel
  push_cast at h
  exact h

def babyJubjub : Edwards.Curve F where
  a := 168700
  d := 168696
  isSquare_a := isSquare_A
  not_isSquare_d := not_isSquare_D
  two_ne_zero := two_ne_zero

abbrev Jubjub : Type := Edwards.Point babyJubjub

def toF (p : Point) : F × F := ((p.1 : F), (p.2 : F))

theorem cast_tmod (x : Int) : ((x.tmod FIELD_MODULUS : Int) : F) = x := by
  have h := Int.mul_tdiv_add_tmod x FIELD_MODULUS
  have hcast := congrArg (Int.cast : Int → F) h
  push_cast at hcast
  simpa using hcast

theorem cast_mod (x : Int) : ((mod x : Int) : F) = x := by
  unfold mod
  rw [cast_tmod]
  push_cast
  rw [cast_tmod]
  simp

theorem mod_nonneg (x : Int) : 0 ≤ mod x := by
  unfold mod
  apply Int.tmod_nonneg
  have := Int.lt_tmod_of_pos x (b := FIELD_MODULUS) (by decide)
  omega

theorem mod_lt (x : Int) : mod x < FIELD_MODULUS :=
  Int.tmod_lt_of_pos _ (by decide)

theorem eq_val_cast {x : Int} (h0 : 0 ≤ x) (hlt : x < FIELD_MODULUS) : (((x : F)).val : Int) = x := by
  rw [ZMod.val_intCast, Int.emod_eq_of_lt h0 hlt]

theorem mod_eq_val (x : Int) : mod x = ((x : F)).val := by
  rw [← cast_mod x, eq_val_cast (mod_nonneg x) (mod_lt x)]

theorem cast_pow (base exp : Int) : ((pow base exp : Int) : F) = (base : F) ^ exp.toNat := by
  unfold pow
  rw [binPow_map (fun a b : Int => (a * b).tmod FIELD_MODULUS) (fun n : Int => (n : F)) (fun _ => True)]
  . simp [cast_mod]
  . intros
    trivial
  . intro x y _ _
    rw [cast_tmod, Int.cast_mul]
  . trivial
  . trivial

theorem cast_inv (x : Int) : ((inv x : Int) : F) = (x : F)⁻¹ := by
  unfold inv
  rw [cast_pow]
  have hexp : ((FIELD_MODULUS : Int) - 2).toNat = FIELD_MODULUS - 2 := by decide +kernel
  rw [hexp]
  by_cases hx : (x : F) = 0
  . rw [hx, inv_zero, zero_pow (by decide +kernel)]
  . apply eq_inv_of_mul_eq_one_left
    rw [← pow_succ, show FIELD_MODULUS - 2 + 1 = FIELD_MODULUS - 1 by decide +kernel]
    exact ZMod.pow_card_sub_one_eq_one hx

theorem toF_addPoints (p q : Point)
    : toF (addPoints p q) = Edwards.add babyJubjub (toF p) (toF q) := by
  obtain ⟨x1, y1⟩ := p
  obtain ⟨x2, y2⟩ := q
  simp only [toF, addPoints, Edwards.add, Edwards.numX, Edwards.numY, Edwards.k, babyJubjub,
    cast_mod, Int.cast_mul, cast_inv, Int.cast_add, Int.cast_sub, Int.cast_one, A, D,
    Int.cast_ofNat, div_eq_mul_inv]

def coords (P : Jubjub) : Point := ((P.val.1.val : Int), (P.val.2.val : Int))

@[simp]
theorem toF_coords (P : Jubjub) : toF (coords P) = P.val := by
  simp [toF, coords]

def lift (p : Point) (h : Edwards.OnCurve babyJubjub (toF p)) : Jubjub := ⟨toF p, h⟩

theorem addPoints_eq_coords {p q : Point} {P Q : Jubjub} (hp : toF p = P.val) (hq : toF q = Q.val)
    : addPoints p q = coords (P + Q) := by
  have h : toF (addPoints p q) = (P + Q).val := by
    rw [toF_addPoints, hp, hq, Edwards.Point.val_add]
  obtain ⟨x1, y1⟩ := p
  obtain ⟨x2, y2⟩ := q
  have hfst := congrArg Prod.fst h
  have hsnd := congrArg Prod.snd h
  simp only [toF] at hfst hsnd
  unfold coords
  rw [← hfst, ← hsnd]
  simp only [addPoints]
  rw [eq_val_cast (mod_nonneg _) (mod_lt _), eq_val_cast (mod_nonneg _) (mod_lt _)]

@[simp]
theorem addPoints_coords (P Q : Jubjub) : addPoints (coords P) (coords Q) = coords (P + Q) :=
  addPoints_eq_coords (toF_coords P) (toF_coords Q)

theorem coords_zero : coords 0 = IDENTITY := by
  simp [coords, IDENTITY, Edwards.Point.val_zero, ZMod.val_one]

/-- Double and add computes the multiple, and the identity for a negative scalar. -/
@[simp]
theorem mulPoint_coords (P : Jubjub) (scalar : Int)
    : mulPoint (coords P) scalar = coords (scalar.toNat • P) := by
  exact binPow_rel addPoints (fun p (Q : Multiplicative Jubjub) => p = coords Q.toAdd)
    (by
      rintro _ _ Q Q' rfl rfl
      exact addPoints_coords _ _)
    IDENTITY (coords P) (Multiplicative.ofAdd P) scalar.toNat coords_zero.symm rfl

theorem onCurve_of_isOnCurve {p : Point} (h : isOnCurve p = true)
    : Edwards.OnCurve babyJubjub (toF p) := by
  have hcast := congrArg (Int.cast : Int → F) (of_decide_eq_true h)
  simp only [cast_mod, Int.cast_add, Int.cast_mul, Int.cast_one, A, D, Int.cast_ofNat] at hcast
  simp only [Edwards.OnCurve, toF, babyJubjub]
  linear_combination hcast

/-- A pair of coordinates that the code accepts as a reduced point of the curve. -/
def Reduced (p : Point) : Prop :=
  (0 ≤ p.1 ∧ p.1 < FIELD_MODULUS) ∧ (0 ≤ p.2 ∧ p.2 < FIELD_MODULUS)

theorem coords_lift {p : Point} (h : Edwards.OnCurve babyJubjub (toF p)) (hp : Reduced p)
    : coords (lift p h) = p := by
  unfold coords lift toF
  simp only
  rw [eq_val_cast hp.1.1 hp.1.2, eq_val_cast hp.2.1 hp.2.2]

/-! The generators as points of the curve. -/

def pointG : Jubjub := lift G (onCurve_of_isOnCurve (by decide +kernel))
def pointJ : Jubjub := lift J (onCurve_of_isOnCurve (by decide +kernel))
def pointK : Jubjub := lift K (onCurve_of_isOnCurve (by decide +kernel))
def pointH : Jubjub := lift H (onCurve_of_isOnCurve (by decide +kernel))

theorem coords_pointG : coords pointG = G := coords_lift _ (by unfold Reduced; decide +kernel)
theorem coords_pointJ : coords pointJ = J := coords_lift _ (by unfold Reduced; decide +kernel)
theorem coords_pointK : coords pointK = K := coords_lift _ (by unfold Reduced; decide +kernel)
theorem coords_pointH : coords pointH = H := coords_lift _ (by unfold Reduced; decide +kernel)

/-- Projective addition on reduced naturals, for the kernel. -/
def addProj (p q : Nat × Nat × Nat) : Nat × Nat × Nat :=
  let (x₁, y₁, z₁) := p
  let (x₂, y₂, z₂) := q
  let a := z₁ * z₂ % FIELD_MODULUS
  let b := a * a % FIELD_MODULUS
  let c := x₁ * x₂ % FIELD_MODULUS
  let d := y₁ * y₂ % FIELD_MODULUS
  let e := 168696 * c * d % FIELD_MODULUS
  let f := (b + (FIELD_MODULUS - e)) % FIELD_MODULUS
  let g := b + e
  (a * f * (x₁ * y₂ + y₁ * x₂) % FIELD_MODULUS,
    a * g * (d + (FIELD_MODULUS - 168700 * c % FIELD_MODULUS)) % FIELD_MODULUS,
    f * g % FIELD_MODULUS)

def castProj (p : Nat × Nat × Nat) : F × F × F := ((p.1 : F), (p.2.1 : F), (p.2.2 : F))

theorem cast_sub_mod (n : Nat) : ((FIELD_MODULUS - n % FIELD_MODULUS : Nat) : F) = -n := by
  rw [Nat.cast_sub (Nat.le_of_lt (Nat.mod_lt _ FIELD_MODULUS.pos))]
  simp

theorem castProj_addProj (p q : Nat × Nat × Nat)
    : castProj (addProj p q) = Edwards.projAdd babyJubjub (castProj p) (castProj q) := by
  obtain ⟨x₁, y₁, z₁⟩ := p
  obtain ⟨x₂, y₂, z₂⟩ := q
  simp only [castProj, addProj, Edwards.projAdd, babyJubjub, ZMod.natCast_mod, Nat.cast_mul,
    Nat.cast_add, cast_sub_mod, Nat.cast_ofNat, sub_eq_add_neg]

theorem represents_ladder {p : Point} (h : Edwards.OnCurve babyJubjub (toF p)) (hp : 0 ≤ p.1 ∧ 0 ≤ p.2)
    (scalar : Nat)
    : Edwards.Represents (castProj (binPow addProj (0, 1, 1) (p.1.toNat, p.2.toNat, 1) scalar))
        (scalar • lift p h) := by
  have hx : ((p.1.toNat : Nat) : F) = (p.1 : F) := by
    rw [← Int.cast_natCast, Int.toNat_of_nonneg hp.1]
  have hy : ((p.2.toNat : Nat) : F) = (p.2 : F) := by
    rw [← Int.cast_natCast, Int.toNat_of_nonneg hp.2]
  exact binPow_rel addProj
    (fun p (Q : Multiplicative Jubjub) => Edwards.Represents (castProj p) Q.toAdd)
    (by
      intro p q P Q hp hq
      rw [castProj_addProj]
      exact hp.projAdd hq)
    (0, 1, 1) _ (Multiplicative.ofAdd (lift p h)) scalar
    (by
      have := Edwards.Represents.zero (E := babyJubjub)
      simpa [castProj] using this)
    ⟨by simp [castProj], by
      show toF p = _
      simp [castProj, toF, hx, hy]⟩

/-- The ladder from a point with these coordinates ends at the identity. -/
def ladderEndsAtZero (p : Point) (n : Nat) : Bool :=
  let r := binPow addProj (0, 1, 1) (p.1.toNat, p.2.toNat, 1) n
  r.1 = 0 ∧ r.2.1 = r.2.2

theorem order_of_ladderEndsAtZero {p : Point} {h : Edwards.OnCurve babyJubjub (toF p)} {n : Nat}
    (hp : 0 ≤ p.1 ∧ 0 ≤ p.2) (hladder : ladderEndsAtZero p n = true) : n • lift p h = 0 := by
  obtain ⟨hx, hyz⟩ := of_decide_eq_true hladder
  apply (represents_ladder h hp n).eq_zero
  simp only [castProj, hx, hyz, Nat.cast_zero]
  rfl

theorem order_pointH : SUBGROUP_ORDER • pointH = 0 :=
  order_of_ladderEndsAtZero (by decide) (by decide +kernel)

/-- R·G + m·J + c·K + s·H as a point of the curve. -/
def accumulatorPoint (refunds index commitment blinding : Nat) : Jubjub :=
  refunds • pointG + index • pointJ + commitment • pointK + blinding • pointH

/-- `commit` computes it; a negative number counts as zero. -/
theorem commit_eq (opening : Opening)
    : commit opening = coords (accumulatorPoint opening.refunds.toNat opening.index.toNat
        opening.commitment.toNat opening.blinding.toNat) := by
  unfold commit accumulatorPoint
  rw [← coords_pointG, ← coords_pointJ, ← coords_pointK, ← coords_pointH]
  simp only [mulPoint_coords, addPoints_coords]

theorem rerandomize_coords (P : Jubjub) (blinding : Int)
    : rerandomize (coords P) blinding = coords (P + blinding.toNat • pointH) := by
  unfold rerandomize
  rw [← coords_pointH, mulPoint_coords, addPoints_coords]

theorem applyRefund_coords (P : Jubjub) (refund : Int)
    : applyRefund (coords P) refund = coords (P + refund.toNat • pointG + pointJ) := by
  unfold applyRefund
  rw [← coords_pointG, ← coords_pointJ, mulPoint_coords, addPoints_coords, addPoints_coords]

theorem accumulatorPoint_refund (refunds index commitment blinding refund rerandomizer : Nat)
    : accumulatorPoint refunds index commitment blinding + rerandomizer • pointH + refund • pointG + pointJ
      = accumulatorPoint (refunds + refund) (index + 1) commitment (blinding + rerandomizer) := by
  unfold accumulatorPoint
  simp only [add_nsmul, one_nsmul]
  abel

theorem accumulatorPoint_mod (refunds index commitment blinding : Nat)
    : accumulatorPoint refunds index commitment (blinding % SUBGROUP_ORDER)
      = accumulatorPoint refunds index commitment blinding := by
  unfold accumulatorPoint
  rw [← Nat.div_add_mod blinding SUBGROUP_ORDER, Nat.mul_add_mod, Nat.mod_mod, add_nsmul, mul_nsmul,
    order_pointH, nsmul_zero, zero_add]

end Accumulator
end Longjing
