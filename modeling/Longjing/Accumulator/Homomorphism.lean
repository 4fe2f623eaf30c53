import Longjing.Accumulator.Group

/-!
The integer arithmetic of `accumulator.ts` is the group of the curve, on every pair of integers that is
on the curve, and the accumulator is a homomorphism into it.
-/

namespace Longjing
namespace Accumulator

theorem reduced_addPoints (p q : Point) : Reduced (addPoints p q) :=
  ⟨⟨mod_nonneg _, mod_lt _⟩, mod_nonneg _, mod_lt _⟩

theorem reduced_coords (P : Jubjub) : Reduced (coords P) := by
  unfold Reduced coords
  have hx := P.val.1.val_lt
  have hy := P.val.2.val_lt
  omega

theorem eq_coords {p : Point} {P : Jubjub} (hp : Reduced p) (h : toF p = P.val) : p = coords P := by
  unfold coords
  rw [← h]
  unfold toF
  rw [eq_val_cast hp.1.1 hp.1.2, eq_val_cast hp.2.1 hp.2.2]

theorem isOnCurve_of_onCurve {p : Point} (h : Edwards.OnCurve babyJubjub (toF p)) : isOnCurve p = true := by
  have hcast : ((A * p.1 * p.1 + p.2 * p.2 : Int) : F) = ((1 + D * p.1 * p.1 * p.2 * p.2 : Int) : F) := by
    simp only [Edwards.OnCurve, toF, babyJubjub] at h
    simp only [Int.cast_add, Int.cast_mul, Int.cast_one, A, D, Int.cast_ofNat]
    linear_combination h
  unfold isOnCurve
  rw [decide_eq_true_eq, mod_eq_val, mod_eq_val, hcast]

theorem isOnCurve_coords (P : Jubjub) : isOnCurve (coords P) = true := by
  apply isOnCurve_of_onCurve
  rw [toF_coords]
  exact P.property

theorem exists_toF_eq {p : Point} (h : isOnCurve p = true) : ∃ P : Jubjub, toF p = P.val :=
  ⟨lift p (onCurve_of_isOnCurve h), rfl⟩

theorem mulPoint_eq_coords {p : Point} {P : Jubjub} (h : toF p = P.val) (scalar : Int)
    : mulPoint p scalar = coords (scalar.toNat • P) := by
  have hidentity : Reduced IDENTITY := coords_zero ▸ reduced_coords 0
  refine eq_coords (binPow_result _ _ reduced_addPoints _ _ _ hidentity) ?_
  exact binPow_rel addPoints (fun p (Q : Multiplicative Jubjub) => toF p = Q.toAdd.val)
    (by
      intro p q P Q hp hq
      rw [toF_addPoints, hp, hq]
      rfl)
    IDENTITY p (Multiplicative.ofAdd P) scalar.toNat (by rw [← coords_zero, toF_coords]; rfl) h

theorem denominators_ne_zero {p q : Point} (hp : isOnCurve p = true) (hq : isOnCurve q = true)
    : mod (1 + mod (D * p.1 * q.1 * p.2 * q.2)) ≠ 0 ∧ mod (1 - mod (D * p.1 * q.1 * p.2 * q.2)) ≠ 0 := by
  have hp := onCurve_of_isOnCurve hp
  have hq := onCurve_of_isOnCurve hq
  have hk : ((D * p.1 * q.1 * p.2 * q.2 : Int) : F) = Edwards.k babyJubjub (toF p) (toF q) := by
    simp only [Edwards.k, toF, babyJubjub, Int.cast_mul, D, Int.cast_ofNat]
  have hne {x : Int} (hx : (x : F) ≠ 0) : mod x ≠ 0 := by
    intro hzero
    rw [← cast_mod, hzero, Int.cast_zero] at hx
    exact hx rfl
  constructor
  . apply hne
    rw [Int.cast_add, Int.cast_one, cast_mod, hk]
    exact Edwards.one_add_k_ne_zero hp hq
  . apply hne
    rw [Int.cast_sub, Int.cast_one, cast_mod, hk]
    exact Edwards.one_sub_k_ne_zero hp hq

theorem order_pointG : SUBGROUP_ORDER • pointG = 0 :=
  order_of_ladderEndsAtZero (by decide) (by decide +kernel)

theorem order_pointJ : SUBGROUP_ORDER • pointJ = 0 :=
  order_of_ladderEndsAtZero (by decide) (by decide +kernel)

theorem order_pointK : SUBGROUP_ORDER • pointK = 0 :=
  order_of_ladderEndsAtZero (by decide) (by decide +kernel)

theorem inSubgroup_coords {P : Jubjub} (h : SUBGROUP_ORDER • P = 0) : inSubgroup (coords P) = true := by
  unfold inSubgroup
  rw [isOnCurve_coords, mulPoint_coords, Int.toNat_natCast, h, coords_zero]
  rfl

/-- The laws of `addPoints` and `mulPoint` on the curve, in the integers they compute. -/
structure PointLaws : Prop where
  defined : ∀ p q, isOnCurve p = true → isOnCurve q = true →
    mod (1 + mod (D * p.1 * q.1 * p.2 * q.2)) ≠ 0 ∧ mod (1 - mod (D * p.1 * q.1 * p.2 * q.2)) ≠ 0
  closed : ∀ p q, isOnCurve p = true → isOnCurve q = true →
    isOnCurve (addPoints p q) = true ∧ Reduced (addPoints p q)
  comm : ∀ p q, isOnCurve p = true → isOnCurve q = true → addPoints p q = addPoints q p
  assoc : ∀ p q r, isOnCurve p = true → isOnCurve q = true → isOnCurve r = true →
    addPoints (addPoints p q) r = addPoints p (addPoints q r)
  identity : ∀ p, isOnCurve p = true → addPoints p IDENTITY = (mod p.1, mod p.2)
  mul_add : ∀ p a b, isOnCurve p = true → 0 ≤ a → 0 ≤ b →
    mulPoint p (a + b) = addPoints (mulPoint p a) (mulPoint p b)

theorem pointLaws : PointLaws where
  defined _ _ hp hq := denominators_ne_zero hp hq
  closed := by
    intro p q hp hq
    obtain ⟨P, hP⟩ := exists_toF_eq hp
    obtain ⟨Q, hQ⟩ := exists_toF_eq hq
    rw [addPoints_eq_coords hP hQ]
    exact ⟨isOnCurve_coords _, reduced_coords _⟩
  comm := by
    intro p q hp hq
    obtain ⟨P, hP⟩ := exists_toF_eq hp
    obtain ⟨Q, hQ⟩ := exists_toF_eq hq
    rw [addPoints_eq_coords hP hQ, addPoints_eq_coords hQ hP, add_comm]
  assoc := by
    intro p q r hp hq hr
    obtain ⟨P, hP⟩ := exists_toF_eq hp
    obtain ⟨Q, hQ⟩ := exists_toF_eq hq
    obtain ⟨S, hS⟩ := exists_toF_eq hr
    rw [addPoints_eq_coords hP hQ, addPoints_eq_coords hQ hS, addPoints_eq_coords (toF_coords _) hS,
      addPoints_eq_coords hP (toF_coords _), add_assoc]
  identity := by
    intro p hp
    obtain ⟨P, hP⟩ := exists_toF_eq hp
    rw [← coords_zero, addPoints_eq_coords hP (toF_coords 0), add_zero]
    symm
    refine eq_coords ⟨⟨mod_nonneg _, mod_lt _⟩, mod_nonneg _, mod_lt _⟩ ?_
    rw [← hP]
    simp only [toF, cast_mod]
  mul_add := by
    intro p a b hp ha hb
    obtain ⟨P, hP⟩ := exists_toF_eq hp
    rw [mulPoint_eq_coords hP, mulPoint_eq_coords hP, mulPoint_eq_coords hP, addPoints_coords,
      Int.toNat_add ha hb, add_nsmul]

/-- What the server computes on an accumulator is what the client does with its opening. -/
theorem applyRefund_rerandomize_commit {refunds index commitment blinding rerandomizer refund : Int}
    (hrefunds : 0 ≤ refunds) (hindex : 0 ≤ index) (hblinding : 0 ≤ blinding) (hrerandomizer : 0 ≤ rerandomizer)
    (hrefund : 0 ≤ refund)
    : applyRefund (rerandomize (commit ⟨refunds, index, commitment, blinding⟩) rerandomizer) refund
      = commit ⟨refunds + refund, index + 1, commitment, blinding + rerandomizer⟩ := by
  simp only [commit_eq, rerandomize_coords, applyRefund_coords]
  rw [accumulatorPoint_refund, Int.toNat_add hrefunds hrefund, Int.toNat_add hindex (by decide),
    Int.toNat_add hblinding hrerandomizer]
  rfl

theorem commit_mod_blinding {refunds index commitment blinding : Int} (hblinding : 0 ≤ blinding)
    : commit ⟨refunds, index, commitment, blinding.tmod SUBGROUP_ORDER⟩
      = commit ⟨refunds, index, commitment, blinding⟩ := by
  rw [commit_eq, commit_eq]
  have hmod : (blinding.tmod SUBGROUP_ORDER).toNat = blinding.toNat % SUBGROUP_ORDER := by
    obtain ⟨n, rfl⟩ := Int.eq_ofNat_of_zero_le hblinding
    rw [← Int.ofNat_tmod, Int.toNat_natCast, Int.toNat_natCast]
  rw [hmod, accumulatorPoint_mod]

/-- R·G + m·J + c·K + s·H in projective coordinates, for the kernel. -/
def accumulatorProj (refunds index commitment blinding : Nat) : Nat × Nat × Nat :=
  let mul (p : Point) (scalar : Nat) := binPow addProj (0, 1, 1) (p.1.toNat, p.2.toNat, 1) scalar
  addProj (addProj (addProj (mul G refunds) (mul J index)) (mul K commitment)) (mul H blinding)

/-- Whether an accumulator has these coordinates. -/
def accumulatorIs (refunds index commitment blinding : Nat) (p : Nat × Nat) : Bool :=
  let (x, y, z) := accumulatorProj refunds index commitment blinding
  (p.1 < FIELD_MODULUS ∧ p.1 * z % FIELD_MODULUS = x % FIELD_MODULUS)
    ∧ p.2 < FIELD_MODULUS ∧ p.2 * z % FIELD_MODULUS = y % FIELD_MODULUS

theorem represents_accumulatorProj (refunds index commitment blinding : Nat)
    : Edwards.Represents (castProj (accumulatorProj refunds index commitment blinding))
        (accumulatorPoint refunds index commitment blinding) := by
  unfold accumulatorProj accumulatorPoint
  simp only [castProj_addProj]
  exact (((represents_ladder _ (by decide) refunds).projAdd (represents_ladder _ (by decide) index)).projAdd
    (represents_ladder _ (by decide) commitment)).projAdd (represents_ladder _ (by decide) blinding)

theorem coords_accumulatorPoint {refunds index commitment blinding : Nat} {p : Nat × Nat}
    (h : accumulatorIs refunds index commitment blinding p = true)
    : coords (accumulatorPoint refunds index commitment blinding) = ((p.1 : Int), (p.2 : Int)) := by
  obtain ⟨⟨hxlt, hx⟩, hylt, hy⟩ := of_decide_eq_true h
  have hrepresents := represents_accumulatorProj refunds index commitment blinding
  have hz := hrepresents.z_ne_zero
  rw [← ZMod.natCast_eq_natCast_iff', Nat.cast_mul] at hx hy
  have hval : (accumulatorPoint refunds index commitment blinding).val = ((p.1 : F), (p.2 : F)) := by
    rw [hrepresents.val_eq, Prod.mk.injEq]
    exact ⟨(eq_div_of_mul_eq hz hx).symm, (eq_div_of_mul_eq hz hy).symm⟩
  unfold coords
  rw [hval, F.val_cast_of_lt hxlt, F.val_cast_of_lt hylt]

/-- The curve arithmetic is a group, and folding a refund commutes with committing. -/
theorem accumulator_homomorphism
    : PointLaws
      ∧ (inSubgroup G = true ∧ inSubgroup J = true ∧ inSubgroup K = true ∧ inSubgroup H = true)
      ∧ ∀ refunds index commitment blinding rerandomizer refund : Int,
          0 ≤ refunds → 0 ≤ index → 0 ≤ commitment → 0 ≤ blinding → 0 ≤ rerandomizer → 0 ≤ refund →
          applyRefund (rerandomize (commit ⟨refunds, index, commitment, blinding⟩) rerandomizer) refund
              = commit ⟨refunds + refund, index + 1, commitment, blinding + rerandomizer⟩
            ∧ commit ⟨refunds + refund, index + 1, commitment, blinding + rerandomizer⟩
              = commit ⟨refunds + refund, index + 1, commitment,
                  (blinding + rerandomizer).tmod SUBGROUP_ORDER⟩ := by
  refine ⟨pointLaws, ⟨?_, ?_, ?_, ?_⟩, ?_⟩
  . rw [← coords_pointG]
    exact inSubgroup_coords order_pointG
  . rw [← coords_pointJ]
    exact inSubgroup_coords order_pointJ
  . rw [← coords_pointK]
    exact inSubgroup_coords order_pointK
  . rw [← coords_pointH]
    exact inSubgroup_coords order_pointH
  . intro refunds index commitment blinding rerandomizer refund hr hi _ hb hs hv
    exact ⟨applyRefund_rerandomize_commit hr hi hb hs hv,
      (commit_mod_blinding (Int.add_nonneg hb hs)).symm⟩

end Accumulator
end Longjing
