import Mathlib.Algebra.BigOperators.Group.List.Basic
import Mathlib.Algebra.Group.Hom.Basic
import Mathlib.Tactic.Abel

/-!
The verification equation of Groth16 over any two groups and a pairing of them, and the product form in
which verifiers check it.
-/

namespace Groth16

variable {G₁ G₂ T : Type} [AddCommGroup G₁] [AddCommGroup G₂] [AddCommGroup T]

structure VerifyingKey (G₁ G₂ : Type) where
  alpha : G₁
  beta : G₂
  gamma : G₂
  delta : G₂
  -- the point of the constant one, and one for each public input
  constant : G₁
  inputs : List G₁

/-- The linear combination of the public inputs, accumulated from the constant on. -/
def VerifyingKey.combine (vk : VerifyingKey G₁ G₂) (signals : List Nat) : G₁ :=
  (vk.inputs.zip signals).foldl (fun acc (point, s) => acc + s • point) vk.constant

/-- The equation that an honest proof (A, B, C) satisfies. -/
def Accepts (pairing : G₁ →+ G₂ →+ T) (vk : VerifyingKey G₁ G₂) (A : G₁) (B : G₂) (C : G₁)
    (signals : List Nat) : Prop :=
  pairing A B = pairing vk.alpha vk.beta + pairing (vk.combine signals) vk.gamma + pairing C vk.delta

/-- One product of pairings decides the equation, with A negated. -/
theorem accepts_iff_sum_eq_zero (pairing : G₁ →+ G₂ →+ T) (vk : VerifyingKey G₁ G₂) (A : G₁) (B : G₂) (C : G₁)
    (signals : List Nat)
    : Accepts pairing vk A B C signals ↔
      pairing (-A) B + (pairing vk.alpha vk.beta + (pairing (vk.combine signals) vk.gamma
        + (pairing C vk.delta + 0))) = 0 := by
  unfold Accepts
  rw [map_neg, AddMonoidHom.neg_apply, neg_add_eq_zero, add_zero, add_assoc]

end Groth16
