import Longjing.Accumulator.Group
import Longjing.Js.BigInt
import Longjing.Server.Store

/-!
This module contains the recovery of a secret key from two signals (`slashing.service.ts`).
-/

namespace Longjing
namespace Server

open Js Accumulator

/-- `SlashingService.recoverSecretKey`, `none` when the signals share x and it throws. -/
def recoverSecretKey (signal1 signal2 : Int × Int) : Option Int :=
  let denominator := mod (signal2.1 - signal1.1)
  if denominator = 0 then
    none
  else
    let inverse :=
      binPow (fun a b => (a * b).tmod FIELD_MODULUS) 1 denominator (FIELD_MODULUS - 2)
    some (mod ((signal1.2 * signal2.1 - signal2.2 * signal1.1) * inverse))

/-- The key `slashRevealed` calls `slash` with, if it does: a failure is logged, not thrown. -/
def slashRevealed (enabled : Bool) (signal1 signal2 : StoredSignal) : Option Int :=
  if !enabled then
    none
  else do
    let x1 ← BigInt signal1.x
    let y1 ← BigInt signal1.y
    let x2 ← BigInt signal2.x
    let y2 ← BigInt signal2.y
    recoverSecretKey (x1, y1) (x2, y2)

theorem mod_eq_zero_iff (x : Int) : mod x = 0 ↔ (x : F) = 0 := by
  rw [mod_eq_val, Int.natCast_eq_zero, ZMod.val_eq_zero]

/-- The loop's inverse of the denominator, by Fermat's little theorem. -/
theorem cast_inverse (d : Int)
    : ((binPow (fun a b : Int => (a * b).tmod FIELD_MODULUS) 1 (mod d) (FIELD_MODULUS - 2) : Int) : F)
      = (d : F)⁻¹ := by
  have hpow := cast_inv d
  unfold inv pow at hpow
  rw [show ((FIELD_MODULUS : Int) - 2).toNat = FIELD_MODULUS - 2 by decide +kernel] at hpow
  exact hpow

/-- Two points of the line `y = k + a x` with different `x` give back `k`. -/
theorem recoverSecretKey_of_line {x1 y1 x2 y2 : Int} {k a : F} (h1 : (y1 : F) = k + a * x1)
    (h2 : (y2 : F) = k + a * x2) (hne : (x1 : F) ≠ x2)
    : recoverSecretKey (x1, y1) (x2, y2) = some (k.val : Int) := by
  have hden : ((x2 - x1 : Int) : F) ≠ 0 := by
    rw [Int.cast_sub, sub_ne_zero]
    exact hne.symm
  unfold recoverSecretKey
  simp only
  rw [if_neg (by rw [mod_eq_zero_iff]; exact hden), mod_eq_val, Int.cast_mul, cast_inverse]
  have hk : ((y1 * x2 - y2 * x1 : Int) : F) * ((x2 - x1 : Int) : F)⁻¹ = k := by
    rw [mul_inv_eq_iff_eq_mul₀ hden]
    push_cast
    rw [h1, h2]
    ring
  rw [hk]

theorem recoverSecretKey_eq_none_iff (x1 y1 x2 y2 : Int)
    : recoverSecretKey (x1, y1) (x2, y2) = none ↔ (x1 : F) = x2 := by
  unfold recoverSecretKey
  simp only [mod_eq_zero_iff]
  split
  next hzero =>
    rw [Int.cast_sub, sub_eq_zero] at hzero
    simp [hzero]
  next hne =>
    rw [Int.cast_sub, sub_eq_zero] at hne
    simp [Ne.symm hne]

/-- The key comes back from any representatives of two signals, in either order. -/
theorem recoverSecretKey_exact (x1 y1 x2 y2 : Int)
    : (recoverSecretKey (x1, y1) (x2, y2) = none ↔ x1 ≡ x2 [ZMOD FIELD_MODULUS])
      ∧ (∀ (k : Nat) (a : Int), k < FIELD_MODULUS → ¬ x1 ≡ x2 [ZMOD FIELD_MODULUS] →
          y1 ≡ k + a * x1 [ZMOD FIELD_MODULUS] → y2 ≡ k + a * x2 [ZMOD FIELD_MODULUS] →
          recoverSecretKey (x1, y1) (x2, y2) = some (k : Int)
            ∧ recoverSecretKey (x2, y2) (x1, y1) = some (k : Int))
      ∧ (¬ x1 ≡ x2 [ZMOD FIELD_MODULUS] →
          mod (x2 - x1) * binPow (fun a b => (a * b).tmod FIELD_MODULUS) 1 (mod (x2 - x1)) (FIELD_MODULUS - 2)
            ≡ 1 [ZMOD FIELD_MODULUS]) := by
  simp only [← ZMod.intCast_eq_intCast_iff]
  refine ⟨recoverSecretKey_eq_none_iff x1 y1 x2 y2, ?_, ?_⟩
  . intro k a hk hne h1 h2
    push_cast at h1 h2
    have hval : (((k : F)).val : Int) = k := by rw [F.val_cast_of_lt hk]
    rw [← hval]
    exact ⟨recoverSecretKey_of_line h1 h2 hne, recoverSecretKey_of_line h2 h1 (Ne.symm hne)⟩
  . intro hne
    have hden : ((x2 - x1 : Int) : F) ≠ 0 := by
      rw [Int.cast_sub, sub_ne_zero]
      exact Ne.symm hne
    rw [Int.cast_mul, cast_inverse, cast_mod, Int.cast_one, mul_inv_cancel₀ hden]

def storedSignal (x y : Int) : StoredSignal := ⟨toString x, toString y⟩

theorem slashRevealed_storedSignal (x1 y1 x2 y2 : Int)
    : slashRevealed true (storedSignal x1 y1) (storedSignal x2 y2)
      = recoverSecretKey (x1, y1) (x2, y2) := by
  simp [slashRevealed, storedSignal]

end Server
end Longjing
