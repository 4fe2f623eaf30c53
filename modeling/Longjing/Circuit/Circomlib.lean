import Longjing.Accumulator.Group
import Longjing.Poseidon

/-!
This module contains what the circuits rely on of circomlib: its templates as relations between their
input and output signals, with the behaviour that is documented of them.
-/

namespace Longjing
namespace Circuit

open Accumulator

/-- The number with these bits, the lowest first. -/
def value : List Bool → Nat
  | [] => 0
  | b :: bs => b.toNat + 2 * value bs

/-- The lowest `n` bits of a number. -/
def bitsOf : (n : Nat) → Nat → List Bool
  | 0, _ => []
  | n + 1, x => (x % 2 == 1) :: bitsOf n (x / 2)

def bitSignal (b : Bool) : F := if b then 1 else 0

def bitSignals (bits : List Bool) : List F := bits.map bitSignal

theorem value_lt (bits : List Bool) : value bits < 2 ^ bits.length := by
  induction bits with
  | nil => simp [value]
  | cons b bits ih =>
    have hb := b.toNat_lt
    simp only [value, List.length_cons, pow_succ]
    omega

theorem length_bitsOf (n x : Nat) : (bitsOf n x).length = n := by
  induction n generalizing x with
  | zero => rfl
  | succ n ih => simp [bitsOf, ih]

theorem value_bitsOf {n x : Nat} (h : x < 2 ^ n) : value (bitsOf n x) = x := by
  induction n generalizing x with
  | zero =>
    have : x = 0 := by simpa using h
    simp [bitsOf, value, this]
  | succ n ih =>
    rw [pow_succ] at h
    rw [bitsOf, value, ih (by omega)]
    rcases Nat.mod_two_eq_zero_or_one x with hx | hx
    . simp [hx]
      omega
    . simp [hx]
      omega

theorem bitSignals_injective {bits bits' : List Bool} (h : bitSignals bits = bitSignals bits')
    : bits = bits' := by
  refine List.map_injective_iff.mpr ?_ h
  intro b b' hb
  cases b <;> cases b' <;> simp [bitSignal] at hb ⊢

def IsGenerator (P : Jubjub) : Prop := P = pointG ∨ P = pointJ ∨ P = pointK ∨ P = pointH

structure Circomlib where
  Num2Bits : (n : Nat) → (input : F) → (out : List F) → Prop
  Num2BitsStrict : (input : F) → (out : List F) → Prop
  LessEqThan : (n : Nat) → (in0 in1 out : F) → Prop
  -- `MultiMux1(2)`, each of `c0` and `c1` with its two choices
  MultiMux1 : (c0 c1 : F × F) → (s : F) → (out : F × F) → Prop
  BabyAdd : (p q out : F × F) → Prop
  EscalarMulFix : (e : List F) → (base out : F × F) → Prop
  EdDSAPoseidonVerifier : (enabled : F) → (A R8 : F × F) → (S M : F) → Prop
  -- `verifyPoseidon` of circomlibjs
  verifyPoseidon : (M : F) → (R8 : F × F) → (S : F) → (A : F × F) → Bool
  -- the public keys of EdDSA, as `prv2pub` makes them
  IsPublicKey : F × F → Prop
  num2Bits_iff : ∀ n input out, Num2Bits n input out ↔
    ∃ bits, bits.length = n ∧ out = bitSignals bits ∧ (value bits : F) = input
  num2BitsStrict_iff : ∀ input out, Num2BitsStrict input out ↔
    ∃ bits, bits.length = 254 ∧ out = bitSignals bits ∧ value bits = input.val
  lessEqThan_iff : ∀ n in0 in1 out, n ≤ 252 → in0.val < 2 ^ n → in1.val < 2 ^ n →
    (LessEqThan n in0 in1 out ↔ out = if in0.val ≤ in1.val then 1 else 0)
  multiMux1_iff : ∀ c0 c1 s out, s = 0 ∨ s = 1 →
    (MultiMux1 c0 c1 s out ↔ out = if s = 0 then (c0.1, c1.1) else (c0.2, c1.2))
  babyAdd_iff : ∀ (P Q : Jubjub) out, BabyAdd P.val Q.val out ↔ out = (P + Q).val
  escalarMulFix_iff : ∀ bits (P : Jubjub) out, IsGenerator P →
    (EscalarMulFix (bitSignals bits) P.val out ↔ out = (value bits • P).val)
  verifier_sound : ∀ A R8 S M, EdDSAPoseidonVerifier 1 A R8 S M → verifyPoseidon M R8 S A = true
  verifier_complete : ∀ A R8 S M, IsPublicKey A → verifyPoseidon M R8 S A = true →
    EdDSAPoseidonVerifier 1 A R8 S M
  verifier_disabled : ∀ A R8 S M, Edwards.OnCurve babyJubjub A → Edwards.OnCurve babyJubjub R8 →
    S.val < SUBGROUP_ORDER → EdDSAPoseidonVerifier 0 A R8 S M

namespace Circomlib

variable (lib : Circomlib)

theorem num2Bits_lt {n : Nat} {x : F} {out : List F} (h : lib.Num2Bits n x out)
    (hn : 2 ^ n ≤ FIELD_MODULUS) : x.val < 2 ^ n := by
  obtain ⟨bits, hlength, -, rfl⟩ := (lib.num2Bits_iff _ _ _).mp h
  have hlt := value_lt bits
  rw [hlength] at hlt
  rw [F.val_cast_of_lt (Nat.lt_of_lt_of_le hlt hn)]
  exact hlt

theorem num2Bits_of_lt {n : Nat} {x : F} (h : x.val < 2 ^ n)
    : lib.Num2Bits n x (bitSignals (bitsOf n x.val)) := by
  refine (lib.num2Bits_iff _ _ _).mpr ⟨bitsOf n x.val, length_bitsOf _ _, rfl, ?_⟩
  rw [value_bitsOf h, F.cast_val]

theorem num2BitsStrict_bitsOf (x : F) : lib.Num2BitsStrict x (bitSignals (bitsOf 254 x.val)) := by
  refine (lib.num2BitsStrict_iff _ _).mpr ⟨bitsOf 254 x.val, length_bitsOf _ _, rfl, ?_⟩
  exact value_bitsOf (Nat.lt_trans x.val_lt (by decide))

/-- The templates as their documentation reads, with a given signature scheme. -/
def reference (verifyPoseidon : F → F × F → F → F × F → Bool) : Circomlib where
  Num2Bits n input out := ∃ bits, bits.length = n ∧ out = bitSignals bits ∧ (value bits : F) = input
  Num2BitsStrict input out := ∃ bits, bits.length = 254 ∧ out = bitSignals bits ∧ value bits = input.val
  LessEqThan _ in0 in1 out := out = if in0.val ≤ in1.val then 1 else 0
  MultiMux1 c0 c1 s out := out = if s = 0 then (c0.1, c1.1) else (c0.2, c1.2)
  BabyAdd p q out := out = Edwards.add babyJubjub p q
  EscalarMulFix e base out := ∀ bits (P : Jubjub), e = bitSignals bits → base = P.val → out = (value bits • P).val
  EdDSAPoseidonVerifier enabled A R8 S M := enabled = 0 ∨ verifyPoseidon M R8 S A = true
  verifyPoseidon := verifyPoseidon
  IsPublicKey := Edwards.OnCurve babyJubjub
  num2Bits_iff _ _ _ := Iff.rfl
  num2BitsStrict_iff _ _ := Iff.rfl
  lessEqThan_iff _ _ _ _ _ _ _ := Iff.rfl
  multiMux1_iff _ _ _ _ _ := Iff.rfl
  babyAdd_iff _ _ _ := Iff.rfl
  escalarMulFix_iff bits P out _ := by
    constructor
    . intro h
      exact h bits P rfl rfl
    . rintro rfl bits' P' hbits hP
      rw [bitSignals_injective hbits, Edwards.Point.ext hP]
  verifier_sound A R8 S M h := h.resolve_left (by simp)
  verifier_complete _ _ _ _ _ h := Or.inr h
  verifier_disabled _ _ _ _ _ _ _ := Or.inl rfl

end Circomlib

end Circuit
end Longjing
