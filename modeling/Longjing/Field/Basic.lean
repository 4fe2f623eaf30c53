import Longjing.Lib.Pratt
import Mathlib.Algebra.Field.ZMod
import Mathlib.Tactic.NormNum.Prime

/-!
The BN254 scalar field, over which Poseidon, Baby Jubjub and both circuits are defined.
-/

namespace Longjing

/--
`FIELD_MODULUS` of `LongjingCredits.sol` and `accumulator.ts`, `BN254_SCALAR_FIELD` of
`payload-signal.util.ts`.
-/
def FIELD_MODULUS : Nat :=
  21888242871839275222246405745257275088548364400416034343698204186575808495617

namespace FIELD_MODULUS

/-- The small factors that the predecessors of the primes below have. -/
def factors : List Nat :=
    [2, 3, 5, 7, 11, 13, 29, 83, 107, 229, 379, 661, 823, 853, 983, 1637, 3691, 4999, 11003, 93001, 237073, 1593227]

/-- The large prime factors of `FIELD_MODULUS - 1`, each after those of its own predecessor. -/
def chain : List (Nat × Nat × List (Nat × Nat)) := [
    (405928799, 22, [(2, 1), (11, 1), (3691, 1), (4999, 1)]),
    (639533339, 2, [(2, 1), (229, 1), (853, 1), (1637, 1)]),
    (12048837557, 2, [(2, 2), (7, 2), (661, 1), (93001, 1)]),
    (5156902474397, 2, [(2, 2), (107, 1), (12048837557, 1)]),
    (1670836401704629, 2, [(2, 2), (3, 4), (5156902474397, 1)]),
    (65865678001877903, 5, [(2, 1), (83, 1), (379, 1), (1637, 1), (639533339, 1)]),
    (13818364434197438864469338081, 3, [(2, 5), (5, 1), (823, 1), (1593227, 1), (65865678001877903, 1)]),
    (FIELD_MODULUS, 5,
      [(2, 28), (3, 2), (13, 1), (29, 1), (983, 1), (11003, 1), (237073, 1), (405928799, 1),
       (1670836401704629, 1), (13818364434197438864469338081, 1)])
  ]

theorem prime_factors : ∀ p ∈ factors, Nat.Prime p := by
  unfold factors
  norm_num

theorem prime : Nat.Prime FIELD_MODULUS :=
  prime_of_prattChain prime_factors (show prattChain factors chain = true by decide +kernel) _ (by simp [chain])

end FIELD_MODULUS

instance : Fact (Nat.Prime FIELD_MODULUS) := ⟨FIELD_MODULUS.prime⟩

/--
Elements of the scalar field; a circom signal.
-/
abbrev F : Type := ZMod FIELD_MODULUS

theorem FIELD_MODULUS.one_lt : 1 < FIELD_MODULUS := by
  decide

theorem FIELD_MODULUS.pos : 0 < FIELD_MODULUS := by
  decide

theorem F.val_lt (a : F) : a.val < FIELD_MODULUS :=
  ZMod.val_lt a

theorem F.val_cast_of_lt {n : Nat} (h : n < FIELD_MODULUS) : ((n : F)).val = n :=
  ZMod.val_cast_of_lt h

@[simp]
theorem F.cast_val (a : F) : ((a.val : Nat) : F) = a :=
  ZMod.natCast_zmod_val a

theorem F.cast_inj {m n : Nat} (hm : m < FIELD_MODULUS) (hn : n < FIELD_MODULUS)
    (h : (m : F) = (n : F)) : m = n := by
  rw [← F.val_cast_of_lt hm, ← F.val_cast_of_lt hn, h]

/--
A signal constrained by `b * (1 - b) === 0` is a bit.
-/
theorem F.bit_of_mul_eq_zero {b : F} (h : b * (1 - b) = 0) : b = 0 ∨ b = 1 := by
  rcases mul_eq_zero.mp h with h | h
  . exact .inl h
  . exact .inr (sub_eq_zero.mp h).symm

end Longjing
