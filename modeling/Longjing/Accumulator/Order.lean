import Longjing.Accumulator.Group
import Mathlib.GroupTheory.OrderOfElement

/-!
The order of Baby Jubjub: `8 * SUBGROUP_ORDER`, with `SUBGROUP_ORDER` prime.
-/

namespace Longjing
namespace Accumulator

namespace SUBGROUP_ORDER

/-- The small factors that the predecessors of the primes below have. -/
def factors : List Nat :=
    [2, 3, 5, 7, 11, 17, 19, 23, 349, 521, 967, 4139, 6323, 27743, 33409, 43189, 295049, 336157, 513749, 10206821]

/-- The large prime factors of `SUBGROUP_ORDER - 1`, each after those of its own predecessor. -/
def chain : List (Nat × Nat × List (Nat × Nat)) := [
    (81654569, 3, [(2, 3), (10206821, 1)]),
    (25485742523, 2, [(2, 1), (43189, 1), (295049, 1)]),
    (202795150404015601, 7, [(2, 4), (3, 1), (5, 2), (19, 1), (349, 1), (25485742523, 1)]),
    (431548080059745198929, 3, [(2, 4), (7, 1), (19, 1), (202795150404015601, 1)]),
    (27892051421815855583579, 2, [(2, 1), (23, 1), (521, 1), (27743, 1), (513749, 1), (81654569, 1)]),
    (32151195060611136810608359, 3, [(2, 1), (3, 2), (4139, 1), (431548080059745198929, 1)]),
    (1863691091902891838383581623, 5, [(2, 1), (33409, 1), (27892051421815855583579, 1)]),
    (178259130663561045147472537592047227885001, 14,
      [(2, 3), (3, 2), (5, 4), (6323, 1), (336157, 1), (1863691091902891838383581623, 1)]),
    (SUBGROUP_ORDER, 31,
      [(2, 4), (3, 1), (5, 1), (11, 2), (17, 1), (967, 1), (32151195060611136810608359, 1),
       (178259130663561045147472537592047227885001, 1)])
  ]

theorem prime_factors : ∀ p ∈ factors, Nat.Prime p := by
  unfold factors
  norm_num

theorem prime : Nat.Prime SUBGROUP_ORDER :=
  prime_of_prattChain prime_factors (show prattChain factors chain = true by decide +kernel) _ (by simp [chain])

end SUBGROUP_ORDER

instance : Fact (Nat.Prime SUBGROUP_ORDER) := ⟨SUBGROUP_ORDER.prime⟩

/-- A point of order 8. -/
def T : Point :=
  (17545522957889784193459637215142187266023652151580582754000402781682644312291,
    17061719626832259898845741003733890968968767993363194771977168648564009544074)

def pointT : Jubjub := lift T (onCurve_of_isOnCurve (by decide +kernel))

theorem coords_pointT : coords pointT = T := coords_lift _ (by unfold Reduced; decide +kernel)

theorem coords_eq_iff {P Q : Jubjub} : coords P = coords Q ↔ P = Q := by
  constructor
  . intro h
    apply Edwards.Point.ext
    rw [← toF_coords P, ← toF_coords Q, h]
  . rintro rfl
    rfl

theorem addOrderOf_pointT : addOrderOf pointT = 8 := by
  have hmultiple (n : Nat) : n • pointT = 0 ↔ mulPoint T n = IDENTITY := by
    rw [← coords_pointT, mulPoint_coords, ← coords_zero, coords_eq_iff, Int.toNat_natCast]
  have : Fact (Nat.Prime 2) := ⟨Nat.prime_two⟩
  apply addOrderOf_eq_prime_pow (p := 2) (n := 2)
  . rw [hmultiple]
    decide +kernel
  . rw [hmultiple]
    decide +kernel

theorem addOrderOf_pointH : addOrderOf pointH = SUBGROUP_ORDER := by
  apply addOrderOf_eq_prime order_pointH
  rw [ne_eq, ← coords_eq_iff, coords_pointH, coords_zero]
  decide +kernel

/-- A multiple of 8 and of `SUBGROUP_ORDER`, and too small to be another one: there are at most two points over
each of the `FIELD_MODULUS` abscissas. -/
theorem card_jubjub : Nat.card Jubjub = 8 * SUBGROUP_ORDER := by
  have hcoprime : Nat.Coprime 8 SUBGROUP_ORDER := by decide
  have hdvd : 8 * SUBGROUP_ORDER ∣ Nat.card Jubjub := by
    apply hcoprime.mul_dvd_of_dvd_of_dvd
    . rw [← addOrderOf_pointT]
      exact addOrderOf_dvd_natCard pointT
    . rw [← addOrderOf_pointH]
      exact addOrderOf_dvd_natCard pointH
  obtain ⟨n, hn⟩ := hdvd
  have hle : Nat.card Jubjub ≤ FIELD_MODULUS * 2 := by
    have := Edwards.Point.card_le (E := babyJubjub)
    rwa [Nat.card_zmod] at this
  have hpos : 0 < Nat.card Jubjub := Nat.card_pos
  have hlt : FIELD_MODULUS * 2 < 8 * SUBGROUP_ORDER * 2 := by decide
  have hone : n = 1 := by
    rw [hn] at hle hpos
    have hn_pos : 0 < n := Nat.pos_of_mul_pos_left hpos
    have hn_lt : n < 2 := Nat.lt_of_mul_lt_mul_left (Nat.lt_of_le_of_lt hle hlt)
    omega
  rw [hn, hone, Nat.mul_one]

theorem addOrderOf_cofactor_nsmul (P : Jubjub) (h : 8 • P ≠ 0) : addOrderOf (8 • P) = SUBGROUP_ORDER := by
  apply addOrderOf_eq_prime _ h
  rw [← mul_nsmul, ← card_jubjub]
  exact card_nsmul_eq_zero'

end Accumulator
end Longjing
