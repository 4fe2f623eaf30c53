import Longjing.Accumulator.Homomorphism
import Longjing.Accumulator.Order
import Longjing.Accumulator.Sqrt
import Longjing.Attestation.ReportData
import Longjing.Js.BigInt

/-!
The generators of `accumulator.ts`, hashed to the curve by try-and-increment.
-/

namespace Longjing
namespace Accumulator

open Attestation (Bytes toHex uint32BE)

def COFACTOR : Int := 8

inductive HashError where
  -- a counter that four bytes do not hold
  | rangeError
  -- `BigInt` of a digest
  | syntaxError
deriving DecidableEq, Repr

section HashToCurve

variable (sha256 : Bytes → Bytes) (fuel : Nat) (seed : String)

/-- One turn of the loop: `none` for a counter that gives no point. -/
def candidate (counter : Nat) : Option (Except HashError (Option Point)) :=
  if 2 ^ 32 ≤ counter then
    some (.error .rangeError)
  else
    let digest := toHex (sha256 (seed.toUTF8.data.toList ++ uint32BE counter))
    match Js.BigInt (String.ofList ('0' :: 'x' :: digest)) with
    | none => some (.error .syntaxError)
    | some n =>
      let x := mod n
      (sqrt fuel ((1 - A * x * x) * inv (1 - D * x * x))).map fun root =>
        match root with
        | none => .ok none
        | some y =>
          let point := mulPoint (x, if y < FIELD_MODULUS - y then y else FIELD_MODULUS - y) COFACTOR
          .ok (if isIdentity point then none else some point)

def hashToCurve.go : (attempts counter : Nat) → Option (Except HashError Point)
  | 0, _ => none
  | attempts + 1, counter =>
    match candidate sha256 fuel seed counter with
    | none => none
    | some (.error e) => some (.error e)
    | some (.ok (some point)) => some (.ok point)
    | some (.ok none) => go attempts (counter + 1)

/-- `none` if it has not returned within `fuel` attempts, of which each loop has as many iterations. -/
def hashToCurve : Option (Except HashError Point) :=
  hashToCurve.go sha256 fuel seed fuel 0

end HashToCurve

namespace GENERATOR_SEEDS

def G : String := "longjing/accumulator/G"
def J : String := "longjing/accumulator/J"
def K : String := "longjing/accumulator/K"
def H : String := "longjing/accumulator/H"

end GENERATOR_SEEDS

/-- A point that generates the subgroup, as the code represents it. -/
structure IsGenerator (point : Point) : Prop where
  reduced : Reduced point
  onCurve : isOnCurve point = true
  ne_identity : isIdentity point = false
  inSubgroup : inSubgroup point = true
  order : ∃ P : Jubjub, coords P = point ∧ addOrderOf P = SUBGROUP_ORDER

theorem isIdentity_coords (P : Jubjub) : isIdentity (coords P) = true ↔ P = 0 := by
  rw [← coords_eq_iff, coords_zero]
  simp [isIdentity, IDENTITY, Prod.ext_iff]

theorem isGenerator_cofactor_nsmul (P : Jubjub) (h : 8 • P ≠ 0) : IsGenerator (coords (8 • P)) := by
  have horder := addOrderOf_cofactor_nsmul P h
  have hzero : SUBGROUP_ORDER • (8 • P) = 0 := horder ▸ addOrderOf_nsmul_eq_zero (8 • P)
  refine ⟨reduced_coords _, isOnCurve_coords _, ?_, inSubgroup_coords hzero, 8 • P, rfl, horder⟩
  rw [Bool.eq_false_iff, ne_eq, isIdentity_coords]
  exact h

theorem one_sub_D_mul_sq_ne_zero (x : Int) : mod (1 - D * x * x) ≠ 0 := by
  intro h
  have hcast : ((1 - D * x * x : Int) : F) = 0 := by rw [← cast_mod, h, Int.cast_zero]
  apply Edwards.one_sub_d_mul_sq_ne_zero (E := babyJubjub) (x : F)
  simp only [Int.cast_sub, Int.cast_one, Int.cast_mul, D, Int.cast_ofNat] at hcast
  simp only [babyJubjub]
  linear_combination hcast

/-- The square root of the code gives a point over `x`. -/
theorem onCurve_of_sqrt {fuel : Nat} {x y : Int}
    (h : sqrt fuel ((1 - A * x * x) * inv (1 - D * x * x)) = some (some y))
    : (0 ≤ y ∧ y < FIELD_MODULUS) ∧ Edwards.OnCurve babyJubjub (toF (x, y)) := by
  obtain ⟨hnonneg, hlt, hroot⟩ := (sqrt_eq_some h).root y rfl
  refine ⟨⟨hnonneg, hlt⟩, ?_⟩
  rw [modEq_iff_cast, Int.cast_pow, Int.cast_mul, cast_inv] at hroot
  rw [toF, Edwards.onCurve_iff_sq, hroot, div_eq_mul_inv]
  simp only [babyJubjub, Int.cast_sub, Int.cast_one, Int.cast_mul, A, D, Int.cast_ofNat, sq, mul_assoc]

theorem candidate_isGenerator {sha256 : Bytes → Bytes} {fuel counter : Nat} {seed : String} {point : Point}
    (h : candidate sha256 fuel seed counter = some (.ok (some point))) : IsGenerator point := by
  unfold candidate at h
  split at h
  next => simp at h
  next =>
    simp only at h
    split at h
    next => simp at h
    next n _ =>
      obtain ⟨root, hroot, hpoint⟩ := Option.map_eq_some_iff.mp h
      cases root with
      | none => simp at hpoint
      | some y =>
        obtain ⟨⟨hnonneg, hlt⟩, hcurve⟩ := onCurve_of_sqrt hroot
        -- the smaller of the two roots is over the same abscissa
        obtain ⟨y', hy', hreduced, hcurve'⟩ : ∃ y', (if y < FIELD_MODULUS - y then y else FIELD_MODULUS - y) = y'
            ∧ (0 ≤ y' ∧ y' < FIELD_MODULUS) ∧ Edwards.OnCurve babyJubjub (toF (mod n, y')) := by
          split
          next => exact ⟨y, rfl, ⟨hnonneg, hlt⟩, hcurve⟩
          next =>
            refine ⟨FIELD_MODULUS - y, rfl, ⟨by omega, by omega⟩, ?_⟩
            simp only [Edwards.OnCurve, toF, Int.cast_sub, Int.cast_natCast, CharP.cast_eq_zero, zero_sub,
              neg_sq] at hcurve ⊢
            exact hcurve
        have hcoords := coords_lift hcurve' ⟨⟨mod_nonneg n, mod_lt n⟩, hreduced⟩
        simp only at hpoint
        rw [hy', ← hcoords, mulPoint_coords] at hpoint
        split at hpoint
        next => simp at hpoint
        next hne =>
          simp only [Except.ok.injEq, Option.some.injEq] at hpoint
          subst hpoint
          exact isGenerator_cofactor_nsmul _ (by rwa [isIdentity_coords] at hne)

theorem go_isGenerator {sha256 : Bytes → Bytes} {fuel attempts counter : Nat} {seed : String} {point : Point}
    (h : hashToCurve.go sha256 fuel seed attempts counter = some (.ok point)) : IsGenerator point := by
  induction attempts generalizing counter with
  | zero => simp [hashToCurve.go] at h
  | succ attempts ih =>
    unfold hashToCurve.go at h
    split at h
    next => simp at h
    next => simp at h
    next hcandidate =>
      simp only [Option.some.injEq, Except.ok.injEq] at h
      exact candidate_isGenerator (h ▸ hcandidate)
    next => exact ih h

/-- What `hashToCurve` returns generates the subgroup of order `SUBGROUP_ORDER`, which is prime and has index 8. -/
theorem hashToCurve_isGenerator (sha256 : Bytes → Bytes) (fuel : Nat) (seed : String)
    : (∀ point, hashToCurve sha256 fuel seed = some (.ok point) → IsGenerator point)
      ∧ (∀ x : Int, mod (1 - D * x * x) ≠ 0)
      ∧ Nat.card Jubjub = 8 * SUBGROUP_ORDER ∧ SUBGROUP_ORDER.Prime :=
  ⟨fun _ h => go_isGenerator h, one_sub_D_mul_sq_ne_zero, card_jubjub, SUBGROUP_ORDER.prime⟩

/-- The digests of the four seeds and their counters, up to the first that gives a point; a seed is told by its
last character. -/
def seedDigests : List (Bytes × Nat) :=
  [([0x47, 0, 0, 0, 0], 0xf866e1b3f292ed48224b0ce21316c5a1848da761948cf58e5de0b7e687ef2ce7),
    ([0x4a, 0, 0, 0, 0], 0xef357c94d51de553b08a7066a744a01f2043136a0e0da0b70cdb0c7c1a43d94f),
    ([0x4a, 0, 0, 0, 1], 0xe574c88fa22146bd0219b28388605fbcad5ed0ccca369e526b449ef43d8813da),
    ([0x4a, 0, 0, 0, 2], 0x431a331a8a4e1b21b8ea9a0adbd460a14adfb230462162e568b8841267af1af5),
    ([0x4a, 0, 0, 0, 3], 0xeeba6a5661180553052854c77a283f3507ba7276c7dbd7d98c2b0b15f062c67c),
    ([0x4a, 0, 0, 0, 4], 0x48615f8a879f96c4150134c1ef1794a38ac8a46ff7bdf432ac7081fd1085fa28),
    ([0x4a, 0, 0, 0, 5], 0xe5b2e45f0932eb960f2f0f4b931db8a28c25d36aa59961e770737965ca17227a),
    ([0x4b, 0, 0, 0, 0], 0x17536f8d7fbe791cfd67c9c69a314a414ead80144a139b8b4e7be2dca12e6707),
    ([0x48, 0, 0, 0, 0], 0x8bbfd65e39d2bb81acaf3de330854b98ff1be6bb8ce043c80a1a3d2e462a9973)]

/-- SHA-256 on what the generators are hashed from. -/
def seedSha256 (input : Bytes) : Bytes :=
  let digest := (seedDigests.lookup (input.drop 21)).getD 0
  (List.range 32).map fun i => UInt8.ofNat (digest / 256 ^ (31 - i))

theorem hashToCurve_seeds
    : hashToCurve seedSha256 ROUNDS GENERATOR_SEEDS.G = some (.ok G)
      ∧ hashToCurve seedSha256 ROUNDS GENERATOR_SEEDS.J = some (.ok J)
      ∧ hashToCurve seedSha256 ROUNDS GENERATOR_SEEDS.K = some (.ok K)
      ∧ hashToCurve seedSha256 ROUNDS GENERATOR_SEEDS.H = some (.ok H) := by
  refine ⟨?_, ?_, ?_, ?_⟩ <;> decide +kernel

theorem hashToCurve_isGenerator_J
    : hashToCurve seedSha256 ROUNDS GENERATOR_SEEDS.J = some (.ok J) ∧ IsGenerator J :=
  ⟨hashToCurve_seeds.2.1, (hashToCurve_isGenerator seedSha256 ROUNDS GENERATOR_SEEDS.J).1 J hashToCurve_seeds.2.1⟩

end Accumulator
end Longjing
