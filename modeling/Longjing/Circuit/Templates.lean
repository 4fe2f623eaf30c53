import Longjing.Circuit.Circomlib
import Longjing.Lib.Merkle

/-!
This module contains the circuit templates `rln.circom`, `merkle_tree.circom` and `accumulator.circom`
as relations between their signals, and what each of them forces.
-/

namespace Longjing
namespace Circuit

open Accumulator

variable (P : Poseidon) (lib : Circomlib)

/-- a = Poseidon(k, i), N = Poseidon(a), y = k + a·x. -/
structure RlnSignal (secretKey index signalX nullifier signalY : F) : Prop where
  nullifier_eq : nullifier = P.sig1 (P.sig2 secretKey index)
  signalY_eq : signalY = secretKey + P.sig2 secretKey index * signalX

/-- One level after another, each with its path element and its selector. -/
def MerkleTreeChecker (leaf : F) (path : List (F × F)) (root : F) : Prop :=
  match path with
  | [] => root = leaf
  | (element, index) :: path =>
    index * (1 - index) = 0
      ∧ ∃ out, lib.MultiMux1 (leaf, element) (element, leaf) index out
        ∧ MerkleTreeChecker (P.sig2 out.1 out.2) path root

def GENERATOR_G : F × F := toF G
def GENERATOR_J : F × F := toF J
def GENERATOR_K : F × F := toF K
def GENERATOR_H : F × F := toF H

/-- out = scalar · BASE, with scalar < 2^BITS. -/
def FixedBaseMul (bits : Nat) (base : F × F) (scalar : F) (out : F × F) : Prop :=
  ∃ e, lib.Num2Bits bits scalar e ∧ lib.EscalarMulFix e base out

/-- out = scalar · BASE for any field element, decomposed canonically. -/
def FieldBaseMul (base : F × F) (scalar : F) (out : F × F) : Prop :=
  ∃ e, lib.Num2BitsStrict scalar e ∧ lib.EscalarMulFix e base out

/-- out = refunds·G + index·J + commitment·K + blinding·H. -/
def AccumulatorCommitment (refunds index commitment blinding : F) (out : F × F) : Prop :=
  ∃ refundsTerm indexTerm commitmentTerm blindingTerm sum1 sum2 : F × F,
    FixedBaseMul lib 128 GENERATOR_G refunds refundsTerm
      ∧ FixedBaseMul lib 32 GENERATOR_J index indexTerm
      ∧ FieldBaseMul lib GENERATOR_K commitment commitmentTerm
      ∧ FieldBaseMul lib GENERATOR_H blinding blindingTerm
      ∧ lib.BabyAdd refundsTerm indexTerm sum1
      ∧ lib.BabyAdd sum1 commitmentTerm sum2
      ∧ lib.BabyAdd sum2 blindingTerm out

/-- The accumulator of a note and the server's signature on it. -/
structure AccumulatorSignals where
  isGenesis : F
  refunds : F
  index : F
  blinding : F
  signatureR8x : F
  signatureR8y : F
  signatureS : F
deriving DecidableEq

/-- The accumulator is c·K, or signed by the server. -/
structure SignedAccumulator (a : AccumulatorSignals) (commitment : F) (serverPublicKey out : F × F) : Prop
    where
  bit : a.isGenesis * (1 - a.isGenesis) = 0
  refunds_zero : a.isGenesis * a.refunds = 0
  index_zero : a.isGenesis * a.index = 0
  blinding_zero : a.isGenesis * a.blinding = 0
  accumulator : AccumulatorCommitment lib a.refunds a.index commitment a.blinding out
  signature : lib.EdDSAPoseidonVerifier (1 - a.isGenesis) serverPublicKey (a.signatureR8x, a.signatureR8y)
    a.signatureS (P.sig2 out.1 out.2)

/-- out = in + blinding·H. -/
def Rerandomize (input : F × F) (blinding : F) (out : F × F) : Prop :=
  ∃ blindingTerm, FieldBaseMul lib GENERATOR_H blinding blindingTerm ∧ lib.BabyAdd input blindingTerm out

variable {P lib}

def selectors (path : List (F × F)) : List (F × Bool) := path.map fun (element, index) => (element, index = 1)

theorem selectors_cons (element index : F) (path : List (F × F))
    : selectors ((element, index) :: path) = (element, decide (index = 1)) :: selectors path := rfl

/-- A boolean selector swaps the two inputs of the hash, or does not. -/
theorem multiMux1_combine {leaf element index : F} {out : F × F} (hbit : index = 0 ∨ index = 1)
    (h : lib.MultiMux1 (leaf, element) (element, leaf) index out)
    : P.sig2 out.1 out.2 = Merkle.combine P.sig2 (decide (index = 1)) leaf element := by
  rw [lib.multiMux1_iff _ _ _ _ hbit] at h
  subst h
  rcases hbit with rfl | rfl <;> simp [Merkle.combine]

/-- The checker climbs the path, whatever the prover puts into it. -/
theorem merkleTreeChecker_iff {leaf : F} {path : List (F × F)} {root : F}
    : MerkleTreeChecker P lib leaf path root ↔
      (∀ step ∈ path, step.2 = 0 ∨ step.2 = 1) ∧ root = Merkle.climb P.sig2 leaf (selectors path) := by
  induction path generalizing leaf with
  | nil => simp [MerkleTreeChecker, selectors, Merkle.climb]
  | cons step path ih =>
    obtain ⟨element, index⟩ := step
    rw [selectors_cons, Merkle.climb, List.forall_mem_cons]
    constructor
    . rintro ⟨hbit, out, hmux, hrest⟩
      have hbit := F.bit_of_mul_eq_zero hbit
      obtain ⟨hbits, hroot⟩ := ih.mp hrest
      refine ⟨⟨hbit, hbits⟩, ?_⟩
      rw [hroot, multiMux1_combine hbit hmux]
    . rintro ⟨⟨hbit, hbits⟩, hroot⟩
      have hmux := (lib.multiMux1_iff (leaf, element) (element, leaf) index _ hbit).mpr rfl
      refine ⟨?_, _, hmux, ih.mpr ⟨hbits, ?_⟩⟩
      . rcases hbit with hbit | hbit <;> simp [show index = _ from hbit]
      . rw [multiMux1_combine hbit hmux, hroot]

section FixedBase

variable {base : Jubjub} {scalar : F} {out : F × F}

theorem fixedBaseMul_iff {bits : Nat} (hbase : IsGenerator base) (hbits : 2 ^ bits ≤ FIELD_MODULUS)
    : FixedBaseMul lib bits base.val scalar out ↔
      scalar.val < 2 ^ bits ∧ out = (scalar.val • base).val := by
  constructor
  . rintro ⟨e, hdecompose, hmul⟩
    have hlt := lib.num2Bits_lt hdecompose hbits
    obtain ⟨b, hlength, rfl, hvalue⟩ := (lib.num2Bits_iff _ _ _).mp hdecompose
    have hlt' := value_lt b
    rw [hlength] at hlt'
    rw [lib.escalarMulFix_iff _ _ _ hbase] at hmul
    refine ⟨hlt, ?_⟩
    rw [hmul, ← hvalue, F.val_cast_of_lt (Nat.lt_of_lt_of_le hlt' hbits)]
  . rintro ⟨hlt, rfl⟩
    refine ⟨_, lib.num2Bits_of_lt hlt, (lib.escalarMulFix_iff _ _ _ hbase).mpr ?_⟩
    rw [value_bitsOf hlt]

theorem fieldBaseMul_iff (hbase : IsGenerator base)
    : FieldBaseMul lib base.val scalar out ↔ out = (scalar.val • base).val := by
  constructor
  . rintro ⟨e, hdecompose, hmul⟩
    obtain ⟨b, -, rfl, hvalue⟩ := (lib.num2BitsStrict_iff _ _).mp hdecompose
    rw [lib.escalarMulFix_iff _ _ _ hbase] at hmul
    rw [hmul, hvalue]
  . rintro rfl
    refine ⟨_, lib.num2BitsStrict_bitsOf scalar, (lib.escalarMulFix_iff _ _ _ hbase).mpr ?_⟩
    rw [value_bitsOf (Nat.lt_trans scalar.val_lt (by decide))]

end FixedBase

theorem pointG_val : GENERATOR_G = pointG.val := rfl
theorem pointJ_val : GENERATOR_J = pointJ.val := rfl
theorem pointK_val : GENERATOR_K = pointK.val := rfl
theorem pointH_val : GENERATOR_H = pointH.val := rfl

theorem two_pow_le {n : Nat} (hn : n ≤ 253) : 2 ^ n ≤ FIELD_MODULUS :=
  Nat.le_trans (Nat.pow_le_pow_right (by decide) hn) (by decide)

/-- The bounds on R and m hide in the scalar multiplications. -/
theorem accumulatorCommitment_iff {refunds index commitment blinding : F} {out : F × F}
    : AccumulatorCommitment lib refunds index commitment blinding out ↔
      refunds.val < 2 ^ 128 ∧ index.val < 2 ^ 32
        ∧ out = (accumulatorPoint refunds.val index.val commitment.val blinding.val).val := by
  unfold AccumulatorCommitment
  rw [pointG_val, pointJ_val, pointK_val, pointH_val]
  simp only [fixedBaseMul_iff (Or.inl rfl) (two_pow_le (by decide : 128 ≤ 253)),
    fixedBaseMul_iff (Or.inr (Or.inl rfl)) (two_pow_le (by decide : 32 ≤ 253)),
    fieldBaseMul_iff (Or.inr (Or.inr (Or.inl rfl))), fieldBaseMul_iff (Or.inr (Or.inr (Or.inr rfl)))]
  constructor
  . rintro ⟨_, _, _, _, _, _, ⟨hrefunds, rfl⟩, ⟨hindex, rfl⟩, rfl, rfl, hsum1, hsum2, hout⟩
    rw [lib.babyAdd_iff] at hsum1
    subst hsum1
    rw [lib.babyAdd_iff] at hsum2
    subst hsum2
    rw [lib.babyAdd_iff] at hout
    exact ⟨hrefunds, hindex, hout⟩
  . rintro ⟨hrefunds, hindex, rfl⟩
    exact ⟨_, _, _, _, _, _, ⟨hrefunds, rfl⟩, ⟨hindex, rfl⟩, rfl, rfl, (lib.babyAdd_iff _ _ _).mpr rfl,
      (lib.babyAdd_iff _ _ _).mpr rfl, (lib.babyAdd_iff _ _ _).mpr rfl⟩

theorem rerandomize_iff {A : Jubjub} {blinding : F} {out : F × F}
    : Rerandomize lib A.val blinding out ↔ out = (A + blinding.val • pointH).val := by
  unfold Rerandomize
  rw [pointH_val]
  simp only [fieldBaseMul_iff (Or.inr (Or.inr (Or.inr rfl)))]
  constructor
  . rintro ⟨_, rfl, hsum⟩
    exact (lib.babyAdd_iff _ _ _).mp hsum
  . rintro rfl
    exact ⟨_, rfl, (lib.babyAdd_iff _ _ _).mpr rfl⟩

end Circuit
end Longjing
