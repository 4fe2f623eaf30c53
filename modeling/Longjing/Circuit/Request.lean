import Longjing.Circuit.Templates

/-!
This module contains the request and the settlement circuit (`request.circom`, `settlement.circom`) and
what they say over the naturals.
-/

namespace Longjing
namespace Circuit

open Accumulator

variable (P : Poseidon) (lib : Circomlib)

structure RequestInputs (depth : Nat) where
  secretKey : F
  deposit : F
  -- the path elements with their indices
  merklePath : List (F × F)
  accumulator : AccumulatorSignals
  rerandomizer : F
  merkleRoot : F
  maxCost : F
  signalX : F
  serverPublicKey : F × F
  length_merklePath : merklePath.length = depth

structure RequestOutputs where
  nullifier : F
  signalY : F
  accumulator : F × F
deriving DecidableEq

def RequestInputs.publicSignals {depth : Nat} (i : RequestInputs depth) (o : RequestOutputs) : List Nat :=
  [o.nullifier.val, o.signalY.val, o.accumulator.1.val, o.accumulator.2.val, i.merkleRoot.val, i.maxCost.val,
    i.signalX.val, i.serverPublicKey.1.val, i.serverPublicKey.2.val]

def AccumulatorSignals.point (a : AccumulatorSignals) (commitment : F) : Jubjub :=
  accumulatorPoint a.refunds.val a.index.val commitment.val a.blinding.val

def AccumulatorSignals.verifies (a : AccumulatorSignals) (enabled : F) (serverPublicKey : F × F) (M : F)
    : Prop :=
  lib.EdDSAPoseidonVerifier enabled serverPublicKey (a.signatureR8x, a.signatureR8y) a.signatureS M

def messageOf (A : Jubjub) : F := P.sig2 A.val.1 A.val.2

structure Request {depth : Nat} (i : RequestInputs depth) (o : RequestOutputs) : Prop where
  membership : MerkleTreeChecker P lib (P.sig2 (P.sig1 i.secretKey) i.deposit) i.merklePath i.merkleRoot
  published : ∃ out,
    SignedAccumulator P lib i.accumulator (P.sig1 i.secretKey) i.serverPublicKey out
      ∧ Rerandomize lib out i.rerandomizer o.accumulator
  depositBits : ∃ bits, lib.Num2Bits 128 i.deposit bits
  maxCostBits : ∃ bits, lib.Num2Bits 128 i.maxCost bits
  solvency : lib.LessEqThan 161 ((i.accumulator.index + 1) * i.maxCost)
    (i.deposit + i.accumulator.refunds) 1
  rln : RlnSignal P i.secretKey i.accumulator.index i.signalX o.nullifier o.signalY

structure SettlementInputs where
  secretKey : F
  accumulator : AccumulatorSignals
  claimedIndex : F
  commitment : F
  deposit : F
  maxCost : F
  serverPublicKey : F × F
  recipient : F
  signalX : F
deriving DecidableEq

structure SettlementOutputs where
  nullifier : F
  signalY : F
  payout : F
deriving DecidableEq

def SettlementInputs.publicSignals (i : SettlementInputs) (o : SettlementOutputs) : List Nat :=
  [o.nullifier.val, o.signalY.val, o.payout.val, i.commitment.val, i.deposit.val, i.maxCost.val,
    i.serverPublicKey.1.val, i.serverPublicKey.2.val, i.recipient.val, i.signalX.val]

structure Settlement (i : SettlementInputs) (o : SettlementOutputs) : Prop where
  ownership : P.sig1 i.secretKey = i.commitment
  accumulator : ∃ out, SignedAccumulator P lib i.accumulator i.commitment i.serverPublicKey out
  claimedIndexBits : ∃ bits, lib.Num2Bits 32 i.claimedIndex bits
  claimCoversUsage : lib.LessEqThan 32 i.accumulator.index i.claimedIndex 1
  depositBits : ∃ bits, lib.Num2Bits 128 i.deposit bits
  maxCostBits : ∃ bits, lib.Num2Bits 128 i.maxCost bits
  payout_eq : o.payout = i.deposit + i.accumulator.refunds - i.claimedIndex * i.maxCost
  payoutBits : ∃ bits, lib.Num2Bits 129 o.payout bits
  rln : RlnSignal P i.secretKey i.claimedIndex i.signalX o.nullifier o.signalY
  recipientSquare : ∃ square, square = i.recipient * i.recipient

/-- Genesis with nothing in it, or a signature the verifier accepts. -/
def AccumulatorSignals.Opened (a : AccumulatorSignals) (commitment : F) (serverPublicKey : F × F) : Prop :=
  (a.isGenesis = 0 ∧ a.verifies lib 1 serverPublicKey (messageOf P (a.point commitment)))
    ∨ (a.isGenesis = 1 ∧ a.refunds = 0 ∧ a.index = 0 ∧ a.blinding = 0)

variable {P lib}

theorem signedAccumulator_of {a : AccumulatorSignals} {commitment : F} {key out : F × F}
    (h : SignedAccumulator P lib a commitment key out)
    : a.refunds.val < 2 ^ 128 ∧ a.index.val < 2 ^ 32 ∧ out = (a.point commitment).val
      ∧ a.Opened P lib commitment key := by
  obtain ⟨hrefunds, hindex, rfl⟩ := accumulatorCommitment_iff.mp h.accumulator
  refine ⟨hrefunds, hindex, rfl, ?_⟩
  rcases F.bit_of_mul_eq_zero h.bit with hzero | hone
  . left
    have hsignature := h.signature
    rw [hzero, sub_zero] at hsignature
    exact ⟨hzero, hsignature⟩
  . right
    refine ⟨hone, ?_, ?_, ?_⟩
    . simpa [hone] using h.refunds_zero
    . simpa [hone] using h.index_zero
    . simpa [hone] using h.blinding_zero

/-- For genesis the disabled verifier has to be satisfiable. -/
theorem signedAccumulator_mk {a : AccumulatorSignals} {commitment : F} {key : F × F}
    (hdummy : a.isGenesis = 1 → ∀ M, a.verifies lib 0 key M) (hrefunds : a.refunds.val < 2 ^ 128)
    (hindex : a.index.val < 2 ^ 32) (hopened : a.Opened P lib commitment key)
    : SignedAccumulator P lib a commitment key (a.point commitment).val := by
  have hcommitment : AccumulatorCommitment lib a.refunds a.index commitment a.blinding
      (a.point commitment).val :=
    accumulatorCommitment_iff.mpr ⟨hrefunds, hindex, rfl⟩
  rcases hopened with ⟨hzero, hverifies⟩ | ⟨hone, hr, hi, hb⟩
  . refine ⟨?_, ?_, ?_, ?_, hcommitment, ?_⟩
    . simp [hzero]
    . simp [hzero]
    . simp [hzero]
    . simp [hzero]
    . rw [hzero, sub_zero]
      exact hverifies
  . refine ⟨?_, ?_, ?_, ?_, hcommitment, ?_⟩
    . simp [hone]
    . simp [hr]
    . simp [hi]
    . simp [hb]
    . rw [hone, sub_self]
      exact hdummy hone _

theorem val_add_of_lt {a b : F} (h : a.val + b.val < FIELD_MODULUS) : (a + b).val = a.val + b.val :=
  ZMod.val_add_of_lt h

theorem val_mul_of_lt {a b : F} (h : a.val * b.val < FIELD_MODULUS) : (a * b).val = a.val * b.val :=
  ZMod.val_mul_of_lt h

/-- Neither side of the solvency check wraps. -/
theorem required_val {index maxCost : F} (hindex : index.val < 2 ^ 32) (hmaxCost : maxCost.val < 2 ^ 128)
    : ((index + 1) * maxCost).val = (index.val + 1) * maxCost.val
      ∧ (index.val + 1) * maxCost.val < 2 ^ 161 := by
  have hone : (1 : F).val = 1 := ZMod.val_one _
  have hsucc : (index + 1).val = index.val + 1 := by
    have hlt : index.val + 1 < FIELD_MODULUS :=
      Nat.lt_of_lt_of_le (by omega : index.val + 1 < 2 ^ 33) (two_pow_le (by decide))
    rw [val_add_of_lt (by rw [hone]; exact hlt), hone]
  have hprod : (index.val + 1) * maxCost.val < 2 ^ 161 := by
    calc (index.val + 1) * maxCost.val
        ≤ 2 ^ 32 * maxCost.val := Nat.mul_le_mul_right _ hindex
      _ < 2 ^ 32 * 2 ^ 128 := Nat.mul_lt_mul_of_pos_left hmaxCost (by decide)
      _ ≤ 2 ^ 161 := by decide
  refine ⟨?_, hprod⟩
  rw [val_mul_of_lt, hsucc]
  rw [hsucc]
  exact Nat.lt_of_lt_of_le hprod (two_pow_le (by decide))

theorem funds_val {deposit refunds : F} (hdeposit : deposit.val < 2 ^ 128) (hrefunds : refunds.val < 2 ^ 128)
    : (deposit + refunds).val = deposit.val + refunds.val ∧ deposit.val + refunds.val < 2 ^ 129 := by
  have hlt : deposit.val + refunds.val < 2 ^ 129 := by omega
  exact ⟨val_add_of_lt (Nat.lt_of_lt_of_le hlt (two_pow_le (by decide))), hlt⟩

theorem lessEqThan_one_iff {n : Nat} {a b : F} (hn : n ≤ 252) (ha : a.val < 2 ^ n) (hb : b.val < 2 ^ n)
    : lib.LessEqThan n a b 1 ↔ a.val ≤ b.val := by
  rw [lib.lessEqThan_iff _ _ _ _ hn ha hb]
  by_cases h : a.val ≤ b.val
  . simp [h]
  . simp [h]

variable (P lib) in
/-- What the request circuit says over the naturals. -/
structure RequestFacts {depth : Nat} (i : RequestInputs depth) : Prop where
  index_lt : i.accumulator.index.val < 2 ^ 32
  refunds_lt : i.accumulator.refunds.val < 2 ^ 128
  deposit_lt : i.deposit.val < 2 ^ 128
  maxCost_lt : i.maxCost.val < 2 ^ 128
  solvent : (i.accumulator.index.val + 1) * i.maxCost.val ≤ i.deposit.val + i.accumulator.refunds.val
  indices : ∀ step ∈ i.merklePath, step.2 = 0 ∨ step.2 = 1
  root : Merkle.climb P.sig2 (P.sig2 (P.sig1 i.secretKey) i.deposit) (selectors i.merklePath) = i.merkleRoot
  opened : i.accumulator.Opened P lib (P.sig1 i.secretKey) i.serverPublicKey

variable (P) in
def RequestInputs.accumulatorPoint {depth : Nat} (i : RequestInputs depth) : Jubjub :=
  i.accumulator.point (P.sig1 i.secretKey)

variable (P) in
def RequestInputs.outputs {depth : Nat} (i : RequestInputs depth) : RequestOutputs where
  nullifier := P.sig1 (P.sig2 i.secretKey i.accumulator.index)
  signalY := i.secretKey + P.sig2 i.secretKey i.accumulator.index * i.signalX
  accumulator := (i.accumulatorPoint P + i.rerandomizer.val • pointH).val

theorem requestFacts_of {depth : Nat} {i : RequestInputs depth} {o : RequestOutputs} (h : Request P lib i o)
    : RequestFacts P lib i ∧ o = i.outputs P := by
  obtain ⟨hindices, hroot⟩ := merkleTreeChecker_iff.mp h.membership
  obtain ⟨out, hsigned, hrerandomize⟩ := h.published
  obtain ⟨hrefunds, hindex, rfl, hopened⟩ := signedAccumulator_of hsigned
  obtain ⟨_, hdepositBits⟩ := h.depositBits
  obtain ⟨_, hmaxCostBits⟩ := h.maxCostBits
  have hdeposit := lib.num2Bits_lt hdepositBits (two_pow_le (by decide))
  have hmaxCost := lib.num2Bits_lt hmaxCostBits (two_pow_le (by decide))
  obtain ⟨hrequired, hrequired_lt⟩ := required_val hindex hmaxCost
  obtain ⟨hfunds, hfunds_lt⟩ := funds_val hdeposit hrefunds
  have hsolvent := (lessEqThan_one_iff (by decide) (by rw [hrequired]; exact hrequired_lt)
    (by rw [hfunds]; omega)).mp h.solvency
  rw [hrequired, hfunds] at hsolvent
  refine ⟨⟨hindex, hrefunds, hdeposit, hmaxCost, hsolvent, hindices, hroot.symm, hopened⟩, ?_⟩
  obtain ⟨nullifier, signalY, accumulator⟩ := o
  simp only [RequestInputs.outputs, RequestOutputs.mk.injEq]
  exact ⟨h.rln.nullifier_eq, h.rln.signalY_eq, rerandomize_iff.mp hrerandomize⟩

theorem request_of_facts {depth : Nat} {i : RequestInputs depth}
    (hdummy : i.accumulator.isGenesis = 1 → ∀ M, i.accumulator.verifies lib 0 i.serverPublicKey M)
    (h : RequestFacts P lib i) : Request P lib i (i.outputs P) := by
  obtain ⟨hrequired, hrequired_lt⟩ := required_val h.index_lt h.maxCost_lt
  obtain ⟨hfunds, hfunds_lt⟩ := funds_val h.deposit_lt h.refunds_lt
  refine ⟨?_, ?_, ⟨_, lib.num2Bits_of_lt h.deposit_lt⟩, ⟨_, lib.num2Bits_of_lt h.maxCost_lt⟩, ?_,
    ⟨rfl, rfl⟩⟩
  . exact merkleTreeChecker_iff.mpr ⟨h.indices, h.root.symm⟩
  . exact ⟨_, signedAccumulator_mk hdummy h.refunds_lt h.index_lt h.opened, rerandomize_iff.mpr rfl⟩
  . refine (lessEqThan_one_iff (by decide) (by rw [hrequired]; exact hrequired_lt)
      (by rw [hfunds]; omega)).mpr ?_
    rw [hrequired, hfunds]
    exact h.solvent

variable (P lib) in
/-- What the settlement circuit says over the naturals. -/
structure SettlementFacts (i : SettlementInputs) (o : SettlementOutputs) : Prop where
  ownership : P.sig1 i.secretKey = i.commitment
  index_le : i.accumulator.index.val ≤ i.claimedIndex.val
  claimedIndex_lt : i.claimedIndex.val < 2 ^ 32
  refunds_lt : i.accumulator.refunds.val < 2 ^ 128
  deposit_lt : i.deposit.val < 2 ^ 128
  maxCost_lt : i.maxCost.val < 2 ^ 128
  payout_eq : o.payout.val + i.claimedIndex.val * i.maxCost.val = i.deposit.val + i.accumulator.refunds.val
  payout_lt : o.payout.val < 2 ^ 129
  opened : i.accumulator.Opened P lib i.commitment i.serverPublicKey
  nullifier_eq : o.nullifier = P.sig1 (P.sig2 i.secretKey i.claimedIndex)
  signalY_eq : o.signalY = i.secretKey + P.sig2 i.secretKey i.claimedIndex * i.signalX

theorem spent_val {claimedIndex maxCost : F} (hclaimed : claimedIndex.val < 2 ^ 32)
    (hmaxCost : maxCost.val < 2 ^ 128)
    : (claimedIndex * maxCost).val = claimedIndex.val * maxCost.val
      ∧ claimedIndex.val * maxCost.val < 2 ^ 160 := by
  have hlt : claimedIndex.val * maxCost.val < 2 ^ 160 := by
    calc claimedIndex.val * maxCost.val
        ≤ 2 ^ 32 * maxCost.val := Nat.mul_le_mul_right _ (Nat.le_of_lt hclaimed)
      _ < 2 ^ 32 * 2 ^ 128 := Nat.mul_lt_mul_of_pos_left hmaxCost (by decide)
      _ = 2 ^ 160 := by decide
  exact ⟨val_mul_of_lt (Nat.lt_of_lt_of_le hlt (two_pow_le (by decide))), hlt⟩

/-- A payout of 129 bits is the difference over the naturals: the sum with what was spent does not wrap. -/
theorem payout_eq_iff {payout deposit refunds claimedIndex maxCost : F} (hpayout : payout.val < 2 ^ 129)
    (hclaimed : claimedIndex.val < 2 ^ 32) (hmaxCost : maxCost.val < 2 ^ 128)
    (hdeposit : deposit.val < 2 ^ 128) (hrefunds : refunds.val < 2 ^ 128)
    : payout = deposit + refunds - claimedIndex * maxCost ↔
      payout.val + claimedIndex.val * maxCost.val = deposit.val + refunds.val := by
  obtain ⟨hspent, hspent_lt⟩ := spent_val hclaimed hmaxCost
  obtain ⟨hfunds, -⟩ := funds_val hdeposit hrefunds
  have hlt : payout.val + (claimedIndex * maxCost).val < FIELD_MODULUS := by
    rw [hspent]
    exact Nat.lt_of_lt_of_le (by omega : _ < 2 ^ 161) (two_pow_le (by decide))
  rw [eq_sub_iff_add_eq, ← hspent, ← hfunds, ← val_add_of_lt hlt]
  exact (ZMod.val_injective _).eq_iff.symm

theorem settlementFacts_of {i : SettlementInputs} {o : SettlementOutputs} (h : Settlement P lib i o)
    : SettlementFacts P lib i o := by
  obtain ⟨out, hsigned⟩ := h.accumulator
  obtain ⟨hrefunds, hindex, rfl, hopened⟩ := signedAccumulator_of hsigned
  obtain ⟨_, hclaimedBits⟩ := h.claimedIndexBits
  obtain ⟨_, hdepositBits⟩ := h.depositBits
  obtain ⟨_, hmaxCostBits⟩ := h.maxCostBits
  obtain ⟨_, hpayoutBits⟩ := h.payoutBits
  have hclaimed := lib.num2Bits_lt hclaimedBits (two_pow_le (by decide))
  have hdeposit := lib.num2Bits_lt hdepositBits (two_pow_le (by decide))
  have hmaxCost := lib.num2Bits_lt hmaxCostBits (two_pow_le (by decide))
  have hpayout := lib.num2Bits_lt hpayoutBits (two_pow_le (by decide))
  exact ⟨h.ownership, (lessEqThan_one_iff (by decide) hindex hclaimed).mp h.claimCoversUsage, hclaimed,
    hrefunds, hdeposit, hmaxCost,
    (payout_eq_iff hpayout hclaimed hmaxCost hdeposit hrefunds).mp h.payout_eq, hpayout, hopened,
    h.rln.nullifier_eq, h.rln.signalY_eq⟩

theorem settlement_of_facts {i : SettlementInputs} {o : SettlementOutputs}
    (hdummy : i.accumulator.isGenesis = 1 → ∀ M, i.accumulator.verifies lib 0 i.serverPublicKey M)
    (h : SettlementFacts P lib i o) : Settlement P lib i o := by
  have hindex : i.accumulator.index.val < 2 ^ 32 := Nat.lt_of_le_of_lt h.index_le h.claimedIndex_lt
  refine ⟨h.ownership, ⟨_, signedAccumulator_mk hdummy h.refunds_lt hindex h.opened⟩,
    ⟨_, lib.num2Bits_of_lt h.claimedIndex_lt⟩, ?_, ⟨_, lib.num2Bits_of_lt h.deposit_lt⟩,
    ⟨_, lib.num2Bits_of_lt h.maxCost_lt⟩, ?_, ⟨_, lib.num2Bits_of_lt h.payout_lt⟩,
    ⟨h.nullifier_eq, h.signalY_eq⟩, ⟨_, rfl⟩⟩
  . exact (lessEqThan_one_iff (by decide) hindex h.claimedIndex_lt).mpr h.index_le
  . exact (payout_eq_iff h.payout_lt h.claimedIndex_lt h.maxCost_lt h.deposit_lt h.refunds_lt).mpr h.payout_eq

variable (P) in
def SettlementInputs.outputs (i : SettlementInputs) : SettlementOutputs where
  nullifier := P.sig1 (P.sig2 i.secretKey i.claimedIndex)
  signalY := i.secretKey + P.sig2 i.secretKey i.claimedIndex * i.signalX
  payout := i.deposit + i.accumulator.refunds - i.claimedIndex * i.maxCost

theorem Settlement.outputs_eq {i : SettlementInputs} {o : SettlementOutputs} (h : Settlement P lib i o)
    : o = i.outputs P := by
  obtain ⟨nullifier, signalY, payout⟩ := o
  simp only [SettlementInputs.outputs, SettlementOutputs.mk.injEq]
  exact ⟨h.rln.nullifier_eq, h.rln.signalY_eq, h.payout_eq⟩

/-- No solution of the settlement constraints wraps, and none over the naturals is lost. -/
theorem settlement_no_wrap (P : Poseidon) (lib : Circomlib) (i : SettlementInputs) (o : SettlementOutputs)
    : (Settlement P lib i o → SettlementFacts P lib i o)
      ∧ ((i.accumulator.isGenesis = 1 → ∀ M, i.accumulator.verifies lib 0 i.serverPublicKey M) →
          SettlementFacts P lib i o → Settlement P lib i o) :=
  ⟨settlementFacts_of, settlement_of_facts⟩

/-- The request constraints are satisfiable exactly for the naturals they are meant for, with one output. -/
theorem request_no_wrap (P : Poseidon) (lib : Circomlib) {depth : Nat} (i : RequestInputs depth)
    : ((∃ o, Request P lib i o) → RequestFacts P lib i)
      ∧ ((i.accumulator.isGenesis = 1 → ∀ M, i.accumulator.verifies lib 0 i.serverPublicKey M) →
          RequestFacts P lib i → ∃ o, Request P lib i o)
      ∧ ∀ o, Request P lib i o → o = i.outputs P := by
  refine ⟨?_, ?_, ?_⟩
  . rintro ⟨o, h⟩
    exact (requestFacts_of h).1
  . intro hdummy h
    exact ⟨_, request_of_facts hdummy h⟩
  . intro o h
    exact (requestFacts_of h).2

end Circuit
end Longjing
