import Longjing.Credits.Basic
import Longjing.Lib.Fallible
import Longjing.Lib.Groth16
import Mathlib.Data.ZMod.Basic

/-!
This module contains `SettlementVerifier.sol`, the verifier of settlement proofs that snarkjs generates,
with its memory. A function of its assembly takes the memory it starts from and returns the memory it
leaves behind, or `none` where it ends the whole call with the answer false.
-/

namespace Longjing
namespace Credits
namespace SettlementVerifier

/-- Scalar field size. -/
def r : Nat := 21888242871839275222246405745257275088548364400416034343698204186575808495617

/-- Base field size. -/
def q : Nat := 21888242871839275222246405745257275088696311157297823662689037894645226208583

def alphax : Nat := 16428432848801857252194528405604668803277877773566238944394625302971855135431
def alphay : Nat := 16846502678714586896801519656441059708016666274385668027902869494772365009666
def betax1 : Nat := 3182164110458002340215786955198810119980427837186618912744689678939861918171
def betax2 : Nat := 16348171800823588416173124589066524623406261996681292662100840445103873053252
def betay1 : Nat := 4920802715848186258981584729175884379674325733638798907835771393452862684714
def betay2 : Nat := 19687132236965066906216944365591810874384658708175106803089633851114028275753
def gammax1 : Nat := 11559732032986387107991004021392285783925812861821192530917403151452391805634
def gammax2 : Nat := 10857046999023057135944570762232829481370756359578518086990519993285655852781
def gammay1 : Nat := 4082367875863433681332203403145435568316851327593401208105741076214120093531
def gammay2 : Nat := 8495653923123431417604973247489272438418190587263600148770280649306958101930
def deltax1 : Nat := 13154943603731853766596283652610392090044567814906345008681987044223502251273
def deltax2 : Nat := 18598422413767322061762714621972260684493844822788308292963356637632939799400
def deltay1 : Nat := 8634473648553244671630031056333333625062452793316077206564009765705136281523
def deltay2 : Nat := 7554121165356070055189028349232892896613849569043623509206187733329900615391

def IC0x : Nat := 16102647182602267537138082263803596424909618857328835224137396630791934033903
def IC0y : Nat := 12881221810456863491309258459950603350699366440168859150722157600616750842254

/-- `IC1x`, `IC1y` up to `IC10x`, `IC10y`. -/
def IC : List (Nat × Nat) :=
  [
    (3005059733958058489895880731776602482605371595008658901002628416078627909703,
      15783842749859084182536358880211114266466389304053675706963629287884011370314),
    (14478858059435413690173078619038325652682670359858020798919379711350095076570,
      11004211876366750690887066900925126799354408255190063726431963348305649707763),
    (128543963559445011850092897295597815156387855614767962020074790177755999044,
      5510478337106337545721625534708277015507898143622944679692492207676245952607),
    (16129468321160383791098824637201359708229671124006072345836158539789293159212,
      4236189302709257961265653791139274888367539237308913725290229375368338479944),
    (10986118015362895251490057406619269777701663659377279924900810143838648151152,
      4866739275034451481903768194926267145419570663924651278057318107785119632130),
    (642617052992772646297984663680401301647401354743014693088754555155088656388,
      2912330884184171616947542301646851733986527479928435957857207196943351850534),
    (1627722262394102722666521120199074269812612496977147204817277065255488293410,
      1977146118122000575386650978308688365099961654518831152011545801146588180184),
    (4742688808151091348002991015051914820908911247630606224734366505878863982521,
      13731671938904629217869108576776522264260114891954034535411246734468381215190),
    (535137599850750342128522578442819606937843898032915325014355197847129578990,
      20522085307960751318819536192259205381657611959009545770915840364876252087837),
    (4935918164420613786372607116021705532716010787107425177747053531809058893975,
      17892517186341752031537018025744696663019100203804401731375489915638047692009)
  ]

/-- Memory data. -/
def pVk : Nat := 0
def pPairing : Nat := 128
def pLastMem : Nat := 896

/-- The word at an address; all addresses are multiples of 32. -/
abbrev Memory := Nat → Nat

def mstore (m : Memory) (p v : Nat) : Memory := Function.update m p v

/-- Words side by side. -/
def mstores (m : Memory) (p : Nat) : List Nat → Memory
  | [] => m
  | v :: vs => mstores (mstore m p v) (p + 32) vs

def mloads (m : Memory) (p : Nat) : Nat → List Nat
  | 0 => []
  | n + 1 => m p :: mloads m (p + 32) n

/-- The contracts at fixed addresses, by the words they take and return; `none` is a failure. -/
abbrev Precompiles := (address : Nat) → (input : List Nat) → Option (List Nat)

variable (pre : Precompiles)

/-- `staticcall` with all of the gas; the sizes are in bytes. -/
def staticcall (address pIn inSize pOut outSize : Nat) (m : Memory) : Option Memory :=
  (pre address (mloads m pIn (inSize / 32))).map fun out => mstores m pOut (out.take (outSize / 32))

def checkField (v : Nat) : Option Unit := if v < r then some () else none

/-- G1 function to multiply a G1 value (x, y) to value in an address. -/
def g1_mulAccC (pR x y s : Nat) (m : Memory) : Option Memory := do
  let mIn := m 0x40
  let m := mstore m mIn x
  let m := mstore m (mIn + 32) y
  let m := mstore m (mIn + 64) s
  let m ← staticcall pre 7 mIn 96 mIn 64 m
  let m := mstore m (mIn + 64) (m pR)
  let m := mstore m (mIn + 96) (m (pR + 32))
  staticcall pre 6 mIn 128 pR 64 m

/-- The linear combination vk_x, one signal after another. -/
def combine (pR : Nat) : List (Nat × Nat) → List Nat → Memory → Option Memory
  | (x, y) :: points, s :: signals, m => do
    let m ← g1_mulAccC pre pR x y s m
    combine pR points signals m
  | _, _, m => some m

/-- `mod(sub(q, y), q)` on words. -/
def negate (y : Nat) : Nat := (q + 2 ^ 256 - y) % 2 ^ 256 % q

/-- The words of a proof: A, B and C. -/
structure Proof where
  ax : Nat
  ay : Nat
  bx1 : Nat
  bx2 : Nat
  by1 : Nat
  by2 : Nat
  cx : Nat
  cy : Nat
deriving DecidableEq, Repr

/-- What `checkPairing` writes from `_pPairing` on, once vk_x is there. -/
def pairingWords (proof : Proof) (vkx vky : Nat) : List Nat :=
  -- -A and B
  [proof.ax, negate proof.ay, proof.bx1, proof.bx2, proof.by1, proof.by2,
    -- alpha1 and beta2
    alphax, alphay, betax1, betax2, betay1, betay2,
    -- vk_x and gamma2
    vkx, vky, gammax1, gammax2, gammay1, gammay2,
    -- C and delta2
    proof.cx, proof.cy, deltax1, deltax2, deltay1, deltay2]

/-- `none` when a precompile for vk_x fails; a failed pairing check is a 0. -/
def checkPairing (proof : Proof) (pubSignals : List Nat) (pMem : Nat) (m : Memory) : Option Nat := do
  let _pPairing := pMem + pPairing
  let _pVk := pMem + pVk
  let m := mstore m _pVk IC0x
  let m := mstore m (_pVk + 32) IC0y
  let m ← combine pre _pVk IC pubSignals m
  let m := mstores m _pPairing (pairingWords proof (m (pMem + pVk)) (m (pMem + (pVk + 32))))
  match staticcall pre 8 _pPairing 768 _pPairing 0x20 m with
  | some m => some (1 &&& m _pPairing)
  | none => some 0

/-- The free memory pointer is all that Solidity leaves in the memory of a call. -/
def freshMemory : Memory := Function.update (fun _ => 0) 0x40 0x80

def verifyProof (proof : Proof) (pubSignals : List Nat) : Bool :=
  let result := do
    let m := freshMemory
    let pMem := m 0x40
    let m := mstore m 0x40 (pMem + pLastMem)
    let _ ← pubSignals.mapM checkField
    checkPairing pre proof pubSignals pMem m
  result = some 1

/-- Wrapper taking the proof as one flat array. Arrays of another length are no calldata for it. -/
def verifySettlementProof : (proof publicSignals : List Nat) → Bool
  | [ax, ay, bx1, bx2, by1, by2, cx, cy], publicSignals =>
    decide (publicSignals.length = 10) && verifyProof pre ⟨ax, ay, bx1, bx2, by1, by2, cx, cy⟩ publicSignals
  | _, _ => false

section Memory

theorem mstores_of_lt {p a : Nat} (m : Memory) (words : List Nat) (h : a < p) : mstores m p words a = m a := by
  induction words generalizing m p with
  | nil => rfl
  | cons v words ih =>
    unfold mstores
    rw [ih (mstore m p v) (by omega : a < p + 32)]
    exact Function.update_of_ne (Nat.ne_of_lt h) v m

theorem mloads_mstores (m : Memory) (p : Nat) (words : List Nat)
    : mloads (mstores m p words) p words.length = words := by
  induction words generalizing m p with
  | nil => rfl
  | cons v words ih =>
    simp only [List.length_cons, mloads, mstores, ih, List.cons.injEq, and_true]
    rw [mstores_of_lt _ _ (Nat.lt_add_of_pos_right (by decide))]
    exact Function.update_self p v m

end Memory

variable {G₁ G₂ T : Type} [AddCommGroup G₁] [AddCommGroup G₂] [AddCommGroup T]

/-- A point of each group, as the pairing check reads its words. -/
def decodeTerm (point₁ : Nat → Nat → Option G₁) (point₂ : Nat → Nat → Nat → Nat → Option G₂)
    : Nat × Nat × Nat × Nat × Nat × Nat → Option (G₁ × G₂)
  | (x, y, x1, x2, y1, y2) => do
    let P ← point₁ x y
    let Q ← point₂ x1 x2 y1 y2
    some (P, Q)

def termWords : Nat × Nat × Nat × Nat × Nat × Nat → List Nat
  | (x, y, x1, x2, y1, y2) => [x, y, x1, x2, y1, y2]

open Classical in
/-- The groups behind the words: what the precompiles compute on points, and that they fail on words that are
no points. The constants of the contract are points. -/
structure Bn254 (pre : Precompiles) (G₁ G₂ T : Type) [AddCommGroup G₁] [AddCommGroup G₂] [AddCommGroup T] where
  point₁ : Nat → Nat → Option G₁
  point₂ : Nat → Nat → Nat → Nat → Option G₂
  pairing : G₁ →+ G₂ →+ T
  negated : ∀ {x y P}, point₁ x y = some P → point₁ x ((q - y) % q) = some (-P)
  ecAdd : ∀ {x y x' y' P Q}, point₁ x y = some P → point₁ x' y' = some Q →
    ∃ a b, pre 6 [x, y, x', y'] = some [a, b] ∧ point₁ a b = some (P + Q)
  ecMul : ∀ {x y P} s, point₁ x y = some P →
    ∃ a b, pre 7 [x, y, s] = some [a, b] ∧ point₁ a b = some (s • P)
  ecPairing : ∀ terms : List (Nat × Nat × Nat × Nat × Nat × Nat), pre 8 (terms.flatMap termWords)
    = (terms.mapM (decodeTerm point₁ point₂)).map fun points =>
      [if (points.map fun (P, Q) => pairing P Q).sum = 0 then 1 else 0]
  key : Groth16.VerifyingKey G₁ G₂
  alpha : point₁ alphax alphay = some key.alpha
  beta : point₂ betax1 betax2 betay1 betay2 = some key.beta
  gamma : point₂ gammax1 gammax2 gammay1 gammay2 = some key.gamma
  delta : point₂ deltax1 deltax2 deltay1 deltay2 = some key.delta
  constant : point₁ IC0x IC0y = some key.constant
  inputs : List.Forall₂ (fun point P => point₁ point.1 point.2 = some P) IC key.inputs

/-- The accumulator of vk_x and the free memory pointer, between two signals. -/
structure Accumulates {pre : Precompiles} (bn : Bn254 pre G₁ G₂ T) (m : Memory) (P : G₁) : Prop where
  free : m 0x40 = 1024
  point : bn.point₁ (m 128) (m 160) = some P

section Refinement

variable {pre : Precompiles} {bn : Bn254 pre G₁ G₂ T}

theorem g1_mulAccC_spec {m : Memory} {P Q : G₁} {x y : Nat} (s : Nat) (hm : Accumulates bn m Q)
    (hpoint : bn.point₁ x y = some P)
    : ∃ m', g1_mulAccC pre 128 x y s m = some m' ∧ Accumulates bn m' (Q + s • P) := by
  obtain ⟨a, b, hmul, hab⟩ := bn.ecMul s hpoint
  obtain ⟨a', b', hadd, hab'⟩ := bn.ecAdd hab hm.point
  have hfree := hm.free
  -- the three words for the product, and behind them the accumulator for the sum
  have hrun : g1_mulAccC pre 128 x y s m
      = some (mstores (mstore (mstore (mstores (mstores m 1024 [x, y, s]) 1024 [a, b]) 1088 (m 128)) 1120 (m 160))
          128 [a', b']) := by
    unfold g1_mulAccC
    simp [hfree, staticcall, mloads, mstores, mstore, hmul, hadd]
  refine ⟨_, hrun, ?_, ?_⟩
  . simp [mstores, mstore, hfree]
  . simpa [mstores, mstore, add_comm] using hab'

theorem combine_spec {points : List (Nat × Nat)} {inputs : List G₁}
    (hinputs : List.Forall₂ (fun point P => bn.point₁ point.1 point.2 = some P) points inputs) (signals : List Nat)
    {m : Memory} {Q : G₁} (hm : Accumulates bn m Q)
    : ∃ m', combine pre 128 points signals m = some m'
      ∧ Accumulates bn m' ((inputs.zip signals).foldl (fun acc (P, s) => acc + s • P) Q) := by
  induction hinputs generalizing signals m Q with
  | nil =>
    cases signals <;> exact ⟨m, rfl, hm⟩
  | @cons point P points inputs hpoint hinputs ih =>
    cases signals with
    | nil => exact ⟨m, rfl, hm⟩
    | cons s signals =>
      obtain ⟨m', hstep, hm'⟩ := g1_mulAccC_spec s hm hpoint
      obtain ⟨m'', hrest, hm''⟩ := ih signals hm'
      refine ⟨m'', ?_, hm''⟩
      unfold combine
      simp only [hstep, Option.bind_eq_bind, Option.bind_some, hrest]

theorem mapM_checkField {signals : List Nat}
    : (signals.mapM checkField).isSome = true ↔ ∀ s ∈ signals, s < r := by
  induction signals with
  | nil => simp
  | cons s signals ih =>
    rw [List.mapM_cons, List.forall_mem_cons, ← ih]
    by_cases h : s < r
    . have hs : checkField s = some () := if_pos h
      rw [hs]
      cases signals.mapM checkField <;> simp [h]
    . have hs : checkField s = none := if_neg h
      simp [hs, h]

/-- The y that A is read with: the pairing check takes −A, from words that are not reduced before. -/
def readY (y : Nat) : Nat := (q - negate y) % q

theorem negate_lt (y : Nat) : negate y < q := Nat.mod_lt _ (by decide)

theorem readY_of_lt {y : Nat} (h : y < q) : readY y = y := by
  have hword : q < 2 ^ 256 := by decide
  have hnegate : negate y = (q - y) % q := by
    unfold negate
    rw [show q + 2 ^ 256 - y = q - y + 2 ^ 256 by omega, Nat.add_mod_right,
      Nat.mod_eq_of_lt (show q - y < 2 ^ 256 by omega)]
  unfold readY
  rw [hnegate]
  by_cases hzero : y = 0
  . simp [hzero]
  . rw [Nat.mod_eq_of_lt (show q - y < q by omega), show q - (q - y) = y by omega, Nat.mod_eq_of_lt h]

theorem point₁_negate (bn : Bn254 pre G₁ G₂ T) (x y : Nat) (P : G₁)
    : bn.point₁ x (negate y) = some (-P) ↔ bn.point₁ x (readY y) = some P := by
  have hlt := negate_lt y
  have hback : (q - readY y) % q = negate y := by
    unfold readY
    by_cases hzero : negate y = 0
    . simp [hzero]
    . rw [Nat.mod_eq_of_lt (show q - negate y < q by omega), show q - (q - negate y) = negate y by omega,
        Nat.mod_eq_of_lt hlt]
  constructor
  . intro h
    have hnegated := bn.negated h
    rwa [neg_neg] at hnegated
  . intro h
    have hnegated := bn.negated h
    rwa [hback] at hnegated

/-- The proof is one of three points that satisfy the equation. -/
def Proves (bn : Bn254 pre G₁ G₂ T) (proof : Proof) (signals : List Nat) : Prop :=
  ∃ A B C, bn.point₁ proof.ax (readY proof.ay) = some A
    ∧ bn.point₂ proof.bx1 proof.bx2 proof.by1 proof.by2 = some B ∧ bn.point₁ proof.cx proof.cy = some C
    ∧ Groth16.Accepts bn.pairing bn.key A B C signals

theorem ecPairing_pairingWords (proof : Proof) {signals : List Nat} {vkx vky : Nat}
    (hvk : bn.point₁ vkx vky = some (bn.key.combine signals))
    : (pre 8 (pairingWords proof vkx vky) = none ∨ ∃ b, b ≤ 1 ∧ pre 8 (pairingWords proof vkx vky) = some [b])
      ∧ (pre 8 (pairingWords proof vkx vky) = some [1] ↔ Proves bn proof signals) := by
  have hwords : pairingWords proof vkx vky = List.flatMap termWords
      [(proof.ax, negate proof.ay, proof.bx1, proof.bx2, proof.by1, proof.by2),
        (alphax, alphay, betax1, betax2, betay1, betay2), (vkx, vky, gammax1, gammax2, gammay1, gammay2),
        (proof.cx, proof.cy, deltax1, deltax2, deltay1, deltay2)] := rfl
  rw [hwords, bn.ecPairing]
  -- each of the four terms has to be two points, and those of the key always are
  simp only [List.mapM_cons, List.mapM_nil, decodeTerm, bn.alpha, bn.beta, bn.gamma, bn.delta, hvk,
    Option.bind_eq_bind, Option.bind_some, Option.pure_def]
  refine ⟨?_, ?_, ?_⟩
  . cases bn.point₁ proof.ax (negate proof.ay) with
    | none => exact .inl rfl
    | some A =>
      cases bn.point₂ proof.bx1 proof.bx2 proof.by1 proof.by2 with
      | none => exact .inl rfl
      | some B =>
        cases bn.point₁ proof.cx proof.cy with
        | none => exact .inl rfl
        | some C =>
          refine .inr ⟨_, ?_, rfl⟩
          split <;> decide
  . intro h
    cases ha : bn.point₁ proof.ax (negate proof.ay) with
    | none => simp [ha] at h
    | some A =>
      cases hb : bn.point₂ proof.bx1 proof.bx2 proof.by1 proof.by2 with
      | none => simp [ha, hb] at h
      | some B =>
        cases hc : bn.point₁ proof.cx proof.cy with
        | none => simp [ha, hb, hc] at h
        | some C =>
          refine ⟨-A, B, C, (point₁_negate bn _ _ _).mp (by rw [ha, neg_neg]), hb, hc, ?_⟩
          rw [Groth16.accepts_iff_sum_eq_zero, neg_neg]
          simpa [ha, hb, hc] using h
  . rintro ⟨A, B, C, ha, hb, hc, haccepts⟩
    rw [Groth16.accepts_iff_sum_eq_zero] at haccepts
    simpa [(point₁_negate bn _ _ _).mpr ha, hb, hc] using haccepts

theorem checkPairing_spec (bn : Bn254 pre G₁ G₂ T) {m : Memory} (hfree : m 0x40 = 1024) (proof : Proof)
    (signals : List Nat) : checkPairing pre proof signals 128 m = some 1 ↔ Proves bn proof signals := by
  have hm : Accumulates bn (mstore (mstore m 128 IC0x) 160 IC0y) bn.key.constant := by
    constructor
    . simp [mstore, hfree]
    . simpa [mstore] using bn.constant
  obtain ⟨m', hcombine, hm'⟩ := combine_spec bn.inputs signals hm
  obtain ⟨hwords, hproves⟩ := ecPairing_pairingWords proof hm'.point
  have hread := mloads_mstores m' 256 (pairingWords proof (m' 128) (m' 160))
  rw [← hproves]
  unfold checkPairing
  simp only [pVk, pPairing, Nat.add_zero, Nat.reduceAdd, hcombine, Option.bind_eq_bind, Option.bind_some, staticcall,
    Nat.reduceDiv, Nat.zero_add]
  have hlength : (pairingWords proof (m' 128) (m' 160)).length = 24 := rfl
  rw [hlength] at hread
  rw [hread]
  rcases hwords with hnone | ⟨b, hb, hsome⟩
  . simp [hnone]
  . have hbit : 1 &&& b = b := by
      interval_cases b <;> rfl
    simp [hsome, mstores, mstore, hbit]

theorem exists_alias (pre : Precompiles) (proof : Proof) (signals : List Nat) (h : proof.ay < q)
    : ∃ ay, ay ≠ proof.ay ∧ ay < 2 ^ 256
      ∧ verifySettlementProof pre [proof.ax, ay, proof.bx1, proof.bx2, proof.by1, proof.by2, proof.cx, proof.cy] signals
        = verifySettlementProof pre
          [proof.ax, proof.ay, proof.bx1, proof.bx2, proof.by1, proof.by2, proof.cx, proof.cy] signals := by
  have hword : 5 * q < 2 ^ 256 := by decide
  have hlt := negate_lt proof.ay
  have hnegate (n : Nat) (hn : n < q) : negate (2 ^ 256 - 3 * q - n) = n := by
    unfold negate
    rw [show q + 2 ^ 256 - (2 ^ 256 - 3 * q - n) = n + 4 * q by omega,
      Nat.mod_eq_of_lt (show n + 4 * q < 2 ^ 256 by omega), Nat.add_mul_mod_self_right, Nat.mod_eq_of_lt hn]
  refine ⟨2 ^ 256 - 3 * q - negate proof.ay, by omega, by omega, ?_⟩
  unfold verifySettlementProof verifyProof checkPairing pairingWords
  simp only [hnegate _ hlt]

theorem verifySettlementProof_eq_true (bn : Bn254 pre G₁ G₂ T) (proof : Proof) (signals : List Nat)
    : verifySettlementProof pre
        [proof.ax, proof.ay, proof.bx1, proof.bx2, proof.by1, proof.by2, proof.cx, proof.cy] signals = true
      ↔ signals.length = 10 ∧ (∀ s ∈ signals, s < r) ∧ Proves bn proof signals := by
  have hspec : checkPairing pre proof signals 128 (mstore freshMemory 0x40 1024) = some 1 ↔ Proves bn proof signals :=
    checkPairing_spec bn (by simp [mstore]) proof signals
  have hfresh : freshMemory 0x40 = 128 := rfl
  have hchecks := @mapM_checkField signals
  unfold verifySettlementProof verifyProof
  simp only [hfresh, pLastMem, Nat.reduceAdd, Option.bind_eq_bind, Bool.and_eq_true, decide_eq_true_eq, ← hspec,
    ← hchecks]
  cases signals.mapM checkField <;> simp

/-- The contract accepts ten signals below the order of the scalar field for which the proof satisfies the
equation of Groth16 under its key, and nothing else. The words of an accepted proof are not the only ones:
A has a second y. -/
theorem verifySettlementProof_groth16 (bn : Bn254 pre G₁ G₂ T) (proof : Proof) (signals : List Nat)
    : (verifySettlementProof pre
          [proof.ax, proof.ay, proof.bx1, proof.bx2, proof.by1, proof.by2, proof.cx, proof.cy] signals = true
        ↔ signals.length = 10 ∧ (∀ s ∈ signals, s < r) ∧ Proves bn proof signals)
      ∧ (proof.ay < q → readY proof.ay = proof.ay
        ∧ ∃ ay, ay ≠ proof.ay ∧ ay < 2 ^ 256
          ∧ verifySettlementProof pre
              [proof.ax, ay, proof.bx1, proof.bx2, proof.by1, proof.by2, proof.cx, proof.cy] signals
            = verifySettlementProof pre
              [proof.ax, proof.ay, proof.bx1, proof.bx2, proof.by1, proof.by2, proof.cx, proof.cy] signals) :=
  ⟨verifySettlementProof_eq_true bn proof signals, fun h => ⟨readY_of_lt h, exists_alias pre proof signals h⟩⟩

end Refinement

/-- Whatever the precompiles do, what is accepted are ten signals below the order of the scalar field. -/
theorem canonical_of_verifySettlementProof {pre : Precompiles} {proof signals : List Nat}
    (h : verifySettlementProof pre proof signals = true) : signals.length = 10 ∧ ∀ s ∈ signals, s < r := by
  unfold verifySettlementProof at h
  split at h
  next =>
    simp only [Bool.and_eq_true, decide_eq_true_eq] at h
    refine ⟨h.1, mapM_checkField.mp ?_⟩
    have hverify := h.2
    unfold verifyProof at hverify
    cases hchecks : signals.mapM checkField with
    | none => simp [hchecks] at hverify
    | some _ => rfl
  next => contradiction

end SettlementVerifier
end Credits
end Longjing
