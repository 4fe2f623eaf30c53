import Longjing.Credits.SettlementVerifier
import Longjing.Field.Basic
import Longjing.Lib.ShortWeierstrass
import Mathlib.Algebra.QuadraticAlgebra.Basic
import Mathlib.GroupTheory.QuotientGroup.Basic
import Mathlib.LinearAlgebra.TensorProduct.Defs
import Mathlib.NumberTheory.LegendreSymbol.Basic

/-!
The points that `SettlementVerifier` computes with: the curve BN254 over its base field, and its twist over the
quadratic extension. Of the pairing, there is what an accepted proof says of it.
-/

namespace Longjing
namespace Credits
namespace SettlementVerifier

/-- The small factors that the predecessors of the primes below have. -/
def primeFactors : List Nat :=
    [2, 3, 5, 7, 11, 13, 19, 29, 41, 67, 73, 89, 229, 311, 911, 983, 3557, 3691, 4999, 11003, 13327, 327599,
     1853641, 4562087]

/-- The large prime factors of `q - 1`, each after those of its own predecessor. -/
def primeChain : List (Nat × Nat × List (Nat × Nat)) := [
    (173171039, 13, [(2, 1), (73, 1), (89, 1), (13327, 1)]),
    (405928799, 22, [(2, 1), (11, 1), (3691, 1), (4999, 1)]),
    (1263766531, 10, [(2, 1), (3, 1), (5, 1), (13, 1), (911, 1), (3557, 1)]),
    (11465965001, 3, [(2, 3), (5, 4), (7, 1), (327599, 1)]),
    (35385462869, 2, [(2, 2), (7, 1), (1263766531, 1)]),
    (2480874801745591, 6, [(2, 1), (3, 2), (5, 1), (19, 1), (41, 1), (35385462869, 1)]),
    (13427688667394608761327070753331941386769, 17,
      [(2, 4), (3, 1), (7, 1), (11, 1), (1853641, 1), (4562087, 1), (173171039, 1), (2480874801745591, 1)]),
    (q, 3,
      [(2, 1), (3, 2), (13, 1), (29, 1), (67, 1), (229, 1), (311, 1), (983, 1), (11003, 1), (405928799, 1),
       (11465965001, 1), (13427688667394608761327070753331941386769, 1)])
  ]

theorem prime_primeFactors : ∀ p ∈ primeFactors, Nat.Prime p := by
  unfold primeFactors
  norm_num

theorem prime_q : Nat.Prime q :=
  prime_of_prattChain prime_primeFactors (show prattChain primeFactors primeChain = true by decide +kernel) _
    (by simp [primeChain])

instance : Fact (Nat.Prime q) := ⟨prime_q⟩

/-- y² = x³ + 3. -/
def curve : ShortWeierstrass (ZMod q) where
  b := 3
  b_ne_zero := by decide +kernel
  two_ne_zero := by decide +kernel
  three_ne_zero := by decide +kernel

/-- The base field with a root u of -1. -/
abbrev ExtensionField : Type := QuadraticAlgebra (ZMod q) (-1) 0

instance : Fact (∀ x : ZMod q, x ^ 2 ≠ -1 + 0 * x) := by
  constructor
  intro x hx
  rw [zero_mul, add_zero] at hx
  exact ZMod.mod_four_ne_three_of_sq_eq_neg_one hx (by decide +kernel)

/-- y² = x³ + 3 / (9 + u). -/
def twist : ShortWeierstrass ExtensionField where
  b := ⟨19485874751759354771024239261021720505790618469301721065564631296452457478373,
    266929791119991161246907387137283842545076965332900288569378510910307636690⟩
  b_ne_zero := by decide +kernel
  two_ne_zero := by decide +kernel
  three_ne_zero := by decide +kernel

example : twist.b * ⟨9, 1⟩ = 3 := by decide +kernel

/-- The words of a point are below the modulus. -/
def curvePoint (x y : Nat) : Option curve.Point := if x < q ∧ y < q then curve.read x y else none

/-- The imaginary part comes first. -/
def twistPoint (x1 x2 y1 y2 : Nat) : Option twist.Point :=
  if x1 < q ∧ x2 < q ∧ y1 < q ∧ y2 < q then twist.read ⟨x2, x1⟩ ⟨y2, y1⟩ else none

theorem curvePoint_write (P : curve.Point)
    : curvePoint (curve.write P).1.val (curve.write P).2.val = some P := by
  unfold curvePoint
  rw [if_pos ⟨ZMod.val_lt _, ZMod.val_lt _⟩, ZMod.natCast_zmod_val, ZMod.natCast_zmod_val]
  exact ShortWeierstrass.read_write P

theorem curvePoint_neg {x y : Nat} {P : curve.Point} (h : curvePoint x y = some P)
    : curvePoint x ((q - y) % q) = some (-P) := by
  unfold curvePoint at h ⊢
  split at h
  next hlt =>
    rw [if_pos ⟨hlt.1, Nat.mod_lt _ (by decide +kernel)⟩, ZMod.natCast_mod, Nat.cast_sub hlt.2.le, ZMod.natCast_self,
      zero_sub]
    exact ShortWeierstrass.read_neg h
  next => contradiction

theorem some_getD {α : Type} {o : Option α} (h : o.isSome = true) (a : α) : o = some (o.getD a) := by
  obtain ⟨b, rfl⟩ := Option.isSome_iff_exists.mp h
  rfl

/-- The points of the contract's constants. -/
def curveKey : Groth16.VerifyingKey curve.Point twist.Point where
  alpha := (curvePoint alphax alphay).getD 0
  beta := (twistPoint betax1 betax2 betay1 betay2).getD 0
  gamma := (twistPoint gammax1 gammax2 gammay1 gammay2).getD 0
  delta := (twistPoint deltax1 deltax2 deltay1 deltay2).getD 0
  constant := (curvePoint IC0x IC0y).getD 0
  inputs := IC.map fun point => (curvePoint point.1 point.2).getD 0

section Pairing

open TensorProduct

variable (proof : Proof) (signals : List Nat)

/-- What has to vanish for the proof to hold. -/
noncomputable def relation : curve.Point ⊗[ℤ] twist.Point :=
  let A := (curvePoint proof.ax (readY proof.ay)).getD 0
  let B := (twistPoint proof.bx1 proof.bx2 proof.by1 proof.by2).getD 0
  let C := (curvePoint proof.cx proof.cy).getD 0
  A ⊗ₜ B - (curveKey.alpha ⊗ₜ curveKey.beta + curveKey.combine signals ⊗ₜ curveKey.gamma + C ⊗ₜ curveKey.delta)

/-- The values of the most general pairing under which the proof holds. -/
abbrev Target : Type := (curve.Point ⊗[ℤ] twist.Point) ⧸ AddSubgroup.zmultiples (relation proof signals)

noncomputable def pairing : curve.Point →+ twist.Point →+ Target proof signals :=
  AddMonoidHom.mk'
    (fun P => AddMonoidHom.mk' (fun Q => QuotientAddGroup.mk (P ⊗ₜ[ℤ] Q)) fun Q Q' => by
      rw [TensorProduct.tmul_add, QuotientAddGroup.mk_add])
    fun P P' => by
      ext Q
      show (QuotientAddGroup.mk ((P + P') ⊗ₜ[ℤ] Q) : Target proof signals) = _
      rw [TensorProduct.add_tmul, QuotientAddGroup.mk_add]
      rfl

/-- The words of a list in groups of six. -/
def termsOf : List Nat → Option (List (Nat × Nat × Nat × Nat × Nat × Nat))
  | [] => some []
  | x :: y :: x1 :: x2 :: y1 :: y2 :: rest => (termsOf rest).map ((x, y, x1, x2, y1, y2) :: ·)
  | _ => none

theorem termsOf_flatMap (terms : List (Nat × Nat × Nat × Nat × Nat × Nat))
    : termsOf (terms.flatMap termWords) = some terms := by
  induction terms with
  | nil => rfl
  | cons term terms ih => simp [termWords, termsOf, ih]

open Classical in
/-- The precompiled contracts for sums, multiples and pairings. -/
noncomputable def curvePrecompiles : Precompiles
  | 6, [x, y, x', y'] => do
    let P ← curvePoint x y
    let Q ← curvePoint x' y'
    some [(curve.write (P + Q)).1.val, (curve.write (P + Q)).2.val]
  | 7, [x, y, s] => do
    let P ← curvePoint x y
    some [(curve.write (s • P)).1.val, (curve.write (s • P)).2.val]
  | 8, words => do
    let terms ← termsOf words
    let points ← terms.mapM (decodeTerm curvePoint twistPoint)
    let sum : Target proof signals := (points.map fun (P, Q) => pairing proof signals P Q).sum
    some [if sum = 0 then 1 else 0]
  | _, _ => none

noncomputable def curveBn254
    : Bn254 (curvePrecompiles proof signals) curve.Point twist.Point (Target proof signals) where
  point₁ := curvePoint
  point₂ := twistPoint
  pairing := pairing proof signals
  negated := curvePoint_neg
  ecAdd := by
    intro x y x' y' P Q h h'
    exact ⟨_, _, by simp [curvePrecompiles, h, h'], curvePoint_write (P + Q)⟩
  ecMul := by
    intro x y P s h
    exact ⟨_, _, by simp [curvePrecompiles, h], curvePoint_write (s • P)⟩
  ecPairing := by
    intro terms
    simp only [curvePrecompiles, termsOf_flatMap, Option.bind_eq_bind, Option.bind_some]
    cases terms.mapM (decodeTerm curvePoint twistPoint) with
    | none => rfl
    | some points =>
      rw [Option.bind_some, Option.map_some]
      congr
  key := curveKey
  alpha := some_getD (by decide +kernel) 0
  beta := some_getD (by decide +kernel) 0
  gamma := some_getD (by decide +kernel) 0
  delta := some_getD (by decide +kernel) 0
  constant := some_getD (by decide +kernel) 0
  inputs := by
    have hpoints : ∀ point ∈ IC, (curvePoint point.1 point.2).isSome = true := by decide +kernel
    unfold curveKey
    rw [List.forall₂_map_right_iff, List.forall₂_same]
    exact fun point hpoint => some_getD (hpoints point hpoint) 0

variable {proof signals}

theorem proves_curve (hA : (curvePoint proof.ax (readY proof.ay)).isSome = true)
    (hB : (twistPoint proof.bx1 proof.bx2 proof.by1 proof.by2).isSome = true)
    (hC : (curvePoint proof.cx proof.cy).isSome = true) : Proves (curveBn254 proof signals) proof signals := by
  refine ⟨_, _, _, some_getD hA 0, some_getD hB 0, some_getD hC 0, ?_⟩
  have hzero : (QuotientAddGroup.mk (relation proof signals) : Target proof signals) = 0 :=
    (QuotientAddGroup.eq_zero_iff _).mpr (AddSubgroup.mem_zmultiples _)
  unfold relation at hzero
  rw [QuotientAddGroup.mk_sub, QuotientAddGroup.mk_add, QuotientAddGroup.mk_add, sub_eq_zero] at hzero
  exact hzero

end Pairing

section Example

/-- The first proof of the tests of `LongjingCredits`. -/
def honestProof : Proof where
  ax := 1707151390692622553828094826362130978177188139186149498540623471855248091124
  ay := 10657584607995923400810779344258360565228743378946777504483876191343133304803
  bx1 := 10745217743609775835982547291422872922940458772816676141809807030979941965150
  bx2 := 17213997548720497878734574048353476483437917787782597025150944858281105025066
  by1 := 13804938467697121615297134549075650241054774102367169327879599074261647932155
  by2 := 10468279602861494348483383192122213984045746054000204381715470417699464825287
  cx := 2956317274203938945773088662797230907976708824811400678709921276069574375500
  cy := 13151884963327163164047325787244145223119256100017131276627541984366585447012

def honestSignals : List Nat :=
  [
    7442761713728402710166651487992505036365420250613417999861328526266865669261,
    13383747275760227886502644737833483505404640222102689081438009242894743488888,
    9000000000000000,
    13377623690824916797327209540443066247715962236839283896963055328700043345550,
    10000000000000000,
    1000000000000000,
    14422859473778768188622151430526693594403470008420308922992775064941455773685,
    7592518773672929099542717438998516546396504563265155469693554058278098107299,
    642829559307850963015472508762062935916233390536,
    20997527062573859726131831967821208329242616340505164902208548341151925462771
  ]

theorem proves_honestProof (signals : List Nat) : Proves (curveBn254 honestProof signals) honestProof signals :=
  proves_curve (by decide +kernel) (by decide +kernel) (by decide +kernel)

/-- The proof of the tests is accepted, and so is a second one with other words. -/
theorem verifySettlementProof_groth16_honest
    : ∃ ay, ay ≠ honestProof.ay
      ∧ verifySettlementProof (curvePrecompiles honestProof honestSignals)
          [honestProof.ax, honestProof.ay, honestProof.bx1, honestProof.bx2, honestProof.by1, honestProof.by2,
            honestProof.cx, honestProof.cy] honestSignals = true
      ∧ verifySettlementProof (curvePrecompiles honestProof honestSignals)
          [honestProof.ax, ay, honestProof.bx1, honestProof.bx2, honestProof.by1, honestProof.by2, honestProof.cx,
            honestProof.cy] honestSignals = true := by
  obtain ⟨haccepts, halias⟩ := verifySettlementProof_groth16 (curveBn254 honestProof honestSignals) honestProof
    honestSignals
  have haccepted := haccepts.mpr ⟨rfl, by decide +kernel, proves_honestProof honestSignals⟩
  obtain ⟨-, ay, hne, -, hsame⟩ := halias (by decide +kernel)
  exact ⟨ay, hne, haccepted, hsame.trans haccepted⟩

end Example

end SettlementVerifier
end Credits
end Longjing
