import Longjing.Accumulator.Homomorphism
import Longjing.Client.Prove

/-!
What the file of an honest owner holds: an opening of the genesis accumulator, or of the one whose
signature is kept next to it. The circuits take such an opening as long as it is in their ranges.
-/

namespace Longjing
namespace Client

open Accumulator
open Credits (EdDSAPublicKey)

/-- A refund key on the curve for which the verifier of the circuits accepts what `verifyPoseidon` does. -/
structure RefundKey (tools : Tools) (key : EdDSAPublicKey) : Prop where
  x_lt : key.x < FIELD_MODULUS
  y_lt : key.y < FIELD_MODULUS
  onCurve : Edwards.OnCurve babyJubjub (keySignals key)
  complete : ∀ R8 S M, tools.circomlib.verifyPoseidon M R8 S (keySignals key) = true →
    tools.circomlib.EdDSAPoseidonVerifier 1 (keySignals key) R8 S M

def NoteFile.accumulator (tools : Tools) (note : NoteFile) : Point :=
  commit (openingOf note (commitmentOf tools note))

structure NoteFile.Sound (tools : Tools) (note : NoteFile) : Prop where
  refunds : 0 ≤ note.opening.refunds
  index : 0 ≤ note.opening.index
  blinding : 0 ≤ note.opening.blinding ∧ note.opening.blinding < SUBGROUP_ORDER
  genesis : note.signature = none → note.opening = ⟨0, 0, 0⟩ ∧ note.signedBy = none
  signed : ∀ signature, note.signature = some signature → ∃ key, note.signedBy = some key
    ∧ verifyPoseidon tools
        (tools.poseidon.sig2 ((note.accumulator tools).1 : F) ((note.accumulator tools).2 : F))
        signature (keySignals key) = true

variable {tools : Tools} {note : NoteFile}

theorem accumulator_foldResponse (hrefunds : 0 ≤ note.opening.refunds) (hindex : 0 ≤ note.opening.index)
    (hblinding : 0 ≤ note.opening.blinding) (key : EdDSAPublicKey) (rerandomizer : Nat) {refund : Int}
    (hrefund : 0 ≤ refund) (signature : Signature)
    : (foldResponse note key rerandomizer refund signature).accumulator tools
      = expectedAccumulator tools note rerandomizer refund := by
  have hcommitment : commitmentOf tools (foldResponse note key rerandomizer refund signature)
      = commitmentOf tools note := rfl
  unfold NoteFile.accumulator
  rw [hcommitment]
  unfold expectedAccumulator openingOf foldResponse
  rw [commit_mod_blinding (Int.add_nonneg hblinding (Int.natCast_nonneg _)),
    applyRefund_rerandomize_commit hrefunds hindex hblinding (Int.natCast_nonneg _) hrefund]

namespace NoteFile.Sound

theorem new (tools : Tools) (secretKey : F) : (newNote secretKey).Sound tools where
  refunds := Int.le_refl 0
  index := Int.le_refl 0
  blinding := ⟨Int.le_refl 0, by simp only [newNote]; decide⟩
  genesis _ := ⟨rfl, rfl⟩
  signed signature h := by simp [newNote] at h

theorem withPending (h : note.Sound tools) (pending : Option Pending)
    : NoteFile.Sound tools { note with pending := pending } :=
  ⟨h.refunds, h.index, h.blinding, h.genesis, h.signed⟩

theorem receive (h : note.Sound tools) {note' : NoteFile} {response : RequestResponse}
    {key : EdDSAPublicKey} (hreceive : Client.receive tools note response key = some note')
    (hrefund : ∀ refund, response.refund = some refund → 0 ≤ refund) : note'.Sound tools := by
  obtain ⟨pending, refund, signature, -, hresponse, -, -, -, -, -, hverify, rfl⟩ :=
    receive_eq_some.mp hreceive
  have hnonneg := hrefund refund hresponse
  have hsum : 0 ≤ note.opening.blinding + pending.rerandomizer :=
    Int.add_nonneg h.blinding.1 (Int.natCast_nonneg _)
  refine ⟨?_, ?_, ?_, ?_, ?_⟩
  . exact Int.add_nonneg h.refunds hnonneg
  . exact Int.add_nonneg h.index (by decide)
  . exact ⟨Int.tmod_nonneg _ hsum, Int.tmod_lt_of_pos _ (by decide)⟩
  . intro hnone
    simp [foldResponse] at hnone
  . intro signature' hsome
    obtain rfl := Option.some.inj hsome
    rw [accumulator_foldResponse h.refunds h.index h.blinding.1 key pending.rerandomizer hnonneg]
    exact ⟨key, rfl, hverify⟩

theorem signals (h : note.Sound tools) (hrefunds : note.opening.refunds < FIELD_MODULUS)
    (hindex : note.opening.index < FIELD_MODULUS)
    : (accumulatorInputs note).refunds.val = note.opening.refunds.toNat
      ∧ (accumulatorInputs note).index.val = note.opening.index.toNat
      ∧ (accumulatorInputs note).blinding.val = note.opening.blinding.toNat := by
  have horder : SUBGROUP_ORDER < FIELD_MODULUS := by decide
  have hval {n : Int} (hn : 0 ≤ n) (hlt : n < FIELD_MODULUS) : (n : F).val = n.toNat := by
    have := eq_val_cast hn hlt
    omega
  have hblinding := h.blinding
  exact ⟨hval h.refunds hrefunds, hval h.index hindex, hval hblinding.1 (by omega)⟩

theorem point (h : note.Sound tools) (hrefunds : note.opening.refunds < FIELD_MODULUS)
    (hindex : note.opening.index < FIELD_MODULUS)
    : coords ((accumulatorInputs note).point (commitmentOf tools note : F)) = note.accumulator tools := by
  obtain ⟨hr, hi, hb⟩ := h.signals hrefunds hindex
  unfold Circuit.AccumulatorSignals.point NoteFile.accumulator openingOf
  rw [commit_eq, hr, hi, hb, commitment_val, Int.toNat_natCast]

/-- What a sound file opens passes the circuits under the key that signed it, and under any key before the
first signature. -/
theorem provable (h : note.Sound tools) {key : EdDSAPublicKey} (hkey : RefundKey tools key)
    (hsignedBy : ∀ key', note.signedBy = some key' → key' = key)
    (hrefunds : note.opening.refunds < 2 ^ 128) (hindex : note.opening.index < 2 ^ 32)
    : Provable tools note key := by
  have hmodulus : 2 ^ 128 < FIELD_MODULUS := by decide
  have hrange : note.opening.refunds < FIELD_MODULUS ∧ note.opening.index < FIELD_MODULUS := by omega
  obtain ⟨hr, hi, -⟩ := h.signals hrange.1 hrange.2
  have hnonneg := h.refunds
  have hpos := h.index
  refine ⟨by omega, by omega, ?_⟩
  cases hsignature : note.signature with
  | none =>
    obtain ⟨hopening, -⟩ := h.genesis hsignature
    obtain ⟨hgenesis, -⟩ := accumulatorInputs_genesis hsignature
    exact Or.inr ⟨hgenesis, by simp [accumulatorInputs, hopening]⟩
  | some signature =>
    obtain ⟨key', hsigned, hverify⟩ := h.signed signature hsignature
    obtain rfl := hsignedBy key' hsigned
    obtain ⟨hzero, hR8x, hR8y, hS⟩ := accumulatorInputs_signed hsignature
    refine Or.inl ⟨hzero, ?_⟩
    unfold Circuit.AccumulatorSignals.verifies Circuit.messageOf
    rw [← toF_coords, h.point hrange.1 hrange.2, hR8x, hR8y, hS]
    apply hkey.complete
    simp only [verifyPoseidon, Bool.and_eq_true] at hverify
    exact hverify.2

end NoteFile.Sound

end Client
end Longjing
