import Longjing.System.Exchange

/-!
The circuits and `accumulator.ts` in lock step: the templates compute what `commit` and `rerandomize` do,
and along every honest run the folded opening is the one that the next request needs.
-/

namespace Longjing
namespace Circuit

open Accumulator

theorem ofSignals_injective {p q : F × F} (h : ofSignals p = ofSignals q) : p = q := by
  obtain ⟨hx, hy⟩ := Prod.mk.inj h
  exact Prod.ext (ZMod.val_injective _ (Int.ofNat.inj hx)) (ZMod.val_injective _ (Int.ofNat.inj hy))

/-- The template computes `commit`, on everything in its ranges. -/
theorem accumulatorCommitment_iff_commit (lib : Circomlib) {refunds index : Nat} (hrefunds : refunds < 2 ^ 128)
    (hindex : index < 2 ^ 32) (commitment blinding : F) (out : F × F)
    : AccumulatorCommitment lib (refunds : F) (index : F) commitment blinding out ↔
      ofSignals out = commit ⟨refunds, index, commitment.val, blinding.val⟩ := by
  have hrefundsVal : (refunds : F).val = refunds :=
    F.val_cast_of_lt (Nat.lt_of_lt_of_le hrefunds (two_pow_le (by decide)))
  have hindexVal : (index : F).val = index :=
    F.val_cast_of_lt (Nat.lt_of_lt_of_le hindex (two_pow_le (by decide)))
  rw [accumulatorCommitment_iff, hrefundsVal, hindexVal, commit_eq, ← ofSignals_val]
  simp only [Int.toNat_natCast]
  constructor
  . rintro ⟨-, -, rfl⟩
    rfl
  . intro h
    exact ⟨hrefunds, hindex, ofSignals_injective h⟩

/-- The template computes `rerandomize`, on every accumulator. -/
theorem rerandomize_iff_rerandomize (lib : Circomlib) (opening : Opening) {input : F × F}
    (hinput : ofSignals input = commit opening) (blinding : F) (out : F × F)
    : Rerandomize lib input blinding out ↔
      ofSignals out = Accumulator.rerandomize (commit opening) blinding.val := by
  rw [commit_eq, ← ofSignals_val] at hinput
  rw [ofSignals_injective hinput, rerandomize_iff, commit_eq, rerandomize_coords, ← ofSignals_val,
    Int.toNat_natCast]
  constructor
  . rintro rfl
    rfl
  . exact ofSignals_injective

end Circuit

namespace System

open Accumulator
open Circuit (ZeroPreimage ofSignals)
open Client (NoteFile RefundKey RequestReads Tools keySignals)
open Credits (Deployment EdDSAPublicKey TREE_DEPTH getMerkleProof)
open Server (RequestBody parseFieldElement)

/-- The templates compute what `accumulator.ts` does, and along every honest run under one key the next
request goes through, in every state of the contract that has the note active. -/
theorem run_accumulators_agree (d : Deployment) (cfg : Server.Config) (tools : Tools)
    (rows : Js.Map String Server.StoredSignal) (secretKey : F) (commands : List Command)
    (hposeidon : tools.poseidon = d.poseidon) (hkey : RefundKey tools d.serverPublicKey)
    (hrun : HonestRun d cfg tools (· = d.serverPublicKey) rows secretKey commands)
    (note : NoteFile) (hnote : note = (Session.run d cfg tools rows secretKey commands).note)
    : (∀ refunds index : Nat, refunds < 2 ^ 128 → index < 2 ^ 32 → ∀ commitment blinding rerandomizer : F,
        ∀ out, (Circuit.AccumulatorCommitment tools.circomlib (refunds : F) (index : F) commitment blinding out ↔
            ofSignals out = commit ⟨refunds, index, commitment.val, blinding.val⟩)
          ∧ (ofSignals out = commit ⟨refunds, index, commitment.val, blinding.val⟩ →
            ∀ out', Circuit.Rerandomize tools.circomlib out rerandomizer out' ↔
              ofSignals out' = rerandomize (commit ⟨refunds, index, commitment.val, blinding.val⟩)
                rerandomizer.val))
      ∧ ∀ (actions : List Credits.Action) (s : Credits.State), s = (Credits.run d actions).state →
          s.serverPublicKey = d.serverPublicKey → note.pending = none →
          (s.notes (Client.commitmentOf tools note)).status = .active →
          note.opening.refunds < 2 ^ 128 → note.opening.index < 2 ^ 32 →
          (note.opening.index + 1) * d.cMax
            ≤ (s.notes (Client.commitmentOf tools note)).amount + note.opening.refunds →
          ZeroPreimage d actions []
            ∨ ∃ path, getMerkleProof s (s.notes (Client.commitmentOf tools note)).leafIndex = .ok path
              ∧ ∀ (payload : String) (model : Option String) (nonce rerandomizer : Nat),
                  rerandomizer < FIELD_MODULUS →
                  ∃ inputs body, InStep tools note
                    ⟨s.notes (Client.commitmentOf tools note), path, s.merkleRoot, d.cMax, s.serverPublicKey⟩
                    payload model nonce rerandomizer inputs body := by
  constructor
  . intro refunds index hrefunds hindex commitment blinding rerandomizer out
    exact ⟨Circuit.accumulatorCommitment_iff_commit _ hrefunds hindex commitment blinding out,
      fun hout out' => Circuit.rerandomize_iff_rerandomize _ _ hout rerandomizer out'⟩
  . intro actions s hs hunrotated hpending hactive hrefunds hindex hsolvent
    by_cases hzero : ZeroPreimage d actions []
    . exact Or.inl hzero
    -- the file is sound along the run, and the contract keeps the tree over its leaves
    . have hbooks := Session.books_run hrun
      have hsound : note.Sound tools := hnote ▸ hbooks.sound
      have hsignedBy : ∀ key, note.signedBy = some key → key = d.serverPublicKey :=
        fun key hsigned => (hbooks.signedBy key (hnote ▸ hsigned)).1
      obtain ⟨hleaves, htree⟩ := Circuit.run_tree hzero (List.prefix_refl _)
      have hdeposited := (Credits.Machine.run_invariant (Credits.Deposited.invariant d) actions).1
      rw [← hs] at hleaves htree hdeposited
      obtain ⟨path, hpath, -⟩ := Circuit.climb_getMerkleProof hleaves htree
        (hleaves.index_lt (Client.commitmentOf tools note) (by simp [hactive]))
      refine Or.inr ⟨path, hpath, ?_⟩
      intro payload model nonce rerandomizer hrerandomizer
      exact inStep_of_sound hposeidon (hunrotated ▸ hkey) hsound
        (fun key hsigned => (hsignedBy key hsigned).trans hunrotated.symm) hpending hleaves htree
        hdeposited hactive hpath hrefunds hindex hsolvent payload model nonce rerandomizer hrerandomizer

section Example

open Client (noteDeposit signedDeployment signedKey)

/-- Another note is deposited after the first exchange, and the owner goes on under the root after it. -/
theorem run_accumulators_agree_answered
    : ∃ commands, (Session.run signedDeployment exchangeConfig exchangeTools [] 2 commands).note.opening.index = 1
        ∧ (Session.run signedDeployment exchangeConfig exchangeTools [] 2 commands).note.opening.refunds
          = 400000000000000
        ∧ ∃ path inputs body,
          getMerkleProof (Credits.run signedDeployment [noteDeposit, otherDeposit 0]).state 0 = .ok path
            ∧ InStep exchangeTools (Session.run signedDeployment exchangeConfig exchangeTools [] 2 commands).note
              ⟨⟨1000000000000000000, 1700000000, 0, .active⟩, path,
                (Credits.run signedDeployment [noteDeposit, otherDeposit 0]).state.merkleRoot,
                signedDeployment.cMax, signedKey⟩
              "hi" none 8 6 inputs body := by
  obtain ⟨commands, hrun, hready, -, hindex, hrefunds⟩ := exists_answered
  obtain ⟨hnote, hkey⟩ : (Credits.run signedDeployment [noteDeposit, otherDeposit 0]).state.notes
        8645981980787649023086883978738420856660271013038108762834452721572614684349
        = ⟨1000000000000000000, 1700000000, 0, .active⟩
      ∧ (Credits.run signedDeployment [noteDeposit, otherDeposit 0]).state.serverPublicKey = signedKey := by
    decide +kernel
  rw [← commitmentOf_exchange commands] at hnote
  obtain ⟨-, hrequests⟩ := run_accumulators_agree signedDeployment exchangeConfig exchangeTools [] 2 commands rfl
    partners_exchange.refundKey hrun _ rfl
  rcases hrequests [noteDeposit, otherDeposit 0] _ rfl hkey hready.pending (by rw [hnote])
    (by rw [hrefunds]; decide) (by rw [hindex]; decide) (by rw [hindex, hrefunds, hnote]; decide)
    with hpreimage | ⟨path, hpath, hnext⟩
  . exact absurd hpreimage (not_zeroPreimage_signed _)
  . obtain ⟨inputs, body, hstep⟩ := hnext "hi" none 8 6 (by decide)
    rw [hnote] at hpath hstep
    rw [hkey] at hstep
    exact ⟨commands, hindex, hrefunds, path, inputs, body, hpath, hstep⟩

end Example

end System
end Longjing
