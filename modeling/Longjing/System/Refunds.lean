import Longjing.Client.Signals
import Longjing.System.Delivery

/-!
The refunds of a note against the requests it made: what an exit can pay at most.
-/

namespace Longjing
namespace System

open Accumulator
open Circuit (Circomlib RequestInputs)
open Credits (Deployment TREE_DEPTH)
open Server (LongjingRequestDto)

/-- Every accumulator that was signed opens to refunds of C_MAX at most per request, an exit under the
refund key pays what is left of the deposit and never more than the deposit, and the contract refuses none
for its payout. -/
theorem run_refund_bound (d : Deployment) (cfg : Server.Config) (lib : Circomlib)
    (rows : Js.Map String Server.StoredSignal) (actions : List Action)
    (witness : LongjingRequestDto → RequestInputs TREE_DEPTH)
    (hideal : Idealized cfg lib d.cMax witness (State.run d cfg rows actions).server.events)
    : (∀ req a refund, .signed req a refund ∈ (State.run d cfg rows actions).server.events →
        ∃ opening : Opening, opening = (witness req).successor cfg.poseidon refund ∧ a = commit opening
          ∧ 0 ≤ opening.refunds ∧ opening.refunds ≤ opening.index * d.cMax)
      ∧ (∀ i o, Circuit.Settlement cfg.poseidon lib i o → i.serverPublicKey = serverPublicKey cfg →
          Genuine cfg lib witness (State.run d cfg rows actions).server.events i.accumulator i.commitment →
          (i.maxCost.val = d.cMax →
            (o.payout.val : Int) = i.deposit.val + i.accumulator.refunds.val - i.claimedIndex.val * d.cMax
              ∧ o.payout.val ≤ i.deposit.val)
          ∧ ∀ (env : Credits.Env) (args : Credits.WithdrawalArgs) (s : Credits.State),
              i.publicSignals o = Credits.settlementSignals d args.commitment args.recipient args.refundKey
                args.nullifier args.signalY args.payout (s.notes args.commitment).amount →
              Credits.exec d env (.initiateWithdrawal args) s ≠ .error .payoutExceedsDeposit)
      ∧ ∀ c, ((State.run d cfg rows actions).chain.state.notes c).status = .exiting →
          Credits.checkedSub ((State.run d cfg rows actions).chain.state.notes c).amount
              ((State.run d cfg rows actions).chain.state.exits c).payout
            = .ok (((State.run d cfg rows actions).chain.state.notes c).amount
              - ((State.run d cfg rows actions).chain.state.exits c).payout) := by
  have hissued : (State.run d cfg rows actions).server.Issued cfg d.cMax :=
    State.run_server (Server.State.Issued.init cfg d.cMax rows) (fun _ _ h ha => h.step ha) actions
  have haccounted := accounted hissued hideal
  refine ⟨?_, ?_, ?_⟩
  -- what was signed
  . intro req a refund hmem
    obtain ⟨hopens, hle⟩ := haccounted _ hmem
    exact ⟨_, rfl, hopens, Int.natCast_nonneg (_ + refund), hle⟩
  -- what an exit pays
  . intro i o hsettlement hkey hgenuine
    refine ⟨fun hcMax => payout_le hsettlement hkey hcMax hgenuine haccounted, ?_⟩
    intro env args s hsignals hexec
    simp only [Circuit.SettlementInputs.publicSignals, Credits.settlementSignals, List.cons.injEq] at hsignals
    obtain ⟨-, -, hpayout, -, hdeposit, hcMax, -⟩ := hsignals
    obtain ⟨-, hle⟩ := payout_le hsettlement hkey hcMax hgenuine haccounted
    have hlt := Credits.exec_payoutExceedsDeposit hexec
    omega
  -- what `finalizeWithdrawal` subtracts
  . intro c hexiting
    obtain ⟨chain, hchain⟩ := @State.reachable_run cfg d rows actions
    have haccount := (Credits.Machine.run_invariant (Credits.Accounting.invariant d) chain).1.account c
    rw [← hchain] at haccount
    unfold Credits.Account at haccount
    rw [hexiting] at haccount
    exact Credits.checkedSub_eq_ok.mpr ⟨haccount.2, rfl⟩

section Example

open Client (NoteFile accumulatorInputs commitmentOf exitReads newNote signatureRefunded signedDeployment
  signedKey signedPoseidon signedTools)

variable {req : LongjingRequestDto} {i : RequestInputs TREE_DEPTH}

/-- The first request of the note is answered at a cost of 0.0006 ETH. -/
def answeredActions (req : LongjingRequestDto) : List Action :=
  firstActions req
    ++ [.server (.resume 0 (.provider (some "hello"))), .server (.resume 0 (.cost (some 600000000000000))),
      .server (.resume 0 (.signed true))]

theorem FirstRequest.events_answered (h : FirstRequest req i)
    : (State.run signedDeployment signedConfig [] (answeredActions req)).server.events
      = [.accepted req, .provider req,
          .signed req (commit (i.successor signedPoseidon 400000000000000)) 400000000000000] := by
  have hsplit : answeredActions req
      = firstActions req ++ [.server (.resume 0 (.provider (some "hello")))]
        ++ [.server (.resume 0 (.cost (some 600000000000000)))] ++ [.server (.resume 0 (.signed true))] := by
    simp [answeredActions]
  have hrefund : Server.refundOf signedDeployment.cMax 600000000000000 = 400000000000000 := by decide
  rw [hsplit, State.run_concat, State.run_concat, State.run_concat, h.run, ← Circuit.applyRefund_outputs]
  simp only [State.step, groundAction, groundAnswer, Server.State.step, List.getElem?_cons_zero,
    List.set_cons_zero, Server.resume, Server.afterCalling, Server.afterCosting, Server.afterSigning, if_true,
    hrefund, List.append_nil]
  rfl

/-- The note after that answer. -/
def refundedNote : NoteFile :=
  { newNote (2 : Nat) with
    opening := ⟨400000000000000, 1, 5⟩
    signature := some signatureRefunded
    signedBy := some signedKey }

theorem refundedNote_sound : refundedNote.Sound signedTools where
  refunds := by decide
  index := by decide
  blinding := by decide
  genesis h := by cases h
  signed signature h := by
    obtain rfl := Option.some.inj h
    have hpoint : refundedNote.accumulator signedTools
        = (((1996500503987190766265382112634496879291645537045295026863382925097569323829 : Nat) : Int),
            ((3179602718120349596859708870164273830080087280145286996479396566212626942062 : Nat) : Int)) := by
      have hcommitment := @Client.commitmentOf_signed refundedNote (by decide +kernel)
      unfold NoteFile.accumulator
      have hcoords := @coords_accumulatorPoint 400000000000000 1
        8645981980787649023086883978738420856660271013038108762834452721572614684349 5
        (1996500503987190766265382112634496879291645537045295026863382925097569323829,
          3179602718120349596859708870164273830080087280145286996479396566212626942062) (by decide +kernel)
      rw [hcommitment, commit_eq, ← hcoords]
      rfl
    have hmessage : signedTools.poseidon.sig2
        (((1996500503987190766265382112634496879291645537045295026863382925097569323829 : Nat) : Int) : F)
        (((3179602718120349596859708870164273830080087280145286996479396566212626942062 : Nat) : Int) : F)
        = (747917616976253041761072204145215448163683526389281130705037995882091371475 : F) := by
      rw [Int.cast_natCast, Int.cast_natCast, Poseidon.sig2_cast]
      show ((signedPoseidon.hash2 _ _ : Nat) : F) = _
      decide +kernel
    have hverify : Client.verifySigned
        (747917616976253041761072204145215448163683526389281130705037995882091371475 : F)
        ((signatureRefunded.R8x : F), (signatureRefunded.R8y : F)) (signatureRefunded.S : F)
        (Client.keySignals signedKey) = true :=
      decide_eq_true ⟨rfl, (_, signatureRefunded), by simp [Client.signatures], rfl, rfl, rfl⟩
    refine ⟨signedKey, rfl, ?_⟩
    rw [hpoint, hmessage]
    unfold Client.verifyPoseidon
    rw [Bool.and_eq_true, Bool.and_eq_true]
    exact ⟨⟨by decide, by decide⟩, hverify⟩

noncomputable def refundedExit : Circuit.SettlementInputs :=
  Client.settlementInputs signedTools refundedNote 2009 1 1000000000000000000 exitReads

theorem refundedExit_satisfied
    : Circuit.Settlement signedPoseidon signedTools.circomlib refundedExit (refundedExit.outputs signedPoseidon)
      ∧ (refundedExit.outputs signedPoseidon).payout.val = 999400000000000000 := by
  have hprovable := refundedNote_sound.provable refundKey_signedKey (by rintro key ⟨rfl⟩; rfl) (by decide) (by decide)
  have hvalues : (accumulatorInputs refundedNote).index.val = 1
      ∧ (accumulatorInputs refundedNote).refunds.val = 400000000000000 ∧ ((1 : Int) : F).val = 1 := by
    decide +kernel
  obtain ⟨hindex, hrefunds, hone⟩ := hvalues
  have hcMax : exitReads.cMax = 1000000000000000 := rfl
  obtain ⟨hsettlement, hpayout⟩ := @Client.settlement_satisfied signedTools refundedNote exitReads 2009
    1000000000000000000 1 Client.onCurve_signedKey hprovable (by decide) (by decide) (by rw [hindex, hone])
    (by rw [hone]; decide) (by rw [hone, hrefunds, hcMax]; decide)
  refine ⟨hsettlement, ?_⟩
  rw [hone, hrefunds, hcMax] at hpayout
  exact Nat.add_right_cancel hpayout

theorem FirstRequest.opening_refunded (h : FirstRequest req i)
    : refundedExit.accumulator.opening refundedExit.commitment = i.successor signedPoseidon 400000000000000 := by
  unfold RequestInputs.successor
  rw [h.accumulator, h.secretKey, h.rerandomizer]
  decide +kernel

theorem FirstRequest.genuine_refunded (h : FirstRequest req i)
    : Genuine signedConfig signedTools.circomlib (fun _ => i)
        (State.run signedDeployment signedConfig [] (answeredActions req)).server.events
        refundedExit.accumulator refundedExit.commitment := by
  have hpoint : coords (refundedExit.accumulator.point refundedExit.commitment)
      = commit (i.successor signedPoseidon 400000000000000) := by
    rw [← Circuit.AccumulatorSignals.commit_opening, h.opening_refunded]
  rw [h.events_answered]
  refine ⟨fun _ _ => ⟨req, commit (i.successor signedPoseidon 400000000000000), 400000000000000, by simp, ?_⟩, ?_, ?_⟩
  . rw [← hpoint]
    exact Circuit.messageOf_coords _ _
  . intro req' b refund hmem _
    obtain ⟨-, rfl, -⟩ : req' = req ∧ b = commit (i.successor signedPoseidon 400000000000000)
        ∧ refund = 400000000000000 := by simpa using hmem
    exact hpoint.symm
  . intro req' b refund hmem _
    obtain ⟨-, -, rfl⟩ : req' = req ∧ b = commit (i.successor signedPoseidon 400000000000000)
        ∧ refund = 400000000000000 := by simpa using hmem
    rw [h.opening_refunded]
    exact ⟨rfl, rfl, rfl⟩

/-- One request, answered at a cost of 0.0006 ETH, and the exit after it. -/
theorem run_refund_bound_first
    : ∃ req a, .signed req a 400000000000000
          ∈ (State.run signedDeployment signedConfig [] (answeredActions req)).server.events
        ∧ (∃ opening : Opening, a = commit opening ∧ opening.refunds ≤ opening.index * signedDeployment.cMax)
        ∧ ((refundedExit.outputs signedPoseidon).payout.val : Int)
          = 1000000000000000000 + 400000000000000 - 1 * 1000000000000000 := by
  obtain ⟨req, i, h⟩ := exists_firstRequest
  obtain ⟨hsigned, hexits, -⟩ := run_refund_bound signedDeployment signedConfig signedTools.circomlib []
    (answeredActions req) (fun _ => i) (by rw [h.events_answered]; exact h.idealized (by simp))
  have hmem : .signed req (commit (i.successor signedPoseidon 400000000000000)) 400000000000000
      ∈ (State.run signedDeployment signedConfig [] (answeredActions req)).server.events := by
    rw [h.events_answered]
    simp
  obtain ⟨opening, -, hopens, -, hle⟩ := hsigned _ _ _ hmem
  obtain ⟨hpayout, -⟩ := hexits refundedExit _ refundedExit_satisfied.1 (by decide +kernel) h.genuine_refunded
  refine ⟨req, _, hmem, ⟨opening, hopens, hle⟩, ?_⟩
  rw [(hpayout (by decide +kernel)).1]
  decide +kernel

end Example

end System
end Longjing
