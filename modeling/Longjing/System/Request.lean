import Longjing.Client.Sound
import Longjing.Circuit.Membership
import Longjing.Server.Readers

/-!
The request that an owner proves next: a sound file whose note is active and covered has one, and its parts are
what the server reads of the body.
-/

namespace Longjing
namespace Circuit

open Accumulator

/-- A pair of signals as `accumulator.ts` holds it. -/
def ofSignals (p : F × F) : Point := ((p.1.val : Int), (p.2.val : Int))

theorem ofSignals_val (P : Jubjub) : ofSignals P.val = coords P := rfl

end Circuit

namespace System

open Accumulator
open Circuit (ofSignals)
open Client (NoteFile RefundKey RequestReads Tools)
open Credits (Deployment EdDSAPublicKey TREE_DEPTH getMerkleProof)
open Server (RequestBody parseFieldElement)

/-- The request that `proveRequest` builds next: its inputs have one output each, which is what the server
reads of the body, and its accumulator is the one that the server and the client go on with. -/
structure InStep (tools : Tools) (note : NoteFile) (reads : RequestReads) (payload : String)
    (model : Option String) (nonce rerandomizer : Nat) (inputs : Circuit.RequestInputs TREE_DEPTH)
    (body : RequestBody) : Prop where
  inputs_eq : Client.requestInputs note reads rerandomizer (Client.payloadSignalX tools payload nonce)
    = some inputs
  satisfied : ∀ o, Circuit.Request tools.poseidon tools.circomlib inputs o ↔ o = inputs.outputs tools.poseidon
  proved : Client.proveRequest tools note payload model reads nonce rerandomizer
    = some (body, { note with pending := some ⟨rerandomizer, body⟩ })
  nullifier : parseFieldElement body.nullifier = some ((inputs.outputs tools.poseidon).nullifier.val : Int)
  signalY : parseFieldElement body.signal.y = some ((inputs.outputs tools.poseidon).signalY.val : Int)
  accumulatorX : parseFieldElement body.accumulator.x
    = some (ofSignals (inputs.outputs tools.poseidon).accumulator).1
  accumulatorY : parseFieldElement body.accumulator.y
    = some (ofSignals (inputs.outputs tools.poseidon).accumulator).2
  published : ofSignals (inputs.outputs tools.poseidon).accumulator
    = rerandomize (note.accumulator tools) rerandomizer
  folded : ∀ (key : EdDSAPublicKey) (refund : Nat) (signature : Client.Signature),
    applyRefund (ofSignals (inputs.outputs tools.poseidon).accumulator) refund
      = (Client.foldResponse note key rerandomizer refund signature).accumulator tools

variable {d : Deployment} {cfg : Server.Config} {tools : Tools}

theorem published_eq {note : NoteFile} (hsound : note.Sound tools)
    (hrefunds : note.opening.refunds < 2 ^ 128) (hindex : note.opening.index < 2 ^ 32)
    {inputs : Circuit.RequestInputs TREE_DEPTH} {rerandomizer : Nat} (hrerandomizer : rerandomizer < FIELD_MODULUS)
    (hsecretKey : inputs.secretKey = (note.secretKey : F))
    (haccumulator : inputs.accumulator = Client.accumulatorInputs note)
    (hblinding : inputs.rerandomizer = (rerandomizer : F))
    : ofSignals (inputs.outputs tools.poseidon).accumulator
      = rerandomize (note.accumulator tools) rerandomizer := by
  have hmodulus : 2 ^ 128 < FIELD_MODULUS := by decide
  have hpoint := hsound.point (by omega) (by omega)
  simp only [Circuit.RequestInputs.outputs, Circuit.RequestInputs.accumulatorPoint]
  rw [Circuit.ofSignals_val, hsecretKey, haccumulator, hblinding, Client.commitment_signal,
    F.val_cast_of_lt hrerandomizer, ← hpoint, rerandomize_coords, Int.toNat_natCast]

/-- A sound file of an owner whose note is active in a state of the contract, and whose opening covers one
more request. -/
theorem inStep_of_sound {note : NoteFile} {s : Credits.State} {path : List (Nat × Nat)}
    (hposeidon : tools.poseidon = d.poseidon) (hkey : RefundKey tools s.serverPublicKey)
    (hsound : note.Sound tools) (hsignedBy : ∀ key, note.signedBy = some key → key = s.serverPublicKey)
    (hpending : note.pending = none) (hleaves : Credits.Leaves d s) (htree : Credits.Tree d s)
    (hdeposited : Credits.Deposited d s)
    (hactive : (s.notes (Client.commitmentOf tools note)).status = .active)
    (hpath : getMerkleProof s (s.notes (Client.commitmentOf tools note)).leafIndex = .ok path)
    (hrefunds : note.opening.refunds < 2 ^ 128) (hindex : note.opening.index < 2 ^ 32)
    (hsolvent : (note.opening.index + 1) * d.cMax
      ≤ (s.notes (Client.commitmentOf tools note)).amount + note.opening.refunds)
    (payload : String) (model : Option String) (nonce rerandomizer : Nat)
    (hrerandomizer : rerandomizer < FIELD_MODULUS)
    : ∃ inputs body, InStep tools note
        ⟨s.notes (Client.commitmentOf tools note), path, s.merkleRoot, d.cMax, s.serverPublicKey⟩ payload model
        nonce rerandomizer inputs body := by
  have hmodulus : 2 ^ 128 < FIELD_MODULUS := by decide
  have hnonneg := hsound.refunds
  have hpos := hsound.index
  obtain ⟨hrefundsVal, hindexVal, -⟩ := hsound.signals (by omega) (by omega)
  have hcovers : ((Client.accumulatorInputs note).index.val + 1) * d.cMax
      ≤ (s.notes (Client.commitmentOf tools note)).amount + (Client.accumulatorInputs note).refunds.val := by
    rw [hrefundsVal, hindexVal, ← Int.ofNat_le]
    push_cast
    rw [Int.toNat_of_nonneg hnonneg, Int.toNat_of_nonneg hpos]
    exact hsolvent
  -- the inputs that the client builds are a witness
  obtain ⟨inputs, hinputs, hrequest, hsecretKey, haccumulator, hblinding, -⟩ :=
    Client.request_satisfied hposeidon hleaves htree hdeposited hactive hpath hkey.onCurve
      (hsound.provable hkey hsignedBy hrefunds hindex) hcovers rerandomizer
      (Client.payloadSignalX tools payload nonce)
  obtain ⟨proof, hproof⟩ := tools.request_complete hrequest
  have hpublished := published_eq hsound hrefunds hindex hrerandomizer hsecretKey haccumulator hblinding
  have hread (n : Nat) : parseFieldElement (toString n) = some (n : Int) := Server.parseFieldElement_repr n
  refine ⟨inputs, Client.requestBody payload model nonce (Client.payloadSignalX tools payload nonce) s.merkleRoot
    proof (inputs.outputs tools.poseidon), hinputs, ?_, ?_, hread _, hread _, hread _, hread _, hpublished, ?_⟩
  . intro o
    constructor
    . exact fun ho => (Circuit.requestFacts_of ho).2
    . rintro rfl
      exact hrequest
  . unfold Client.proveRequest
    rw [hpending]
    exact Client.proveFresh_eq_some.mpr ⟨hactive, inputs, proof, _, hinputs, hproof, rfl, rfl⟩
  . intro key refund signature
    rw [hpublished, Client.accumulator_foldResponse hnonneg hpos hsound.blinding.1 key rerandomizer
      (Int.natCast_nonneg refund) signature]
    rfl

end System
end Longjing
