import Longjing.Circuit.Request
import Longjing.Client.Wire
import Longjing.Credits.Machine
import Longjing.Server.Request

/-!
This module contains `scripts/client/note.ts`: the file a note's owner keeps, and the commands that
prove a request, fold a response and prove an exit. What a command awaits of the chain is an argument
of it, and `none` stands for an error it throws, which leaves the file as it was.
-/

namespace Longjing
namespace Client

open Accumulator
open Server (RequestBody)
open Credits (EdDSAPublicKey TREE_DEPTH)
open Circuit (RequestInputs RequestOutputs SettlementInputs SettlementOutputs AccumulatorSignals)

structure Signature where
  R8x : Int
  R8y : Int
  S : Int
deriving DecidableEq, Repr

/-- The opening of the accumulator; the commitment follows from the secret key. -/
structure NoteOpening where
  refunds : Int
  index : Int
  blinding : Int
deriving DecidableEq, Repr

structure Pending where
  rerandomizer : Nat
  body : RequestBody
deriving DecidableEq, Repr

/-- The file holds its numbers in decimal. -/
structure NoteFile where
  secretKey : Nat
  opening : NoteOpening
  -- absent for the genesis accumulator
  signature : Option Signature
  -- the key that made the signature
  signedBy : Option EdDSAPublicKey
  -- the request in flight, sent again as is if its response was lost
  pending : Option Pending
deriving DecidableEq, Repr

/-- What the client uses of code that is not its own: circomlibjs, SHA-256 and snarkjs. -/
structure Tools where
  poseidon : Poseidon
  circomlib : Circuit.Circomlib
  -- SHA-256 of the UTF-8 payload, reduced into the field
  payloadDigest : String → Nat
  -- `groth16.fullProve` of the request circuit
  fullProveRequest : RequestInputs TREE_DEPTH → Option (Groth16Proof × RequestOutputs)
  -- `groth16.fullProve` of the settlement circuit, with the proof as calldata
  fullProveSettlement : SettlementInputs → Option (List Nat × SettlementOutputs)
  request_sound : ∀ {i proof o}, fullProveRequest i = some (proof, o) →
    Circuit.Request poseidon circomlib i o
  request_complete : ∀ {i o}, Circuit.Request poseidon circomlib i o →
    ∃ proof, fullProveRequest i = some (proof, o)
  settlement_sound : ∀ {i proof o}, fullProveSettlement i = some (proof, o) →
    Circuit.Settlement poseidon circomlib i o
  settlement_complete : ∀ {i o}, Circuit.Settlement poseidon circomlib i o →
    ∃ proof, fullProveSettlement i = some (proof, o)

open Classical in
/-- Proves whatever the circuits accept, always with the same proofs. -/
noncomputable def Tools.reference (P : Poseidon) (lib : Circuit.Circomlib) (payloadDigest : String → Nat)
    (groth16 : Groth16Proof) (calldata : List Nat) : Tools where
  poseidon := P
  circomlib := lib
  payloadDigest := payloadDigest
  fullProveRequest i := if ∃ o, Circuit.Request P lib i o then some (groth16, i.outputs P) else none
  fullProveSettlement i := if ∃ o, Circuit.Settlement P lib i o then some (calldata, i.outputs P) else none
  request_sound := by
    intro i proof o h
    split at h
    next hsat =>
      obtain ⟨o', ho'⟩ := hsat
      obtain ⟨-, rfl⟩ := Prod.mk.inj (Option.some.inj h)
      rw [← (Circuit.requestFacts_of ho').2]
      exact ho'
    next => simp at h
  request_complete := by
    intro i o h
    rw [if_pos ⟨o, h⟩, (Circuit.requestFacts_of h).2]
    exact ⟨_, rfl⟩
  settlement_sound := by
    intro i proof o h
    split at h
    next hsat =>
      obtain ⟨o', ho'⟩ := hsat
      obtain ⟨-, rfl⟩ := Prod.mk.inj (Option.some.inj h)
      rw [← ho'.outputs_eq]
      exact ho'
    next => simp at h
  settlement_complete := by
    intro i o h
    rw [if_pos ⟨o, h⟩, h.outputs_eq]
    exact ⟨_, rfl⟩

/-- `randomBelow(FIELD_MODULUS)` is the secret key. -/
def newNote (secretKey : F) : NoteFile where
  secretKey := secretKey.val
  opening := ⟨0, 0, 0⟩
  signature := none
  signedBy := none
  pending := none

variable (tools : Tools)

/-- c = Poseidon(k), what `deposit` takes. -/
def commitmentOf (note : NoteFile) : Nat := tools.poseidon.hash1 note.secretKey

/-- `BigInt(status) !== 1n`. -/
def onchainNote (onchain : Credits.Note) : Option (Nat × Nat) :=
  if onchain.status = .active then some (onchain.amount, onchain.leafIndex) else none

/-- Genesis takes a dummy signature, which the circuit doesn't check. -/
def accumulatorInputs (note : NoteFile) : AccumulatorSignals where
  isGenesis := if note.signature.isSome then 0 else 1
  refunds := (note.opening.refunds : F)
  index := (note.opening.index : F)
  blinding := (note.opening.blinding : F)
  signatureR8x := ((note.signature.map Signature.R8x).getD 0 : Int)
  signatureR8y := ((note.signature.map Signature.R8y).getD 1 : Int)
  signatureS := ((note.signature.map Signature.S).getD 0 : Int)

def openingOf (note : NoteFile) (commitment : Int) : Opening where
  refunds := note.opening.refunds
  index := note.opening.index
  commitment := commitment
  blinding := note.opening.blinding

def payloadSignalX (payload : String) (nonce : Nat) : Nat :=
  tools.poseidon.hash2 (tools.payloadDigest payload) nonce

def keySignals (key : EdDSAPublicKey) : F × F := ((key.x : F), (key.y : F))

/-- What `proveRequest` reads from the chain, one call after another. -/
structure RequestReads where
  note : Credits.Note
  path : List (Nat × Nat)
  root : Nat
  cMax : Nat
  key : EdDSAPublicKey

/-- The inputs of the request circuit; a path of another length has no witness. -/
def requestInputs (note : NoteFile) (reads : RequestReads) (rerandomizer signalX : Nat)
    : Option (RequestInputs TREE_DEPTH) :=
  if h : reads.path.length = TREE_DEPTH then
    some {
      secretKey := (note.secretKey : F)
      deposit := (reads.note.amount : F)
      merklePath := reads.path.map fun (element, index) => ((element : F), (index : F))
      accumulator := accumulatorInputs note
      rerandomizer := (rerandomizer : F)
      merkleRoot := (reads.root : F)
      maxCost := (reads.cMax : F)
      signalX := (signalX : F)
      serverPublicKey := keySignals reads.key
      length_merklePath := by simpa using h
    }
  else
    none

/-- The body of a request whose proof has these outputs. An empty model is not sent. -/
def requestBody (payload : String) (model : Option String) (nonce signalX root : Nat) (proof : Groth16Proof)
    (o : RequestOutputs) : RequestBody where
  payload := payload
  nonce := toString nonce
  nullifier := toString o.nullifier.val
  signal := ⟨toString signalX, toString o.signalY.val⟩
  proof := stringify proof.wire
  merkleRoot := toString root
  accumulator := ⟨toString o.accumulator.1.val, toString o.accumulator.2.val⟩
  model := model.filter (· ≠ "")

def proveFresh (note : NoteFile) (payload : String) (model : Option String) (reads : RequestReads)
    (nonce rerandomizer : Nat) : Option (RequestBody × NoteFile) := do
  let _ ← onchainNote reads.note
  let signalX := payloadSignalX tools payload nonce
  let inputs ← requestInputs note reads rerandomizer signalX
  let (proof, o) ← tools.fullProveRequest inputs
  let body := requestBody payload model nonce signalX reads.root proof o
  return (body, { note with pending := some ⟨rerandomizer, body⟩ })

/-- While a request is pending, its body again: a retry must carry the same signal. -/
def proveRequest (note : NoteFile) (payload : String) (model : Option String) (reads : RequestReads)
    (nonce rerandomizer : Nat) : Option (RequestBody × NoteFile) :=
  match note.pending with
  | some pending => some (pending.body, note)
  | none => proveFresh tools note payload model reads nonce rerandomizer

/-- What `BigInt` makes of each field of a response, `none` where the field is missing or it throws. -/
structure RequestResponse where
  refund : Option Int
  x : Option Int
  y : Option Int
  R8x : Option Int
  R8y : Option Int
  S : Option Int
deriving DecidableEq, Repr

/-- `eddsa.verifyPoseidon`: it refuses an S of the subgroup order or more, and does not return on a
negative one. -/
def verifyPoseidon (message : F) (signature : Signature) (key : F × F) : Bool :=
  0 ≤ signature.S && signature.S < SUBGROUP_ORDER
    && tools.circomlib.verifyPoseidon message ((signature.R8x : F), (signature.R8y : F)) (signature.S : F) key

/-- The accumulator a response has to carry: A + s'·H + v·G + J. -/
def expectedAccumulator (note : NoteFile) (rerandomizer : Nat) (refund : Int) : Point :=
  applyRefund (rerandomize (commit (openingOf note (commitmentOf tools note))) rerandomizer) refund

/-- (R + v, i + 1, c, s + s'). -/
def foldResponse (note : NoteFile) (key : EdDSAPublicKey) (rerandomizer : Nat) (refund : Int)
    (signature : Signature) : NoteFile :=
  { note with
    opening := ⟨note.opening.refunds + refund, note.opening.index + 1,
      (note.opening.blinding + rerandomizer).tmod SUBGROUP_ORDER⟩
    signature := some signature
    signedBy := some key
    pending := none }

/-- Folds the server's answer into the opening, once its signature checks against the key `key` that is
registered onchain. -/
def receive (note : NoteFile) (response : RequestResponse) (key : EdDSAPublicKey) : Option NoteFile := do
  let pending ← note.pending
  let refund ← response.refund
  let x ← response.x
  let y ← response.y
  let R8x ← response.R8x
  let R8y ← response.R8y
  let S ← response.S
  if expectedAccumulator tools note pending.rerandomizer refund ≠ (x, y) then
    none
  else if verifyPoseidon tools (tools.poseidon.sig2 (x : F) (y : F)) ⟨R8x, R8y, S⟩ (keySignals key) then
    some (foldResponse note key pending.rerandomizer refund ⟨R8x, R8y, S⟩)
  else
    none

/-- What `proveWithdrawal` reads from the chain. -/
structure ExitReads where
  note : Credits.Note
  cMax : Nat
  -- `withdrawalSignalX` of the recipient
  signalX : Nat
  key : EdDSAPublicKey

/-- The indices the note used: one more if a response was lost, as that request may have been served. -/
def usedIndices (note : NoteFile) : Int :=
  note.opening.index + if note.pending.isSome then 1 else 0

/-- A genesis accumulator needs no signature, so any accepted key works. -/
def exitKey (note : NoteFile) (reads : ExitReads) : EdDSAPublicKey := note.signedBy.getD reads.key

def settlementInputs (note : NoteFile) (recipient : Nat) (n : Int) (amount : Nat) (reads : ExitReads)
    : SettlementInputs where
  secretKey := (note.secretKey : F)
  accumulator := accumulatorInputs note
  claimedIndex := (n : F)
  commitment := (commitmentOf tools note : F)
  deposit := (amount : F)
  maxCost := (reads.cMax : F)
  serverPublicKey := keySignals (exitKey note reads)
  recipient := (recipient : F)
  signalX := (reads.signalX : F)

/-- An exit paying D + R − n · C_MAX to the recipient. It leaves the file as it is. -/
def proveWithdrawal (note : NoteFile) (recipient : Nat) (claimedIndex : Option Int) (reads : ExitReads)
    : Option Credits.WithdrawalArgs := do
  let (amount, _) ← onchainNote reads.note
  let n := claimedIndex.getD (usedIndices note)
  if n < note.opening.index then
    none
  else
    let (proof, o) ← tools.fullProveSettlement (settlementInputs tools note recipient n amount reads)
    return {
      commitment := commitmentOf tools note
      recipient := recipient
      refundKey := exitKey note reads
      proof := proof
      nullifier := o.nullifier.val
      signalY := o.signalY.val
      payout := o.payout.val
    }

variable {tools}

theorem usedIndices_pending {note : NoteFile} {p : Pending} (h : note.pending = some p)
    : usedIndices note = note.opening.index + 1 := by
  simp [usedIndices, h]

theorem usedIndices_free {note : NoteFile} (h : note.pending = none)
    : usedIndices note = note.opening.index := by
  simp [usedIndices, h]

theorem index_le_usedIndices (note : NoteFile) : note.opening.index ≤ usedIndices note := by
  unfold usedIndices
  split <;> omega

theorem onchainNote_eq_some {onchain : Credits.Note} {r : Nat × Nat}
    : onchainNote onchain = some r ↔ onchain.status = .active ∧ r = (onchain.amount, onchain.leafIndex) := by
  unfold onchainNote
  split
  next h => simp [h, eq_comm]
  next h => simp [h]

theorem proveFresh_eq_some {note note' : NoteFile} {payload : String} {model : Option String}
    {reads : RequestReads} {nonce rerandomizer : Nat} {body : RequestBody}
    : proveFresh tools note payload model reads nonce rerandomizer = some (body, note') ↔
      reads.note.status = .active
        ∧ ∃ inputs proof o,
          requestInputs note reads rerandomizer (payloadSignalX tools payload nonce) = some inputs
            ∧ tools.fullProveRequest inputs = some (proof, o)
            ∧ body = requestBody payload model nonce (payloadSignalX tools payload nonce) reads.root proof o
            ∧ note' = { note with pending := some ⟨rerandomizer, body⟩ } := by
  unfold proveFresh
  simp only [Option.bind_eq_bind, Option.bind_eq_some_iff, onchainNote_eq_some, Prod.exists]
  constructor
  . rintro ⟨amount, leafIndex, ⟨hactive, -⟩, inputs, hinputs, proof, o, hprove, hpure⟩
    simp only [pure, Option.some.injEq, Prod.mk.injEq] at hpure
    obtain ⟨rfl, rfl⟩ := hpure
    exact ⟨hactive, inputs, proof, o, hinputs, hprove, rfl, rfl⟩
  . rintro ⟨hactive, inputs, proof, o, hinputs, hprove, rfl, rfl⟩
    exact ⟨_, _, ⟨hactive, rfl⟩, inputs, hinputs, proof, o, hprove, rfl⟩

theorem receive_eq_some {note note' : NoteFile} {response : RequestResponse} {key : EdDSAPublicKey}
    : receive tools note response key = some note' ↔
      ∃ pending refund signature,
        note.pending = some pending
          ∧ response.refund = some refund
          ∧ response.R8x = some signature.R8x ∧ response.R8y = some signature.R8y
          ∧ response.S = some signature.S
          ∧ response.x = some (expectedAccumulator tools note pending.rerandomizer refund).1
          ∧ response.y = some (expectedAccumulator tools note pending.rerandomizer refund).2
          ∧ verifyPoseidon tools
              (tools.poseidon.sig2 ((expectedAccumulator tools note pending.rerandomizer refund).1 : F)
                ((expectedAccumulator tools note pending.rerandomizer refund).2 : F))
              signature (keySignals key) = true
          ∧ note' = foldResponse note key pending.rerandomizer refund signature := by
  unfold receive
  simp only [Option.bind_eq_bind, Option.bind_eq_some_iff]
  constructor
  . rintro ⟨pending, hpending, refund, hrefund, x, hx, y, hy, R8x, hR8x, R8y, hR8y, S, hS, h⟩
    split at h
    next => simp at h
    next heq =>
      rw [not_not] at heq
      split at h
      next hverify =>
        rw [Option.some.injEq] at h
        refine ⟨pending, refund, ⟨R8x, R8y, S⟩, hpending, hrefund, hR8x, hR8y, hS, ?_, ?_, ?_, h.symm⟩
        . rw [heq, hx]
        . rw [heq, hy]
        . rw [heq]
          exact hverify
      next => simp at h
  . rintro ⟨pending, refund, signature, hpending, hrefund, hR8x, hR8y, hS, hx, hy, hverify, rfl⟩
    refine ⟨pending, hpending, refund, hrefund, _, hx, _, hy, _, hR8x, _, hR8y, _, hS, ?_⟩
    rw [if_neg (by simp), if_pos hverify]

theorem proveWithdrawal_eq_some {note : NoteFile} {recipient : Nat} {claimedIndex : Option Int}
    {reads : ExitReads} {args : Credits.WithdrawalArgs}
    : proveWithdrawal tools note recipient claimedIndex reads = some args ↔
      reads.note.status = .active
        ∧ note.opening.index ≤ claimedIndex.getD (usedIndices note)
        ∧ ∃ proof o,
          tools.fullProveSettlement (settlementInputs tools note recipient
              (claimedIndex.getD (usedIndices note)) reads.note.amount reads) = some (proof, o)
            ∧ args = ⟨commitmentOf tools note, recipient, exitKey note reads, proof, o.nullifier.val,
                o.signalY.val, o.payout.val⟩ := by
  unfold proveWithdrawal
  simp only [Option.bind_eq_bind, Option.bind_eq_some_iff, onchainNote_eq_some, Prod.exists]
  constructor
  . rintro ⟨amount, leafIndex, ⟨hactive, hreads⟩, h⟩
    obtain ⟨rfl, rfl⟩ := Prod.mk.inj hreads
    split at h
    next => simp at h
    next hle =>
      simp only [Option.bind_eq_some_iff, Prod.exists, pure, Option.some.injEq] at h
      obtain ⟨proof, o, hprove, rfl⟩ := h
      exact ⟨hactive, Int.not_lt.mp hle, proof, o, hprove, rfl⟩
  . rintro ⟨hactive, hle, proof, o, hprove, rfl⟩
    refine ⟨_, _, ⟨hactive, rfl⟩, ?_⟩
    rw [if_neg (Int.not_lt.mpr hle)]
    simp only [Option.bind_eq_some_iff, Prod.exists]
    exact ⟨proof, o, hprove, rfl⟩

end Client
end Longjing
