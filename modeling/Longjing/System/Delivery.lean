import Longjing.Client.Owner
import Longjing.Client.Sound
import Longjing.System.Issuance

/-!
From the client to the server: a body that the client builds is one that the server accepts, and the
client's inputs are the witness behind it.
-/

namespace Longjing
namespace System

open Accumulator
open Circuit (Circomlib RequestInputs RequestOutputs)
open Client (Groth16Proof requestBody)
open Credits (TREE_DEPTH isKnownRoot)
open Server (Event LongjingRequestDto RequestBody VerifyAnswer parseFieldElement readers_repr storedSignal
  val_lt_decimal)

theorem shownLength_le (cs : List Char) : Server.shownLength cs ≤ cs.length := by
  fun_induction Server.shownLength cs with
  | case1 => exact le_rfl
  | case2 => exact le_rfl
  | case3 c d cs _ ih =>
    simp only [List.length_cons]
    omega
  | case4 c d cs _ ih =>
    simp only [List.length_cons] at ih ⊢
    omega

/-- The validation pipe lets a body of the client through. -/
theorem isValid_requestBody {payload : String} {model : Option String} {nonce signalX root : Nat}
    {proof : Groth16Proof} {o : RequestOutputs}
    (hpayload : payload ≠ "" ∧ Server.maxLength payload Server.MAX_PAYLOAD_LENGTH = true)
    (hproof : proof.IsDecimal)
    (hmodel : ∀ m, model = some m → m = "" ∨ m ∈ Server.CLAUDE_MODELS) (hnonce : nonce < FIELD_MODULUS)
    (hsignalX : signalX < FIELD_MODULUS) (hroot : root < FIELD_MODULUS)
    : (requestBody payload model nonce signalX root proof o).isValid = true := by
  have hdecimal : FIELD_MODULUS ≤ 10 ^ 78 := by decide
  have hnumber {n : Nat} (hn : n < FIELD_MODULUS) : Server.isFieldElement (toString n) = true :=
    Server.isFieldElement_repr (Nat.lt_of_lt_of_le hn hdecimal)
  have hmodels : (model.filter (· ≠ "")).all (Server.CLAUDE_MODELS.contains ·) = true := by
    cases model with
    | none => rfl
    | some m =>
      by_cases hempty : m = ""
      . simp [hempty]
      . simpa [Option.filter, hempty] using (hmodel m rfl).resolve_left hempty
  have hmaxProof : Server.maxLength (Client.stringify proof.wire) Server.MAX_PROOF_LENGTH = true :=
    decide_eq_true ((shownLength_le _).trans ((Client.length_wire hproof).trans (by decide)))
  unfold RequestBody.isValid requestBody
  simp only [hpayload, Client.wire_ne_empty, hmaxProof, hmodels, hnumber hnonce, hnumber hsignalX, hnumber hroot,
    hnumber o.nullifier.val_lt, hnumber o.signalY.val_lt, hnumber o.accumulator.1.val_lt, hnumber o.accumulator.2.val_lt, ne_eq,
    not_false_eq_true, decide_true, Bool.and_self]

variable {cfg : Server.Config} {lib : Circomlib} {cMax : Nat} {req : LongjingRequestDto}
  {i : RequestInputs TREE_DEPTH} {payload : String} {model : Option String} {nonce : Nat} {proof : Groth16Proof}

/-- The inputs that the body was made with are a witness for it. -/
theorem satisfies_requestBody (hrequest : Circuit.Request cfg.poseidon lib i (i.outputs cfg.poseidon))
    (hreq : req.toRequestBody = requestBody payload model nonce i.signalX.val i.merkleRoot.val proof
      (i.outputs cfg.poseidon))
    (hcMax : i.maxCost.val = cMax)
    (hkey : cfg.serverKey = ((i.serverPublicKey.1.val : Int), (i.serverPublicKey.2.val : Int)))
    : Satisfies cfg lib cMax req i := by
  refine ⟨hrequest, ?_⟩
  have hread (a : F) : Server.toBigInt (toString a.val) = some (a.val : Int) := (readers_repr (val_lt_decimal a)).2
  unfold Server.publicSignals
  rw [hreq, hkey, ← hcMax]
  simp only [requestBody, hread, Option.bind_eq_bind, Option.bind_some]
  rfl

theorem run_delivered {s : Server.State} {answer : VerifyAnswer} {worstCaseCost : Nat} (slashing : Bool)
    (hsatisfies : Satisfies cfg lib cMax req i)
    (hreq : req.toRequestBody = requestBody payload model nonce i.signalX.val i.merkleRoot.val proof
      (i.outputs cfg.poseidon))
    (hnonce : nonce < FIELD_MODULUS)
    (hbound : i.signalX.val = cfg.poseidon.hash2 (cfg.payloadDigest payload) nonce)
    (hverifies : cfg.groth16 proof.snarkjs ((i.publicSignals (i.outputs cfg.poseidon)).map Int.ofNat) = true)
    (hartifacts : answer.artifacts = true) (hslot : answer.isFull = false)
    (hknown : Server.knownRoot answer req.merkleRoot = some true)
    (hcost : worstCaseCost ≤ cMax) (hexecs : s.execs = [])
    (hfree : s.store.get (toString ((i.outputs cfg.poseidon).nullifier.val : Int)) = none)
    (hallowed : (s.store.checkRateLimit s.now (toString ((i.outputs cfg.poseidon).nullifier.val : Int))).2 = true)
    : s.run cfg [.arrive req, .resume 0 (.matched (some cMax)), .resume 0 (.cost (some worstCaseCost)),
        .resume 0 (.verified answer slashing)]
      = { s with
          store := (s.store.checkRateLimit s.now (toString ((i.outputs cfg.poseidon).nullifier.val : Int))).1.insert
            (toString ((i.outputs cfg.poseidon).nullifier.val : Int))
            (storedSignal i.signalX.val (i.outputs cfg.poseidon).signalY.val)
          execs := [⟨req, .calling ⟨toString ((i.outputs cfg.poseidon).nullifier.val : Int),
            storedSignal i.signalX.val (i.outputs cfg.poseidon).signalY.val, cMax,
            (((i.outputs cfg.poseidon).accumulator.1.val : Int),
              ((i.outputs cfg.poseidon).accumulator.2.val : Int))⟩⟩]
          events := s.events ++ [.accepted req, .provider req] } := by
  -- every number of the body is a decimal, which the server reads as itself
  have hread (a : F) : parseFieldElement (toString a.val) = some (a.val : Int) :=
    (readers_repr (val_lt_decimal a)).1
  have hn : parseFieldElement req.nullifier = some ((i.outputs cfg.poseidon).nullifier.val : Int) := by
    rw [hreq]
    exact hread _
  have hx : parseFieldElement req.signal.x = some (i.signalX.val : Int) := by
    rw [hreq]
    exact hread _
  have hy : parseFieldElement req.signal.y = some ((i.outputs cfg.poseidon).signalY.val : Int) := by
    rw [hreq]
    exact hread _
  have hax : parseFieldElement req.accumulator.x = some ((i.outputs cfg.poseidon).accumulator.1.val : Int) := by
    rw [hreq]
    exact hread _
  have hay : parseFieldElement req.accumulator.y = some ((i.outputs cfg.poseidon).accumulator.2.val : Int) := by
    rw [hreq]
    exact hread _
  have hrho : parseFieldElement req.nonce = some (nonce : Int) := by
    rw [hreq]
    exact Server.parseFieldElement_repr nonce
  have hmatches : Server.signalXMatchesRequest cfg req.signal.x req.payload req.nonce = true := by
    have hlt : ¬ (FIELD_MODULUS : Int) ≤ nonce := by omega
    have hpayload : req.payload = payload := by rw [hreq]; rfl
    unfold Server.signalXMatchesRequest
    rw [hx, hrho, hpayload]
    simp only [hlt, if_false, Server.payloadSignalX, Int.toNat_natCast, hbound, decide_true]
  have hproof : req.proof = Client.stringify proof.wire := by rw [hreq]; rfl
  have hverify : Server.verify cfg req cMax answer = .ok true :=
    Server.verify_eq_true_iff.mpr ⟨hartifacts, hslot, by simp [hknown], by simp [hknown], _, hsatisfies.signals,
      proof.snarkjs, by rw [hproof, Client.readProof_wire], hverifies⟩
  -- nothing refuses it up to the record, which finds no row
  rw [Server.State.run_to_record slashing hexecs hn hallowed hmatches hcost hverify req.supported]
  have hrows := s.store.checkRateLimit_nullifiers s.now (toString ((i.outputs cfg.poseidon).nullifier.val : Int))
  generalize s.store.checkRateLimit s.now (toString ((i.outputs cfg.poseidon).nullifier.val : Int)) = limited
    at hrows ⊢
  have hget : limited.1.get (toString ((i.outputs cfg.poseidon).nullifier.val : Int)) = none := by
    unfold Server.Store.get at hfree ⊢
    rw [hrows]
    exact hfree
  unfold Server.record
  rw [hx, hy, hax, hay]
  simp only [Server.Store.checkAndSet_none _ hget]
  rfl

section Example

open Client (NoteFile accumulatorInputs keySignals newNote noteDeposit noteRoot payloadSignalX signedDeployment
  signedKey signedPoseidon signedTools)

/-- A server whose refund key is the registered one. -/
def signedConfig : Server.Config :=
  { Server.exampleConfig with
    prod := true
    poseidon := signedPoseidon
    payloadDigest := fun _ => 21023094671860425355490264926124925764559694019428733141923896094461443340962
    serverKey := ((signedKey.x : Int), (signedKey.y : Int)) }

theorem refundKey_signedKey : Client.RefundKey signedTools signedKey where
  x_lt := by decide +kernel
  y_lt := by decide +kernel
  onCurve := Client.onCurve_signedKey
  complete _ _ _ h := Or.inr h

/-- What the client puts into the first request of the note. -/
structure FirstInputs (i : RequestInputs TREE_DEPTH) : Prop where
  request : Circuit.Request signedPoseidon signedTools.circomlib i (i.outputs signedPoseidon)
  secretKey : i.secretKey = 2
  accumulator : i.accumulator = accumulatorInputs (newNote 2)
  rerandomizer : i.rerandomizer = 5
  signalX : i.signalX.val = payloadSignalX signedTools "hi" 7
  merkleRoot : i.merkleRoot.val = noteRoot
  maxCost : i.maxCost.val = signedDeployment.cMax
  serverPublicKey : i.serverPublicKey = keySignals signedKey

theorem exists_firstInputs : ∃ i, FirstInputs i := by
  obtain ⟨i, proof, hinputs, hrequest, -⟩ := Client.proveFresh_signed Client.secretKey_two
    (Client.provable_genesis signedTools 2 signedKey) (by simp [accumulatorInputs, newNote]) "hi" 7 5
  unfold Client.requestInputs at hinputs
  split at hinputs
  next =>
    obtain rfl := Option.some.inj hinputs
    refine ⟨_, hrequest, ?_, rfl, by norm_num, ?_, ?_, ?_, rfl⟩
    . show (((newNote 2).secretKey : Int) : F) = 2
      rw [Client.secretKey_two]
      norm_num
    . exact F.val_cast_of_lt (signedPoseidon.hash2_lt _ _)
    . exact F.val_cast_of_lt (by decide +kernel)
    . exact F.val_cast_of_lt (by decide +kernel)
  next => cases hinputs

structure FirstRequest (req : LongjingRequestDto) (i : RequestInputs TREE_DEPTH) : Prop extends
    FirstInputs i where
  body : req.toRequestBody
    = requestBody "hi" none 7 i.signalX.val i.merkleRoot.val Client.exampleProof (i.outputs signedPoseidon)

theorem exists_firstRequest : ∃ req i, FirstRequest req i := by
  obtain ⟨i, hi⟩ := exists_firstInputs
  exact ⟨⟨_, isValid_requestBody (by decide +kernel) Client.isDecimal_exampleProof (by simp) (by decide +kernel)
    i.signalX.val_lt i.merkleRoot.val_lt⟩, i, hi, rfl⟩

/-- The deposit of the note, and its first request up to the call of the provider. -/
def firstActions (req : LongjingRequestDto) : List Action :=
  [.chain noteDeposit, .server (.arrive req), .server (.resume 0 (.matched (some signedDeployment.cMax))),
    .server (.resume 0 (.cost (some 1))),
    .server (.resume 0 (.verified ⟨true, false, some fun _ => true⟩ true))]

namespace FirstRequest

variable {req : LongjingRequestDto} {i : RequestInputs TREE_DEPTH}

theorem satisfies (h : FirstRequest req i)
    : Satisfies signedConfig signedTools.circomlib signedDeployment.cMax req i := by
  refine satisfies_requestBody h.request h.body h.maxCost ?_
  rw [h.serverPublicKey]
  decide +kernel

theorem run (h : FirstRequest req i)
    : State.run signedDeployment signedConfig [] (firstActions req)
      = ⟨Credits.run signedDeployment [noteDeposit],
          { store := ⟨[(toString ((i.outputs signedPoseidon).nullifier.val : Int),
                storedSignal i.signalX.val (i.outputs signedPoseidon).signalY.val)], [],
              [(toString ((i.outputs signedPoseidon).nullifier.val : Int), [0])]⟩
            now := 0
            execs := [⟨req, .calling ⟨toString ((i.outputs signedPoseidon).nullifier.val : Int),
              storedSignal i.signalX.val (i.outputs signedPoseidon).signalY.val, signedDeployment.cMax,
              (((i.outputs signedPoseidon).accumulator.1.val : Int),
                ((i.outputs signedPoseidon).accumulator.2.val : Int))⟩⟩]
            events := [.accepted req, .provider req] }⟩ := by
  have hsplit : State.run signedDeployment signedConfig [] (firstActions req)
      = ⟨Credits.run signedDeployment [noteDeposit], (Server.init []).run signedConfig
          [.arrive req, .resume 0 (.matched (some signedDeployment.cMax)), .resume 0 (.cost (some 1)),
            .resume 0 (.verified
              ⟨true, false, some (isKnownRoot (Credits.run signedDeployment [noteDeposit]).committed)⟩ true)]⟩ := rfl
  have hknown : Server.knownRoot
      ⟨true, false, some (isKnownRoot (Credits.run signedDeployment [noteDeposit]).committed)⟩ req.merkleRoot
        = some true := by
    have hroot : isKnownRoot (Credits.run signedDeployment [noteDeposit]).committed noteRoot = true := by
      decide +kernel
    have hread : Js.BigInt (toString noteRoot) = some (noteRoot : Int) := Js.BigInt_repr noteRoot
    have hlt : (noteRoot : Int) < 2 ^ 256 := by decide
    unfold Server.knownRoot
    rw [h.body]
    simp only [requestBody, h.merkleRoot, hread, Int.natCast_nonneg, hlt, and_self, if_true, Int.toNat_natCast, hroot]
  have hverifies : signedConfig.groth16 Client.exampleProof.snarkjs
      ((i.publicSignals (i.outputs signedPoseidon)).map Int.ofNat) = true := by
    have hgroth16 : signedConfig.groth16 = Server.canonicalVerifier := rfl
    have hcanonical (a : F) : (0 : Int) ≤ (a.val : Int) ∧ (a.val : Int) < FIELD_MODULUS :=
      ⟨Int.natCast_nonneg _, Int.ofNat_lt.mpr a.val_lt⟩
    rw [hgroth16]
    generalize i.outputs signedPoseidon = o
    simp only [Server.canonicalVerifier, RequestInputs.publicSignals, List.map_cons, List.map_nil, List.all_cons,
      List.all_nil, Int.ofNat_eq_natCast, hcanonical, decide_true, Bool.and_self]
  rw [hsplit, run_delivered true h.satisfies h.body (by decide +kernel) h.signalX hverifies rfl rfl hknown
    (by decide +kernel) rfl rfl (Server.Store.checkRateLimit_fresh 0 rfl)]
  rfl

/-- Nothing was signed when the first proof was made, over the genesis accumulator. -/
theorem idealized (h : FirstRequest req i) {log : List Event} (hlog : ∀ req', .accepted req' ∉ log)
    : Idealized signedConfig signedTools.circomlib signedDeployment.cMax (fun _ => i) (.accepted req :: log) := by
  rintro before e after heq req' rfl
  cases before with
  | nil =>
    obtain ⟨rfl, -⟩ := Event.accepted.inj (List.cons.inj heq).1
    refine ⟨h.satisfies, ?_, by simp, by simp⟩
    intro hzero
    rw [h.accumulator, (Client.accumulatorInputs_genesis rfl).1] at hzero
    exact absurd hzero one_ne_zero
  | cons e before =>
    obtain ⟨-, rfl⟩ := List.cons.inj heq
    exact absurd (by simp) (hlog req')

end FirstRequest

end Example

end System
end Longjing
