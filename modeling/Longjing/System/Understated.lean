import Longjing.Credits.Lemmas.Exit
import Longjing.System.Refunds

/-!
Exits that claim fewer tickets than their note has used: the server holds the signal that reveals them.
-/

namespace Longjing
namespace System

open Accumulator
open Circuit (Circomlib RequestInputs)
open Credits (Deployment TREE_DEPTH)
open Server (Event LongjingRequestDto parseFieldElement recoverSecretKey storedSignal)

variable (cfg : Server.Config) (witness : LongjingRequestDto → RequestInputs TREE_DEPTH)

/-- The request is for the note and its ticket. -/
structure Uses (req : LongjingRequestDto) (commitment : F) (index : Nat) : Prop where
  commitment : cfg.poseidon.sig1 (witness req).secretKey = commitment
  index : (witness req).accumulator.index.val = index

/-- The server accepted a request for the note with this ticket: it recorded the signal and went on to the
provider. -/
def UsedIndex (log : List Event) (commitment : F) (index : Nat) : Prop :=
  ∃ req, .provider req ∈ log ∧ Uses cfg witness req commitment index

variable {cfg witness} {lib : Circomlib} {cMax : Nat} {s : Server.State}

theorem usedIndex_pred (hissued : s.Issued cfg cMax) (hideal : Idealized cfg lib cMax witness s.events)
    {before after : List Event} {req : LongjingRequestDto} (hlog : s.events = before ++ .provider req :: after)
    {commitment : F} {index : Nat} (huses : Uses cfg witness req commitment (index + 1))
    : UsedIndex cfg witness before commitment index := by
  have haccounted := accounted hissued hideal
  have haccepted : .accepted req ∈ before := hissued.log before _ after hlog
  obtain ⟨pre, post, rfl⟩ := List.append_of_mem haccepted
  obtain ⟨hsatisfies, hgenuine⟩ :=
    hideal pre (.accepted req) (post ++ .provider req :: after) (by simp [hlog]) req rfl
  obtain ⟨hfacts, -⟩ := Circuit.requestFacts_of hsatisfies.request
  obtain ⟨-, -, -, -, -, -, hkey⟩ := hsatisfies.reads
  have hsigned (req' : LongjingRequestDto) (b : Point) (refund : Nat) (hmem : .signed req' b refund ∈ pre)
      : b = commit ((witness req').successor cfg.poseidon refund) :=
    (haccounted (.signed req' b refund) (by simp [hlog, hmem])).1
  rcases hgenuine.signed (hkey ▸ hfacts.opened) hsigned with ⟨-, hzero⟩ | ⟨req', b, refund, hmem, hagrees⟩
  . -- the genesis accumulator is for the index 0 only
    have hindex := huses.index
    rw [hzero, ZMod.val_zero] at hindex
    omega
  . obtain ⟨pre', post', rfl⟩ := List.append_of_mem hmem
    obtain ⟨hprovider, -⟩ := hissued.log pre' (.signed req' b refund)
      (post' ++ .accepted req :: (post ++ .provider req :: after)) (by simp [hlog])
    refine ⟨req', by simp [hprovider], ?_, ?_⟩
    . rw [← huses.commitment]
      exact (ZMod.val_injective _ (Int.ofNat.inj hagrees.commitment)).symm
    . have hnext : ((witness req).accumulator.index.val : Int) = (witness req').accumulator.index.val + 1 :=
        hagrees.index
      have hindex := huses.index
      omega

theorem exists_usedIndices (hissued : s.Issued cfg cMax) (hideal : Idealized cfg lib cMax witness s.events)
    (commitment : F) : ∃ n, ∀ i, UsedIndex cfg witness s.events commitment i ↔ i < n := by
  obtain ⟨n, hn⟩ := @Log.exists_initialSegment Event F s.events
    (fun e c i => ∃ req, e = .provider req ∧ Uses cfg witness req c i) commitment
    (by
      rintro e i j ⟨req, rfl, hi⟩ ⟨req', heq, hj⟩
      obtain rfl := Event.provider.inj heq
      exact hi.index.symm.trans hj.index)
    (by
      rintro before e after hlog i ⟨req, rfl, huses⟩
      obtain ⟨req', hmem, huses'⟩ := usedIndex_pred hissued hideal hlog huses
      exact ⟨_, hmem, req', rfl, huses'⟩)
  refine ⟨n, fun i => (Iff.trans ?_ (hn i))⟩
  constructor
  . rintro ⟨req, hmem, huses⟩
    exact ⟨_, hmem, req, rfl, huses⟩
  . rintro ⟨e, hmem, req, rfl, huses⟩
    exact ⟨req, hmem, huses⟩

/-- What the server recorded of a request that it accepted: the signal that the circuit made, which is
bound to the payload. -/
structure Recorded (cfg : Server.Config) (s : Server.State) (req : LongjingRequestDto)
    (i : RequestInputs TREE_DEPTH) : Prop where
  signalX : parseFieldElement req.signal.x = some (i.signalX.val : Int)
  signalY : parseFieldElement req.signal.y = some ((i.outputs cfg.poseidon).signalY.val : Int)
  row : s.store.get (toString ((i.outputs cfg.poseidon).nullifier.val : Int))
    = some (storedSignal i.signalX.val (i.outputs cfg.poseidon).signalY.val)
  bound : ∃ rho, parseFieldElement req.nonce = some rho
    ∧ (i.signalX.val : Int) = Server.payloadSignalX cfg req.payload rho

theorem recorded_of_provider {req : LongjingRequestDto} {i : RequestInputs TREE_DEPTH}
    (hserving : s.Serving cfg cMax) (hsatisfies : Satisfies cfg lib cMax req i)
    (hmem : .provider req ∈ s.events) : Recorded cfg s req i := by
  obtain ⟨_, _, n, x, y, -, hn, hx, hy, hmatches, -, rfl, rfl, hrow⟩ := hserving.backed req hmem
  obtain ⟨hnullifier, hsignalY, -, -, hsignalX, -⟩ := hsatisfies.reads
  obtain ⟨-, hndto, hxdto, hydto, -⟩ := req.isFieldElement
  have hread (value : String) (v w : Int) (hdto : Server.isFieldElement value = true)
      (hparse : parseFieldElement value = some v) (hbig : Server.toBigInt value = some w) : v = w :=
    Option.some.inj ((Server.toBigInt_of_parse hdto hparse).1.symm.trans hbig)
  obtain rfl := hread _ _ _ hndto hn hnullifier
  obtain rfl := hread _ _ _ hxdto hx hsignalX
  obtain rfl := hread _ _ _ hydto hy hsignalY
  refine ⟨hx, hy, hrow, ?_⟩
  unfold Server.signalXMatchesRequest at hmatches
  rw [hx] at hmatches
  cases hrho : parseFieldElement req.nonce with
  | none => simp [hrho] at hmatches
  | some rho =>
    rw [hrho] at hmatches
    simp only at hmatches
    split at hmatches
    next => contradiction
    next => exact ⟨rho, rfl, of_decide_eq_true hmatches⟩

/-- The exit of a witness was announced with these signals. -/
def ExitOf (d : Deployment) (commitment : Nat) (exit : Credits.Exit) (i : Circuit.SettlementInputs)
    (o : Circuit.SettlementOutputs) : Prop :=
  ∃ key amount, i.publicSignals o = Credits.settlementSignals d commitment exit.recipient key exit.nullifier
    exit.signalY exit.payout amount

/-- The signal of a request and that of an exit at its index lie on one line, which reveals the key. -/
theorem revealed_of_index {req : LongjingRequestDto} {i : Circuit.SettlementInputs} {o : Circuit.SettlementOutputs}
    (hsettlement : Circuit.Settlement cfg.poseidon lib i o)
    (hkey : (witness req).secretKey = i.secretKey)
    (hindex : (witness req).accumulator.index.val = i.claimedIndex.val)
    (hne : (witness req).signalX ≠ i.signalX)
    : ((witness req).outputs cfg.poseidon).nullifier = o.nullifier
      ∧ recoverSecretKey ((witness req).signalX.val, ((witness req).outputs cfg.poseidon).signalY.val)
          (i.signalX.val, o.signalY.val) = some (i.secretKey.val : Int)
      ∧ recoverSecretKey (i.signalX.val, o.signalY.val)
          ((witness req).signalX.val, ((witness req).outputs cfg.poseidon).signalY.val)
        = some (i.secretKey.val : Int) := by
  have hindex := ZMod.val_injective _ hindex
  have hrequest : ((((witness req).outputs cfg.poseidon).signalY.val : Int) : F)
      = i.secretKey + cfg.poseidon.sig2 i.secretKey i.claimedIndex * (((witness req).signalX.val : Int) : F) := by
    rw [Int.cast_natCast, Int.cast_natCast, F.cast_val, F.cast_val, ← hkey, ← hindex]
    rfl
  have hexit : ((o.signalY.val : Int) : F)
      = i.secretKey + cfg.poseidon.sig2 i.secretKey i.claimedIndex * ((i.signalX.val : Int) : F) := by
    rw [Int.cast_natCast, Int.cast_natCast, F.cast_val, F.cast_val]
    exact hsettlement.rln.signalY_eq
  have hx : (((witness req).signalX.val : Int) : F) ≠ ((i.signalX.val : Int) : F) := by
    rw [Int.cast_natCast, Int.cast_natCast, F.cast_val, F.cast_val]
    exact hne
  refine ⟨?_, Server.recoverSecretKey_of_line hrequest hexit hx,
    Server.recoverSecretKey_of_line hexit hrequest hx.symm⟩
  rw [hsettlement.rln.nullifier_eq, ← hkey, ← hindex]
  rfl

/-- The tickets that a note used are an initial segment, and an exit that claims fewer meets the row of a
request at its index, from which the key comes back. -/
theorem run_understated_exit_revealed (d : Deployment) (cfg : Server.Config) (lib : Circomlib)
    (hposeidon : cfg.poseidon = d.poseidon) (rows : Js.Map String Server.StoredSignal) (actions : List Action)
    (witness : LongjingRequestDto → RequestInputs TREE_DEPTH)
    (s : State) (hs : s = State.run d cfg rows actions)
    (hideal : Idealized cfg lib d.cMax witness s.server.events) (commitment : F)
    : ∃ n, (∀ i, UsedIndex cfg witness s.server.events commitment i ↔ i < n)
      ∧ ∀ t exit, ⟨t, .withdrawalInitiated commitment.val exit⟩ ∈ s.chain.committed.logs →
        ∀ i o, Circuit.Settlement cfg.poseidon lib i o → ExitOf d commitment.val exit i o →
          i.claimedIndex.val < n →
          (∀ req, .provider req ∈ s.server.events →
            cfg.poseidon.sig1 (witness req).secretKey = cfg.poseidon.sig1 i.secretKey →
            (witness req).secretKey = i.secretKey) →
          (∀ req rho, .provider req ∈ s.server.events → parseFieldElement req.nonce = some rho →
            Server.payloadSignalX cfg req.payload rho ≠ Credits.withdrawalSignalX d exit.recipient) →
          ∃ req x y, .provider req ∈ s.server.events ∧ Uses cfg witness req commitment i.claimedIndex.val
            ∧ parseFieldElement req.signal.x = some x ∧ parseFieldElement req.signal.y = some y
            ∧ s.server.store.get (toString (exit.nullifier : Int)) = some (storedSignal x y)
            ∧ x ≠ exit.signalX
            ∧ ∃ k : Nat, recoverSecretKey (x, y) (exit.signalX, exit.signalY) = some (k : Int)
              ∧ recoverSecretKey (exit.signalX, exit.signalY) (x, y) = some (k : Int)
              ∧ d.poseidon.hash1 k = commitment.val := by
  have hissued : s.server.Issued cfg d.cMax := hs ▸
    State.run_server (Server.State.Issued.init cfg d.cMax rows) (fun _ _ h ha => h.step ha) actions
  have hserving : s.server.Serving cfg d.cMax := hs ▸
    State.run_server (Server.State.Serving.init cfg d.cMax rows) (fun _ _ h ha => h.step ha) actions
  obtain ⟨n, hn⟩ := exists_usedIndices hissued hideal commitment
  refine ⟨n, hn, ?_⟩
  intro t exit hlogged i o hsettlement ⟨key, amount, hsignals⟩ hclaimed hinjective hdistinct
  -- the request whose ticket the exit claims to have left
  obtain ⟨req, hmem, huses⟩ := (hn i.claimedIndex.val).mpr hclaimed
  obtain ⟨hsatisfies, -⟩ := accounted hissued hideal (.provider req) hmem
  have hrecorded := recorded_of_provider hserving hsatisfies hmem
  simp only [Circuit.SettlementInputs.publicSignals, Credits.settlementSignals, List.cons.injEq, and_true]
    at hsignals
  obtain ⟨hnullifier, hsignalY, -, hcommitment, -, -, -, -, -, hsignalX⟩ := hsignals
  have hannounced : exit.signalX = Credits.withdrawalSignalX d exit.recipient := by
    obtain ⟨chain, hchain⟩ := @State.reachable_run cfg d rows actions
    rw [hs, hchain] at hlogged
    exact Credits.Machine.run_invariant_committed (Credits.AnnouncedExits.invariant d) chain t _ exit hlogged
  have hownership : cfg.poseidon.sig1 i.secretKey = commitment :=
    hsettlement.ownership.trans (ZMod.val_injective _ hcommitment)
  have hsecretKey := hinjective req hmem (huses.commitment.trans hownership.symm)
  obtain ⟨rho, hrho, hbound⟩ := hrecorded.bound
  -- two points of one line, as the x of a payload is not the x of the recipient
  have hne : ((witness req).signalX.val : Int) ≠ i.signalX.val := by
    rw [hbound, hsignalX]
    exact hdistinct req rho hmem hrho
  obtain ⟨hsame, hforward, hbackward⟩ := revealed_of_index hsettlement hsecretKey huses.index
    (fun heq => hne (by rw [heq]))
  have hrow := hrecorded.row
  rw [hsame, hnullifier] at hrow
  rw [hsignalX, ← hannounced] at hforward hbackward hne
  rw [hsignalY] at hforward hbackward
  refine ⟨req, _, _, hmem, huses, hrecorded.signalX, hrecorded.signalY, hrow, hne, i.secretKey.val, hforward,
    hbackward, ?_⟩
  rw [← hposeidon, ← hownership, Poseidon.sig1_val]

section Example

open Client (accumulatorInputs commitmentOf exitReads newNote noteDeposit signedDeployment signedKey signedPoseidon
  signedTools)

/-- The owner made one request and claims that there was none. -/
noncomputable def understatedExit : Circuit.SettlementInputs :=
  Client.settlementInputs signedTools (newNote (2 : Nat)) 2009 0 1000000000000000000 exitReads

theorem understatedExit_satisfied
    : Circuit.Settlement signedPoseidon signedTools.circomlib understatedExit
        (understatedExit.outputs signedPoseidon)
      ∧ (understatedExit.outputs signedPoseidon).payout.val = 1000000000000000000 := by
  obtain ⟨hsettlement, hpayout⟩ := @Client.settlement_satisfied signedTools (newNote 2) exitReads 2009
    1000000000000000000 0 Client.onCurve_signedKey (Client.provable_genesis signedTools 2 signedKey) (by decide)
    (by decide) (by decide +kernel) (by decide +kernel) (by decide +kernel)
  refine ⟨hsettlement, ?_⟩
  have hzero : ((0 : Int) : F).val = 0 ∧ (accumulatorInputs (newNote 2)).refunds.val = 0 := by decide +kernel
  rw [hzero.1, hzero.2, Nat.zero_mul, Nat.add_zero, Nat.add_zero] at hpayout
  exact hpayout

noncomputable def understatedArgs : Credits.WithdrawalArgs where
  commitment := understatedExit.commitment.val
  recipient := 2009
  refundKey := signedKey
  proof := []
  nullifier := (understatedExit.outputs signedPoseidon).nullifier.val
  signalY := (understatedExit.outputs signedPoseidon).signalY.val
  payout := (understatedExit.outputs signedPoseidon).payout.val

/-- A caller whose proofs the verifier accepts. -/
def understatedCaller : Credits.Caller := ⟨2009, 0, fun _ _ _ => true⟩

/-- The first request of the note, and then the exit that leaves it out. -/
noncomputable def understatedActions (req : LongjingRequestDto) : List Action :=
  firstActions req ++ [.chain (.call understatedCaller (.initiateWithdrawal understatedArgs))]

theorem exists_understatedState
    : ∃ s', Credits.initiateWithdrawal signedDeployment
          (understatedCaller.env (Credits.run signedDeployment [noteDeposit]).now) understatedArgs
          (Credits.run signedDeployment [noteDeposit]).state = .ok s' := by
  obtain ⟨-, hentered, hleaves, hnote, -, -⟩ := Client.signedDeposit_facts
  have hcommitment : understatedArgs.commitment
      = 8645981980787649023086883978738420856660271013038108762834452721572614684349 := by decide +kernel
  have haccepted : (Credits.run signedDeployment [noteDeposit]).state.acceptedRefundKeys
      (Credits.refundKeyId signedDeployment understatedArgs.refundKey) = true := by decide +kernel
  have hnow : (Credits.run signedDeployment [noteDeposit]).now + Credits.CHALLENGE_WINDOW < 2 ^ 256 := by
    decide +kernel
  have hrecipient : understatedArgs.recipient ≠ 0 := (by decide : (2009 : Nat) ≠ 0)
  have hpayout : understatedArgs.payout = 1000000000000000000 := understatedExit_satisfied.2
  rw [← hcommitment] at hnote
  refine ⟨_, Credits.initiateWithdrawal_eq_ok.mpr ⟨hentered, hrecipient, ?_, haccepted, ?_, rfl, hnow, ?_, rfl⟩⟩
  . rw [hnote]
  . rw [hnote, hpayout]
  . rw [hnote, hleaves]
    decide

theorem FirstRequest.run_understated {req : LongjingRequestDto} {i : RequestInputs TREE_DEPTH}
    (h : FirstRequest req i)
    : (State.run signedDeployment signedConfig [] (understatedActions req)).server
        = (State.run signedDeployment signedConfig [] (firstActions req)).server
      ∧ ∃ t exit, ⟨t, .withdrawalInitiated understatedExit.commitment.val exit⟩
            ∈ (State.run signedDeployment signedConfig [] (understatedActions req)).chain.committed.logs
          ∧ ExitOf signedDeployment understatedExit.commitment.val exit understatedExit
            (understatedExit.outputs signedPoseidon)
          ∧ exit.recipient = 2009 := by
  obtain ⟨s', hok⟩ := exists_understatedState
  obtain ⟨hstack, -⟩ := Client.signedDeposit_facts
  have hexec := Credits.exec_initiateWithdrawal_eq_ok rfl hok
  have hchain : (State.run signedDeployment signedConfig [] (understatedActions req)).chain
      = { Credits.run signedDeployment [noteDeposit] with state := s' } := by
    unfold understatedActions
    rw [State.run_concat, h.run]
    simp only [State.step, Credits.Machine.step, hexec]
  refine ⟨?_, (Credits.run signedDeployment [noteDeposit]).now, Credits.newExit signedDeployment
    (understatedCaller.env (Credits.run signedDeployment [noteDeposit]).now) understatedArgs, ?_,
    ⟨signedKey, 1000000000000000000, ?_⟩, rfl⟩
  . unfold understatedActions
    rw [State.run_concat]
    rfl
  . rw [hchain]
    unfold Credits.Machine.committed
    rw [List.length_eq_zero_iff.mp hstack]
    exact Credits.mem_logs_initiateWithdrawal hok
  . simp only [Circuit.SettlementInputs.publicSignals, Credits.settlementSignals, Credits.newExit, understatedArgs,
      List.cons.injEq, true_and, and_true]
    decide +kernel

namespace FirstRequest

variable {req : LongjingRequestDto} {i : RequestInputs TREE_DEPTH}

theorem events_understated (h : FirstRequest req i)
    : (State.run signedDeployment signedConfig [] (understatedActions req)).server.events
      = [.accepted req, .provider req] := by
  rw [h.run_understated.1, h.run]

/-- The request used the ticket that the exit claims to have left. -/
theorem usedIndex_understated (h : FirstRequest req i)
    : UsedIndex signedConfig (fun _ => i)
        (State.run signedDeployment signedConfig [] (understatedActions req)).server.events
        understatedExit.commitment understatedExit.claimedIndex.val := by
  have hclaimed : understatedExit.claimedIndex.val = 0 := by decide +kernel
  refine ⟨req, by simp [h.events_understated], ?_, ?_⟩
  . show signedPoseidon.sig1 i.secretKey = _
    rw [h.secretKey]
    decide +kernel
  . show i.accumulator.index.val = _
    rw [h.accumulator, hclaimed]
    decide +kernel

theorem secretKey_understated (h : FirstRequest req i) : i.secretKey = understatedExit.secretKey := by
  rw [h.secretKey]
  decide +kernel

/-- The x of its payload is not that of the recipient. -/
theorem signalX_understated (h : FirstRequest req i) {req' : LongjingRequestDto} {rho : Int}
    (hmem : .provider req' ∈ (State.run signedDeployment signedConfig [] (understatedActions req)).server.events)
    (hrho : parseFieldElement req'.nonce = some rho)
    : Server.payloadSignalX signedConfig req'.payload rho ≠ Credits.withdrawalSignalX signedDeployment 2009 := by
  obtain rfl : req' = req := by
    rw [h.events_understated] at hmem
    simpa using hmem
  have hnonce : parseFieldElement (toString 7) = some (7 : Int) := Server.parseFieldElement_repr 7
  rw [h.body] at hrho
  obtain rfl := Option.some.inj (hnonce.symm.trans hrho)
  have hpayload : req'.payload = "hi" := by
    rw [h.body]
    rfl
  rw [hpayload]
  decide +kernel

end FirstRequest

/-- The exit is announced, and the server has what reveals it. -/
theorem run_understated_exit_revealed_first
    : ∃ req t exit x y,
        ⟨t, .withdrawalInitiated understatedExit.commitment.val exit⟩
            ∈ (State.run signedDeployment signedConfig [] (understatedActions req)).chain.committed.logs
          ∧ (State.run signedDeployment signedConfig [] (understatedActions req)).server.store.get
              (toString (exit.nullifier : Int)) = some (storedSignal x y)
          ∧ x ≠ exit.signalX
          ∧ ∃ k : Nat, recoverSecretKey (x, y) (exit.signalX, exit.signalY) = some (k : Int)
            ∧ signedPoseidon.hash1 k = understatedExit.commitment.val := by
  obtain ⟨req, i, h⟩ := exists_firstRequest
  obtain ⟨-, t, exit, hlogged, hexit, hrecipient⟩ := h.run_understated
  obtain ⟨n, hn, hrevealed⟩ := run_understated_exit_revealed signedDeployment signedConfig signedTools.circomlib rfl
    [] (understatedActions req) (fun _ => i) _ rfl (by rw [h.events_understated]; exact h.idealized (by simp))
    understatedExit.commitment
  obtain ⟨req', x, y, -, -, -, -, hrow, hne, k, hrecover, -, hkey⟩ := hrevealed t exit hlogged understatedExit _
    understatedExit_satisfied.1 hexit ((hn _).mp h.usedIndex_understated) (fun _ _ _ => h.secretKey_understated)
    (fun _ _ hmem hrho => hrecipient ▸ h.signalX_understated hmem hrho)
  exact ⟨req, t, exit, x, y, hlogged, hrow, hne, k, hrecover, hkey⟩

end Example

end System
end Longjing
