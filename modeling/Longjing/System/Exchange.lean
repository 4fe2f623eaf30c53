import Longjing.Server.Lemmas.Serve
import Longjing.System.Books
import Longjing.System.Delivery
import Longjing.System.Request

/-!
Whole exchanges: an honest owner asks, an honest server answers, and the answer is folded. Wherever a run
has led to, an owner whose note is active and covered can go on with one exchange after another.
-/

namespace Longjing
namespace Client

/-- Index n of a request signal, for a note whose requests are known. -/
def nullifierOf (tools : Tools) (note : NoteFile) (index : Nat) : Nat :=
  tools.poseidon.hash1 (tools.poseidon.hash2 note.secretKey index)

theorem ofJson_answer (answer : Server.LongjingResponseDto)
    : RequestResponse.ofJson (Server.Outcome.body (.ok answer))
      = ⟨Js.BigInt answer.refund, Js.BigInt answer.accumulator.x, Js.BigInt answer.accumulator.y,
          Js.BigInt answer.accumulator.signature.R8x, Js.BigInt answer.accumulator.signature.R8y,
          Js.BigInt answer.accumulator.signature.S⟩ := by
  apply ofJson_signed
  . simp [Server.Outcome.body, Server.LongjingResponseDto.json, Server.Json.field, Js.Map.get_cons]
  . simp [Server.Outcome.body, Server.LongjingResponseDto.json, Server.Json.field, Js.Map.get_cons]

end Client

namespace System

open Accumulator
open Circuit (RequestInputs ofSignals)
open Client (NoteFile RefundKey RequestReads RequestResponse Tools commitmentOf foldResponse nullifierOf)
open Credits (Deployment TREE_DEPTH getMerkleProof isKnownRoot)
open Server (Event LongjingRequestDto RequestBody parseFieldElement refundOf)

/-- One exchange, with what the owner draws for it and what the server finds. -/
structure Exchange where
  payload : String
  model : Option String
  nonce : Nat
  rerandomizer : Nat
  worstCaseCost : Nat
  slashing : Bool
  content : String
  actualCost : Nat

structure Exchange.Valid (d : Deployment) (e : Exchange) : Prop where
  payload : e.payload ≠ "" ∧ Server.maxLength e.payload Server.MAX_PAYLOAD_LENGTH = true
  model : ∀ m, e.model = some m → m = "" ∨ m ∈ Server.CLAUDE_MODELS
  nonce : e.nonce < FIELD_MODULUS
  rerandomizer : e.rerandomizer < FIELD_MODULUS
  cost : e.worstCaseCost ≤ d.cMax

/-- The two parties run the same hashes, proofs and signatures, and the server's key is the registered one. -/
structure Partners (d : Deployment) (cfg : Server.Config) (tools : Tools) : Prop where
  poseidon : tools.poseidon = d.poseidon
  serverPoseidon : cfg.poseidon = tools.poseidon
  payloadDigest : cfg.payloadDigest = tools.payloadDigest
  serverKey : cfg.serverKey = ((d.serverPublicKey.x : Int), (d.serverPublicKey.y : Int))
  refundKey : RefundKey tools d.serverPublicKey
  -- what `groth16.fullProve` proves, `groth16.verify` accepts
  proof : ∀ i proof o, tools.fullProveRequest i = some (proof, o) →
    proof.IsDecimal ∧ cfg.groth16 proof.snarkjs ((i.publicSignals o).map Int.ofNat) = true
  -- what `eddsa.signPoseidon` signs, `eddsa.verifyPoseidon` accepts
  sign : ∀ A : Point, ∃ signature : Client.Signature,
    Js.BigInt (cfg.sign A).R8x = some signature.R8x ∧ Js.BigInt (cfg.sign A).R8y = some signature.R8y
      ∧ Js.BigInt (cfg.sign A).S = some signature.S
      ∧ Client.verifyPoseidon tools (tools.poseidon.sig2 (A.1 : F) (A.2 : F)) signature
          (Client.keySignals d.serverPublicKey) = true

variable {d : Deployment} {cfg : Server.Config} {tools : Tools}

section Requests

variable {note : NoteFile} {reads : RequestReads} {payload : String} {model : Option String}
  {nonce rerandomizer : Nat} {inputs : RequestInputs TREE_DEPTH} {body : RequestBody}

theorem InStep.proveFresh_eq (h : InStep tools note reads payload model nonce rerandomizer inputs body)
    (hpending : note.pending = none)
    : Client.proveFresh tools note payload model reads nonce rerandomizer
      = some (body, { note with pending := some ⟨rerandomizer, body⟩ }) := by
  have hproved := h.proved
  unfold Client.proveRequest at hproved
  rwa [hpending] at hproved

theorem InStep.body_eq (h : InStep tools note reads payload model nonce rerandomizer inputs body)
    (hpending : note.pending = none)
    : ∃ proof, tools.fullProveRequest inputs = some (proof, inputs.outputs tools.poseidon)
        ∧ body = Client.requestBody payload model nonce (Client.payloadSignalX tools payload nonce) reads.root proof
            (inputs.outputs tools.poseidon) := by
  obtain ⟨-, inputs', proof, o, hinputs, hfull, hbody, -⟩ := Client.proveFresh_eq_some.mp (h.proveFresh_eq hpending)
  obtain rfl := Option.some.inj (h.inputs_eq.symm.trans hinputs)
  obtain rfl := (h.satisfied o).mp (tools.request_sound hfull)
  exact ⟨proof, hfull, hbody⟩

/-- What the inputs hold of the file, of the chain and of the request. -/
theorem InStep.inputs_reads (h : InStep tools note reads payload model nonce rerandomizer inputs body)
    : inputs.secretKey = (note.secretKey : F) ∧ inputs.accumulator = Client.accumulatorInputs note
        ∧ inputs.merkleRoot = (reads.root : F) ∧ inputs.maxCost = (reads.cMax : F)
        ∧ inputs.signalX = (Client.payloadSignalX tools payload nonce : F)
        ∧ inputs.serverPublicKey = Client.keySignals reads.key := by
  have hinputs := h.inputs_eq
  unfold Client.requestInputs at hinputs
  split at hinputs
  next =>
    obtain rfl := Option.some.inj hinputs
    exact ⟨rfl, rfl, rfl, rfl, rfl, rfl⟩
  next => cases hinputs

theorem InStep.nullifier_val (h : InStep tools note reads payload model nonce rerandomizer inputs body)
    (hindex : 0 ≤ note.opening.index ∧ note.opening.index < FIELD_MODULUS)
    (hsecretKey : note.secretKey < FIELD_MODULUS)
    : (inputs.outputs tools.poseidon).nullifier.val = nullifierOf tools note note.opening.index.toNat := by
  obtain ⟨hkey, haccumulator, -⟩ := h.inputs_reads
  have hval : (Client.accumulatorInputs note).index.val = note.opening.index.toNat := by
    show ((note.opening.index : F)).val = _
    have := eq_val_cast hindex.1 hindex.2
    omega
  show (tools.poseidon.sig1 (tools.poseidon.sig2 inputs.secretKey inputs.accumulator.index)).val = _
  rw [Poseidon.sig1_val, Poseidon.sig2_val, hkey, haccumulator, hval, F.val_cast_of_lt hsecretKey]
  rfl

end Requests

/-- The request that the provider is called for. -/
def provider? : Event → Option LongjingRequestDto
  | .provider req => some req
  | _ => none

/-- What the server answers an exchange with, over the accumulator that the request published. -/
def Exchange.answer (d : Deployment) (cfg : Server.Config) (e : Exchange) (published : Point)
    : Server.LongjingResponseDto where
  response := Server.padResponse e.content
  refund := toString (refundOf d.cMax e.actualCost)
  accumulator := Server.nextAccumulator cfg published (refundOf d.cMax e.actualCost)

section Parties

variable {note : NoteFile} {onchain : Credits.Note} {path : List (Nat × Nat)} {root : Nat}
  {inputs : RequestInputs TREE_DEPTH} {body : RequestBody} {e : Exchange}

/-- The server serves what the owner sends, and nothing that it had not seen is seen by that but the ticket. -/
theorem Partners.run_served (h : Partners d cfg tools) (he : e.Valid d) (hpending : note.pending = none)
    (hstep : InStep tools note ⟨onchain, path, root, d.cMax, d.serverPublicKey⟩ e.payload e.model e.nonce
      e.rerandomizer inputs body)
    (hroot : root < FIELD_MODULUS) (hcMax : d.cMax < FIELD_MODULUS) (known : Nat → Bool)
    (hknown : known root = true) (s : Server.State)
    (hunseen : s.store.Unseen (toString ((inputs.outputs tools.poseidon).nullifier.val : Int)))
    : ∃ (req : LongjingRequestDto) (store : Server.Store Server.Kept),
        req.toRequestBody = body
          ∧ s.run cfg (Server.servedActions s.execs.length req d.cMax e.worstCaseCost ⟨true, false, some known⟩
              e.slashing e.content e.actualCost)
            = { s with
                store := store
                execs := s.execs ++ [⟨req, .done
                  (.ok (e.answer d cfg (ofSignals (inputs.outputs tools.poseidon).accumulator)))⟩]
                events := s.events ++ [.accepted req, .provider req,
                  .signed req (applyRefund (ofSignals (inputs.outputs tools.poseidon).accumulator)
                    (refundOf d.cMax e.actualCost)) (refundOf d.cMax e.actualCost)] }
          ∧ ∀ other, other ≠ toString ((inputs.outputs tools.poseidon).nullifier.val : Int) →
              s.store.Unseen other → store.Unseen other := by
  obtain ⟨proof, hfull, rfl⟩ := hstep.body_eq hpending
  obtain ⟨hdecimal, hverifies⟩ := h.proof _ _ _ hfull
  obtain ⟨-, -, hmerkleRoot, hmaxCost, hsignalX, hkey⟩ := hstep.inputs_reads
  have hsignalX_lt : Client.payloadSignalX tools e.payload e.nonce < FIELD_MODULUS := tools.poseidon.hash2_lt _ _
  have hsignalX_val : inputs.signalX.val = Client.payloadSignalX tools e.payload e.nonce := by
    rw [hsignalX, F.val_cast_of_lt hsignalX_lt]
  have hroot_val : inputs.merkleRoot.val = root := by
    rw [hmerkleRoot, F.val_cast_of_lt hroot]
  obtain ⟨req, hreq⟩ : ∃ req : LongjingRequestDto, req.toRequestBody
      = Client.requestBody e.payload e.model e.nonce (Client.payloadSignalX tools e.payload e.nonce) root proof
          (inputs.outputs tools.poseidon) :=
    ⟨⟨_, isValid_requestBody he.payload hdecimal he.model he.nonce hsignalX_lt hroot⟩, rfl⟩
  have hposeidon := h.serverPoseidon
  -- the witness of the owner is one for the server's public signals
  have hbody : req.toRequestBody = Client.requestBody e.payload e.model e.nonce inputs.signalX.val
      inputs.merkleRoot.val proof (inputs.outputs cfg.poseidon) := by
    rw [hreq, hsignalX_val, hroot_val, hposeidon]
  have hsatisfies : Satisfies cfg tools.circomlib d.cMax req inputs := by
    refine satisfies_requestBody ?_ hbody ?_ ?_
    . rw [hposeidon]
      exact (hstep.satisfied _).mpr rfl
    . rw [hmaxCost, F.val_cast_of_lt hcMax]
    . rw [h.serverKey, hkey]
      simp only [Client.keySignals, F.val_cast_of_lt h.refundKey.x_lt, F.val_cast_of_lt h.refundKey.y_lt]
  have hread (a : F) : parseFieldElement (toString a.val) = some (a.val : Int) :=
    (Server.readers_repr (Server.val_lt_decimal a)).1
  have hn : parseFieldElement req.nullifier = some ((inputs.outputs tools.poseidon).nullifier.val : Int) := by
    rw [hreq]
    exact hread _
  have hx : parseFieldElement req.signal.x = some (inputs.signalX.val : Int) := by
    rw [hreq, hsignalX_val]
    exact Server.parseFieldElement_repr _
  have hy : parseFieldElement req.signal.y = some ((inputs.outputs tools.poseidon).signalY.val : Int) := by
    rw [hreq]
    exact hread _
  have hax : parseFieldElement req.accumulator.x
      = some ((inputs.outputs tools.poseidon).accumulator.1.val : Int) := by
    rw [hreq]
    exact hread _
  have hay : parseFieldElement req.accumulator.y
      = some ((inputs.outputs tools.poseidon).accumulator.2.val : Int) := by
    rw [hreq]
    exact hread _
  have hrho : parseFieldElement req.nonce = some (e.nonce : Int) := by
    rw [hreq]
    exact Server.parseFieldElement_repr e.nonce
  have hmatches : Server.signalXMatchesRequest cfg req.signal.x req.payload req.nonce = true := by
    have hnonce := he.nonce
    have hlt : ¬ (FIELD_MODULUS : Int) ≤ e.nonce := by omega
    have hpayload : req.payload = e.payload := by rw [hreq]; rfl
    unfold Server.signalXMatchesRequest
    rw [hx, hrho, hpayload]
    simp only [hlt, if_false, Server.payloadSignalX, Int.toNat_natCast, hsignalX_val, Client.payloadSignalX,
      h.payloadDigest, hposeidon, decide_true]
  have hknownRoot : Server.knownRoot ⟨true, false, some known⟩ req.merkleRoot = some true := by
    have hrootRead : Js.BigInt (toString root) = some (root : Int) := Js.BigInt_repr root
    have hword : FIELD_MODULUS < 2 ^ 256 := by decide
    have hlt : (root : Int) < 2 ^ 256 := by omega
    have hbody : req.merkleRoot = toString root := by rw [hreq]; rfl
    unfold Server.knownRoot
    rw [hbody]
    simp only [hrootRead, Int.natCast_nonneg, hlt, and_self, if_true, Int.toNat_natCast, hknown]
  have hproof : req.proof = Client.stringify proof.wire := by rw [hreq]; rfl
  have hverify : Server.verify cfg req d.cMax ⟨true, false, some known⟩ = .ok true :=
    Server.verify_eq_true_iff.mpr ⟨rfl, rfl, by simp [hknownRoot], by simp [hknownRoot], _, hsatisfies.signals,
      proof.snarkjs, by rw [hproof, Client.readProof_wire], by rw [hposeidon]; exact hverifies⟩
  refine ⟨req, _, hreq, Server.State.run_served e.slashing e.content e.actualCost hn hunseen hmatches he.cost hverify
    req.supported hx hy hax hay, ?_⟩
  intro other hne hother
  exact hother.served hne _ _ _ _

/-- The owner folds the answer of the server. -/
theorem Partners.receive_answer (h : Partners d cfg tools)
    (hstep : InStep tools note ⟨onchain, path, root, d.cMax, d.serverPublicKey⟩ e.payload e.model e.nonce
      e.rerandomizer inputs body)
    : ∃ signature, Client.receive tools { note with pending := some ⟨e.rerandomizer, body⟩ }
          (.ofJson (Server.Outcome.body
            (.ok (e.answer d cfg (ofSignals (inputs.outputs tools.poseidon).accumulator))))) d.serverPublicKey
        = some (foldResponse note d.serverPublicKey e.rerandomizer (refundOf d.cMax e.actualCost) signature) := by
  obtain ⟨signature, hR8x, hR8y, hS, hverify⟩ := h.sign
    (applyRefund (ofSignals (inputs.outputs tools.poseidon).accumulator) (refundOf d.cMax e.actualCost))
  have hexpected : Client.expectedAccumulator tools { note with pending := some ⟨e.rerandomizer, body⟩ }
      e.rerandomizer (refundOf d.cMax e.actualCost)
        = applyRefund (ofSignals (inputs.outputs tools.poseidon).accumulator) (refundOf d.cMax e.actualCost) := by
    rw [hstep.published]
    rfl
  have hread (n : Int) : Js.BigInt (toString n) = some n := Js.BigInt_intRepr n
  have hrefund : Js.BigInt (toString (refundOf d.cMax e.actualCost))
      = some (refundOf d.cMax e.actualCost : Int) := Js.BigInt_repr _
  refine ⟨signature, ?_⟩
  rw [Client.ofJson_answer]
  simp only [Exchange.answer, Server.nextAccumulator]
  generalize applyRefund (ofSignals (inputs.outputs tools.poseidon).accumulator) (refundOf d.cMax e.actualCost)
    = next at *
  refine Client.receive_eq_some.mpr ⟨⟨e.rerandomizer, body⟩, _, signature, rfl, hrefund, hR8x, hR8y, hS, ?_, ?_, ?_,
    rfl⟩
  . rw [hexpected]
    exact hread _
  . rw [hexpected]
    exact hread _
  . rw [hexpected]
    exact hverify

end Parties

section Commands

variable {w : Session}

/-- The commands of the owner and the server's part of a run leave the contract as it is. -/
def Command.OffChain : Command → Prop
  | .system (.chain _) => False
  | _ => True

theorem Session.step_offChain {c : Command} (hc : c.OffChain)
    : (w.step d cfg tools c).system.chain = w.system.chain := by
  by_cases hsystem : ∃ a, c = .system a
  . obtain ⟨a, rfl⟩ := hsystem
    cases a with
    | chain a => exact hc.elim
    | server a =>
      rcases @State.step_server d cfg w.system a with hstay | ⟨a', -, hstep⟩
      . show (w.system.step d cfg (.server a)).chain = _
        rw [hstay]
      . show (w.system.step d cfg (.server a)).chain = _
        rw [hstep]
  . rw [Session.step_system fun a ha => hsystem ⟨a, ha⟩]

theorem Session.foldl_offChain {more : List Command} (hmore : ∀ c ∈ more, c.OffChain)
    : (more.foldl (Session.step d cfg tools) w).system.chain = w.system.chain := by
  induction more generalizing w with
  | nil => rfl
  | cons c more ih =>
    rw [List.foldl_cons, ih fun c' hc' => hmore c' (List.mem_cons_of_mem _ hc'),
      Session.step_offChain (hmore c List.mem_cons_self)]

theorem Session.run_append (rows : Js.Map String Server.StoredSignal) (secretKey : F) (commands more : List Command)
    : Session.run d cfg tools rows secretKey (commands ++ more)
      = more.foldl (Session.step d cfg tools) (Session.run d cfg tools rows secretKey commands) :=
  List.foldl_append

theorem HonestRun.mono {K K' : Credits.EdDSAPublicKey → Prop} {rows : Js.Map String Server.StoredSignal}
    {secretKey : F} {commands : List Command} (h : HonestRun d cfg tools K rows secretKey commands)
    (hK : ∀ key, K key → K' key) : HonestRun d cfg tools K' rows secretKey commands :=
  ⟨h.answered, fun before hbefore => hK _ (h.registered before hbefore)⟩

/-- More of a run that stays off the chain, with responses from a server. -/
theorem HonestRun.append {K : Credits.EdDSAPublicKey → Prop} {rows : Js.Map String Server.StoredSignal}
    {secretKey : F} {commands more : List Command} (h : HonestRun d cfg tools K rows secretKey commands)
    (hmore : ∀ c ∈ more, c.OffChain) (hanswered : ∀ response, .receive response ∈ more → Answered d response)
    : HonestRun d cfg tools K rows secretKey (commands ++ more) := by
  constructor
  . intro response hmem
    rcases List.mem_append.mp hmem with hold | hnew
    . exact h.answered response hold
    . exact hanswered response hnew
  . intro before hbefore
    rcases List.prefix_or_prefix_of_prefix hbefore (List.prefix_append commands more) with hearlier | ⟨mid, rfl⟩
    . exact h.registered before hearlier
    . have hmid : ∀ c ∈ mid, c.OffChain :=
        fun c hc => hmore c (((List.prefix_append_right_inj commands).mp hbefore).subset hc)
      unfold Session.committed
      rw [Session.run_append, Session.foldl_offChain hmid]
      exact h.registered commands (List.prefix_refl _)

theorem Session.foldl_chain (actions : List Credits.Action)
    : (actions.map fun a => Command.system (.chain a)).foldl (Session.step d cfg tools) w
      = { w with system := { w.system with chain := actions.foldl (Credits.Machine.step d) w.system.chain } } := by
  induction actions generalizing w with
  | nil => rfl
  | cons a actions ih =>
    rw [List.map_cons, List.foldl_cons, ih]
    rfl

/-- More of the contract's part of a run. -/
theorem HonestRun.append_chain {K : Credits.EdDSAPublicKey → Prop} {rows : Js.Map String Server.StoredSignal}
    {secretKey : F} {commands : List Command} (h : HonestRun d cfg tools K rows secretKey commands)
    {earlier actions : List Credits.Action}
    (hchain : (Session.run d cfg tools rows secretKey commands).system.chain = Credits.run d earlier)
    (hkeys : ∀ before, before <+: actions → K (Credits.run d (earlier ++ before)).committed.serverPublicKey)
    : HonestRun d cfg tools K rows secretKey (commands ++ actions.map fun a => .system (.chain a)) := by
  constructor
  . intro response hmem
    rcases List.mem_append.mp hmem with hold | hnew
    . exact h.answered response hold
    . simp at hnew
  . intro before hbefore
    rcases List.prefix_or_prefix_of_prefix hbefore (List.prefix_append commands _) with hearlier | ⟨mid, rfl⟩
    . exact h.registered before hearlier
    . have hmid := (List.prefix_append_right_inj commands).mp hbefore
      rw [List.prefix_iff_eq_take.mp hmid, ← List.map_take, Session.run_append, Session.foldl_chain]
      unfold Session.committed
      simp only [hchain, Credits.run, ← List.foldl_append]
      exact hkeys _ (List.take_prefix _ _)

/-- What the server does without the chain moving. -/
theorem Session.foldl_server {actions grounded : List Server.Action}
    (h : actions.map (groundAction d w.committed) = grounded.map some)
    : (actions.map fun a => Command.system (.server a)).foldl (Session.step d cfg tools) w
      = { w with system := { w.system with server := w.system.server.run cfg grounded } } := by
  induction actions generalizing w grounded with
  | nil =>
    obtain rfl : grounded = [] := by simpa using h.symm
    rfl
  | cons a actions ih =>
    cases grounded with
    | nil => simp at h
    | cons a' grounded =>
      rw [List.map_cons, List.map_cons, List.cons.injEq] at h
      have hground : groundAction d w.system.chain.committed a = some a' := h.1
      rw [List.map_cons, List.foldl_cons]
      simp only [Session.step, State.step, hground]
      exact @ih { w with system := { w.system with server := w.system.server.step cfg a' } } grounded h.2

end Commands

namespace Session

theorem secretKey_run (rows : Js.Map String Server.StoredSignal) (secretKey : F) (commands : List Command)
    : (run d cfg tools rows secretKey commands).note.secretKey = secretKey.val := by
  induction commands using List.reverseRecOn with
  | nil => rfl
  | append_singleton commands c ih =>
    rw [run_concat]
    have hmove := @move_sound d cfg tools (run d cfg tools rows secretKey commands) c
    generalize (run d cfg tools rows secretKey commands).step d cfg tools c = w' at hmove ⊢
    cases hmove with
    | prove nonce rerandomizer p onchain path root key body note _ _ hprove =>
      unfold Client.proveRequest at hprove
      split at hprove
      next =>
        obtain ⟨-, rfl⟩ := Prod.mk.inj (Option.some.inj hprove)
        exact ih
      next =>
        obtain ⟨-, _, _, _, -, -, -, rfl⟩ := Client.proveFresh_eq_some.mp hprove
        exact ih
    | receive response note _ hreceive =>
      obtain ⟨_, _, _, -, -, -, -, -, -, -, -, rfl⟩ := Client.receive_eq_some.mp hreceive
      exact ih
    | _ => exact ih

/-- The server of a session has the contract's C_MAX, as any other that the owner's responses come from. -/
theorem server_run (rows : Js.Map String Server.StoredSignal) (secretKey : F) (commands : List Command)
    : ∃ actions, (run d cfg tools rows secretKey commands).system.server = (Server.init rows).run cfg actions
        ∧ ∀ i c, Server.Action.resume i (.matched (some c)) ∈ actions → c = d.cMax := by
  induction commands using List.reverseRecOn with
  | nil => exact ⟨[], rfl, by simp⟩
  | append_singleton commands c ih =>
    obtain ⟨actions, hserver, hcMax⟩ := ih
    rw [run_concat]
    by_cases hc : ∃ a, c = .system a
    . obtain ⟨a, rfl⟩ := hc
      cases a with
      | chain a => exact ⟨actions, hserver, hcMax⟩
      | server a =>
        show ∃ actions, ((run d cfg tools rows secretKey commands).system.step d cfg (.server a)).server = _ ∧ _
        rcases @State.step_server d cfg (run d cfg tools rows secretKey commands).system a
          with hstay | ⟨a', hground, hstep⟩
        . rw [hstay]
          exact ⟨actions, hserver, hcMax⟩
        . refine ⟨actions ++ [a'], ?_, ?_⟩
          . rw [hstep, hserver]
            simp [Server.State.run]
          . intro i c hmem
            rcases List.mem_append.mp hmem with hold | hnew
            . exact hcMax i c hold
            . obtain rfl := List.mem_singleton.mp hnew
              exact groundAction_matched hground
    . rw [step_system fun a ha => hc ⟨a, ha⟩]
      exact ⟨actions, hserver, hcMax⟩

variable (d tools) in
/-- An owner at rest whose note is active and pays for n more requests, none of whose tickets the server has
seen. -/
structure Ready (w : Session) (n : Nat) : Prop where
  idle : w.proving = none
  pending : w.note.pending = none
  -- no payment of the contract is under way
  stack : w.system.chain.stack = []
  active : (w.onchain tools).status = .active
  covers : (w.note.opening.index + n) * d.cMax ≤ (w.onchain tools).amount + w.note.opening.refunds
  index : w.note.opening.index + n ≤ 2 ^ 32
  refunds : w.note.opening.refunds + n * d.cMax < 2 ^ 128
  unseen : ∀ j < n, w.system.server.store.Unseen
    (toString (nullifierOf tools w.note (w.note.opening.index.toNat + j) : Int))
  distinct : ∀ j < n, ∀ j' < n, nullifierOf tools w.note (w.note.opening.index.toNat + j)
    = nullifierOf tools w.note (w.note.opening.index.toNat + j') → j = j'

variable (d cfg) in
/-- The exchange ended with this answer, over an accumulator that the request published. -/
def Answers (e : Exchange) (exec : Server.Exec) : Prop :=
  exec.req.payload = e.payload ∧ ∃ published, exec.pc = .done (.ok (e.answer d cfg published))

variable (d cfg) in
/-- What the exchanges make of a session: each was answered, and the opening counts them and their refunds. -/
structure Exchanged (w : Session) (exchanges : List Exchange) (w' : Session) : Prop where
  chain : w'.system.chain = w.system.chain
  index : w'.note.opening.index = w.note.opening.index + exchanges.length
  refunds : w'.note.opening.refunds
    = w.note.opening.refunds + ((exchanges.map fun e => refundOf d.cMax e.actualCost).sum : Nat)
  secretKey : w'.note.secretKey = w.note.secretKey
  answered : ∃ execs events, w'.system.server.execs = w.system.server.execs ++ execs
    ∧ w'.system.server.events = w.system.server.events ++ events
    ∧ List.Forall₂ (Answers d cfg) exchanges execs
    -- the provider is called once for each
    ∧ events.filterMap provider? = execs.map Server.Exec.req

theorem Exchanged.refl (w : Session) : w.Exchanged d cfg [] w where
  chain := rfl
  index := by simp
  refunds := by simp
  secretKey := rfl
  answered := ⟨[], [], by simp, by simp, .nil, rfl⟩

theorem Exchanged.cons {w w' w'' : Session} {e : Exchange} {exchanges : List Exchange}
    (h : w.Exchanged d cfg [e] w') (h' : w'.Exchanged d cfg exchanges w'')
    : w.Exchanged d cfg (e :: exchanges) w'' := by
  obtain ⟨execs, events, hexecs, hevents, hanswers, hprovider⟩ := h.answered
  obtain ⟨execs', events', hexecs', hevents', hanswers', hprovider'⟩ := h'.answered
  refine ⟨h'.chain.trans h.chain, ?_, ?_, h'.secretKey.trans h.secretKey, ?_⟩
  . rw [h'.index, h.index]
    simp only [List.length_cons, List.length_nil]
    omega
  . rw [h'.refunds, h.refunds]
    simp only [List.map_cons, List.map_nil, List.sum_cons, List.sum_nil]
    omega
  . refine ⟨execs ++ execs', events ++ events', by rw [hexecs', hexecs, List.append_assoc],
      by rw [hevents', hevents, List.append_assoc], ?_, by simp [hprovider, hprovider']⟩
    cases hanswers with
    | cons hanswer hnil =>
      cases hnil
      exact .cons hanswer hanswers'

/-- The root that the contract has is one that it knows. -/
theorem isKnownRoot_merkleRoot {s : Credits.State} {actions : List Credits.Action}
    (hs : s = (Credits.run d actions).state) (hzero : ¬ Circuit.ZeroPreimage d actions [])
    : isKnownRoot s s.merkleRoot = true ∧ s.merkleRoot < FIELD_MODULUS := by
  obtain ⟨-, htree⟩ := Circuit.run_tree hzero (List.prefix_refl actions)
  have hnonzero := Circuit.noZeroNode_of_not_zeroPreimage hzero (List.prefix_refl actions) TREE_DEPTH 0 (by decide)
    (Nat.le_refl _) (by decide)
  rw [← htree.root] at hnonzero
  obtain ⟨hhistory, hlatest⟩ := (Credits.Machine.run_invariant (Credits.roots_invariant d) actions).1
  rw [← hs] at hhistory hlatest hnonzero
  obtain ⟨older, hroots⟩ := hlatest.latest
  have hlast : 0 < Credits.ROOT_HISTORY_SIZE := by decide
  exact ⟨hhistory.isKnownRoot_of_getD hnonzero hlast (by rw [hroots]; rfl), hlatest.lt⟩

def servedActions (d : Deployment) (w : Session) (e : Exchange) (req : LongjingRequestDto) : List Server.Action :=
  Server.servedActions w.system.server.execs.length req d.cMax e.worstCaseCost
    ⟨true, false, some (isKnownRoot w.committed)⟩ e.slashing e.content e.actualCost

variable (cfg) in
/-- An exchange as a command after another: what the owner reads and proves, what the server does for it, and
the answer that comes back. -/
def exchangeCommands (d : Deployment) (w : Session) (e : Exchange) (req : LongjingRequestDto) (published : Point)
    : List Command :=
  requestCommands e.payload e.model e.nonce e.rerandomizer
    ++ (servedActions d w e req).map (.system <| .server ·)
    ++ [.receive (.ofJson (Server.Outcome.body (.ok (e.answer d cfg published))))]

variable (d cfg) in
/-- The session after an exchange: the opening is folded, and the server has served one request more. -/
structure Folded (w : Session) (e : Exchange) (req : LongjingRequestDto) (published : Point)
    (ticket : String) (w' : Session) : Prop where
  idle : w'.proving = none
  chain : w'.system.chain = w.system.chain
  note : ∃ signature, w'.note
    = foldResponse w.note d.serverPublicKey e.rerandomizer (refundOf d.cMax e.actualCost) signature
  server : w'.system.server = w.system.server.run cfg (servedActions d w e req)
  execs : w'.system.server.execs = w.system.server.execs ++ [⟨req, .done (.ok (e.answer d cfg published))⟩]
  events : ∃ a v, w'.system.server.events = w.system.server.events ++ [.accepted req, .provider req, .signed req a v]
  unseen : ∀ other, other ≠ ticket → w.system.server.store.Unseen other → w'.system.server.store.Unseen other

theorem receive_of_fold {w : Session} {note : NoteFile} {response : RequestResponse} (hidle : w.proving = none)
    (hreceive : Client.receive tools w.note response w.committed.serverPublicKey = some note)
    : w.receive tools response = { w with note := note } := by
  unfold receive
  rw [hidle, hreceive]

theorem foldl_exchange (hpartners : Partners d cfg tools) {w : Session} {e : Exchange} (he : e.Valid d)
    (hidle : w.proving = none) (hpending : w.note.pending = none) (hactive : (w.onchain tools).status = .active)
    (hkey : w.committed.serverPublicKey = d.serverPublicKey) (hcMax : d.cMax < FIELD_MODULUS)
    (hknown : isKnownRoot w.committed w.committed.merkleRoot = true)
    (hroot : w.committed.merkleRoot < FIELD_MODULUS) {path : List (Nat × Nat)}
    (hpath : getMerkleProof w.committed (w.onchain tools).leafIndex = .ok path)
    {inputs : RequestInputs TREE_DEPTH} {body : RequestBody}
    (hstep : InStep tools w.note ⟨w.onchain tools, path, w.committed.merkleRoot, d.cMax,
      w.committed.serverPublicKey⟩ e.payload e.model e.nonce e.rerandomizer inputs body)
    (hunseen : w.system.server.store.Unseen (toString ((inputs.outputs tools.poseidon).nullifier.val : Int)))
    : ∃ (req : LongjingRequestDto), req.payload = e.payload
        ∧ w.Folded d cfg e req (ofSignals (inputs.outputs tools.poseidon).accumulator)
            (toString ((inputs.outputs tools.poseidon).nullifier.val : Int))
            ((exchangeCommands cfg d w e req (ofSignals (inputs.outputs tools.poseidon).accumulator)).foldl
              (step d cfg tools) w) := by
  have hprove := @foldl_requestCommands d cfg tools w _ _ _ _ _ _ _ hidle hpending hactive hpath
    (hstep.proveFresh_eq hpending)
  rw [hkey] at hstep
  obtain ⟨req, store, hreq, hserve, hkeep⟩ := hpartners.run_served he hpending hstep hroot hcMax
    (isKnownRoot w.committed) hknown w.system.server hunseen
  obtain ⟨signature, hreceive⟩ := hpartners.receive_answer hstep
  obtain ⟨proof, -, hbody⟩ := hstep.body_eq hpending
  have hground : (servedActions d w e req).map (groundAction d w.committed) = (servedActions d w e req).map some := rfl
  have hserver := @foldl_server d cfg tools
    { w with note := { w.note with pending := some ⟨e.rerandomizer, body⟩ }, readAt := w.system.pushes } _ _ hground
  refine ⟨req, by rw [hreq, hbody]; rfl, ?_⟩
  unfold exchangeCommands
  change w.system.server.run cfg (servedActions d w e req) = _ at hserve
  rw [List.foldl_append, List.foldl_append, hprove, hserver, hserve, List.foldl_cons, List.foldl_nil]
  show w.Folded d cfg e req _ _ (receive tools _ _)
  rw [receive_of_fold (by exact hidle) (by rw [← hreceive, ← hkey]; rfl)]
  exact ⟨hidle, rfl, ⟨signature, rfl⟩, hserve.symm, rfl, ⟨_, _, rfl⟩, hkeep⟩

/-- A folded exchange leaves the owner ready for the rest. -/
theorem Folded.ready {w w' : Session} {e : Exchange} {req : LongjingRequestDto} {published : Point} {ticket : String}
    {n : Nat} (h : w.Folded d cfg e req published ticket w') (hready : w.Ready d tools (n + 1))
    (hindex : 0 ≤ w.note.opening.index)
    (hticket : ticket = toString (nullifierOf tools w.note w.note.opening.index.toNat : Int))
    : w'.Ready d tools n := by
  obtain ⟨signature, hnote⟩ := h.note
  have honchain : w'.onchain tools = w.onchain tools := by
    unfold onchain committed
    rw [h.chain, hnote]
    rfl
  have hopening : w'.note.opening.index = w.note.opening.index + 1
      ∧ w'.note.opening.refunds = w.note.opening.refunds + refundOf d.cMax e.actualCost := by
    rw [hnote]
    exact ⟨rfl, rfl⟩
  obtain ⟨hnext, hrefunds⟩ := hopening
  have htickets (j : Nat) : nullifierOf tools w'.note (w'.note.opening.index.toNat + j)
      = nullifierOf tools w.note (w.note.opening.index.toNat + (j + 1)) := by
    rw [hnext, hnote, Int.toNat_add hindex (by decide), Nat.add_assoc, Nat.add_comm j 1]
    rfl
  have hrefund := Server.refundOf_le d.cMax e.actualCost
  refine ⟨h.idle, by rw [hnote]; rfl, by rw [h.chain]; exact hready.stack, by rw [honchain]; exact hready.active, ?_,
    ?_, ?_, ?_, ?_⟩
  . have hall := hready.covers
    rw [honchain, hnext, hrefunds]
    push_cast at hall
    have heq : w.note.opening.index + 1 + (n : Int) = w.note.opening.index + (n + 1) := by omega
    rw [heq]
    omega
  . have hall := hready.index
    push_cast at hall
    omega
  . have hall := hready.refunds
    rw [hrefunds]
    push_cast at hall
    rw [Int.add_mul] at hall
    omega
  . intro j hj
    rw [htickets]
    refine h.unseen _ ?_ (hready.unseen (j + 1) (by omega))
    rw [hticket]
    intro heq
    have hsame := hready.distinct (j + 1) (by omega) 0 (Nat.succ_pos n)
      (Int.ofNat.inj (Js.toString_injective heq))
    omega
  . intro j hj j' hj' heq
    rw [htickets, htickets] at heq
    have hsame := hready.distinct (j + 1) (by omega) (j' + 1) (by omega) heq
    omega

theorem Folded.exchanged {w w' : Session} {e : Exchange} {req : LongjingRequestDto} {published : Point}
    {ticket : String} (h : w.Folded d cfg e req published ticket w') (hpayload : req.payload = e.payload)
    : w.Exchanged d cfg [e] w' := by
  obtain ⟨signature, hnote⟩ := h.note
  obtain ⟨a, v, hevents⟩ := h.events
  refine ⟨h.chain, by rw [hnote]; rfl, by rw [hnote]; simp [foldResponse], by rw [hnote]; rfl, _, _, h.execs, hevents,
    .cons ⟨hpayload, published, rfl⟩ .nil, rfl⟩

theorem Ready.committed_eq {w : Session} {n : Nat} (h : w.Ready d tools n) {actions : List Credits.Action}
    (hchain : w.system.chain = Credits.run d actions) : w.committed = (Credits.run d actions).state := by
  have hstack := h.stack
  unfold committed Credits.Machine.committed
  rw [hstack, hchain]
  rfl

/-- An owner that is ready for one more request can prove it. -/
theorem Ready.exists_inStep {w : Session} {n : Nat} (h : w.Ready d tools (n + 1)) (hpartners : Partners d cfg tools)
    (hbooks : w.Books d tools (· = d.serverPublicKey)) (hkey : w.committed.serverPublicKey = d.serverPublicKey)
    {actions : List Credits.Action} (hchain : w.system.chain = Credits.run d actions)
    (hzero : ¬ Circuit.ZeroPreimage d actions []) (payload : String) (model : Option String) (nonce : Nat)
    {rerandomizer : Nat} (hrerandomizer : rerandomizer < FIELD_MODULUS)
    : ∃ path inputs body, getMerkleProof w.committed (w.onchain tools).leafIndex = .ok path
        ∧ InStep tools w.note
          ⟨w.onchain tools, path, w.committed.merkleRoot, d.cMax, w.committed.serverPublicKey⟩ payload model nonce
          rerandomizer inputs body := by
  obtain ⟨hleaves, htree⟩ := Circuit.run_tree hzero (List.prefix_refl actions)
  have hdeposited := (Credits.Machine.run_invariant (Credits.Deposited.invariant d) actions).1
  rw [← h.committed_eq hchain] at hleaves htree hdeposited
  have hexists : (w.onchain tools).status ≠ .none := by rw [h.active]; simp
  obtain ⟨path, hpath, -⟩ := Circuit.climb_getMerkleProof hleaves htree
    (hleaves.index_lt (commitmentOf tools w.note) hexists)
  have hindex := h.index
  have hcovers : (w.note.opening.index + 1) * d.cMax ≤ (w.onchain tools).amount + w.note.opening.refunds := by
    have hall := h.covers
    have hrest : (0 : Int) ≤ n * d.cMax := Int.mul_nonneg (Int.natCast_nonneg _) (Int.natCast_nonneg _)
    push_cast at hall
    rw [Int.add_mul, Int.add_mul] at hall
    rw [Int.add_mul]
    omega
  have hrefunds_lt : w.note.opening.refunds < 2 ^ 128 := by
    have hall := h.refunds
    have hrest : (0 : Int) ≤ (n + 1 : Nat) * d.cMax := Int.mul_nonneg (Int.natCast_nonneg _) (Int.natCast_nonneg _)
    omega
  obtain ⟨inputs, body, hstep⟩ := inStep_of_sound hpartners.poseidon (by rw [hkey]; exact hpartners.refundKey)
    hbooks.sound (fun key hsigned => ((hbooks.signedBy key hsigned).1).trans hkey.symm) h.pending hleaves htree
    hdeposited h.active hpath hrefunds_lt (by omega) hcovers payload model nonce rerandomizer hrerandomizer
  exact ⟨path, inputs, body, hpath, hstep⟩

/-- One exchange, from any state of an honest run in which the owner can afford it. -/
theorem exchange_step (hpartners : Partners d cfg tools) {rows : Js.Map String Server.StoredSignal} {secretKey : F}
    {commands : List Command}
    (hrun : HonestRun d cfg tools (· = d.serverPublicKey) rows secretKey commands) {actions : List Credits.Action}
    (hchain : (run d cfg tools rows secretKey commands).system.chain = Credits.run d actions)
    (hzero : ¬ Circuit.ZeroPreimage d actions []) {n : Nat}
    (hready : (run d cfg tools rows secretKey commands).Ready d tools (n + 1)) {e : Exchange} (he : e.Valid d)
    : ∃ more, HonestRun d cfg tools (· = d.serverPublicKey) rows secretKey (commands ++ more)
        ∧ (run d cfg tools rows secretKey (commands ++ more)).Ready d tools n
        ∧ (run d cfg tools rows secretKey commands).Exchanged d cfg [e]
          (run d cfg tools rows secretKey (commands ++ more)) := by
  have hbooks := books_run hrun
  have hsecretKey := @secretKey_run d cfg tools rows secretKey commands
  have hkey := hrun.registered commands (List.prefix_refl _)
  obtain ⟨served, hserver, hcMaxes⟩ := @server_run d cfg tools rows secretKey commands
  have hhonest (more : List Command) := @HonestRun.append d cfg tools _ rows secretKey commands more hrun
  have happend (more : List Command) := @run_append d cfg tools rows secretKey commands more
  generalize run d cfg tools rows secretKey commands = w at *
  have hindex_nonneg := hbooks.sound.index
  have hindex := hready.index
  have hmodulus : 2 ^ 128 < FIELD_MODULUS := by decide
  obtain ⟨hknown, hroot⟩ := isKnownRoot_merkleRoot (hready.committed_eq hchain) hzero
  obtain ⟨hmin, hmax⟩ := hbooks.deposit_lt (by rw [hready.active]; simp)
  -- the request that the owner proves, and what the server makes of it
  obtain ⟨path, inputs, body, hpath, hstep⟩ := hready.exists_inStep hpartners hbooks hkey hchain hzero e.payload
    e.model e.nonce he.rerandomizer
  have hnullifier := hstep.nullifier_val ⟨hindex_nonneg, by omega⟩ (by rw [hsecretKey]; exact secretKey.val_lt)
  have hunseen := hready.unseen 0 (Nat.succ_pos n)
  rw [Nat.add_zero, ← hnullifier] at hunseen
  obtain ⟨req, hpayload, hfolded⟩ := foldl_exchange hpartners he hready.idle hready.pending hready.active hkey
    (by omega) hknown hroot hpath hstep hunseen
  refine ⟨exchangeCommands cfg d w e req (ofSignals (inputs.outputs tools.poseidon).accumulator), ?_, ?_, ?_⟩
  . apply hhonest
    . unfold exchangeCommands requestCommands servedActions Server.servedActions
      simp [Command.OffChain]
    . -- the only response is that of the server, which ends its part of the run
      intro response hmem
      obtain rfl : response = _ := by
        simpa [exchangeCommands, requestCommands, servedActions, Server.servedActions] using hmem
      refine ⟨cfg, rows, served ++ servedActions d w e req, ?_, ?_⟩
      . intro i c hmatched
        rcases List.mem_append.mp hmatched with hold | hnew
        . exact hcMaxes i c hold
        . have hthis : i = w.system.server.execs.length ∧ c = d.cMax := by
            simpa [servedActions, Server.servedActions] using hnew
          exact hthis.2
      . have hexecs := hfolded.execs
        rw [hfolded.server, hserver] at hexecs
        have hsplit : (Server.init rows).run cfg (served ++ servedActions d w e req)
            = ((Server.init rows).run cfg served).run cfg (servedActions d w e req) := List.foldl_append
        rw [hsplit, hexecs]
        exact ⟨_, List.mem_append_right _ List.mem_cons_self, _, rfl, rfl⟩
  . rw [happend]
    exact hfolded.ready hready hindex_nonneg (by rw [hnullifier])
  . rw [happend]
    exact hfolded.exchanged hpayload

end Session

/-- An honest owner whose note is active and pays for all of the exchanges can make one after another with an
honest server, whatever the run has been so far: each request is accepted at the first attempt, goes to the
provider once and is answered, and each answer is folded, with the refund of that exchange. -/
theorem run_exchanges (d : Deployment) (cfg : Server.Config) (tools : Tools)
    (rows : Js.Map String Server.StoredSignal) (secretKey : F) (commands : List Command)
    (hpartners : Partners d cfg tools)
    (hrun : HonestRun d cfg tools (· = d.serverPublicKey) rows secretKey commands) (actions : List Credits.Action)
    (hchain : (Session.run d cfg tools rows secretKey commands).system.chain = Credits.run d actions)
    (hzero : ¬ Circuit.ZeroPreimage d actions []) (exchanges : List Exchange)
    (hready : (Session.run d cfg tools rows secretKey commands).Ready d tools exchanges.length)
    (hvalid : ∀ e ∈ exchanges, e.Valid d)
    : ∃ more, HonestRun d cfg tools (· = d.serverPublicKey) rows secretKey (commands ++ more)
        ∧ (Session.run d cfg tools rows secretKey (commands ++ more)).Ready d tools 0
        ∧ (Session.run d cfg tools rows secretKey commands).Exchanged d cfg exchanges
          (Session.run d cfg tools rows secretKey (commands ++ more)) := by
  induction exchanges generalizing commands with
  | nil =>
    refine ⟨[], ?_, ?_, ?_⟩
    all_goals rw [List.append_nil]
    . exact hrun
    . exact hready
    . exact .refl _
  | cons e exchanges ih =>
    obtain ⟨first, hfirst, hrest, hexchanged⟩ := Session.exchange_step hpartners hrun hchain hzero hready
      (hvalid e List.mem_cons_self)
    obtain ⟨more, hmore, hdone, hothers⟩ := ih (commands ++ first) hfirst (hexchanged.chain.trans hchain) hrest
      fun e' he' => hvalid e' (List.mem_cons_of_mem _ he')
    rw [List.append_assoc] at hmore hdone hothers
    exact ⟨first ++ more, hmore, hdone, hexchanged.cons hothers⟩

section Example

open Client (keySignals noteDeposit signatureRefunded signedDeployment signedKey signedPoseidon)

/-- Knows one signature, over the successor of the first request with a refund of 0.0004 ETH. -/
def verifyRefunded (_ : F) (R8 : F × F) (S : F) (A : F × F) : Bool :=
  A = keySignals signedKey ∧ R8 = ((signatureRefunded.R8x : F), (signatureRefunded.R8y : F))
    ∧ S = (signatureRefunded.S : F)

noncomputable def exchangeTools : Tools :=
  .reference signedPoseidon (.reference verifyRefunded)
    (fun _ => 21023094671860425355490264926124925764559694019428733141923896094461443340962) Client.exampleProof []

def exchangeConfig : Server.Config :=
  { signedConfig with
    sign := fun _ => ⟨toString signatureRefunded.R8x, toString signatureRefunded.R8y, toString signatureRefunded.S⟩ }

theorem partners_exchange : Partners signedDeployment exchangeConfig exchangeTools where
  poseidon := rfl
  serverPoseidon := rfl
  payloadDigest := rfl
  serverKey := rfl
  refundKey := ⟨by decide +kernel, by decide +kernel, Client.onCurve_signedKey, fun _ _ _ h => Or.inr h⟩
  proof i proof o h := by
    have hwire : proof = Client.exampleProof := by
      unfold exchangeTools Tools.reference at h
      simp only at h
      split at h
      next => exact (Prod.mk.inj (Option.some.inj h)).1.symm
      next => cases h
    have hcanonical (a : F) : (0 : Int) ≤ (a.val : Int) ∧ (a.val : Int) < FIELD_MODULUS :=
      ⟨Int.natCast_nonneg _, Int.ofNat_lt.mpr a.val_lt⟩
    refine ⟨by rw [hwire]; exact Client.isDecimal_exampleProof, ?_⟩
    have hgroth16 : exchangeConfig.groth16 = Server.canonicalVerifier := rfl
    rw [hgroth16]
    simp only [Server.canonicalVerifier, RequestInputs.publicSignals, List.map_cons, List.map_nil, List.all_cons,
      List.all_nil, Int.ofNat_eq_natCast, hcanonical, decide_true, Bool.and_self]
  sign A := by
    have hread (n : Int) : Js.BigInt (toString n) = some n := Js.BigInt_intRepr n
    have hverify : verifyRefunded (exchangeTools.poseidon.sig2 (A.1 : F) (A.2 : F))
        ((signatureRefunded.R8x : F), (signatureRefunded.R8y : F)) (signatureRefunded.S : F) (keySignals signedKey)
          = true :=
      decide_eq_true ⟨rfl, rfl, rfl⟩
    refine ⟨signatureRefunded, hread _, hread _, hread _, ?_⟩
    unfold Client.verifyPoseidon
    rw [Bool.and_eq_true, Bool.and_eq_true]
    exact ⟨⟨by decide, by decide⟩, hverify⟩

/-- The payload "hi", at a cost of 0.0006 ETH. -/
def firstExchange : Exchange := ⟨"hi", none, 7, 5, 1, true, "hello", 600000000000000⟩

theorem firstExchange_valid : firstExchange.Valid signedDeployment where
  payload := by decide
  model := by simp [firstExchange]
  nonce := by decide
  rerandomizer := by decide
  cost := by decide

theorem commitmentOf_exchange (commands : List Command)
    : commitmentOf exchangeTools (Session.run signedDeployment exchangeConfig exchangeTools [] 2 commands).note
      = 8645981980787649023086883978738420856660271013038108762834452721572614684349 := by
  unfold commitmentOf
  rw [Session.secretKey_run, show ((2 : F)).val = 2 from Client.secretKey_two]
  show signedPoseidon.hash1 2 = _
  decide +kernel

theorem not_zeroPreimage_signed (actions : List Credits.Action)
    : ¬ Circuit.ZeroPreimage signedDeployment actions [] := by
  rintro ⟨u, -, hzero⟩
  have hval := congrArg ZMod.val hzero
  rw [Poseidon.sig2_val, ZMod.val_zero] at hval
  exact Client.signedPoseidon_ne_zero _ _ hval

theorem honestRun_exchange
    : HonestRun signedDeployment exchangeConfig exchangeTools (· = signedKey) [] 2
        [.system (.chain noteDeposit)] := by
  refine ⟨by simp, ?_⟩
  intro before hbefore
  rcases List.prefix_cons_iff.mp hbefore with rfl | ⟨rest, rfl, hrest⟩
  . rfl
  . obtain rfl := List.prefix_nil.mp hrest
    obtain ⟨hstack, -, -, -, -, hkey⟩ := Client.signedDeposit_facts
    show (Credits.run signedDeployment [noteDeposit]).committed.serverPublicKey = _
    unfold Credits.Machine.committed
    rw [List.length_eq_zero_iff.mp hstack]
    exact hkey

theorem nullifierOf_two {j j' : Nat} (hj : j < 2) (hj' : j' < 2)
    (heq : nullifierOf exchangeTools (Client.newNote 2) j = nullifierOf exchangeTools (Client.newNote 2) j')
    : j = j' := by
  have hsecretKey : (2 : F).val = 2 := Client.secretKey_two
  have hdiffer : signedPoseidon.hash1 (signedPoseidon.hash2 2 0) ≠ signedPoseidon.hash1 (signedPoseidon.hash2 2 1) := by
    decide +kernel
  change signedPoseidon.hash1 (signedPoseidon.hash2 (2 : F).val j)
    = signedPoseidon.hash1 (signedPoseidon.hash2 (2 : F).val j') at heq
  rw [hsecretKey] at heq
  interval_cases j <;> interval_cases j'
  . rfl
  . exact absurd heq hdiffer
  . exact absurd heq.symm hdiffer
  . rfl

/-- After the deposit the owner can make two requests. -/
theorem ready_deposit {n : Nat} (hn : n ≤ 2)
    : (Session.run signedDeployment exchangeConfig exchangeTools [] 2 [.system (.chain noteDeposit)]).Ready
        signedDeployment exchangeTools n := by
  obtain ⟨hempty, -, -, hnote, -⟩ := Client.signedDeposit_facts
  have hstack := List.length_eq_zero_iff.mp hempty
  have hcommitment := commitmentOf_exchange [.system (.chain noteDeposit)]
  have hrun : Session.run signedDeployment exchangeConfig exchangeTools [] 2 [.system (.chain noteDeposit)]
      = ⟨⟨Credits.run signedDeployment [noteDeposit], Server.init []⟩, Client.newNote 2, none, 0⟩ := rfl
  rw [hrun] at hcommitment ⊢
  have honchain
      : (⟨⟨Credits.run signedDeployment [noteDeposit], Server.init []⟩, Client.newNote 2, none, 0⟩ : Session).onchain
      exchangeTools = ⟨1000000000000000000, 1700000000, 0, .active⟩ := by
    unfold Session.onchain Session.committed Credits.Machine.committed
    rw [hcommitment]
    simp only [hstack]
    exact hnote
  have hcMax : (signedDeployment.cMax : Int) = 1000000000000000 := rfl
  refine ⟨rfl, rfl, hstack, by rw [honchain], ?_, ?_, ?_, ?_, ?_⟩
  . rw [honchain, hcMax]
    show (0 + (n : Int)) * 1000000000000000 ≤ ((1000000000000000000 : Nat) : Int) + 0
    omega
  . show (0 : Int) + n ≤ 2 ^ 32
    omega
  . rw [hcMax]
    show (0 : Int) + n * 1000000000000000 < 2 ^ 128
    omega
  . exact fun _ _ => ⟨rfl, List.not_mem_nil⟩
  . intro j hj j' hj' heq
    have heq : nullifierOf exchangeTools (Client.newNote 2) (0 + j)
        = nullifierOf exchangeTools (Client.newNote 2) (0 + j') := heq
    rw [Nat.zero_add, Nat.zero_add] at heq
    exact nullifierOf_two (Nat.lt_of_lt_of_le hj hn) (Nat.lt_of_lt_of_le hj' hn) heq

theorem opening_firstExchange {w : Session}
    (h : (Session.run signedDeployment exchangeConfig exchangeTools [] 2 [.system (.chain noteDeposit)]).Exchanged
      signedDeployment exchangeConfig [firstExchange] w)
    : w.note.opening.index = 1 ∧ w.note.opening.refunds = 400000000000000 := by
  have hopening : (Session.run signedDeployment exchangeConfig exchangeTools [] 2
      [.system (.chain noteDeposit)]).note.opening = ⟨0, 0, 0⟩ := rfl
  constructor
  . rw [h.index, hopening]
    rfl
  . rw [h.refunds, hopening]
    decide

/-- A run of the first exchange, after which the owner can make one more. -/
theorem exists_answered
    : ∃ commands,
        HonestRun signedDeployment exchangeConfig exchangeTools (· = signedDeployment.serverPublicKey) [] 2 commands
          ∧ (Session.run signedDeployment exchangeConfig exchangeTools [] 2 commands).Ready signedDeployment
            exchangeTools 1
          ∧ (Session.run signedDeployment exchangeConfig exchangeTools [] 2 commands).system.chain
            = Credits.run signedDeployment [noteDeposit]
          ∧ (Session.run signedDeployment exchangeConfig exchangeTools [] 2 commands).note.opening.index = 1
          ∧ (Session.run signedDeployment exchangeConfig exchangeTools [] 2 commands).note.opening.refunds
            = 400000000000000 := by
  obtain ⟨more, hmore, hready, hexchanged⟩ := Session.exchange_step partners_exchange honestRun_exchange rfl
    (not_zeroPreimage_signed [noteDeposit]) (ready_deposit (Nat.le_refl 2)) firstExchange_valid
  exact ⟨_, hmore, hready, hexchanged.chain, opening_firstExchange hexchanged⟩

/-- The first request of the deposited note is answered, and 0.0004 ETH of it come back. -/
theorem run_exchanges_first
    : ∃ commands, (Session.run signedDeployment exchangeConfig exchangeTools [] 2 commands).note.opening.index = 1
        ∧ (Session.run signedDeployment exchangeConfig exchangeTools [] 2 commands).note.opening.refunds
          = 400000000000000 := by
  obtain ⟨more, -, -, hexchanged⟩ := run_exchanges signedDeployment exchangeConfig exchangeTools [] 2
    [.system (.chain noteDeposit)] partners_exchange honestRun_exchange [noteDeposit] rfl
    (not_zeroPreimage_signed [noteDeposit]) [firstExchange] (ready_deposit (by decide))
    (by simpa using firstExchange_valid)
  exact ⟨_, opening_firstExchange hexchanged⟩

end Example

end System
end Longjing
