import Longjing.Accumulator.Homomorphism
import Longjing.Client.Prove

/-!
This module contains the owner of a note as a state machine over the commands of `prove.ts`, and what
the opening in the note's file says about the accumulator the server signed last.
-/

namespace Longjing
namespace Client

open Accumulator
open Credits (EdDSAPublicKey)

/-- A signal that left the client. -/
structure Emission where
  index : Int
  exit : Bool
  nullifier : String
  x : String
deriving DecidableEq, Repr

/-- The note's file, next to two records that no code reads: the responses that were folded and the
signals that left the client, the last one first. -/
structure Owner where
  note : NoteFile
  accepted : List RequestResponse
  emitted : List Emission

/-- The commands of `prove.ts` on a note, with what each of them awaits. -/
inductive Command where
  | request (payload : String) (model : Option String) (reads : RequestReads) (nonce rerandomizer : Nat)
  | receive (response : RequestResponse) (key : EdDSAPublicKey)
  | withdrawal (recipient : Nat) (reads : ExitReads)

variable (tools : Tools)

/-- Where a list may be in, of which the run so far and the next command are the beginning. -/
theorem begins_cons {α : Type} {before commands : List α} {c a : α} (h : before ++ [c] <+: a :: commands)
    : (before = [] ∧ c = a) ∨ ∃ rest, before = a :: rest ∧ rest ++ [c] <+: commands := by
  cases before with
  | nil =>
    rw [List.nil_append, List.cons_prefix_cons] at h
    exact .inl ⟨rfl, h.1⟩
  | cons b before =>
    rw [List.cons_append, List.cons_prefix_cons] at h
    exact .inr ⟨before, by rw [h.1], h.2⟩

theorem expectedAccumulator_eq (note : NoteFile) (rerandomizer : Nat) (refund : Int)
    : expectedAccumulator tools note rerandomizer refund
      = coords (accumulatorPoint (note.opening.refunds.toNat + refund.toNat) (note.opening.index.toNat + 1)
          (commitmentOf tools note) (note.opening.blinding.toNat + rerandomizer)) := by
  unfold expectedAccumulator openingOf
  rw [commit_eq, rerandomize_coords, applyRefund_coords, Int.toNat_natCast, Int.toNat_natCast,
    accumulatorPoint_refund]

namespace Owner

/-- The file is written before a body or the arguments of an exit are printed. -/
def step (o : Owner) : Command → Owner
  | .request payload model reads nonce rerandomizer =>
    match proveRequest tools o.note payload model reads nonce rerandomizer with
    | some (body, note) =>
      { o with
        note := note
        emitted := ⟨o.note.opening.index, false, body.nullifier, body.signal.x⟩ :: o.emitted }
    | none => o
  | .receive response key =>
    match Client.receive tools o.note response key with
    | some note => { o with note := note, accepted := response :: o.accepted }
    | none => o
  | .withdrawal recipient reads =>
    match proveWithdrawal tools o.note recipient none reads with
    | some args =>
      { o with
        emitted := ⟨usedIndices o.note, true, toString args.nullifier, toString reads.signalX⟩ :: o.emitted }
    | none => o

def start (secretKey : F) : Owner := ⟨newNote secretKey, [], []⟩

def run (secretKey : F) (commands : List Command) : Owner :=
  commands.foldl (step tools) (start secretKey)

@[simp]
theorem run_nil (secretKey : F) : run tools secretKey [] = start secretKey := rfl

@[simp]
theorem run_concat (secretKey : F) (commands : List Command) (c : Command)
    : run tools secretKey (commands ++ [c]) = (run tools secretKey commands).step tools c := by
  simp [run]

def accumulator (o : Owner) : Point := commit (openingOf o.note (commitmentOf tools o.note))

/-- The opening opens the accumulator whose signature the note stores, or the genesis accumulator. -/
structure Opens (o : Owner) : Prop where
  refunds : 0 ≤ o.note.opening.refunds
  index : o.note.opening.index = o.accepted.length
  blinding : 0 ≤ o.note.opening.blinding ∧ o.note.opening.blinding < SUBGROUP_ORDER
  genesis : o.accepted = [] →
    o.note.signature = none ∧ o.accumulator tools = Accumulator.genesis (commitmentOf tools o.note)
  signed : ∀ response older, o.accepted = response :: older → ∃ signature key,
    o.note.signature = some signature ∧ o.note.signedBy = some key
      ∧ response.R8x = some signature.R8x ∧ response.R8y = some signature.R8y
      ∧ response.S = some signature.S
      ∧ response.x = some (o.accumulator tools).1 ∧ response.y = some (o.accumulator tools).2
      ∧ verifyPoseidon tools
          (tools.poseidon.sig2 ((o.accumulator tools).1 : F) ((o.accumulator tools).2 : F))
          signature (keySignals key) = true

/-- `receive` folds no negative refund. -/
def Fair (o : Owner) : Command → Prop
  | .receive response key =>
    ∀ refund, response.refund = some refund → Client.receive tools o.note response key ≠ none → 0 ≤ refund
  | _ => True

variable {tools} {o : Owner}

variable (tools) in
/-- What a command may do to the owner. -/
inductive Step (o : Owner) : Command → Owner → Prop where
  | stay (c : Command) : Step o c o
  -- a pending body is printed again
  | again (payload : String) (model : Option String) (reads : RequestReads) (nonce rerandomizer : Nat)
      (pending : Pending)
    : o.note.pending = some pending →
      Step o (.request payload model reads nonce rerandomizer)
        { o with
          emitted := ⟨o.note.opening.index, false, pending.body.nullifier, pending.body.signal.x⟩
            :: o.emitted }
  | fresh (payload : String) (model : Option String) (reads : RequestReads) (nonce rerandomizer : Nat)
      (body : Server.RequestBody) (note : NoteFile)
    : o.note.pending = none →
      proveFresh tools o.note payload model reads nonce rerandomizer = some (body, note) →
      Step o (.request payload model reads nonce rerandomizer)
        { o with
          note := note
          emitted := ⟨o.note.opening.index, false, body.nullifier, body.signal.x⟩ :: o.emitted }
  | folded (response : RequestResponse) (key : EdDSAPublicKey) (note : NoteFile)
    : Client.receive tools o.note response key = some note →
      Step o (.receive response key) { o with note := note, accepted := response :: o.accepted }
  | exited (recipient : Nat) (reads : ExitReads) (args : Credits.WithdrawalArgs)
    : proveWithdrawal tools o.note recipient none reads = some args →
      Step o (.withdrawal recipient reads)
        { o with
          emitted := ⟨usedIndices o.note, true, toString args.nullifier, toString reads.signalX⟩
            :: o.emitted }

theorem step_sound (o : Owner) (c : Command) : o.Step tools c (o.step tools c) := by
  cases c with
  | request payload model reads nonce rerandomizer =>
    simp only [step, proveRequest]
    cases hpending : o.note.pending with
    | some pending => exact .again payload model reads nonce rerandomizer pending hpending
    | none =>
      cases hfresh : proveFresh tools o.note payload model reads nonce rerandomizer with
      | none => exact .stay _
      | some r => exact .fresh payload model reads nonce rerandomizer r.1 r.2 hpending hfresh
  | receive response key =>
    simp only [step]
    cases hreceive : Client.receive tools o.note response key with
    | none => exact .stay _
    | some note => exact .folded response key note hreceive
  | withdrawal recipient reads =>
    simp only [step]
    cases hprove : proveWithdrawal tools o.note recipient none reads with
    | none => exact .stay _
    | some args => exact .exited recipient reads args hprove

theorem opens_start (secretKey : F) : (start secretKey).Opens tools where
  refunds := by simp [start, newNote]
  index := rfl
  blinding := by
    constructor
    . simp [start, newNote]
    . simp only [start, newNote]
      decide
  genesis _ := ⟨rfl, rfl⟩
  signed response older h := by simp [start] at h

theorem Opens.of_eq {o' : Owner} (h : o.Opens tools) (hkey : o'.note.secretKey = o.note.secretKey)
    (hopening : o'.note.opening = o.note.opening) (hsignature : o'.note.signature = o.note.signature)
    (hsignedBy : o'.note.signedBy = o.note.signedBy) (haccepted : o'.accepted = o.accepted)
    : o'.Opens tools := by
  have hcommitment : commitmentOf tools o'.note = commitmentOf tools o.note := by
    unfold commitmentOf
    rw [hkey]
  have haccumulator : o'.accumulator tools = o.accumulator tools := by
    unfold accumulator openingOf
    rw [hcommitment, hopening]
  refine ⟨?_, ?_, ?_, ?_, ?_⟩
  . rw [hopening]
    exact h.refunds
  . rw [hopening, haccepted]
    exact h.index
  . rw [hopening]
    exact h.blinding
  . rw [haccepted, hsignature, haccumulator, hcommitment]
    exact h.genesis
  . rw [haccepted, hsignature, hsignedBy, haccumulator]
    exact h.signed

theorem commit_foldResponse (h : o.Opens tools) (key : EdDSAPublicKey) (rerandomizer : Nat) {refund : Int}
    (hrefund : 0 ≤ refund) (signature : Signature)
    : commit (openingOf (foldResponse o.note key rerandomizer refund signature) (commitmentOf tools o.note))
      = expectedAccumulator tools o.note rerandomizer refund := by
  have hindex : 0 ≤ o.note.opening.index := by
    rw [h.index]
    exact Int.natCast_nonneg _
  unfold expectedAccumulator openingOf foldResponse
  rw [commit_mod_blinding (Int.add_nonneg h.blinding.1 (Int.natCast_nonneg _)),
    applyRefund_rerandomize_commit h.refunds hindex h.blinding.1 (Int.natCast_nonneg _) hrefund]

theorem Opens.folded {note : NoteFile} {response : RequestResponse} {key : EdDSAPublicKey}
    (h : o.Opens tools) (hreceive : Client.receive tools o.note response key = some note)
    (hfair : o.Fair tools (.receive response key))
    : Opens tools { o with note := note, accepted := response :: o.accepted } := by
  have hsome : Client.receive tools o.note response key ≠ none := by simp [hreceive]
  obtain ⟨pending, refund, signature, hpending, hrefund, hR8x, hR8y, hS, hx, hy, hverify, rfl⟩ :=
    receive_eq_some.mp hreceive
  have hnonneg : 0 ≤ refund := hfair refund hrefund hsome
  have haccumulator : accumulator tools
      ⟨foldResponse o.note key pending.rerandomizer refund signature, response :: o.accepted, o.emitted⟩
      = expectedAccumulator tools o.note pending.rerandomizer refund :=
    commit_foldResponse h key pending.rerandomizer hnonneg signature
  have hsum : 0 ≤ o.note.opening.blinding + pending.rerandomizer :=
    Int.add_nonneg h.blinding.1 (Int.natCast_nonneg _)
  refine ⟨?_, ?_, ?_, ?_, ?_⟩
  . exact Int.add_nonneg h.refunds hnonneg
  . simp only [foldResponse, List.length_cons, h.index, Nat.cast_add, Nat.cast_one]
  . exact ⟨Int.tmod_nonneg _ hsum, Int.tmod_lt_of_pos _ (by decide)⟩
  . intro hnil
    simp at hnil
  . intro response' older hcons
    obtain ⟨rfl, -⟩ := List.cons.inj hcons
    rw [haccumulator]
    exact ⟨signature, key, rfl, rfl, hR8x, hR8y, hS, hx, hy, hverify⟩

theorem Opens.step (h : o.Opens tools) {c : Command} (hfair : o.Fair tools c) : (o.step tools c).Opens tools := by
  have hstep := @step_sound tools o c
  generalize o.step tools c = o' at hstep ⊢
  cases hstep with
  | stay => exact h
  | again => exact h.of_eq rfl rfl rfl rfl rfl
  | fresh payload model reads nonce rerandomizer body note hpending hfresh =>
    obtain ⟨-, _, _, _, -, -, -, rfl⟩ := proveFresh_eq_some.mp hfresh
    exact h.of_eq rfl rfl rfl rfl rfl
  | folded response key note hreceive => exact h.folded hreceive hfair
  | exited => exact h.of_eq rfl rfl rfl rfl rfl

/-- Along a run that folds no negative refund the owner can open the accumulator it has. -/
theorem run_opens (tools : Tools) (secretKey : F) (commands : List Command)
    (hfair : ∀ before c, before ++ [c] <+: commands → (run tools secretKey before).Fair tools c)
    : (run tools secretKey commands).Opens tools := by
  induction commands using List.reverseRecOn with
  | nil => exact opens_start secretKey
  | append_singleton before c ih =>
    rw [run_concat]
    apply Opens.step
    . apply ih
      intro earlier c' hbegins
      exact hfair earlier c' (hbegins.trans (List.prefix_append before [c]))
    . exact hfair before c (List.prefix_refl _)

end Owner

section Example

/-- `Poseidon` for the next two indices of the note, for the successors of its first request with no refund and
with one of 0.0004 ETH, and for the next request with the payload "hi" and the nonce 8. -/
def signedTable : List ((Nat × Nat) × Nat) :=
  [
    ((2, 1), 9708419728795563670286566418307042748092204899363634976546883453490873071450),
    ((2, 2), 4699387056273519054140667386511343037709699938246587880795929666834307503001),
    ((1775757880630546393431930560248825333880943578622375140366622201912035521648,
      9082413372956829722840627148943922018253956642647906922433921671629093095074),
      3022870700604729348575399342308553797065667588362272857895082650329404848033),
    ((1996500503987190766265382112634496879291645537045295026863382925097569323829,
      3179602718120349596859708870164273830080087280145286996479396566212626942062),
      747917616976253041761072204145215448163683526389281130705037995882091371475),
    ((21023094671860425355490264926124925764559694019428733141923896094461443340962, 8),
      14418866609800806834611193340083287353738381462203492585665279071826129234971)
  ]

def signedPoseidon : Poseidon :=
  .ofTable
    [(2, 8645981980787649023086883978738420856660271013038108762834452721572614684349),
      (17525667638260400994329361135304146970274213890416440938331684485841550124768,
        10074324051855002609523505489937055907983030479915504202265069806858088209930),
      (9708419728795563670286566418307042748092204899363634976546883453490873071450,
        11629520981955130956177974356747473046172767574875429601070316277688632269632),
      (4699387056273519054140667386511343037709699938246587880795929666834307503001,
        13849009068553611280733168677721234283774928460976059859916127842701303485871)]
    (Credits.emptyTreeTable ++ noteTable ++ signedTable ++ Credits.firstExitTable)

/-- 123456789 times the base point. -/
def signedKey : EdDSAPublicKey :=
  ⟨15919299401931535325513703139194931338293993994510664661086800834970360591752,
    1645780246786685895560641778865228215443840970280597910012614014295481144366⟩

/-- The signature over the successor with no refund. -/
def signatureFirst : Signature :=
  ⟨12408407761374013844276501941943000031111802304596824456378038269479606465171,
    8900183827350286409155168389600519307631656244963149405851585192903494002858,
    2282928529187532327952829555505525063933314005524113646422745716442748800079⟩

/-- The signature over the successor with a refund of 0.0004 ETH. -/
def signatureRefunded : Signature :=
  ⟨18427342355169396116277864288133514133511571490148606473370596629705742368951,
    18481211181500888259738845559606563073593650485402268249705736960586693768464,
    2347920819213357293383930553172200400264395437455351192448580992940212445306⟩

/-- The messages that were signed with the key, each with its signature. -/
def signatures : List (F × Signature) :=
  [(3022870700604729348575399342308553797065667588362272857895082650329404848033, signatureFirst),
    (747917616976253041761072204145215448163683526389281130705037995882091371475, signatureRefunded)]

def verifySigned (M : F) (R8 : F × F) (S : F) (A : F × F) : Bool :=
  A = keySignals signedKey ∧ ∃ entry ∈ signatures,
    M = entry.1 ∧ R8 = ((entry.2.R8x : F), (entry.2.R8y : F)) ∧ S = (entry.2.S : F)

noncomputable def signedTools : Tools :=
  .reference signedPoseidon (.reference verifySigned)
    (fun _ => 21023094671860425355490264926124925764559694019428733141923896094461443340962) exampleProof []

def signedDeployment : Credits.Deployment :=
  { Credits.firstDeployment with poseidon := signedPoseidon, serverPublicKey := signedKey }

theorem signedPoseidon_ne_zero (a b : Nat) : signedPoseidon.hash2 a b ≠ 0 :=
  Poseidon.ofTable_hash2_ne_zero (by decide +kernel) a b

theorem onCurve_signedKey : Edwards.OnCurve babyJubjub (keySignals signedKey) :=
  @onCurve_of_isOnCurve ((signedKey.x : Int), (signedKey.y : Int)) (by decide +kernel)

theorem signedDeposit_facts
    : (Credits.run signedDeployment [noteDeposit]).stack.length = 0
      ∧ (Credits.run signedDeployment [noteDeposit]).state.entered = false
      ∧ (Credits.run signedDeployment [noteDeposit]).state.leaves.length = 1
      ∧ (Credits.run signedDeployment [noteDeposit]).state.notes
          8645981980787649023086883978738420856660271013038108762834452721572614684349
        = ⟨1000000000000000000, 1700000000, 0, .active⟩
      ∧ (Credits.run signedDeployment [noteDeposit]).state.merkleRoot = noteRoot
      ∧ (Credits.run signedDeployment [noteDeposit]).state.serverPublicKey = signedKey := by
  decide +kernel

def signedReads : RequestReads where
  note := ⟨1000000000000000000, 1700000000, 0, .active⟩
  path := (Credits.getMerkleProof (Credits.run signedDeployment [noteDeposit]).state 0).toOption.getD []
  root := noteRoot
  cMax := signedDeployment.cMax
  key := signedKey

example : signedReads.path.length = Credits.TREE_DEPTH := by decide +kernel

theorem commitmentOf_signed {note : NoteFile} (h : note.secretKey = 2)
    : commitmentOf signedTools note
      = 8645981980787649023086883978738420856660271013038108762834452721572614684349 := by
  unfold commitmentOf
  rw [h]
  show signedPoseidon.hash1 2 = _
  decide +kernel

theorem proveFresh_signed {note : NoteFile} (hkey : note.secretKey = 2)
    (hprovable : Provable signedTools note signedKey)
    (hsolvent : ((accumulatorInputs note).index.val + 1) * 1000000000000000
      ≤ 1000000000000000000 + (accumulatorInputs note).refunds.val) (payload : String) (nonce rerandomizer : Nat)
    : ∃ inputs proof,
        requestInputs note signedReads rerandomizer (payloadSignalX signedTools payload nonce) = some inputs
          ∧ Circuit.Request signedPoseidon signedTools.circomlib inputs (inputs.outputs signedPoseidon)
          ∧ proveFresh signedTools note payload none signedReads nonce rerandomizer
            = some (requestBody payload none nonce (payloadSignalX signedTools payload nonce) noteRoot proof
                (inputs.outputs signedPoseidon),
              { note with
                pending := some ⟨rerandomizer, requestBody payload none nonce
                  (payloadSignalX signedTools payload nonce) noteRoot proof (inputs.outputs signedPoseidon)⟩ }) := by
  obtain ⟨-, -, hleaves, hnote, hroot, -⟩ := signedDeposit_facts
  obtain ⟨htreeLeaves, htree⟩ := (Credits.Machine.run_invariantOn (Credits.Tree.invariantOn signedDeployment)
    [noteDeposit] fun _ _ => Credits.noZeroNode_of_hash2_ne_zero signedPoseidon_ne_zero _).1
  have hdeposited := (Credits.Machine.run_invariant (Credits.Deposited.invariant signedDeployment)
    [noteDeposit]).1
  obtain ⟨path, hpath, -⟩ := Circuit.climb_getMerkleProof htreeLeaves htree
    (show 0 < (Credits.run signedDeployment [noteDeposit]).state.leaves.length by rw [hleaves]; decide)
  rw [← commitmentOf_signed hkey] at hnote
  have hreads : signedReads = ⟨(Credits.run signedDeployment [noteDeposit]).state.notes
      (commitmentOf signedTools note), path, (Credits.run signedDeployment [noteDeposit]).state.merkleRoot,
      signedDeployment.cMax, signedKey⟩ := by
    rw [hnote, hroot, signedReads, hpath]
    rfl
  obtain ⟨inputs, proof, body, hinputs, hrequest, rfl, hfresh⟩ := @proveFresh_satisfied signedTools note
    signedDeployment _ path signedKey rfl htreeLeaves htree hdeposited (by rw [hnote])
    (by rw [hnote]; exact hpath) onCurve_signedKey hprovable (by rw [hnote]; exact hsolvent) payload none nonce
    rerandomizer
  rw [← hreads] at hinputs hfresh
  rw [hroot] at hfresh
  exact ⟨inputs, proof, hinputs, hrequest, hfresh⟩

theorem provable_genesis (tools : Tools) (secretKey : F) (key : EdDSAPublicKey)
    : Provable tools (newNote secretKey) key :=
  ⟨by simp [accumulatorInputs, newNote], by simp [accumulatorInputs, newNote],
    Or.inr (by simp [accumulatorInputs, newNote])⟩

def firstRequest : Command := .request "hi" none signedReads 7 5

theorem run_firstRequest
    : ∃ pending, pending.rerandomizer = 5 ∧ Owner.run signedTools 2 [firstRequest]
        = ⟨{ newNote 2 with pending := some pending }, [],
            [⟨0, false, pending.body.nullifier, pending.body.signal.x⟩]⟩ := by
  obtain ⟨inputs, proof, -, -, hfresh⟩ := proveFresh_signed secretKey_two (provable_genesis signedTools 2 signedKey)
    (by simp [accumulatorInputs, newNote]) "hi" 7 5
  have hrequest : proveRequest signedTools (newNote 2) "hi" none signedReads 7 5 = _ := hfresh
  have hrun : Owner.run signedTools 2 [firstRequest] = (Owner.start 2).step signedTools firstRequest := rfl
  rw [hrun]
  simp only [Owner.step, firstRequest, Owner.start, hrequest]
  exact ⟨_, rfl, rfl⟩

theorem receive_signed {note : NoteFile} {pending : Pending} {refund : Int} {x y M : Nat}
    {signature : Signature} (hkey : note.secretKey = 2) (hopening : note.opening = ⟨0, 0, 0⟩)
    (hpending : note.pending = some pending) (hrerandomizer : pending.rerandomizer = 5)
    (haccumulator : accumulatorIs refund.toNat 1
      8645981980787649023086883978738420856660271013038108762834452721572614684349 5 (x, y) = true)
    (hhash : signedPoseidon.hash2 x y = M) (hsigned : ((M : F), signature) ∈ signatures)
    (hS : 0 ≤ signature.S ∧ signature.S < SUBGROUP_ORDER)
    : receive signedTools note
        ⟨some refund, some x, some y, some signature.R8x, some signature.R8y, some signature.S⟩ signedKey
      = some (foldResponse note signedKey 5 refund signature) := by
  have hexpected : expectedAccumulator signedTools note 5 refund = ((x : Int), (y : Int)) := by
    rw [expectedAccumulator_eq, commitmentOf_signed hkey, hopening, ← coords_accumulatorPoint haccumulator]
    simp
  refine receive_eq_some.mpr ⟨pending, refund, signature, hpending, rfl, rfl, rfl, rfl, ?_, ?_, ?_, ?_⟩
  . rw [hrerandomizer, hexpected]
  . rw [hrerandomizer, hexpected]
  . rw [hrerandomizer, hexpected]
    have hmessage : signedTools.poseidon.sig2 (((x : Int) : F)) (((y : Int) : F)) = (M : F) := by
      rw [Int.cast_natCast, Int.cast_natCast, Poseidon.sig2_cast]
      exact congrArg Nat.cast hhash
    have hverify : verifySigned (M : F) ((signature.R8x : F), (signature.R8y : F)) (signature.S : F)
        (keySignals signedKey) = true :=
      decide_eq_true ⟨rfl, (M, signature), hsigned, rfl, rfl, rfl⟩
    unfold verifyPoseidon
    rw [hmessage, decide_eq_true hS.1, decide_eq_true hS.2]
    exact hverify
  . rw [hrerandomizer]

/-- An answer to the first request, over the successor without a refund. -/
def firstResponse (refund : Int) : RequestResponse :=
  ⟨some refund, some (1775757880630546393431930560248825333880943578622375140366622201912035521648 : Nat),
    some (9082413372956829722840627148943922018253956642647906922433921671629093095074 : Nat),
    some signatureFirst.R8x, some signatureFirst.R8y, some signatureFirst.S⟩

theorem run_firstResponse {refund : Int} (hrefund : refund ≤ 0)
    : (Owner.run signedTools 2 [firstRequest, .receive (firstResponse refund) signedKey]).note.opening
        = ⟨refund, 1, 5⟩ := by
  obtain ⟨pending, hrerandomizer, hrequest⟩ := run_firstRequest
  have hreceive : receive signedTools { newNote 2 with pending := some pending } (firstResponse refund) signedKey
      = some (foldResponse { newNote 2 with pending := some pending } signedKey 5 refund signatureFirst) :=
    receive_signed secretKey_two rfl rfl hrerandomizer
      (by rw [Int.toNat_of_nonpos hrefund]; decide +kernel)
      (show _ = 3022870700604729348575399342308553797065667588362272857895082650329404848033 by decide +kernel)
      (by simp [signatures]) (by decide)
  have hrun : Owner.run signedTools 2 [firstRequest, .receive (firstResponse refund) signedKey]
      = (Owner.run signedTools 2 [firstRequest]).step signedTools (.receive (firstResponse refund) signedKey) :=
    rfl
  rw [hrun]
  simp only [Owner.step, hrequest, hreceive]
  show (⟨0 + refund, 0 + 1, Int.tmod (0 + (5 : Nat)) SUBGROUP_ORDER⟩ : NoteOpening) = ⟨refund, 1, 5⟩
  rw [zero_add, zero_add, zero_add, show Int.tmod (5 : Nat) SUBGROUP_ORDER = 5 by decide]

namespace Owner

/-- A response that `receive` accepts takes 1 wei off the refunds, and the opening opens nothing. -/
theorem run_negativeRefund
    : (run signedTools 2 [firstRequest, .receive (firstResponse (-1)) signedKey]).note.opening
          = ⟨-1, 1, 5⟩
        ∧ ¬ (run signedTools 2 [firstRequest, .receive (firstResponse (-1)) signedKey]).Opens signedTools := by
  have hopening := run_firstResponse (show (-1 : Int) ≤ 0 by decide)
  refine ⟨hopening, ?_⟩
  intro hopens
  have hrefunds := hopens.refunds
  rw [hopening] at hrefunds
  exact absurd hrefunds (by decide)

/-- The same response with its refund of 0. -/
theorem run_opens_first
    : (run signedTools 2 [firstRequest, .receive (firstResponse 0) signedKey]).note.opening = ⟨0, 1, 5⟩
        ∧ (run signedTools 2 [firstRequest, .receive (firstResponse 0) signedKey]).Opens signedTools := by
  refine ⟨run_firstResponse (Int.le_refl 0), run_opens signedTools 2 _ ?_⟩
  intro before c hbegins
  have hmem : c ∈ [firstRequest, .receive (firstResponse 0) signedKey] := hbegins.subset (by simp)
  rcases List.mem_cons.mp hmem with rfl | hlast
  . trivial
  . obtain rfl := List.mem_singleton.mp hlast
    intro refund hrefund _
    rw [firstResponse, Option.some.injEq] at hrefund
    rw [← hrefund]

end Owner

end Example

end Client
end Longjing
