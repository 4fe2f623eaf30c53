import Longjing.Credits.Bn254
import Longjing.Credits.Lemmas.Settle
import Longjing.Credits.Lemmas.Verified
import Longjing.System.Understated

/-!
From a cheating exit to the end of its note: the contract's verifier only lets canonical signals through,
the server slashes what it is told, and the contract takes the key.
-/

namespace Longjing
namespace System

open Blockchain (WithdrawalInitiated)
open Circuit (Circomlib RequestInputs)
open Credits (CallsSettlementVerifier Deployment ExitVerified ExitsVerified TREE_DEPTH)
open Server (Canonical Event LongjingRequestDto parseFieldElement recoverSecretKey sightings storedSignal)

def Action.chain? : Action → Option Credits.Action
  | .chain a => some a
  | .server _ => none

/-- The part of a run that the contract sees. -/
def chainActions (actions : List Action) : List Credits.Action := actions.filterMap Action.chain?

theorem chainActions_append (actions more : List Action)
    : chainActions (actions ++ more) = chainActions actions ++ chainActions more :=
  List.filterMap_append

variable {d : Deployment} {cfg : Server.Config} {rows : Js.Map String Server.StoredSignal}

theorem State.run_chain (d : Deployment) (cfg : Server.Config) (rows : Js.Map String Server.StoredSignal)
    (actions : List Action) : (State.run d cfg rows actions).chain = Credits.run d (chainActions actions) := by
  induction actions using List.reverseRecOn with
  | nil => rfl
  | append_singleton actions a ih =>
    rw [State.run_concat, chainActions_append]
    cases a with
    | chain a =>
      have hone : chainActions [.chain a] = [a] := rfl
      rw [hone, Credits.run_concat, ← ih]
      rfl
    | server a =>
      have hnone : chainActions [.server a] = [] := rfl
      rw [hnone, List.append_nil]
      rcases @State.step_server d cfg (State.run d cfg rows actions) a with hstay | ⟨a', -, hstep⟩
      . rw [hstay, ih]
      . rw [hstep, ih]

/-- The exit was announced by the contract, in the run so far. -/
def Announced (d : Deployment) (actions : List Credits.Action) (exit : WithdrawalInitiated) : Prop :=
  ∃ c announced, exit = ⟨announced.nullifier, announced.signalX, announced.signalY⟩
    ∧ ExitVerified d actions c announced

theorem announced_of_mem {s : Credits.State} {actions : List Credits.Action} {exit : WithdrawalInitiated}
    (hverified : ExitsVerified d actions s.logs) (hmem : exit ∈ exitsOf s.logs) : Announced d actions exit := by
  unfold exitsOf at hmem
  obtain ⟨⟨t, event⟩, hlog, hexit⟩ := List.mem_filterMap.mp hmem
  cases event with
  | withdrawalInitiated c announced =>
    exact ⟨c, announced, (Option.some.inj hexit).symm, hverified t c announced hlog⟩
  | _ => cases hexit

/-- An exit that the contract has announced reaches the server. -/
theorem State.step_ingest {s : State} {exit : WithdrawalInitiated} (hmem : exit ∈ exitsOf s.chain.committed.logs)
    (slashing : Bool)
    : s.step d cfg (.server (.ingest exit slashing))
      = { s with server := s.server.step cfg (.ingest exit slashing) } := by
  have hground : groundAction d s.chain.committed (.ingest exit slashing) = some (.ingest exit slashing) := if_pos hmem
  simp only [State.step, hground]

theorem groundAction_slashing {s : Credits.State} {a a' : Server.Action} (h : groundAction d s a = some a')
    : a'.slashing = a.slashing := by
  unfold groundAction at h
  split at h
  next exec answer =>
    obtain rfl := Option.some.inj h
    unfold groundAnswer
    split <;> rfl
  next =>
    split at h
    next =>
      obtain rfl := Option.some.inj h
      rfl
    next => cases h
  next =>
    obtain rfl := Option.some.inj h
    rfl

/-- The server's part of a run is a run of the server, on exits that the contract announced. -/
theorem State.run_serverActions (actions : List Action)
    : ∃ as, (State.run d cfg rows actions).server = (Server.init rows).run cfg as
      ∧ (∀ exit slashing, .ingest exit slashing ∈ as → Announced d (chainActions actions) exit)
      ∧ ((∀ a, .server a ∈ actions → a.slashing = true) → ∀ a ∈ as, a.slashing = true) := by
  induction actions using List.reverseRecOn with
  | nil => exact ⟨[], rfl, by simp, by simp⟩
  | append_singleton actions a ih =>
    obtain ⟨as, hserver, hannounced, hslashing⟩ := ih
    have hlater {exit : WithdrawalInitiated} (h : Announced d (chainActions actions) exit)
        : Announced d (chainActions (actions ++ [a])) exit := by
      obtain ⟨c, announced, hexit, caller, args, verifier, amount, hcall, hrest⟩ := h
      refine ⟨c, announced, hexit, caller, args, verifier, amount, ?_, hrest⟩
      rw [chainActions_append]
      exact List.mem_append_left _ hcall
    have henabled (h : ∀ b, .server b ∈ actions ++ [a] → b.slashing = true) : ∀ b ∈ as, b.slashing = true :=
      hslashing fun b hb => h b (List.mem_append_left _ hb)
    rw [State.run_concat]
    have hstay : ∃ as, (State.run d cfg rows actions).server = (Server.init rows).run cfg as
        ∧ (∀ exit slashing, .ingest exit slashing ∈ as → Announced d (chainActions (actions ++ [a])) exit)
        ∧ ((∀ b, .server b ∈ actions ++ [a] → b.slashing = true) → ∀ b ∈ as, b.slashing = true) :=
      ⟨as, hserver, fun exit slashing hmem => hlater (hannounced exit slashing hmem), henabled⟩
    cases a with
    | chain a => exact hstay
    | server a =>
      rcases @State.step_server d cfg (State.run d cfg rows actions) a with hsame | ⟨a', hground, hstep⟩
      . rw [hsame]
        exact hstay
      . refine ⟨as ++ [a'], ?_, ?_, ?_⟩
        . rw [hstep, hserver]
          simp [Server.State.run]
        . intro exit slashing hmem
          rcases List.mem_append.mp hmem with hold | hnew
          . exact hlater (hannounced exit slashing hold)
          . -- the watcher got the exit from the contract
            obtain rfl := List.mem_singleton.mp hnew
            refine hlater (@announced_of_mem d (State.run d cfg rows actions).chain.committed _ _ ?_ ?_)
            . rw [State.run_chain]
              exact Credits.run_committed_exitsVerified d _
            . unfold groundAction at hground
              split at hground
              next => cases hground
              next =>
                split at hground
                next hlogged =>
                  obtain ⟨rfl, -⟩ := Server.Action.ingest.inj (Option.some.inj hground)
                  exact hlogged
                next => cases hground
              next hresume hingest =>
                obtain rfl := Option.some.inj hground
                exact absurd rfl (hingest _ _)
        . intro h b hb
          rcases List.mem_append.mp hb with hold | hnew
          . exact henabled h b hold
          . obtain rfl := List.mem_singleton.mp hnew
            rw [groundAction_slashing hground]
            exact h a (by simp)

/-- A call that pays nobody. -/
theorem step_of_exec {m : Credits.Machine} {caller : Credits.Caller} {call : Credits.Call} {s : Credits.State}
    (h : Credits.exec d (caller.env m.now) call m.state = .ok (s, none))
    : m.step d (.call caller call) = { m with state := s } := by
  simp only [Credits.Machine.step, h]

theorem canonical_of_announced {pre : Credits.SettlementVerifier.Precompiles} {actions : List Credits.Action}
    (hverifier : CallsSettlementVerifier pre actions) {exit : WithdrawalInitiated}
    (h : Announced d actions exit) : Canonical exit := by
  obtain ⟨c, announced, rfl, hverified⟩ := h
  obtain ⟨hnullifier, hsignalX, hsignalY, -⟩ := Credits.exit_lt_of_verified hverifier hverified
  exact ⟨hnullifier, hsignalX, hsignalY⟩

/-- With the generated verifier behind the contract, its exits need no check of the server: they are field
elements in their only representation, so two signals that differ at one nullifier get the note slashed, and
nothing else does. -/
theorem run_exits_slashed (d : Deployment) (cfg : Server.Config) (pre : Credits.SettlementVerifier.Precompiles)
    (actions : List Action) (line : F → F × F) (s : State) (hs : s = State.run d cfg [] actions)
    (hverifier : CallsSettlementVerifier pre (chainActions actions))
    (hline : ∀ sight ∈ sightings s.server.events, sight.OnLine line)
    (hreadable : ∀ req, Event.accepted req ∈ s.server.events → Server.isNegative req.signal.y = false)
    : (∀ t c exit, ⟨t, .withdrawalInitiated c exit⟩ ∈ s.chain.committed.logs →
        exit.nullifier < FIELD_MODULUS ∧ exit.signalX < FIELD_MODULUS ∧ exit.signalY < FIELD_MODULUS
          ∧ exit.payout < FIELD_MODULUS ∧ c < FIELD_MODULUS ∧ exit.recipient < FIELD_MODULUS)
      ∧ ((∀ a, .server a ∈ actions → a.slashing = true) →
          ∀ sight ∈ sightings s.server.events, ∀ sight' ∈ sightings s.server.events,
            sight.nullifier = sight'.nullifier → sight.x ≠ sight'.x →
            Event.slash ((line sight.nullifier).1.val : Int) ∈ s.server.events)
      ∧ ∀ k, Event.slash k ∈ s.server.events →
          ∃ sight ∈ sightings s.server.events, ∃ sight' ∈ sightings s.server.events,
            sight.nullifier = sight'.nullifier ∧ sight.x ≠ sight'.x ∧ k = ((line sight.nullifier).1.val : Int) := by
  obtain ⟨as, hserver, hannounced, hslashing⟩ := @State.run_serverActions d cfg [] actions
  rw [← hs] at hserver
  rw [hserver] at hline hreadable ⊢
  have hfair : Server.State.Fair line ((Server.init []).run cfg as) := ⟨hline, hreadable⟩
  obtain ⟨hwatched, hcomplete⟩ := (Server.State.Watched.init line cfg).run as
    (fun exit slashing hmem => canonical_of_announced hverifier (hannounced exit slashing hmem)) hfair
  refine ⟨?_, ?_, hwatched.sound⟩
  . intro t c exit hlogged
    have hverified := Credits.run_committed_exitsVerified d (chainActions actions)
    rw [← State.run_chain d cfg [] actions, ← hs] at hverified
    exact Credits.exit_lt_of_verified hverifier (hverified t c exit hlogged)
  . intro henabled sight hsight sight' hsight' hnullifier hne
    have hall := hcomplete (hslashing henabled) (by intro sight hsight; simp [sightings, Server.init] at hsight)
    obtain ⟨first, hfirst⟩ := Option.isSome_iff_exists.mp (Server.firstSeen_isSome hsight)
    by_cases hx : first.x = sight.x
    . rw [hnullifier] at hfirst ⊢
      exact hall sight' hsight' first hfirst (fun heq => hne (hx.symm.trans heq))
    . exact hall sight hsight first hfirst hx

/-- An exit that claims a ticket the note has used: the row of that request and the exit reveal the key. -/
theorem revealed_of_used {lib : Circomlib} (hposeidon : cfg.poseidon = d.poseidon) (actions : List Action)
    {witness : LongjingRequestDto → RequestInputs TREE_DEPTH}
    (hideal : Idealized cfg lib d.cMax witness (State.run d cfg rows actions).server.events) {commitment : F}
    {t : Nat} {exit : Credits.Exit}
    (hlogged : ⟨t, .withdrawalInitiated commitment.val exit⟩ ∈ (State.run d cfg rows actions).chain.committed.logs)
    {i : Circuit.SettlementInputs} {o : Circuit.SettlementOutputs}
    (hsettlement : Circuit.Settlement cfg.poseidon lib i o) (hexit : ExitOf d commitment.val exit i o)
    (hused : UsedIndex cfg witness (State.run d cfg rows actions).server.events commitment i.claimedIndex.val)
    (hinjective : ∀ req, .provider req ∈ (State.run d cfg rows actions).server.events →
      cfg.poseidon.sig1 (witness req).secretKey = cfg.poseidon.sig1 i.secretKey →
      (witness req).secretKey = i.secretKey)
    (hdistinct : ∀ req rho, .provider req ∈ (State.run d cfg rows actions).server.events →
      parseFieldElement req.nonce = some rho →
      Server.payloadSignalX cfg req.payload rho ≠ Credits.withdrawalSignalX d exit.recipient)
    : ∃ x y : Int, (State.run d cfg rows actions).server.store.get (toString (exit.nullifier : Int))
          = some (storedSignal x y)
        ∧ x ≠ exit.signalX
        ∧ recoverSecretKey (x, y) (exit.signalX, exit.signalY) = some (i.secretKey.val : Int)
        ∧ d.poseidon.hash1 i.secretKey.val = commitment.val := by
  have hissued : (State.run d cfg rows actions).server.Issued cfg d.cMax :=
    State.run_server (Server.State.Issued.init cfg d.cMax rows) (fun _ _ h ha => h.step ha) actions
  have hserving : (State.run d cfg rows actions).server.Serving cfg d.cMax :=
    State.run_server (Server.State.Serving.init cfg d.cMax rows) (fun _ _ h ha => h.step ha) actions
  obtain ⟨key, amount, hsignals⟩ := hexit
  obtain ⟨req, hmem, huses⟩ := hused
  obtain ⟨hsatisfies, -⟩ := accounted hissued hideal (.provider req) hmem
  have hrecorded := recorded_of_provider hserving hsatisfies hmem
  simp only [Circuit.SettlementInputs.publicSignals, Credits.settlementSignals, List.cons.injEq, and_true]
    at hsignals
  obtain ⟨hnullifier, hsignalY, -, hcommitment, -, -, -, -, -, hsignalX⟩ := hsignals
  have hannounced : exit.signalX = Credits.withdrawalSignalX d exit.recipient := by
    rw [State.run_chain] at hlogged
    exact Credits.Machine.run_invariant_committed (Credits.AnnouncedExits.invariant d) (chainActions actions) t _
      exit hlogged
  have hownership : cfg.poseidon.sig1 i.secretKey = commitment :=
    hsettlement.ownership.trans (ZMod.val_injective _ hcommitment)
  have hsecretKey := hinjective req hmem (huses.commitment.trans hownership.symm)
  obtain ⟨rho, hrho, hbound⟩ := hrecorded.bound
  -- the x of a payload is not the x of the recipient, so the two signals are two points of one line
  have hne : ((witness req).signalX.val : Int) ≠ i.signalX.val := by
    rw [hbound, hsignalX]
    exact hdistinct req rho hmem hrho
  obtain ⟨hsame, hforward, -⟩ := revealed_of_index hsettlement hsecretKey huses.index (fun heq => hne (by rw [heq]))
  have hrow := hrecorded.row
  rw [hsame, hnullifier] at hrow
  rw [hsignalX, ← hannounced] at hforward hne
  rw [hsignalY] at hforward
  refine ⟨_, _, hrow, hne, hforward, ?_⟩
  rw [← hposeidon, ← hownership, Poseidon.sig1_val]

theorem slash_of_ingest {store : Server.Store Server.Kept} {exit : WithdrawalInitiated} {x y k : Int}
    (hrow : store.get (toString (exit.nullifier : Int)) = some (storedSignal x y)) (hne : x ≠ exit.signalX)
    (hrecover : recoverSecretKey (x, y) (exit.signalX, exit.signalY) = some k)
    : Event.slash k ∈ (Server.ingest store exit true).2 := by
  have hstored : (storedSignal x y).x ≠ (storedSignal exit.signalX exit.signalY).x :=
    fun heq => hne (Js.toString_injective heq)
  unfold Server.ingest
  simp only [Server.Store.checkAndSet_some _ hrow, if_pos hstored, Server.slashEvents,
    Server.slashRevealed_storedSignal, hrecover]
  simp

/-- The signals of an announced exit, as the watcher hands them to the server. -/
def watched (exit : Credits.Exit) : WithdrawalInitiated := ⟨exit.nullifier, exit.signalX, exit.signalY⟩

/-- An exit that claims a ticket the note has used does not pay: as soon as the watcher hands it on, the server
slashes with the note's key, and on the contract that key ends the note while the exit is open, with the bounty
and the operator's share as all that is ever paid for it. -/
theorem run_understated_exit_slashed (d : Deployment) (cfg : Server.Config) (lib : Circomlib)
    (hposeidon : cfg.poseidon = d.poseidon) (rows : Js.Map String Server.StoredSignal) (actions : List Action)
    (witness : LongjingRequestDto → RequestInputs TREE_DEPTH) (s : State) (hs : s = State.run d cfg rows actions)
    (hideal : Idealized cfg lib d.cMax witness s.server.events) (commitment : F) (t : Nat) (exit : Credits.Exit)
    (hlogged : ⟨t, .withdrawalInitiated commitment.val exit⟩ ∈ s.chain.committed.logs)
    (i : Circuit.SettlementInputs) (o : Circuit.SettlementOutputs)
    (hsettlement : Circuit.Settlement cfg.poseidon lib i o) (hexit : ExitOf d commitment.val exit i o)
    (hused : UsedIndex cfg witness s.server.events commitment i.claimedIndex.val)
    (hinjective : ∀ req, .provider req ∈ s.server.events →
      cfg.poseidon.sig1 (witness req).secretKey = cfg.poseidon.sig1 i.secretKey →
      (witness req).secretKey = i.secretKey)
    (hdistinct : ∀ req rho, .provider req ∈ s.server.events → parseFieldElement req.nonce = some rho →
      Server.payloadSignalX cfg req.payload rho ≠ Credits.withdrawalSignalX d exit.recipient)
    : ∃ k : Nat, k < FIELD_MODULUS ∧ d.poseidon.hash1 k = commitment.val
        ∧ .slash (k : Int) ∈ (s.step d cfg (.server (.ingest (watched exit) true))).server.events
        ∧ ∀ (caller : Credits.Caller) (inner more : List Credits.Action), s.chain.stack = [] →
            (s.chain.state.notes commitment.val).status = .exiting → caller.value = 0 → caller.sender ≠ d.self →
            (∀ a ∈ inner, ∀ success, a ≠ .payeeReturn success) →
            ((Credits.run d (chainActions actions ++ Credits.slashActions caller k inner ++ more)).state.notes
                commitment.val).status = .slashed
              ∧ Credits.accountOf commitment.val (Credits.run d (chainActions actions
                  ++ Credits.slashActions caller k inner ++ more)).state.ledger
                = Credits.slashedAccount d (s.chain.state.notes commitment.val) commitment.val caller.sender := by
  subst hs
  obtain ⟨x, y, hrow, hne, hrecover, hkey⟩ := revealed_of_used hposeidon actions hideal hlogged hsettlement hexit
    hused hinjective hdistinct
  refine ⟨i.secretKey.val, i.secretKey.val_lt, hkey, ?_, ?_⟩
  . have hmem : watched exit ∈ exitsOf (State.run d cfg rows actions).chain.committed.logs :=
      List.mem_filterMap.mpr ⟨_, hlogged, rfl⟩
    rw [State.step_ingest hmem]
    simp only [Server.State.step]
    exact List.mem_append_right _ (List.mem_cons_of_mem _ (slash_of_ingest hrow hne hrecover))
  . intro caller inner more hstack hexiting hvalue hself hinner
    rw [State.run_chain] at hstack hexiting ⊢
    rw [← hkey] at hexiting ⊢
    obtain ⟨-, hnote, haccount⟩ := Credits.run_slash_settles d (chainActions actions) inner more caller
      i.secretKey.val hstack i.secretKey.val_lt (.inr hexiting) hvalue hself hinner
    exact ⟨by rw [hnote], haccount⟩

section Example

open Client (newNote noteDeposit signedDeployment signedPoseidon signedTools)
open Credits.SettlementVerifier (curveBn254 curvePrecompiles honestProof honestSignals proves_honestProof
  verifySettlementProof verifySettlementProof_eq_true)

/-! The contract of the tests, and the exit that they prove. -/

/-- `Poseidon` on the signal of the exit. -/
def honestTable : List ((Nat × Nat) × Nat) :=
  [
    ((642829559307850963015472508762062935916233390536, 31337),
      2020085356205098300334711586081251874166398292238767225705465110238186889203),
    ((2020085356205098300334711586081251874166398292238767225705465110238186889203, 0xcafe),
      20997527062573859726131831967821208329242616340505164902208548341151925462771)
  ]

/-- The commitment to the key 111. -/
def honestCommitment : Nat := 13377623690824916797327209540443066247715962236839283896963055328700043345550

def honestRefundKey : Credits.EdDSAPublicKey where
  x := 14422859473778768188622151430526693594403470008420308922992775064941455773685
  y := 7592518773672929099542717438998516546396504563265155469693554058278098107299

def honestDeployment : Deployment :=
  { Credits.firstDeployment with
    poseidon := .ofTable [(111, honestCommitment)] (Credits.emptyTreeTable ++ honestTable)
    chainId := 31337
    self := 0xcafe
    serverPublicKey := honestRefundKey }

def honestDeposit : Credits.Action :=
  .call ⟨2008, 10000000000000000, fun _ _ _ => false⟩ (.deposit honestCommitment)

def verifiedExit : Credits.Exit where
  nullifier := 7442761713728402710166651487992505036365420250613417999861328526266865669261
  signalX := 20997527062573859726131831967821208329242616340505164902208548341151925462771
  signalY := 13383747275760227886502644737833483505404640222102689081438009242894743488888
  payout := 9000000000000000
  recipient := 642829559307850963015472508762062935916233390536
  exitAt := 1700259200

noncomputable def verifiedCaller : Credits.Caller :=
  ⟨2009, 0, fun _ => verifySettlementProof (curvePrecompiles honestProof honestSignals)⟩

def verifiedArgs : Credits.WithdrawalArgs where
  commitment := honestCommitment
  recipient := verifiedExit.recipient
  refundKey := honestRefundKey
  proof := [honestProof.ax, honestProof.ay, honestProof.bx1, honestProof.bx2, honestProof.by1, honestProof.by2,
    honestProof.cx, honestProof.cy]
  nullifier := verifiedExit.nullifier
  signalY := verifiedExit.signalY
  payout := verifiedExit.payout

noncomputable def announcedActions : List Action :=
  [.chain honestDeposit, .chain (.call verifiedCaller (.initiateWithdrawal verifiedArgs))]

noncomputable def verifiedActions : List Action :=
  announcedActions ++ [.server (.ingest (watched verifiedExit) true)]

theorem honestDeposit_facts
    : (Credits.run honestDeployment [honestDeposit]).stack.length = 0
      ∧ (Credits.run honestDeployment [honestDeposit]).state.notes honestCommitment
        = ⟨10000000000000000, 1700000000, 0, .active⟩ := by
  decide +kernel

theorem honestDeposit_withdrawable
    : (Credits.run honestDeployment [honestDeposit]).state.entered = false
      ∧ (Credits.run honestDeployment [honestDeposit]).state.leaves.length = 1
      ∧ (Credits.run honestDeployment [honestDeposit]).state.acceptedRefundKeys
        (Credits.refundKeyId honestDeployment honestRefundKey) = true
      ∧ (Credits.run honestDeployment [honestDeposit]).now = 1700000000 := by
  decide +kernel

/-- The contract asks for what the tests prove. -/
theorem settlementSignals_honest
    : Credits.settlementSignals honestDeployment honestCommitment verifiedArgs.recipient verifiedArgs.refundKey
        verifiedArgs.nullifier verifiedArgs.signalY verifiedArgs.payout 10000000000000000 = honestSignals := by
  decide +kernel

theorem verifiedArgs_proved
    : verifySettlementProof (curvePrecompiles honestProof honestSignals) verifiedArgs.proof honestSignals = true :=
  (verifySettlementProof_eq_true (curveBn254 honestProof honestSignals) honestProof honestSignals).mpr
    ⟨rfl, by decide +kernel, proves_honestProof honestSignals⟩

theorem exists_verifiedState
    : ∃ s', Credits.initiateWithdrawal honestDeployment (verifiedCaller.env 1700000000) verifiedArgs
        (Credits.run honestDeployment [honestDeposit]).state = .ok s' := by
  obtain ⟨-, hnote⟩ := honestDeposit_facts
  obtain ⟨hentered, hleaves, haccepted, -⟩ := honestDeposit_withdrawable
  have hrecipient : verifiedArgs.recipient ≠ 0 := by decide
  have hcommitment : verifiedArgs.commitment = honestCommitment := rfl
  have hnow : (verifiedCaller.env 1700000000).timestamp + Credits.CHALLENGE_WINDOW < 2 ^ 256 := by decide +kernel
  have hverifier (verifier : Nat) : (verifiedCaller.env 1700000000).verifySettlementProof verifier
      = verifySettlementProof (curvePrecompiles honestProof honestSignals) := rfl
  refine ⟨_, Credits.initiateWithdrawal_eq_ok.mpr ⟨hentered, hrecipient, ?_, haccepted, ?_, ?_, hnow, ?_, rfl⟩⟩
  all_goals rw [hcommitment, hnote]
  . decide
  . rw [hverifier, settlementSignals_honest]
    exact verifiedArgs_proved
  . rw [hleaves]
    decide

/-- The server has the exit in its log, and the contract has announced it. -/
theorem verifiedActions_run
    : ⟨1700000000, .withdrawalInitiated honestCommitment verifiedExit⟩
        ∈ (State.run honestDeployment Server.exampleConfig [] verifiedActions).chain.committed.logs
      ∧ (State.run honestDeployment Server.exampleConfig [] verifiedActions).server.events
        = [.ingested (watched verifiedExit)] := by
  obtain ⟨s', hok⟩ := exists_verifiedState
  have hexec := Credits.exec_initiateWithdrawal_eq_ok rfl hok
  have hexit : Credits.newExit honestDeployment (verifiedCaller.env 1700000000) verifiedArgs
      = verifiedExit := by
    decide +kernel
  have hlogged := Credits.mem_logs_initiateWithdrawal hok
  rw [hexit] at hlogged
  obtain ⟨hstack, -⟩ := honestDeposit_facts
  obtain ⟨-, -, -, hnow⟩ := honestDeposit_withdrawable
  have hchain : (State.run honestDeployment Server.exampleConfig [] announcedActions).chain
      = { Credits.run honestDeployment [honestDeposit] with state := s' } := by
    have hcalls : chainActions announcedActions
        = [honestDeposit] ++ [.call verifiedCaller (.initiateWithdrawal verifiedArgs)] := rfl
    rw [State.run_chain, hcalls, Credits.run_concat]
    exact step_of_exec (by rw [hnow]; exact hexec)
  have hcommitted : ⟨1700000000, .withdrawalInitiated honestCommitment verifiedExit⟩
      ∈ (State.run honestDeployment Server.exampleConfig [] announcedActions).chain.committed.logs := by
    rw [hchain]
    unfold Credits.Machine.committed
    rw [List.length_eq_zero_iff.mp hstack]
    exact hlogged
  have hmem : watched verifiedExit
      ∈ exitsOf (State.run honestDeployment Server.exampleConfig [] announcedActions).chain.committed.logs :=
    List.mem_filterMap.mpr ⟨_, hcommitted, rfl⟩
  have hserver : (State.run honestDeployment Server.exampleConfig [] announcedActions).server = Server.init [] := rfl
  have hfirst (exit : WithdrawalInitiated)
      : ((Server.init []).step Server.exampleConfig (.ingest exit true)).events = [.ingested exit] := rfl
  unfold verifiedActions
  rw [State.run_concat, State.step_ingest hmem, hserver]
  dsimp only
  exact ⟨hcommitted, hfirst (watched verifiedExit)⟩

/-- The exit is what the contract let through, and a server that has seen nothing else slashes nothing. -/
theorem run_exits_slashed_verified
    : verifiedExit.signalX < FIELD_MODULUS
      ∧ ∀ k, Event.slash k
        ∉ (State.run honestDeployment Server.exampleConfig [] verifiedActions).server.events := by
  obtain ⟨hlogged, hevents⟩ := verifiedActions_run
  have hsightings : ∀ sight ∈ sightings (State.run honestDeployment Server.exampleConfig []
      verifiedActions).server.events, sight.x = (verifiedExit.signalX : F) ∧ sight.y = (verifiedExit.signalY : F) := by
    rw [hevents]
    intro sight hsight
    obtain rfl := List.mem_singleton.mp hsight
    exact ⟨rfl, rfl⟩
  obtain ⟨hlt, -, hsound⟩ := run_exits_slashed honestDeployment Server.exampleConfig
    (curvePrecompiles honestProof honestSignals) verifiedActions (fun _ => ((verifiedExit.signalY : F), 0)) _ rfl
    (by
      intro caller args hmem verifier
      have hcalls : chainActions verifiedActions
          = [honestDeposit, .call verifiedCaller (.initiateWithdrawal verifiedArgs)] := rfl
      rw [hcalls] at hmem
      simp only [honestDeposit, List.mem_cons, Credits.Action.call.injEq, reduceCtorEq, and_false,
        List.not_mem_nil, or_false, false_or] at hmem
      rw [hmem.1]
      rfl)
    (by
      intro sight hsight
      unfold Server.Sighting.OnLine
      rw [(hsightings sight hsight).2, zero_mul, add_zero])
    (by
      rw [hevents]
      intro req hreq
      simp at hreq)
  refine ⟨(hlt _ _ _ hlogged).2.1, ?_⟩
  intro k hk
  obtain ⟨sight, hsight, sight', hsight', -, hne, -⟩ := hsound k hk
  exact hne ((hsightings sight hsight).1.trans (hsightings sight' hsight').1.symm)

theorem understated_slashable (req : LongjingRequestDto)
    : (State.run signedDeployment signedConfig [] (understatedActions req)).chain.stack = []
      ∧ ((State.run signedDeployment signedConfig [] (understatedActions req)).chain.state.notes
          understatedExit.commitment.val).status = .exiting := by
  obtain ⟨s', hok⟩ := exists_understatedState
  obtain ⟨hstack, -⟩ := Client.signedDeposit_facts
  have hexec := Credits.exec_initiateWithdrawal_eq_ok rfl hok
  have hchain : (State.run signedDeployment signedConfig [] (understatedActions req)).chain
      = { Credits.run signedDeployment [noteDeposit] with state := s' } := by
    have hcalls : chainActions (understatedActions req)
        = [noteDeposit] ++ [.call understatedCaller (.initiateWithdrawal understatedArgs)] := rfl
    rw [State.run_chain, hcalls, Credits.run_concat]
    exact step_of_exec hexec
  rw [hchain]
  exact ⟨List.length_eq_zero_iff.mp hstack, Credits.status_initiateWithdrawal hok⟩

/-- The owner of the note leaves out its one request, and gets nothing. -/
theorem run_understated_exit_slashed_first
    : ∃ (req : LongjingRequestDto) (exit : Credits.Exit) (k : Nat),
        .slash (k : Int) ∈ ((State.run signedDeployment signedConfig [] (understatedActions req)).step signedDeployment
            signedConfig (.server (.ingest (watched exit) true))).server.events
          ∧ ((Credits.run signedDeployment (chainActions (understatedActions req)
              ++ Credits.slashActions understatedCaller k [] ++ [])).state.notes
                understatedExit.commitment.val).status = .slashed := by
  obtain ⟨req, i, h⟩ := exists_firstRequest
  obtain ⟨-, t, exit, hlogged, hexit, hrecipient⟩ := h.run_understated
  obtain ⟨k, -, -, hslash, hsettled⟩ := run_understated_exit_slashed signedDeployment signedConfig
    signedTools.circomlib rfl [] (understatedActions req) (fun _ => i) _ rfl
    (by rw [h.events_understated]; exact h.idealized (by simp)) understatedExit.commitment t exit hlogged
    understatedExit _ understatedExit_satisfied.1 hexit h.usedIndex_understated (fun _ _ _ => h.secretKey_understated)
    (fun _ _ hmem hrho => hrecipient ▸ h.signalX_understated hmem hrho)
  obtain ⟨hstack, hexiting⟩ := understated_slashable req
  exact ⟨req, exit, k, hslash,
    (hsettled understatedCaller [] [] hstack hexiting rfl (by decide) (by simp)).1⟩

end Example

end System
end Longjing
