import Longjing.Client.Signals
import Longjing.Credits.Lemmas.Payout
import Longjing.Server.Lemmas.Accuse
import Longjing.System.Refunds
import Longjing.System.Slashed

/-!
The owner's side of slashing: who keeps a key and reveals no two signals at one index with it keeps the note,
whatever the server and everybody else do.
-/

namespace Longjing

namespace Client
namespace Owner

variable {tools : Tools} {secretKey : F} {commands : List Command}

/-- The owner revealed two points of one line. -/
def Reveals (o : Owner) : Prop :=
  ∃ e ∈ o.emitted, ∃ e' ∈ o.emitted, e.nullifier = e'.nullifier ∧ e.x ≠ e'.x

theorem not_reveals (hdiffer : NullifiersDiffer tools secretKey ((run tools secretKey commands).accepted.length + 1))
    (hkeeps : ∀ before c, before ++ [c] <+: commands → (run tools secretKey before).KeepsClaims tools c)
    : ¬ (run tools secretKey commands).Reveals := by
  rintro ⟨e, he, e', he', hnullifier, hne⟩
  exact hne ((tracked_run hkeeps).x_eq hdiffer he he' hnullifier)

end Owner
end Client

namespace System

open Circuit (Circomlib RequestInputs SettlementInputs)
open Client (NullifiersDiffer Owner Tools)
open Credits (Deployment TREE_DEPTH accountOf closedAccount finalizeActions)
open Server (Accused Event LongjingRequestDto Sighting sighting? sightings)

/-- The verifier accepts a proof for these signals that somebody sent to the contract. -/
def AcceptedSignals (actions : List Action) (signals : List Nat) : Prop :=
  ∃ caller args verifier, .call caller (.initiateWithdrawal args) ∈ chainActions actions
    ∧ caller.verifySettlementProof verifier args.proof signals = true

section Witnesses

variable (d : Deployment) (cfg : Server.Config) (lib : Circomlib) (actions : List Action) (events : List Event)
  (request : LongjingRequestDto → RequestInputs TREE_DEPTH) (exit : List Nat → SettlementInputs)

/-- Behind every proof that was accepted there is a witness. -/
structure Witnessed : Prop where
  request : ∀ req, .accepted req ∈ events → Satisfies cfg lib d.cMax req (request req)
  exit : ∀ signals, AcceptedSignals actions signals →
    Circuit.Settlement cfg.poseidon lib (exit signals) ((exit signals).outputs cfg.poseidon)
      ∧ signals = (exit signals).publicSignals ((exit signals).outputs cfg.poseidon)

/-- A proof that was accepted shows a signal of the key at the index. -/
inductive Shown : F → F → F → Prop where
  | request (req : LongjingRequestDto)
    : .accepted req ∈ events →
      Shown (request req).secretKey (request req).accumulator.index (request req).signalX
  | exit (signals : List Nat)
    : AcceptedSignals actions signals →
      Shown (exit signals).secretKey (exit signals).claimedIndex (exit signals).signalX

/-- Among what was proved in the run no two keys or indices share a nullifier, and no other key has the note's
commitment. -/
structure CollisionFree (secretKey : F) : Prop where
  nullifier : ∀ k i x k' i' x', Shown actions events request exit k i x → Shown actions events request exit k' i' x' →
    cfg.poseidon.sig1 (cfg.poseidon.sig2 k i) = cfg.poseidon.sig1 (cfg.poseidon.sig2 k' i') → k = k' ∧ i = i'
  commitment : ∀ k i x, Shown actions events request exit k i x →
    cfg.poseidon.sig1 k = cfg.poseidon.sig1 secretKey → k = secretKey

/-- Only the owner proves with the key, and nobody has it to slash with who did not get two signals at one
nullifier from the owner. -/
structure KeyKept (secretKey : F) (o : Owner) : Prop where
  proves : ∀ i x, Shown actions events request exit secretKey i x →
    ∃ e ∈ o.emitted, e.nullifier = toString (cfg.poseidon.sig1 (cfg.poseidon.sig2 secretKey i)).val
      ∧ e.x = toString x.val
  slashes : ∀ caller k, .call caller (.slash k) ∈ chainActions actions →
    d.poseidon.hash1 k = (cfg.poseidon.sig1 secretKey).val → o.Reveals

end Witnesses

variable {d : Deployment} {cfg : Server.Config} {lib : Circomlib} {actions : List Action} {events : List Event}
  {request : LongjingRequestDto → RequestInputs TREE_DEPTH} {exit : List Nat → SettlementInputs}

/-- The witness behind an announced exit. -/
theorem Witnessed.announced (h : Witnessed d cfg lib actions events request exit) {c : Nat} {announced : Credits.Exit}
    (hverified : Credits.ExitVerified d (chainActions actions) c announced)
    : ∃ i : SettlementInputs, Shown actions events request exit i.secretKey i.claimedIndex i.signalX
        ∧ (cfg.poseidon.sig1 i.secretKey).val = c
        ∧ (cfg.poseidon.sig1 (cfg.poseidon.sig2 i.secretKey i.claimedIndex)).val = announced.nullifier
        ∧ (i.secretKey + cfg.poseidon.sig2 i.secretKey i.claimedIndex * i.signalX).val = announced.signalY
        ∧ i.signalX.val = announced.signalX := by
  obtain ⟨caller, args, verifier, amount, hcall, hsignalX, hproof⟩ := hverified
  have haccepted : AcceptedSignals actions _ := ⟨caller, args, verifier, hcall, hproof⟩
  obtain ⟨hsettlement, hsignals⟩ := h.exit _ haccepted
  have hshown := @Shown.exit actions events request exit _ haccepted
  generalize exit _ = i at hsettlement hsignals hshown
  simp only [SettlementInputs.publicSignals, Credits.settlementSignals, List.cons.injEq, and_true] at hsignals
  obtain ⟨hnullifier, hsignalY, -, hcommitment, -, -, -, -, -, hx⟩ := hsignals
  refine ⟨i, hshown, ?_, hnullifier.symm, hsignalY.symm, ?_⟩
  . rw [hsettlement.ownership, ← hcommitment]
  . rw [hsignalX, ← hx]

/-- Every signal that the server saw is the signal of a witness. -/
theorem Witnessed.sighted (h : Witnessed d cfg lib actions events request exit)
    (hannounced : ∀ announced, .ingested announced ∈ events → Announced d (chainActions actions) announced)
    {sight : Sighting} (hsight : sight ∈ sightings events)
    : ∃ k i, Shown actions events request exit k i sight.x
        ∧ sight.nullifier = cfg.poseidon.sig1 (cfg.poseidon.sig2 k i)
        ∧ sight.y = k + cfg.poseidon.sig2 k i * sight.x := by
  obtain ⟨event, hmem, hsighting⟩ := List.mem_filterMap.mp hsight
  cases event with
  | accepted req =>
    obtain ⟨hnullifier, hsignalY, -, -, hsignalX, -⟩ := (h.request req hmem).reads
    simp only [sighting?, hnullifier, hsignalY, hsignalX, Int.cast_natCast, F.cast_val, Option.some.injEq] at hsighting
    subst hsighting
    exact ⟨_, _, .request req hmem, rfl, rfl⟩
  | ingested announced =>
    obtain ⟨c, exit', rfl, hverified⟩ := hannounced announced hmem
    obtain ⟨i, hshown, -, hnullifier, hsignalY, hsignalX⟩ := h.announced hverified
    simp only [sighting?, Option.some.injEq, ← hnullifier, ← hsignalY, ← hsignalX, F.cast_val] at hsighting
    subst hsighting
    exact ⟨_, _, hshown, rfl, rfl⟩
  | _ => cases hsighting

/-- A key is only slashed for signals that were shown with it. -/
theorem Witnessed.accused (h : Witnessed d cfg lib actions events request exit)
    (hannounced : ∀ announced, .ingested announced ∈ events → Announced d (chainActions actions) announced)
    (hnullifier : ∀ k i x k' i' x', Shown actions events request exit k i x →
      Shown actions events request exit k' i' x' →
      cfg.poseidon.sig1 (cfg.poseidon.sig2 k i) = cfg.poseidon.sig1 (cfg.poseidon.sig2 k' i') → k = k' ∧ i = i')
    {key : Int} (haccused : Accused events key)
    : ∃ k i x x', Shown actions events request exit k i x ∧ Shown actions events request exit k i x' ∧ x ≠ x'
        ∧ key = (k.val : Int) := by
  obtain ⟨sight, hsight, sight', hsight', hsame, hne, hrecover⟩ := haccused
  obtain ⟨k, i, hshown, hN, hy⟩ := h.sighted hannounced hsight
  obtain ⟨k', i', hshown', hN', hy'⟩ := h.sighted hannounced hsight'
  obtain ⟨rfl, rfl⟩ := hnullifier _ _ _ _ _ _ hshown hshown' (by rw [← hN, ← hN', hsame])
  -- both are on the line of the key at the index
  have hkey := @Sighting.slashRevealed_stored (fun _ => (k, cfg.poseidon.sig2 k i)) sight sight' hy hy' hsame hne
  rw [hrecover] at hkey
  exact ⟨k, i, sight.x, sight'.x, hshown, hshown', hne, Option.some.inj hkey⟩

theorem Witnessed.canonical (h : Witnessed d cfg lib actions events request exit)
    {announced : Blockchain.WithdrawalInitiated} (hannounced : Announced d (chainActions actions) announced)
    : Server.Canonical announced := by
  obtain ⟨c, exit', rfl, hverified⟩ := hannounced
  obtain ⟨i, -, -, hnullifier, hsignalY, hsignalX⟩ := h.announced hverified
  have hlt {v : F} {n : Nat} (hv : v.val = n) : n < FIELD_MODULUS := hv ▸ v.val_lt
  exact ⟨hlt hnullifier, hlt hsignalX, hlt hsignalY⟩

/-- The server has no two signals of an owner that reveals none. -/
theorem not_slashed {o : Owner} {secretKey : F}
    (h : Witnessed d cfg lib actions (State.run d cfg [] actions).server.events request exit)
    (hcollision : CollisionFree cfg actions (State.run d cfg [] actions).server.events request exit secretKey)
    (hkept : KeyKept d cfg actions (State.run d cfg [] actions).server.events request exit secretKey o)
    (hreveals : ¬ o.Reveals) : Event.slash (secretKey.val : Int) ∉ (State.run d cfg [] actions).server.events := by
  intro hslash
  obtain ⟨as, hserver, hingested, -⟩ := @State.run_serverActions d cfg [] actions
  have hcanonical : ∀ announced slashing, .ingest announced slashing ∈ as → Server.Canonical announced :=
    fun announced slashing hmem => h.canonical (hingested announced slashing hmem)
  have hannounced : ∀ announced, .ingested announced ∈ (State.run d cfg [] actions).server.events →
      Announced d (chainActions actions) announced := by
    intro announced hmem
    rw [hserver] at hmem
    obtain ⟨slashing, hingest⟩ := Server.State.ingested_run cfg [] as hmem
    exact hingested announced slashing hingest
  have haccused : Accused (State.run d cfg [] actions).server.events (secretKey.val : Int) := by
    rw [hserver] at hslash ⊢
    exact (Server.State.Grounded.run cfg as hcanonical).slashes _ hslash
  obtain ⟨k, i, x, x', hshown, hshown', hne, hkey⟩ := h.accused hannounced hcollision.nullifier haccused
  obtain rfl : secretKey = k := ZMod.val_injective _ (Int.ofNat.inj hkey)
  obtain ⟨e, he, hnullifier, hx⟩ := hkept.proves i x hshown
  obtain ⟨e', he', hnullifier', hx'⟩ := hkept.proves i x' hshown'
  refine hreveals ⟨e, he, e', he', hnullifier.trans hnullifier'.symm, ?_⟩
  rw [hx, hx']
  exact fun heq => hne (ZMod.val_injective _ (Js.repr_injective heq))

/-- Who keeps its key and never proves two signals at one index keeps the note, in every run of contract and
server, whatever anybody else sends to either: the server never slashes with the key, and nobody ends the note with
it. Every exit of the note is one of its own signals, goes to the recipient that the signal is bound to, and is
recorded until it is paid; when its window is over anybody can have it paid, and that is all that is ever paid. -/
theorem run_owner_keeps (d : Deployment) (cfg : Server.Config) (lib : Circomlib) (tools : Tools)
    (hposeidon : cfg.poseidon = d.poseidon) (actions : List Action) (secretKey : F) (commands : List Client.Command)
    (request : LongjingRequestDto → RequestInputs TREE_DEPTH) (exit : List Nat → SettlementInputs)
    (s : State) (hs : s = State.run d cfg [] actions)
    (hwitnessed : Witnessed d cfg lib actions s.server.events request exit)
    (hcollision : CollisionFree cfg actions s.server.events request exit secretKey)
    (hkept : KeyKept d cfg actions s.server.events request exit secretKey (Owner.run tools secretKey commands))
    (hdiffer : NullifiersDiffer tools secretKey ((Owner.run tools secretKey commands).accepted.length + 1))
    (hkeeps : ∀ before c, before ++ [c] <+: commands → (Owner.run tools secretKey before).KeepsClaims tools c)
    (c : Nat) (hc : c = d.poseidon.hash1 secretKey.val)
    : Event.slash (secretKey.val : Int) ∉ s.server.events
      ∧ (s.chain.state.notes c).status ≠ .slashed
      ∧ ∀ t announced, ⟨t, .withdrawalInitiated c announced⟩ ∈ s.chain.state.logs →
          (∃ e ∈ (Owner.run tools secretKey commands).emitted, e.nullifier = toString announced.nullifier
            ∧ e.x = toString (Credits.withdrawalSignalX d announced.recipient))
          ∧ ((s.chain.state.notes c).status = .exiting ∧ s.chain.state.exits c = announced
              ∧ accountOf c s.chain.state.ledger = [.deposited c (s.chain.state.notes c).amount]
            ∨ (s.chain.state.notes c).status = .closed
              ∧ accountOf c s.chain.state.ledger = closedAccount (s.chain.state.notes c) announced c)
          ∧ ∀ (caller : Credits.Caller) (inner more : List Credits.Action), s.chain.stack = [] →
              (s.chain.state.notes c).status = .exiting → announced.exitAt ≤ s.chain.now → caller.value = 0 →
              announced.recipient ≠ d.self → (∀ a ∈ inner, ∀ success, a ≠ .payeeReturn success) →
              ((Credits.run d (chainActions actions ++ finalizeActions caller c inner ++ more)).state.notes c).status
                  = .closed
                ∧ accountOf c (Credits.run d (chainActions actions ++ finalizeActions caller c inner
                    ++ more)).state.ledger
                  = closedAccount (s.chain.state.notes c) announced c := by
  subst hs
  have hreveals := Owner.not_reveals hdiffer hkeeps
  have hcommitment : (cfg.poseidon.sig1 secretKey).val = c := by
    rw [hc, hposeidon, Poseidon.sig1_val]
  have hkeep : ((State.run d cfg [] actions).chain.state.notes c).status ≠ .slashed := by
    intro hslashed
    rw [State.run_chain] at hslashed
    obtain ⟨caller, k, hcall, -, hk⟩ := ((Credits.slashed_traced d).run (chainActions actions)).1 c hslashed
    exact hreveals (hkept.slashes caller k hcall (hk.trans hcommitment.symm))
  refine ⟨not_slashed hwitnessed hcollision hkept hreveals, hkeep, ?_⟩
  rw [State.run_chain] at hkeep ⊢
  intro t announced hlogged
  have hverified := ((Credits.ExitsVerified.traced d).run (chainActions actions)).1 t c announced hlogged
  have hrecorded := (Credits.Machine.run_invariant (Credits.ExitRecorded.invariant d) (chainActions actions)).1
  have haccounting := (Credits.Machine.run_invariant (Credits.Accounting.invariant d) (chainActions actions)).1
  obtain ⟨hexit, hstatus⟩ := hrecorded t c announced hlogged
  have haccount := haccounting.account c
  rw [hexit] at haccount
  refine ⟨?_, ?_, ?_⟩
  -- the proof of the exit was the owner's
  . have hrecipient := (Credits.Machine.run_invariant (Credits.AnnouncedExits.invariant d) (chainActions actions)).1
      t c announced hlogged
    obtain ⟨i, hshown, howned, hnullifier, -, hsignalX⟩ := hwitnessed.announced hverified
    have hkey := hcollision.commitment _ _ _ hshown (ZMod.val_injective _ (howned.trans hcommitment.symm))
    rw [hkey] at hshown hnullifier
    obtain ⟨e, he, hN, hx⟩ := hkept.proves _ _ hshown
    refine ⟨e, he, ?_, ?_⟩
    . rw [hN, hnullifier]
    . rw [hx, hsignalX, hrecipient]
  . rcases hstatus with hexiting | hclosed | hslashed
    . simp only [Credits.Account, hexiting] at haccount
      exact .inl ⟨hexiting, hexit, haccount.1⟩
    . simp only [Credits.Account, hclosed] at haccount
      exact .inr ⟨hclosed, haccount.1⟩
    . exact absurd hslashed hkeep
  . intro caller inner more hstack hexiting htime hvalue hself hinner
    rw [← hexit] at htime hself ⊢
    obtain ⟨-, hsettled⟩ := Credits.run_finalize_settles hstack hexiting htime hvalue hself inner more hinner
    exact hsettled

section Example

open Client (exitReads firstRequest newNote noteDeposit nullifierAt signedDeployment signedKey signedPoseidon
  signedTools)

variable {req : LongjingRequestDto} {i : RequestInputs TREE_DEPTH}

noncomputable def refundedArgs : Credits.WithdrawalArgs where
  commitment := refundedExit.commitment.val
  recipient := 2009
  refundKey := signedKey
  proof := []
  nullifier := (refundedExit.outputs signedPoseidon).nullifier.val
  signalY := (refundedExit.outputs signedPoseidon).signalY.val
  payout := (refundedExit.outputs signedPoseidon).payout.val

noncomputable def ownerSignals : List Nat := refundedExit.publicSignals (refundedExit.outputs signedPoseidon)

/-- The verifier accepts the proof of the owner, and no other. -/
noncomputable def ownerCaller : Credits.Caller := ⟨2009, 0, fun _ _ signals => decide (signals = ownerSignals)⟩

noncomputable def announcedExit : Credits.Exit :=
  Credits.newExit signedDeployment (ownerCaller.env (Credits.run signedDeployment [noteDeposit]).now) refundedArgs

/-- The owner of one answered request takes out the rest. -/
noncomputable def leavingActions (req : LongjingRequestDto) : List Action :=
  answeredActions req ++ [.chain (.call ownerCaller (.initiateWithdrawal refundedArgs))]

/-- The server learns of the exit, and the window passes. -/
noncomputable def ownerActions (req : LongjingRequestDto) : List Action :=
  leavingActions req ++ [.server (.ingest (watched announcedExit) true)] ++ [.chain (.wait Credits.CHALLENGE_WINDOW)]

theorem chainActions_owner
    : chainActions (leavingActions req) = [noteDeposit, .call ownerCaller (.initiateWithdrawal refundedArgs)]
      ∧ chainActions (ownerActions req)
        = [noteDeposit, .call ownerCaller (.initiateWithdrawal refundedArgs), .wait Credits.CHALLENGE_WINDOW] :=
  ⟨rfl, rfl⟩

theorem ownerSignals_eq
    : Credits.settlementSignals signedDeployment refundedArgs.commitment refundedArgs.recipient
        refundedArgs.refundKey refundedArgs.nullifier refundedArgs.signalY refundedArgs.payout
        1000000000000000000 = ownerSignals := by
  simp only [ownerSignals, SettlementInputs.publicSignals, Credits.settlementSignals, refundedArgs,
    List.cons.injEq, true_and, and_true]
  decide +kernel

theorem acceptedSignals_owner {signals : List Nat} (h : AcceptedSignals (ownerActions req) signals)
    : signals = ownerSignals := by
  obtain ⟨caller, args, verifier, hcall, hproof⟩ := h
  rw [chainActions_owner.2] at hcall
  simp only [noteDeposit, List.mem_cons, Credits.Action.call.injEq, reduceCtorEq, and_false, List.not_mem_nil,
    or_false, false_or] at hcall
  rw [hcall.1] at hproof
  exact of_decide_eq_true hproof

theorem refundedArgs_facts
    : refundedArgs.commitment = 8645981980787649023086883978738420856660271013038108762834452721572614684349
      ∧ refundedArgs.commitment = signedPoseidon.hash1 (2 : F).val
      ∧ (Credits.run signedDeployment [noteDeposit]).state.acceptedRefundKeys
          (Credits.refundKeyId signedDeployment refundedArgs.refundKey) = true
      ∧ (Credits.run signedDeployment [noteDeposit]).now = 1700000000 := by
  decide +kernel

theorem exists_leftState
    : ∃ s', Credits.initiateWithdrawal signedDeployment
          (ownerCaller.env (Credits.run signedDeployment [noteDeposit]).now) refundedArgs
          (Credits.run signedDeployment [noteDeposit]).state = .ok s'
        ∧ ∀ req, (State.run signedDeployment signedConfig [] (leavingActions req)).chain
          = { Credits.run signedDeployment [noteDeposit] with state := s' } := by
  obtain ⟨-, hentered, hleaves, hnote, -, -⟩ := Client.signedDeposit_facts
  obtain ⟨hcommitment, -, haccepted, hnow⟩ := refundedArgs_facts
  have hpayout : refundedArgs.payout = 999400000000000000 := refundedExit_satisfied.2
  have hproof : (ownerCaller.env (Credits.run signedDeployment [noteDeposit]).now).verifySettlementProof
      (Credits.run signedDeployment [noteDeposit]).state.settlementVerifier refundedArgs.proof
      (Credits.settlementSignals signedDeployment refundedArgs.commitment refundedArgs.recipient
        refundedArgs.refundKey refundedArgs.nullifier refundedArgs.signalY refundedArgs.payout
        ((Credits.run signedDeployment [noteDeposit]).state.notes refundedArgs.commitment).amount) = true := by
    rw [hcommitment, hnote, ← hcommitment, ownerSignals_eq]
    exact decide_eq_true (p := ownerSignals = ownerSignals) rfl
  rw [← hcommitment] at hnote
  have hok := Credits.initiateWithdrawal_eq_ok.mpr ⟨hentered, (by decide : (2009 : Nat) ≠ 0), by rw [hnote],
    haccepted, by rw [hnote, hpayout]; decide, hproof, by rw [hnow]; decide, by rw [hnote, hleaves]; decide, rfl⟩
  refine ⟨_, hok, fun req => ?_⟩
  have hcalls : chainActions (leavingActions req)
      = [noteDeposit] ++ [.call ownerCaller (.initiateWithdrawal refundedArgs)] := rfl
  rw [State.run_chain, hcalls, Credits.run_concat]
  exact step_of_exec (Credits.exec_initiateWithdrawal_eq_ok rfl hok)

theorem accepted_ingest {s : Server.State} {announced : Blockchain.WithdrawalInitiated} {slashing : Bool}
    {req : LongjingRequestDto} (h : .accepted req ∈ (s.step cfg (.ingest announced slashing)).events)
    : .accepted req ∈ s.events := by
  simp only [Server.State.step, List.mem_append, List.mem_cons, reduceCtorEq, false_or] at h
  refine h.resolve_right fun hnew => ?_
  have hingested := Server.ingest_sound s.store announced slashing
  generalize Server.ingest s.store announced slashing = result at hingested hnew
  cases hingested with
  | recorded => cases hnew
  | replayed => cases hnew
  | revealed => simp [Server.slashEvents] at hnew

/-- The server sees the exit, and accepts nothing for it. -/
theorem FirstRequest.accepted_owner (h : FirstRequest req i) {req' : LongjingRequestDto}
    (hmem : .accepted req' ∈ (State.run signedDeployment signedConfig [] (ownerActions req)).server.events)
    : req' = req := by
  obtain ⟨s', hok, hchain⟩ := exists_leftState
  have hlogged : watched announcedExit ∈ exitsOf
      (State.run signedDeployment signedConfig [] (leavingActions req)).chain.committed.logs := by
    rw [hchain req]
    unfold Credits.Machine.committed
    rw [List.length_eq_zero_iff.mp Client.signedDeposit_facts.1]
    exact List.mem_filterMap.mpr ⟨_, Credits.mem_logs_initiateWithdrawal hok, rfl⟩
  have hserver : (State.run signedDeployment signedConfig [] (leavingActions req)).server
      = (State.run signedDeployment signedConfig [] (answeredActions req)).server := by
    unfold leavingActions
    rw [State.run_concat]
    rfl
  have hwait (s : State) : (s.step signedDeployment signedConfig (.chain (.wait Credits.CHALLENGE_WINDOW))).server
      = s.server := rfl
  unfold ownerActions at hmem
  rw [State.run_concat, State.run_concat, State.step_ingest hlogged, hwait, hserver] at hmem
  have hold := @accepted_ingest signedConfig _ _ _ _ hmem
  rw [h.events_answered] at hold
  simpa using hold

/-- What the verifiers accepted in the run are the two signals of the owner. -/
theorem FirstRequest.shown_owner (h : FirstRequest req i) {k n x : F}
    (hshown : Shown (ownerActions req) (State.run signedDeployment signedConfig [] (ownerActions req)).server.events
      (fun _ => i) (fun _ => refundedExit) k n x)
    : k = 2 ∧ (n = 0 ∧ x = i.signalX ∨ n = 1 ∧ x = (exitReads.signalX : F)) := by
  cases hshown with
  | request req' hmem =>
    refine ⟨h.secretKey, .inl ⟨?_, rfl⟩⟩
    rw [h.accumulator]
    decide +kernel
  | exit signals =>
    have hfields : refundedExit.secretKey = 2 ∧ refundedExit.claimedIndex = 1 := by decide +kernel
    exact ⟨hfields.1, .inr ⟨hfields.2, rfl⟩⟩

/-- The answer to the first request. -/
def refundedResponse : Client.RequestResponse :=
  ⟨some 400000000000000, some (1996500503987190766265382112634496879291645537045295026863382925097569323829 : Nat),
    some (3179602718120349596859708870164273830080087280145286996479396566212626942062 : Nat),
    some Client.signatureRefunded.R8x, some Client.signatureRefunded.R8y, some Client.signatureRefunded.S⟩

/-- A request, its answer, and the exit. -/
def ownerCommands : List Client.Command :=
  [firstRequest, .receive refundedResponse signedKey, .withdrawal 2009 exitReads]

theorem receive_refunded {body : Server.RequestBody}
    : Client.receive signedTools { newNote 2 with pending := some ⟨5, body⟩ } refundedResponse signedKey
      = some refundedNote := by
  have hfold : Client.foldResponse { newNote 2 with pending := some ⟨5, body⟩ } signedKey 5 400000000000000
      Client.signatureRefunded = refundedNote := by
    unfold Client.foldResponse refundedNote newNote
    simp only [zero_add]
    rfl
  rw [← hfold]
  exact Client.receive_signed Client.secretKey_two rfl rfl rfl (by decide +kernel)
    (show _ = 747917616976253041761072204145215448163683526389281130705037995882091371475 by decide +kernel)
    (by simp [Client.signatures]) (by decide)

theorem proveWithdrawal_refunded
    : ∃ args, Client.proveWithdrawal signedTools refundedNote 2009 none exitReads = some args
        ∧ args.nullifier = (nullifierAt signedTools 2 1).val := by
  obtain ⟨proof, hproof⟩ := signedTools.settlement_complete refundedExit_satisfied.1
  have hkey : ((refundedNote.secretKey : Int) : F) = 2 := by decide +kernel
  refine ⟨_, Client.proveWithdrawal_eq_some.mpr ⟨rfl, Int.le_refl _, proof, _, hproof, rfl⟩, ?_⟩
  show (signedPoseidon.sig1 (signedPoseidon.sig2 ((refundedNote.secretKey : Int) : F) ((1 : Int) : F))).val = _
  rw [hkey]
  rfl

theorem run_ownerCommands
    : (∀ before c, before ++ [c] <+: ownerCommands → (Owner.run signedTools 2 before).KeepsClaims signedTools c)
      ∧ (Owner.run signedTools 2 ownerCommands).accepted.length = 1
      ∧ (Owner.run signedTools 2 ownerCommands).emitted
        = [⟨1, true, toString (nullifierAt signedTools 2 1).val, toString exitReads.signalX⟩,
          ⟨0, false, toString (nullifierAt signedTools 2 0).val,
            toString (Client.payloadSignalX signedTools "hi" 7)⟩] := by
  obtain ⟨body, hrequest, hnullifier, hx⟩ := Client.proveRequest_first
  obtain ⟨args, hargs, hexit⟩ := proveWithdrawal_refunded
  have hreceived : Owner.run signedTools 2 [firstRequest, .receive refundedResponse signedKey]
      = ⟨refundedNote, [refundedResponse], [⟨0, false, body.nullifier, body.signal.x⟩]⟩ := by
    show ((Owner.start 2).step signedTools firstRequest).step signedTools (.receive refundedResponse signedKey) = _
    simp only [Owner.step, Owner.start, firstRequest, hrequest, receive_refunded]
    rfl
  have hrun : Owner.run signedTools 2 ownerCommands
      = ⟨refundedNote, [refundedResponse], [⟨1, true, toString args.nullifier, toString exitReads.signalX⟩,
          ⟨0, false, body.nullifier, body.signal.x⟩]⟩ := by
    show (Owner.run signedTools 2 [firstRequest, .receive refundedResponse signedKey]).step signedTools
      (.withdrawal 2009 exitReads) = _
    rw [hreceived]
    simp only [Owner.step, hargs]
    rfl
  refine ⟨?_, by rw [hrun]; rfl, by rw [hrun, hexit, hnullifier, hx]⟩
  -- no exit was proved before any of the three commands
  intro before c hbegins
  rcases Client.begins_cons hbegins with ⟨rfl, rfl⟩ | ⟨_, rfl, hsecond⟩
  . intro _ _ e he
    simp [Owner.start] at he
  rcases Client.begins_cons hsecond with ⟨rfl, rfl⟩ | ⟨_, rfl, hthird⟩
  . trivial
  rcases Client.begins_cons hthird with ⟨rfl, rfl⟩ | ⟨_, rfl, hnone⟩
  . intro _ e he hexits
    rw [hreceived] at he
    obtain rfl := List.mem_singleton.mp he
    cases hexits
  . simp at hnone

/-- The owner gets its deposit back less the cost of 0.0006 ETH, and the server, which has seen the request and the
exit, does not slash. -/
theorem run_owner_keeps_answered
    : ∃ req, Event.slash 2 ∉ (State.run signedDeployment signedConfig [] (ownerActions req)).server.events
        ∧ accountOf refundedArgs.commitment (Credits.run signedDeployment (chainActions (ownerActions req)
            ++ finalizeActions ⟨2010, 0, fun _ _ _ => false⟩ refundedArgs.commitment [] ++ [.wait 60])).state.ledger
          = [.paid refundedArgs.commitment 2009 999400000000000000, .credited refundedArgs.commitment 600000000000000,
            .deposited refundedArgs.commitment 1000000000000000000] := by
  obtain ⟨req, i, h⟩ := exists_firstRequest
  obtain ⟨s', hok, hleft⟩ := exists_leftState
  obtain ⟨hkeeps, haccepted, hemitted⟩ := run_ownerCommands
  obtain ⟨hempty, -, -, hnote, -, -⟩ := Client.signedDeposit_facts
  obtain ⟨hnumber, hcommitment, -, htime⟩ := refundedArgs_facts
  have hcalls := @chainActions_owner req
  have hdiffer : nullifierAt signedTools 2 (0 : Nat) ≠ nullifierAt signedTools 2 (1 : Nat)
      ∧ nullifierAt signedTools 2 (0 : Nat) ≠ nullifierAt signedTools 2 (2 : Nat)
      ∧ nullifierAt signedTools 2 (1 : Nat) ≠ nullifierAt signedTools 2 (2 : Nat) := by
    simp only [nullifierAt]
    show signedPoseidon.sig1 (signedPoseidon.sig2 2 _) ≠ signedPoseidon.sig1 (signedPoseidon.sig2 2 _) ∧ _
    decide +kernel
  have hsignalX : (exitReads.signalX : F).val = exitReads.signalX := by decide +kernel
  have hkept := run_owner_keeps signedDeployment signedConfig signedTools.circomlib signedTools rfl (ownerActions req) 2
    ownerCommands (fun _ => i) (fun _ => refundedExit) _ rfl
    (by
      refine ⟨?_, fun signals hsignals => ⟨refundedExit_satisfied.1, acceptedSignals_owner hsignals⟩⟩
      intro req' hmem
      rw [h.accepted_owner hmem]
      exact h.satisfies)
    (by
      refine ⟨?_, fun k n x hshown _ => (h.shown_owner hshown).1⟩
      intro k n x k' n' x' hshown hshown' heq
      obtain ⟨rfl, hsignal⟩ := h.shown_owner hshown
      obtain ⟨rfl, hsignal'⟩ := h.shown_owner hshown'
      refine ⟨rfl, ?_⟩
      rcases hsignal with ⟨rfl, -⟩ | ⟨rfl, -⟩ <;> rcases hsignal' with ⟨rfl, -⟩ | ⟨rfl, -⟩
      . rfl
      . exact absurd heq hdiffer.1
      . exact absurd heq.symm hdiffer.1
      . rfl)
    (by
      refine ⟨?_, ?_⟩
      . intro n x hshown
        rw [hemitted]
        rcases (h.shown_owner hshown).2 with ⟨rfl, rfl⟩ | ⟨rfl, rfl⟩
        . refine ⟨_, List.mem_cons_of_mem _ (List.mem_singleton_self _), rfl, ?_⟩
          rw [h.signalX]
        . refine ⟨_, List.mem_cons_self, rfl, ?_⟩
          rw [hsignalX]
      . intro caller k hcall
        rw [hcalls.2] at hcall
        simp [noteDeposit] at hcall)
    (by
      rw [haccepted]
      intro m n hm hn heq
      obtain ⟨h01, h02, h12⟩ := hdiffer
      interval_cases m <;> interval_cases n
      . rfl
      . exact absurd heq h01
      . exact absurd heq h02
      . exact absurd heq.symm h01
      . rfl
      . exact absurd heq h12
      . exact absurd heq.symm h02
      . exact absurd heq.symm h12
      . rfl)
    hkeeps refundedArgs.commitment hcommitment
  have hstack := List.length_eq_zero_iff.mp hempty
  have hwaited : (State.run signedDeployment signedConfig [] (ownerActions req)).chain.state = s'
      ∧ (State.run signedDeployment signedConfig [] (ownerActions req)).chain.stack = []
      ∧ (State.run signedDeployment signedConfig [] (ownerActions req)).chain.now
        = 1700000000 + Credits.CHALLENGE_WINDOW := by
    have hsplit : chainActions (ownerActions req)
        = chainActions (leavingActions req) ++ [.wait Credits.CHALLENGE_WINDOW] := rfl
    have hnow : 1700000000 + Credits.CHALLENGE_WINDOW < 2 ^ 64 := by decide
    rw [State.run_chain, hsplit, Credits.run_concat, ← State.run_chain signedDeployment signedConfig [], hleft req]
    simp only [Credits.Machine.step, hstack, htime, hnow, and_self, if_true]
  obtain ⟨hstate, hidle, hwindow⟩ := hwaited
  rw [hstate, hidle, hwindow] at hkept
  obtain ⟨hslash, -, hexits⟩ := hkept
  obtain ⟨-, -, hpaid⟩ := hexits _ _ (Credits.mem_logs_initiateWithdrawal hok)
  obtain ⟨-, haccount⟩ := hpaid ⟨2010, 0, fun _ _ _ => false⟩ [] [.wait 60] rfl
    (Credits.status_initiateWithdrawal hok) (by rw [htime]; exact Nat.le_refl _) rfl (by decide) (by simp)
  have hamount : (s'.notes refundedArgs.commitment).amount = 1000000000000000000 := by
    obtain ⟨-, -, -, -, -, -, -, -, rfl⟩ := Credits.initiateWithdrawal_eq_ok.mp hok
    simp only [Credits.leave, Credits.emit, Credits.updateLeaf, Credits.pushRoot, Function.update_self]
    rw [hnumber, hnote]
  have hpayout : refundedArgs.payout = 999400000000000000 := refundedExit_satisfied.2
  refine ⟨req, hslash, ?_⟩
  rw [haccount, closedAccount, hamount]
  show [Credits.LedgerEntry.paid _ 2009 refundedArgs.payout, .credited _ (_ - refundedArgs.payout), _] = _
  rw [hpayout]

end Example

end System
end Longjing
