import Longjing.Credits.Lemmas.Pause
import Longjing.System.Exchange

/-!
The exit of an honest owner: whatever happened before, what `proveWithdrawal` builds passes the settlement
circuit and the contract.
-/

namespace Longjing
namespace System

open Accumulator
open Client (ExitReads RefundKey Tools exitKey keySignals proveWithdrawal settlementInputs usedIndices)
open Credits (Deployment)

/-- The verifier accepts the proofs of `groth16.fullProve` with their public signals. -/
def VerifierComplete (tools : Tools) (verifySettlementProof : (proof publicSignals : List Nat) → Bool) : Prop :=
  ∀ i proof o, tools.fullProveSettlement i = some (proof, o) →
    verifySettlementProof proof (i.publicSignals o) = true

namespace Session

/-- What `proveWithdrawal` reads of the contract. -/
def exitReads (d : Deployment) (tools : Tools) (w : Session) (recipient : Nat) : ExitReads where
  note := w.onchain tools
  cMax := d.cMax
  signalX := Credits.withdrawalSignalX d recipient
  key := w.committed.serverPublicKey

/-- The inputs of the exit that claims all used indices. -/
def exitInputs (d : Deployment) (tools : Tools) (w : Session) (recipient : Nat) : Circuit.SettlementInputs :=
  settlementInputs tools w.note recipient (usedIndices w.note) (w.onchain tools).amount
    (w.exitReads d tools recipient)

variable {d : Deployment} {cfg : Server.Config} {tools : Tools} {w : Session} {recipient : Nat}

/-- The key of the exit is accepted, and signed the accumulator if anything did. -/
theorem Books.key_of_exit (h : w.Books d tools (RefundKey tools))
    (hregistered : RefundKey tools w.committed.serverPublicKey)
    : RefundKey tools (exitKey w.note (w.exitReads d tools recipient))
      ∧ w.committed.acceptedRefundKeys (Credits.refundKeyId d (exitKey w.note (w.exitReads d tools recipient)))
        = true
      ∧ ∀ key, w.note.signedBy = some key → key = exitKey w.note (w.exitReads d tools recipient) := by
  unfold Client.exitKey
  cases hsigned : w.note.signedBy with
  | none =>
    obtain ⟨actions, hrun⟩ := h.reachable
    have htimelock := Credits.Machine.run_invariant_committed (Credits.Timelock.invariant d) actions
    rw [← hrun] at htimelock
    exact ⟨hregistered, htimelock.accepted, by simp⟩
  | some key =>
    obtain ⟨hkey, haccepted⟩ := h.signedBy key hsigned
    refine ⟨hkey, haccepted, ?_⟩
    rintro key' ⟨rfl⟩
    rfl

/-- The exit satisfies the circuit, and pays D + R − n · C_MAX. -/
theorem Books.settlement (h : w.Books d tools (RefundKey tools))
    (hregistered : RefundKey tools w.committed.serverPublicKey)
    (hactive : (w.onchain tools).status = .active) (hn : usedIndices w.note < 2 ^ 32)
    (hrefunds : w.note.opening.refunds < 2 ^ 128)
    : Circuit.Settlement tools.poseidon tools.circomlib (w.exitInputs d tools recipient)
        ((w.exitInputs d tools recipient).outputs tools.poseidon)
      ∧ (((w.exitInputs d tools recipient).outputs tools.poseidon).payout.val : Int)
        = (w.onchain tools).amount + w.note.opening.refunds - usedIndices w.note * d.cMax
      ∧ ((w.exitInputs d tools recipient).outputs tools.poseidon).payout.val ≤ (w.onchain tools).amount := by
  have hne : (w.onchain tools).status ≠ .none := by simp [hactive]
  obtain ⟨hmin, hmax⟩ := h.deposit_lt hne
  obtain ⟨hrefunds_lt, hindex_lt⟩ := h.opening_lt hne
  obtain ⟨hrefundsVal, hindexVal, -⟩ := h.sound.signals hrefunds_lt hindex_lt
  obtain ⟨hkey, -, hsignedBy⟩ := @Books.key_of_exit d tools w recipient h hregistered
  have hle := Client.index_le_usedIndices w.note
  have hnonneg := h.sound.index
  have hpos := h.sound.refunds
  have hprovable := h.sound.provable hkey hsignedBy hrefunds (by omega)
  have hmodulus : 2 ^ 32 < FIELD_MODULUS := by decide
  have hnVal : ((usedIndices w.note : Int) : F).val = (usedIndices w.note).toNat := by
    have := @eq_val_cast (usedIndices w.note) (by omega) (by omega)
    omega
  -- the indices that were used are paid for, also when there are none
  have hfunded : usedIndices w.note * d.cMax ≤ (w.onchain tools).amount + w.note.opening.refunds := by
    by_cases hused : 0 < usedIndices w.note
    . exact (h.funded hused).2
    . rw [show usedIndices w.note = 0 by omega]
      omega
  have hcovered : w.note.opening.refunds ≤ usedIndices w.note * d.cMax :=
    Int.le_trans h.refunds_le (Int.mul_le_mul_of_nonneg_right hle (Int.natCast_nonneg _))
  have hspent : (((usedIndices w.note).toNat * d.cMax : Nat) : Int) = usedIndices w.note * d.cMax := by
    push_cast
    rw [Int.toNat_of_nonneg (by omega)]
  obtain ⟨hsatisfied, hpayout⟩ := @Client.settlement_satisfied tools w.note (w.exitReads d tools recipient)
    recipient (w.onchain tools).amount (usedIndices w.note) hkey.onCurve hprovable hmax
    (Nat.lt_of_le_of_lt hmin hmax) (by rw [hindexVal, hnVal]; omega) (by rw [hnVal]; omega)
    (by
      rw [hnVal, hrefundsVal]
      show (usedIndices w.note).toNat * d.cMax ≤ _
      omega)
  rw [hnVal, hrefundsVal] at hpayout
  have hpaid : (((w.exitInputs d tools recipient).outputs tools.poseidon).payout.val : Int)
      + ((usedIndices w.note).toNat * d.cMax : Nat)
      = (w.onchain tools).amount + w.note.opening.refunds.toNat := by
    exact_mod_cast hpayout
  refine ⟨hsatisfied, by omega, by omega⟩

/-- The public signals of the exit are the ones that the contract hands to the verifier. -/
theorem Books.publicSignals (h : w.Books d tools (RefundKey tools))
    (hregistered : RefundKey tools w.committed.serverPublicKey)
    (hactive : (w.onchain tools).status = .active) (haddress : recipient < 2 ^ 160)
    (o : Circuit.SettlementOutputs)
    : (w.exitInputs d tools recipient).publicSignals o
      = Credits.settlementSignals d (Client.commitmentOf tools w.note) recipient
          (exitKey w.note (w.exitReads d tools recipient)) o.nullifier.val o.signalY.val o.payout.val
          (w.onchain tools).amount := by
  have hne : (w.onchain tools).status ≠ .none := by simp [hactive]
  obtain ⟨hmin, hmax⟩ := h.deposit_lt hne
  obtain ⟨hkey, -, -⟩ := @Books.key_of_exit d tools w recipient h hregistered
  have hmodulus : 2 ^ 128 < FIELD_MODULUS ∧ 2 ^ 160 < FIELD_MODULUS := by decide
  have hcMax : ((w.exitReads d tools recipient).cMax : F).val = d.cMax :=
    F.val_cast_of_lt (Nat.lt_trans (Nat.lt_of_le_of_lt hmin hmax) hmodulus.1)
  have hsignalX : ((w.exitReads d tools recipient).signalX : F).val = Credits.withdrawalSignalX d recipient :=
    F.val_cast_of_lt (d.poseidon.hash2_lt _ _)
  simp only [Circuit.SettlementInputs.publicSignals, exitInputs, settlementInputs, keySignals,
    Credits.settlementSignals, Client.commitment_val, hcMax, hsignalX]
  rw [F.val_cast_of_lt (Nat.lt_trans hmax hmodulus.1), F.val_cast_of_lt hkey.x_lt, F.val_cast_of_lt hkey.y_lt,
    F.val_cast_of_lt (Nat.lt_trans haddress hmodulus.2)]

theorem committed_entered (actions : List Credits.Action)
    : (Credits.run d actions).committed.entered = false := by
  unfold Credits.Machine.committed
  rcases Credits.Machine.run_entered d actions with ⟨hnil, hentered⟩ | ⟨frame, hframe, -, hentered⟩
  . simp only [hnil, List.getLast?_nil]
    exact hentered
  . simp only [hframe, List.getLast?_singleton]
    exact hentered

end Session

/-- In every state an honest owner gets to while the note is active, paused or not, the exit that
`proveWithdrawal` builds satisfies the settlement circuit, pays D + R − n · C_MAX of at most D, and passes
the contract. -/
theorem run_exit_complete (d : Deployment) (cfg : Server.Config) (tools : Tools)
    (rows : Js.Map String Server.StoredSignal) (secretKey : F) (commands : List Command)
    (hrun : HonestRun d cfg tools (RefundKey tools) rows secretKey commands)
    (w : Session) (hw : w = Session.run d cfg tools rows secretKey commands)
    (hactive : (w.onchain tools).status = .active) (hn : usedIndices w.note < 2 ^ 32)
    (hrefunds : w.note.opening.refunds < 2 ^ 128)
    (recipient : Nat) (hrecipient : recipient ≠ 0) (haddress : recipient < 2 ^ 160)
    : Circuit.Settlement tools.poseidon tools.circomlib (w.exitInputs d tools recipient)
        ((w.exitInputs d tools recipient).outputs tools.poseidon)
      ∧ (((w.exitInputs d tools recipient).outputs tools.poseidon).payout.val : Int)
        = (w.onchain tools).amount + w.note.opening.refunds - usedIndices w.note * d.cMax
      ∧ ((w.exitInputs d tools recipient).outputs tools.poseidon).payout.val ≤ (w.onchain tools).amount
      ∧ ∃ args, proveWithdrawal tools w.note recipient none (w.exitReads d tools recipient) = some args
          ∧ args.payout = ((w.exitInputs d tools recipient).outputs tools.poseidon).payout.val
          ∧ ∀ caller : Credits.Caller, caller.value = 0 →
              VerifierComplete tools (caller.verifySettlementProof w.committed.settlementVerifier) →
              ∃ s', Credits.exec d (caller.env w.system.chain.now) (.initiateWithdrawal args) w.committed
                = .ok (s', none) := by
  subst hw
  have hbooks := Session.books_run hrun
  have hregistered := hrun.registered commands (List.prefix_refl _)
  generalize Session.run d cfg tools rows secretKey commands = w at *
  obtain ⟨hsatisfied, hpayout, hle⟩ := @Session.Books.settlement d tools w recipient hbooks hregistered hactive
    hn hrefunds
  -- the client: the inputs satisfy the circuit, so there is a proof
  obtain ⟨proof, hproof⟩ := tools.settlement_complete hsatisfied
  refine ⟨hsatisfied, hpayout, hle, _, Client.proveWithdrawal_eq_some.mpr
    ⟨hactive, Client.index_le_usedIndices _, proof, _, hproof, rfl⟩, rfl, ?_⟩
  -- the contract: none of its checks reverts
  intro caller hvalue hverifier
  obtain ⟨-, haccepted, -⟩ := @Session.Books.key_of_exit d tools w recipient hbooks hregistered
  have hsignals := @Session.Books.publicSignals d tools w recipient hbooks hregistered hactive haddress
    ((w.exitInputs d tools recipient).outputs tools.poseidon)
  have hverify := hverifier _ _ _ hproof
  obtain ⟨actions, hchain⟩ := hbooks.reachable
  have hentered := @Session.committed_entered d actions
  have hleaves := Credits.Machine.run_invariant_committed (Credits.Leaves.invariant d) actions
  have hnow := Credits.run_now_lt d actions
  rw [← hchain] at hentered hleaves hnow
  have hexists : (w.committed.notes (Client.commitmentOf tools w.note)).status ≠ .none := by
    show (w.onchain tools).status ≠ .none
    simp [hactive]
  have hwindow : w.system.chain.now + Credits.CHALLENGE_WINDOW < 2 ^ 256 := by
    simp only [Credits.CHALLENGE_WINDOW]
    omega
  obtain ⟨s', hok⟩ : ∃ s', Credits.initiateWithdrawal d (caller.env w.system.chain.now)
      ⟨Client.commitmentOf tools w.note, recipient, exitKey w.note (w.exitReads d tools recipient), proof,
        ((w.exitInputs d tools recipient).outputs tools.poseidon).nullifier.val,
        ((w.exitInputs d tools recipient).outputs tools.poseidon).signalY.val,
        ((w.exitInputs d tools recipient).outputs tools.poseidon).payout.val⟩ w.committed = .ok s' :=
    ⟨_, Credits.initiateWithdrawal_eq_ok.mpr ⟨hentered, hrecipient, hactive, haccepted, hle,
      hsignals ▸ hverify, hwindow, hleaves.index_lt _ hexists, rfl⟩⟩
  exact ⟨s', Credits.exec_initiateWithdrawal_eq_ok hvalue hok⟩

section Example

open Client (noteDeposit noteKey signedDeployment signedKey)

/-- The server's key is replaced by another one, and the contract is paused. -/
def rotation : List Credits.Action :=
  let owner : Credits.Caller := ⟨2003, 0, fun _ _ _ => false⟩
  [.call owner (.proposeRefundKey noteKey.x noteKey.y), .wait Credits.ADMIN_DELAY,
    .call owner (.executeChange .refundKey), .call owner .pause]

theorem rotation_facts
    : (∀ n < 5, (Credits.run signedDeployment ([noteDeposit] ++ rotation.take n)).stack.length = 0
          ∧ ((Credits.run signedDeployment ([noteDeposit] ++ rotation.take n)).state.serverPublicKey = signedKey
            ∨ (Credits.run signedDeployment ([noteDeposit] ++ rotation.take n)).state.serverPublicKey = noteKey))
      ∧ (Credits.run signedDeployment ([noteDeposit] ++ rotation)).state.serverPublicKey = noteKey
      ∧ (Credits.run signedDeployment ([noteDeposit] ++ rotation)).state.paused = true
      ∧ (Credits.run signedDeployment ([noteDeposit] ++ rotation)).state.notes
          8645981980787649023086883978738420856660271013038108762834452721572614684349
        = ⟨1000000000000000000, 1700000000, 0, .active⟩ := by
  decide +kernel

theorem committed_rotation {before : List Credits.Action} (h : before <+: rotation)
    : (Credits.run signedDeployment ([noteDeposit] ++ before)).committed
      = (Credits.run signedDeployment ([noteDeposit] ++ before)).state := by
  have hempty := (rotation_facts.1 before.length (Nat.lt_succ_of_le h.length_le)).1
  rw [← List.prefix_iff_eq_take.mp h] at hempty
  unfold Credits.Machine.committed
  rw [List.length_eq_zero_iff.mp hempty]
  rfl

theorem refundKey_noteKey : RefundKey exchangeTools noteKey where
  x_lt := by decide
  y_lt := by decide
  onCurve := Client.onCurve_noteKey
  complete _ _ _ h := Or.inr h

/-- The owner has one answer and one request pending when the key is replaced. -/
theorem exists_rotated
    : ∃ commands, HonestRun signedDeployment exchangeConfig exchangeTools (RefundKey exchangeTools) [] 2 commands
        ∧ (Session.run signedDeployment exchangeConfig exchangeTools [] 2 commands).note.pending ≠ none
        ∧ (Session.run signedDeployment exchangeConfig exchangeTools [] 2 commands).note.opening.index = 1
        ∧ (Session.run signedDeployment exchangeConfig exchangeTools [] 2 commands).note.opening.refunds
          = 400000000000000
        ∧ (Session.run signedDeployment exchangeConfig exchangeTools [] 2 commands).system.chain
          = Credits.run signedDeployment ([noteDeposit] ++ rotation) := by
  obtain ⟨commands, hrun, hready, hchain, hindex, hrefunds⟩ := exists_answered
  have hbooks := Session.books_run hrun
  have hkey := hrun.registered commands (List.prefix_refl _)
  obtain ⟨path, inputs, body, hpath, hstep⟩ := hready.exists_inStep partners_exchange hbooks hkey hchain
    (not_zeroPreimage_signed _) "hi" none 8 (show 6 < FIELD_MODULUS by decide)
  have hproved := @Session.foldl_requestCommands signedDeployment exchangeConfig exchangeTools _ _ _ _ _ _ _ _
    hready.idle hready.pending hready.active hpath (hstep.proveFresh_eq hready.pending)
  rw [← Session.run_append] at hproved
  have hrequested : HonestRun signedDeployment exchangeConfig exchangeTools (RefundKey exchangeTools) [] 2
      (commands ++ Session.requestCommands "hi" none 8 6) := by
    apply (hrun.append _ _).mono
    . rintro key rfl
      exact partners_exchange.refundKey
    . simp [Session.requestCommands, Command.OffChain]
    . simp [Session.requestCommands]
  have hkept : ∀ before, before <+: rotation →
      RefundKey exchangeTools (Credits.run signedDeployment ([noteDeposit] ++ before)).committed.serverPublicKey := by
    intro before hbefore
    have hkeys := (rotation_facts.1 before.length (Nat.lt_succ_of_le hbefore.length_le)).2
    rw [← List.prefix_iff_eq_take.mp hbefore] at hkeys
    rw [committed_rotation hbefore]
    rcases hkeys with hkey | hkey
    . rw [hkey]
      exact partners_exchange.refundKey
    . rw [hkey]
      exact refundKey_noteKey
  have hrotated := hrequested.append_chain (by rw [hproved]; exact hchain) hkept
  refine ⟨_, hrotated, ?_⟩
  rw [Session.run_append, Session.foldl_chain, hproved]
  refine ⟨by simp, hindex, hrefunds, ?_⟩
  simp only [hchain, Credits.run, ← List.foldl_append]

/-- Under the new key, with one answer and one request pending, the exit is still accepted and pays
1 + 0.0004 - 2 * 0.001 ETH. -/
theorem run_exit_complete_rotated
    : ∃ commands s', (Session.run signedDeployment exchangeConfig exchangeTools [] 2 commands).note.pending ≠ none
        ∧ (Session.run signedDeployment exchangeConfig exchangeTools [] 2 commands).note.opening.index = 1
        ∧ (Session.run signedDeployment exchangeConfig exchangeTools [] 2 commands).committed.serverPublicKey = noteKey
        ∧ (Session.run signedDeployment exchangeConfig exchangeTools [] 2 commands).committed.paused = true
        ∧ ∃ args, proveWithdrawal exchangeTools
              (Session.run signedDeployment exchangeConfig exchangeTools [] 2 commands).note 2009 none
              ((Session.run signedDeployment exchangeConfig exchangeTools [] 2 commands).exitReads signedDeployment
                exchangeTools 2009) = some args
          ∧ args.payout = 998400000000000000
          ∧ Credits.exec signedDeployment (Credits.Caller.env ⟨2009, 0, fun _ _ _ => true⟩
              (Session.run signedDeployment exchangeConfig exchangeTools [] 2 commands).system.chain.now)
              (.initiateWithdrawal args)
              (Session.run signedDeployment exchangeConfig exchangeTools [] 2 commands).committed = .ok (s', none) := by
  obtain ⟨commands, hrun, hpending, hindex, hrefunds, hchain⟩ := exists_rotated
  obtain ⟨-, hkey, hpaused, hnote⟩ := rotation_facts
  have hcommitted : (Session.run signedDeployment exchangeConfig exchangeTools [] 2 commands).committed
      = (Credits.run signedDeployment ([noteDeposit] ++ rotation)).state := by
    unfold Session.committed
    rw [hchain, committed_rotation (List.prefix_refl _)]
  have honchain : (Session.run signedDeployment exchangeConfig exchangeTools [] 2 commands).onchain exchangeTools
      = ⟨1000000000000000000, 1700000000, 0, .active⟩ := by
    unfold Session.onchain
    rw [commitmentOf_exchange, hcommitted, hnote]
  have hused : usedIndices (Session.run signedDeployment exchangeConfig exchangeTools [] 2 commands).note = 2 := by
    unfold usedIndices
    rw [hindex, if_pos (Option.isSome_iff_ne_none.mpr hpending)]
    rfl
  obtain ⟨-, hpayout, -, args, hargs, hpaid, haccepted⟩ := run_exit_complete signedDeployment exchangeConfig
    exchangeTools [] 2 commands hrun _ rfl (by rw [honchain]) (by rw [hused]; decide) (by rw [hrefunds]; decide) 2009
    (by decide) (by decide)
  obtain ⟨s', hexec⟩ := haccepted ⟨2009, 0, fun _ _ _ => true⟩ rfl (fun _ _ _ _ => rfl)
  refine ⟨commands, s', hpending, hindex, by rw [hcommitted, hkey], by rw [hcommitted, hpaused], args, hargs, ?_, hexec⟩
  rw [honchain, hused, hrefunds] at hpayout
  rw [hpaid]
  exact Int.ofNat.inj hpayout

end Example

end System
end Longjing
