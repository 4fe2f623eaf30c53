import Longjing.Credits.Lemmas.Basic

/-!
Everything that can happen to the contract's state in one uninterrupted piece, and the induction
rules over runs that follow from it.
-/

namespace Longjing
namespace Credits

open Fallible

/--
`Effect d env s call s'`: the call succeeds and turns `s` into `s'`. A call that pays is cut at its
external call, with the value already sent; `resume` is its remainder and no call of its own.
-/
inductive Effect (d : Deployment) (env : Env) (s : State) : Option Call → State → Prop where
  | deposit (commitment : Nat) (hentered : s.entered = false) (hpaused : s.paused = false)
      (hmin : d.cMax ≤ env.value) (hmax : env.value < 2 ^ 128)
      (hcommitment : commitment < FIELD_MODULUS) (hnone : (s.notes commitment).status = .none)
      (hfull : s.leaves.length ≠ 2 ^ TREE_DEPTH)
      : Effect d env s (some (.deposit commitment))
          (leave (emit env (.deposited commitment env.value s.leaves.length)
            (updateLeaf d env s.leaves.length
              { s with
                entered := true
                notes := Function.update s.notes commitment
                  ⟨env.value, env.timestamp, s.leaves.length, .active⟩
                pausedTimeAtDeposit :=
                  Function.update s.pausedTimeAtDeposit commitment s.totalPausedTime
                leaves := s.leaves ++ [d.poseidon.hash2 commitment env.value]
                balance := s.balance + env.value
                ledger := .deposited commitment env.value :: s.ledger
              })))
  | initiateWithdrawal (args : WithdrawalArgs) (hentered : s.entered = false)
      (hrecipient : args.recipient ≠ 0) (hactive : (s.notes args.commitment).status = .active)
      (hkey : s.acceptedRefundKeys (refundKeyId d args.refundKey) = true)
      (hpayout : args.payout ≤ (s.notes args.commitment).amount)
      (hproof : env.verifySettlementProof s.settlementVerifier args.proof
        (settlementSignals d args.commitment args.recipient args.refundKey args.nullifier
          args.signalY args.payout (s.notes args.commitment).amount) = true)
      (hleaf : (s.notes args.commitment).leafIndex < s.leaves.length)
      : Effect d env s (some (.initiateWithdrawal args))
          (leave (emit env (.withdrawalInitiated args.commitment (newExit d env args))
            (updateLeaf d env (s.notes args.commitment).leafIndex
              { s with
                entered := true
                notes := Function.update s.notes args.commitment
                  { s.notes args.commitment with status := .exiting }
                exits := Function.update s.exits args.commitment (newExit d env args)
                leaves := s.leaves.set (s.notes args.commitment).leafIndex 0
              })))
  | finalizeWithdrawal (commitment : Nat) (hentered : s.entered = false)
      (hexiting : (s.notes commitment).status = .exiting)
      (hexitAt : (s.exits commitment).exitAt ≤ env.timestamp)
      (hpayout : (s.exits commitment).payout ≤ (s.notes commitment).amount)
      (hbalance : (s.exits commitment).payout ≤ s.balance)
      : Effect d env s (some (.finalizeWithdrawal commitment))
          { s with
            entered := true
            notes := Function.update s.notes commitment
              { s.notes commitment with status := .closed }
            operatorBalance :=
              s.operatorBalance + ((s.notes commitment).amount - (s.exits commitment).payout)
            balance := s.balance - (s.exits commitment).payout
            ledger :=
              .paid commitment (s.exits commitment).recipient (s.exits commitment).payout
                :: .credited commitment
                    ((s.notes commitment).amount - (s.exits commitment).payout)
                :: s.ledger
          }
  | slashActive (secretKey : Nat) (hentered : s.entered = false)
      (hkey : secretKey < FIELD_MODULUS)
      (hactive : (s.notes (d.poseidon.hash1 secretKey)).status = .active)
      (hleaf : (s.notes (d.poseidon.hash1 secretKey)).leafIndex < s.leaves.length)
      (hbalance : bountyOf d (s.notes (d.poseidon.hash1 secretKey)) ≤ s.balance)
      : Effect d env s (some (.slash secretKey))
          ((Payment.slash (d.poseidon.hash1 secretKey) env.sender
            (bountyOf d (s.notes (d.poseidon.hash1 secretKey)))).transfer
              (slashedState d (s.notes (d.poseidon.hash1 secretKey)) (d.poseidon.hash1 secretKey)
                (updateLeaf d env (s.notes (d.poseidon.hash1 secretKey)).leafIndex
                  { s with
                    entered := true
                    leaves := s.leaves.set (s.notes (d.poseidon.hash1 secretKey)).leafIndex 0
                  })))
  | slashExiting (secretKey : Nat) (hentered : s.entered = false)
      (hkey : secretKey < FIELD_MODULUS)
      (hexiting : (s.notes (d.poseidon.hash1 secretKey)).status = .exiting)
      (hbalance : bountyOf d (s.notes (d.poseidon.hash1 secretKey)) ≤ s.balance)
      : Effect d env s (some (.slash secretKey))
          ((Payment.slash (d.poseidon.hash1 secretKey) env.sender
            (bountyOf d (s.notes (d.poseidon.hash1 secretKey)))).transfer
              (slashedState d (s.notes (d.poseidon.hash1 secretKey)) (d.poseidon.hash1 secretKey)
                { s with entered := true }))
  | claimExpired (commitment : Nat) (hentered : s.entered = false) (hpaused : s.paused = false)
      (hsender : env.sender = s.serverAddress)
      (hactive : (s.notes commitment).status = .active)
      (hexpiry : ∃ expiry, noteExpiry env commitment s = .ok expiry ∧ expiry ≤ env.timestamp)
      (hleaf : (s.notes commitment).leafIndex < s.leaves.length)
      : Effect d env s (some (.claimExpired commitment))
          (leave (emit env (.noteExpiredClaimed commitment (s.notes commitment).amount)
            { updateLeaf d env (s.notes commitment).leafIndex
                { s with
                  entered := true
                  notes := Function.update s.notes commitment
                    { s.notes commitment with status := .expired }
                  leaves := s.leaves.set (s.notes commitment).leafIndex 0
                } with
              operatorBalance := s.operatorBalance + (s.notes commitment).amount
              ledger := .credited commitment (s.notes commitment).amount :: s.ledger
            }))
  | withdrawOperatorBalance (hentered : s.entered = false) (hsender : env.sender = s.serverAddress)
      (hbalance : s.operatorBalance ≤ s.balance)
      : Effect d env s (some .withdrawOperatorBalance)
          { s with
            entered := true
            operatorBalance := 0
            balance := s.balance - s.operatorBalance
            ledger := .operatorPaid s.serverAddress s.operatorBalance :: s.ledger
          }
  | proposeChange (target : Target) (value : Nat) (howner : env.sender = s.owner)
      (htarget : target ≠ .refundKey) (hvalue : value ≠ 0)
      : Effect d env s (some (.proposeChange target value))
          (emit env (.changeProposed target value (env.timestamp + ADMIN_DELAY))
            { s with
              pendingChanges := Function.update s.pendingChanges target
                ⟨value, 0, 0, env.timestamp + ADMIN_DELAY⟩
            })
  | proposeRefundKey (x y : Nat) (howner : env.sender = s.owner) (hkey : ¬(x = 0 ∧ y = 0))
      : Effect d env s (some (.proposeRefundKey x y))
          (emit env (.refundKeyProposed x y (env.timestamp + ADMIN_DELAY))
            { s with
              pendingChanges := Function.update s.pendingChanges .refundKey
                ⟨0, x, y, env.timestamp + ADMIN_DELAY⟩
            })
  | executeChange (target : Target) (howner : env.sender = s.owner)
      (hpending : (s.pendingChanges target).eta ≠ 0)
      (heta : (s.pendingChanges target).eta ≤ env.timestamp)
      : Effect d env s (some (.executeChange target))
          (emit env (.changeExecuted target (s.pendingChanges target).value)
            (installChange d env target (s.pendingChanges target)
              { s with
                pendingChanges := Function.update s.pendingChanges target ⟨0, 0, 0, 0⟩ }))
  | cancelChange (target : Target) (howner : env.sender = s.owner)
      (hpending : (s.pendingChanges target).eta ≠ 0)
      : Effect d env s (some (.cancelChange target))
          (emit env (.changeCancelled target (s.pendingChanges target).value)
            { s with
              pendingChanges := Function.update s.pendingChanges target ⟨0, 0, 0, 0⟩ })
  | pause (howner : env.sender = s.owner) (hpaused : s.paused = false)
      : Effect d env s (some .pause) { s with paused := true, pausedAt := env.timestamp }
  | unpause (howner : env.sender = s.owner) (hpaused : s.paused = true)
      (hpausedAt : s.pausedAt ≤ env.timestamp)
      : Effect d env s (some .unpause)
          { s with
            paused := false
            totalPausedTime := s.totalPausedTime + (env.timestamp - s.pausedAt)
            pausedAt := 0
          }
  | transferOwnership (newOwner : Nat) (howner : env.sender = s.owner)
      : Effect d env s (some (.transferOwnership newOwner)) { s with owner := newOwner }
  | renounceOwnership (howner : env.sender = s.owner)
      : Effect d env s (some .renounceOwnership) { s with owner := 0 }
  | resume (payment : Payment) : Effect d env s none (payment.resume env.timestamp s)
  | forceSend (amount : Nat)
      : Effect d env s none { s with balance := s.balance + amount, forced := s.forced + amount }

/--
The environment of an effect that is no call.
-/
def Env.idle (now : Nat) : Env where
  sender := 0
  value := 0
  timestamp := now
  verifySettlementProof := fun _ _ _ => false

theorem effect_of_exec {d : Deployment} {env : Env} {call : Call} {s s' : State}
    (h : exec d env call s = .ok (s', none)) : Effect d env s (some call) s' := by
  simp only [exec, bind_eq_ok, revertIf_eq_ok] at h
  obtain ⟨_, -, h⟩ := h
  cases call with
  | deposit commitment =>
    simp only [bind_eq_ok, pure_eq_ok, Prod.mk.injEq, and_true] at h
    obtain ⟨s₁, h, rfl⟩ := h
    obtain ⟨h1, h2, h3, h4, h5, h6, h7, rfl⟩ := deposit_eq_ok.mp h
    exact .deposit commitment h1 h2 h3 h4 h5 h6 h7
  | initiateWithdrawal args =>
    simp only [bind_eq_ok, pure_eq_ok, Prod.mk.injEq, and_true] at h
    obtain ⟨s₁, h, rfl⟩ := h
    obtain ⟨h1, h2, h3, h4, h5, h6, -, h8, rfl⟩ := initiateWithdrawal_eq_ok.mp h
    exact .initiateWithdrawal args h1 h2 h3 h4 h5 h6 h8
  | finalizeWithdrawal commitment =>
    simp only [bind_eq_ok, pure_eq_ok, Prod.mk.injEq, reduceCtorEq, and_false, exists_false] at h
  | slash secretKey =>
    simp only [bind_eq_ok, pure_eq_ok, Prod.mk.injEq, reduceCtorEq, and_false, exists_false] at h
  | claimExpired commitment =>
    simp only [bind_eq_ok, pure_eq_ok, Prod.mk.injEq, and_true] at h
    obtain ⟨s₁, h, rfl⟩ := h
    obtain ⟨h1, h2, h3, h4, h5, h6, -, rfl⟩ := claimExpired_eq_ok.mp h
    exact .claimExpired commitment h1 h2 h3 h4 h5 h6
  | withdrawOperatorBalance =>
    simp only [bind_eq_ok, pure_eq_ok, Prod.mk.injEq, reduceCtorEq, and_false, exists_false] at h
  | proposeChange target value =>
    simp only [bind_eq_ok, pure_eq_ok, Prod.mk.injEq, and_true, proposeChange, onlyOwner_eq_ok,
      revertIf_eq_ok, checkedAdd_eq_ok] at h
    obtain ⟨s₁, ⟨_, h1, _, h2, _, h3, _, ⟨-, rfl⟩, rfl⟩, rfl⟩ := h
    exact .proposeChange target value h1 h2 h3
  | proposeRefundKey x y =>
    simp only [bind_eq_ok, pure_eq_ok, Prod.mk.injEq, and_true, proposeRefundKey, onlyOwner_eq_ok,
      revertIf_eq_ok, checkedAdd_eq_ok] at h
    obtain ⟨s₁, ⟨_, h1, _, h2, _, ⟨-, rfl⟩, rfl⟩, rfl⟩ := h
    exact .proposeRefundKey x y h1 h2
  | executeChange target =>
    simp only [bind_eq_ok, pure_eq_ok, Prod.mk.injEq, and_true, executeChange, onlyOwner_eq_ok,
      revertIf_eq_ok, Nat.not_lt] at h
    obtain ⟨s₁, ⟨_, h1, _, h2, _, h3, rfl⟩, rfl⟩ := h
    exact .executeChange target h1 h2 h3
  | cancelChange target =>
    simp only [bind_eq_ok, pure_eq_ok, Prod.mk.injEq, and_true, cancelChange, onlyOwner_eq_ok,
      revertIf_eq_ok] at h
    obtain ⟨s₁, ⟨_, h1, _, h2, rfl⟩, rfl⟩ := h
    exact .cancelChange target h1 h2
  | pause =>
    simp only [bind_eq_ok, pure_eq_ok, Prod.mk.injEq, and_true, pause, onlyOwner_eq_ok,
      whenNotPaused_eq_ok] at h
    obtain ⟨s₁, ⟨_, h1, _, h2, rfl⟩, rfl⟩ := h
    exact .pause h1 h2
  | unpause =>
    simp only [bind_eq_ok, pure_eq_ok, Prod.mk.injEq, and_true, unpause, onlyOwner_eq_ok,
      whenPaused_eq_ok, checkedSub_eq_ok, checkedAdd_eq_ok] at h
    obtain ⟨s₁, ⟨_, h1, _, h2, _, ⟨h3, rfl⟩, _, ⟨-, rfl⟩, rfl⟩, rfl⟩ := h
    exact .unpause h1 h2 h3
  | transferOwnership newOwner =>
    simp only [bind_eq_ok, pure_eq_ok, Prod.mk.injEq, and_true, transferOwnership, onlyOwner_eq_ok,
      revertIf_eq_ok] at h
    obtain ⟨s₁, ⟨_, h1, _, -, rfl⟩, rfl⟩ := h
    exact .transferOwnership newOwner h1
  | renounceOwnership =>
    simp only [bind_eq_ok, pure_eq_ok, Prod.mk.injEq, and_true, renounceOwnership,
      onlyOwner_eq_ok] at h
    obtain ⟨s₁, ⟨_, h1, rfl⟩, rfl⟩ := h
    exact .renounceOwnership h1

theorem effect_of_exec_pay {d : Deployment} {env : Env} {call : Call} {s s' : State}
    {payment : Payment} (h : exec d env call s = .ok (s', some payment))
    (hbalance : payment.amount ≤ s'.balance)
    : Effect d env s (some call) (payment.transfer s') := by
  simp only [exec, bind_eq_ok, revertIf_eq_ok] at h
  obtain ⟨_, -, h⟩ := h
  cases call with
  | finalizeWithdrawal commitment =>
    simp only [bind_eq_ok, pure_eq_ok, Prod.mk.injEq, Option.some.injEq] at h
    obtain ⟨⟨s₁, p⟩, h, rfl, rfl⟩ := h
    obtain ⟨h1, h2, h3, h4, -, rfl, rfl⟩ := finalizeWithdrawal_eq_ok.mp h
    exact .finalizeWithdrawal commitment h1 h2 h3 h4 hbalance
  | slash secretKey =>
    simp only [bind_eq_ok, pure_eq_ok, Prod.mk.injEq, Option.some.injEq] at h
    obtain ⟨⟨s₁, p⟩, h, rfl, rfl⟩ := h
    obtain ⟨h1, h2, -, rfl, ⟨h5, h6, rfl⟩ | ⟨h5, rfl⟩⟩ := slash_eq_ok.mp h
    . exact .slashActive secretKey h1 h2 h5 h6 hbalance
    . exact .slashExiting secretKey h1 h2 h5 hbalance
  | withdrawOperatorBalance =>
    simp only [bind_eq_ok, pure_eq_ok, Prod.mk.injEq, Option.some.injEq] at h
    obtain ⟨⟨s₁, p⟩, h, rfl, rfl⟩ := h
    obtain ⟨h1, h2, rfl, rfl⟩ := withdrawOperatorBalance_eq_ok.mp h
    exact .withdrawOperatorBalance h1 h2 hbalance
  | _ =>
    simp only [bind_eq_ok, pure_eq_ok, Prod.mk.injEq, reduceCtorEq, and_false, exists_false] at h

/--
Only a forced transfer raises `forced`, and a call that does not pay leaves the guard as it was.
-/
theorem frame_of_exec {d : Deployment} {env : Env} {call : Call} {s s' : State}
    (h : exec d env call s = .ok (s', none)) : s'.entered = s.entered ∧ s'.forced = s.forced := by
  simp only [exec, bind_eq_ok, revertIf_eq_ok] at h
  obtain ⟨_, -, h⟩ := h
  cases call with
  | deposit commitment =>
    simp only [bind_eq_ok, pure_eq_ok, Prod.mk.injEq, and_true, deposit_eq_ok] at h
    obtain ⟨s₁, ⟨h1, -, -, -, -, -, -, rfl⟩, rfl⟩ := h
    exact ⟨h1.symm, rfl⟩
  | initiateWithdrawal args =>
    simp only [bind_eq_ok, pure_eq_ok, Prod.mk.injEq, and_true, initiateWithdrawal_eq_ok] at h
    obtain ⟨s₁, ⟨h1, -, -, -, -, -, -, -, rfl⟩, rfl⟩ := h
    exact ⟨h1.symm, rfl⟩
  | claimExpired commitment =>
    simp only [bind_eq_ok, pure_eq_ok, Prod.mk.injEq, and_true, claimExpired_eq_ok] at h
    obtain ⟨s₁, ⟨h1, -, -, -, -, -, -, rfl⟩, rfl⟩ := h
    exact ⟨h1.symm, rfl⟩
  | executeChange target =>
    simp only [bind_eq_ok, pure_eq_ok, Prod.mk.injEq, and_true, executeChange] at h
    obtain ⟨s₁, ⟨_, -, _, -, _, -, rfl⟩, rfl⟩ := h
    cases target <;> exact ⟨rfl, rfl⟩
  | finalizeWithdrawal commitment =>
    simp only [bind_eq_ok, pure_eq_ok, Prod.mk.injEq, reduceCtorEq, and_false, exists_false] at h
  | slash secretKey =>
    simp only [bind_eq_ok, pure_eq_ok, Prod.mk.injEq, reduceCtorEq, and_false, exists_false] at h
  | withdrawOperatorBalance =>
    simp only [bind_eq_ok, pure_eq_ok, Prod.mk.injEq, reduceCtorEq, and_false, exists_false] at h
  | proposeChange target value =>
    simp only [bind_eq_ok, pure_eq_ok, Prod.mk.injEq, and_true, proposeChange] at h
    obtain ⟨s₁, ⟨_, -, _, -, _, -, _, -, rfl⟩, rfl⟩ := h
    exact ⟨rfl, rfl⟩
  | proposeRefundKey x y =>
    simp only [bind_eq_ok, pure_eq_ok, Prod.mk.injEq, and_true, proposeRefundKey] at h
    obtain ⟨s₁, ⟨_, -, _, -, _, -, rfl⟩, rfl⟩ := h
    exact ⟨rfl, rfl⟩
  | cancelChange target =>
    simp only [bind_eq_ok, pure_eq_ok, Prod.mk.injEq, and_true, cancelChange] at h
    obtain ⟨s₁, ⟨_, -, _, -, rfl⟩, rfl⟩ := h
    exact ⟨rfl, rfl⟩
  | pause =>
    simp only [bind_eq_ok, pure_eq_ok, Prod.mk.injEq, and_true, pause] at h
    obtain ⟨s₁, ⟨_, -, _, -, rfl⟩, rfl⟩ := h
    exact ⟨rfl, rfl⟩
  | unpause =>
    simp only [bind_eq_ok, pure_eq_ok, Prod.mk.injEq, and_true, unpause] at h
    obtain ⟨s₁, ⟨_, -, _, -, _, -, _, -, rfl⟩, rfl⟩ := h
    exact ⟨rfl, rfl⟩
  | transferOwnership newOwner =>
    simp only [bind_eq_ok, pure_eq_ok, Prod.mk.injEq, and_true, transferOwnership] at h
    obtain ⟨s₁, ⟨_, -, _, -, rfl⟩, rfl⟩ := h
    exact ⟨rfl, rfl⟩
  | renounceOwnership =>
    simp only [bind_eq_ok, pure_eq_ok, Prod.mk.injEq, and_true, renounceOwnership] at h
    obtain ⟨s₁, ⟨_, -, rfl⟩, rfl⟩ := h
    exact ⟨rfl, rfl⟩

theorem frame_of_exec_pay {d : Deployment} {env : Env} {call : Call} {s s' : State}
    {payment : Payment} (h : exec d env call s = .ok (s', some payment))
    : s.entered = false ∧ s'.entered = true ∧ s'.forced = s.forced := by
  simp only [exec, bind_eq_ok, revertIf_eq_ok] at h
  obtain ⟨_, -, h⟩ := h
  cases call with
  | finalizeWithdrawal commitment =>
    simp only [bind_eq_ok, pure_eq_ok, Prod.mk.injEq, Option.some.injEq] at h
    obtain ⟨⟨s₁, p⟩, h, rfl, rfl⟩ := h
    obtain ⟨h1, -, -, -, -, -, rfl⟩ := finalizeWithdrawal_eq_ok.mp h
    exact ⟨h1, rfl, rfl⟩
  | slash secretKey =>
    simp only [bind_eq_ok, pure_eq_ok, Prod.mk.injEq, Option.some.injEq] at h
    obtain ⟨⟨s₁, p⟩, h, rfl, rfl⟩ := h
    obtain ⟨h1, -, -, -, ⟨-, -, rfl⟩ | ⟨-, rfl⟩⟩ := slash_eq_ok.mp h
    . exact ⟨h1, rfl, rfl⟩
    . exact ⟨h1, rfl, rfl⟩
  | withdrawOperatorBalance =>
    simp only [bind_eq_ok, pure_eq_ok, Prod.mk.injEq, Option.some.injEq] at h
    obtain ⟨⟨s₁, p⟩, h, rfl, rfl⟩ := h
    obtain ⟨h1, -, -, rfl⟩ := withdrawOperatorBalance_eq_ok.mp h
    exact ⟨h1, rfl, rfl⟩
  | _ =>
    simp only [bind_eq_ok, pure_eq_ok, Prod.mk.injEq, reduceCtorEq, and_false, exists_false] at h

namespace Machine

/--
One step of the machine, by what happens to the calls in flight.
-/
inductive Step (d : Deployment) (m : Machine) : Action → Machine → Prop where
  -- The call reverted, or the step is not possible now.
  | stutter (a : Action) : Step d m a m
  -- A call ran to its end.
  | effect (caller : Caller) (call : Call) (s : State)
      (h : Effect d (caller.env m.now) m.state (some call) s)
      (hentered : s.entered = m.state.entered)
      : Step d m (.call caller call) { m with state := s }
  -- A call reached its `_pay`, the payee runs.
  | enter (caller : Caller) (call : Call) (s : State) (payment : Payment)
      (h : Effect d (caller.env m.now) m.state (some call) s)
      (hbefore : m.state.entered = false) (hafter : s.entered = true)
      : Step d m (.call caller call)
          { m with state := s, stack := ⟨m.state, payment⟩ :: m.stack }
  -- The payee returned.
  | leave (frame : Frame) (stack : List Frame) (hstack : m.stack = frame :: stack)
      : Step d m (.payeeReturn true)
          { m with state := frame.payment.resume m.now m.state, stack := stack }
  -- The payee failed.
  | revert (frame : Frame) (stack : List Frame) (hstack : m.stack = frame :: stack)
      : Step d m (.payeeReturn false) { m with state := frame.snapshot, stack := stack }
  | forceSend (amount : Nat)
      : Step d m (.forceSend amount)
          { m with
            state := { m.state with
              balance := m.state.balance + amount
              forced := m.state.forced + amount
            }
          }
  | wait (seconds : Nat) (hstack : m.stack = []) (hnow : m.now + seconds < 2 ^ 64)
      : Step d m (.wait seconds)
          { m with
            now := m.now + seconds
            pausedSecond := fun u =>
              if m.now ≤ u ∧ u < m.now + seconds then m.state.paused else m.pausedSecond u
          }

theorem step_sound (d : Deployment) (m : Machine) (a : Action) : Step d m a (m.step d a) := by
  cases a with
  | call caller call =>
    simp only [step]
    split
    . exact .stutter _
    . next s h =>
      exact .effect caller call s (effect_of_exec h) (frame_of_exec h).1
    . next s payment h =>
      unfold pay
      split
      . next hpay =>
        have hframe := frame_of_exec_pay h
        exact .enter caller call _ payment (effect_of_exec_pay h hpay.2) hframe.1 hframe.2.1
      . exact .stutter _
  | payeeReturn success =>
    simp only [step]
    split
    . exact .stutter _
    . next frame stack hstack =>
      cases success with
      | true => exact .leave frame stack hstack
      | false => exact .revert frame stack hstack
  | forceSend amount => exact .forceSend amount
  | wait seconds =>
    simp only [step]
    split
    . next h =>
      exact .wait seconds h.1 h.2
    . exact .stutter _

theorem step_call_pay {d : Deployment} {m : Machine} {caller : Caller} {call : Call} {s : State}
    {payment : Payment} (hexec : exec d (caller.env m.now) call m.state = .ok (s, some payment))
    (hself : payment.payee ≠ d.self) (hbalance : payment.amount ≤ s.balance)
    : m.step d (.call caller call)
        = { m with state := payment.transfer s, stack := ⟨m.state, payment⟩ :: m.stack } := by
  simp only [step, hexec, pay]
  rw [if_pos ⟨hself, hbalance⟩]

/--
A property of time and state that holds after the constructor, survives every effect that ends in a
state of interest, and is not lost as time passes.
-/
structure InvariantOn (d : Deployment) (Good : State → Prop) (Inv : Nat → State → Prop) : Prop where
  init : Good (constructor d) → Inv d.deployedAt (constructor d)
  mono : ∀ {t t' s}, t ≤ t' → Inv t s → Inv t' s
  effect : ∀ {env call s s'}, Inv env.timestamp s → Good s → Good s' → Effect d env s call s' →
    Inv env.timestamp s'

/--
An invariant holds of the state in flight and of every state a revert may restore, in a run through
states of interest only.
-/
theorem run_invariantOn {d : Deployment} {Good : State → Prop} {Inv : Nat → State → Prop}
    (h : InvariantOn d Good Inv) (actions : List Action)
    (hgood : ∀ before, before <+: actions → Good (run d before).state)
    : Inv (run d actions).now (run d actions).state
        ∧ ∀ frame ∈ (run d actions).stack, Inv (run d actions).now frame.snapshot := by
  induction actions using List.reverseRecOn with
  | nil =>
    refine ⟨h.init (hgood [] (List.prefix_refl _)), ?_⟩
    intro frame hframe
    cases hframe
  | append_singleton actions a ih =>
    have hbefore := hgood actions (List.prefix_append _ _)
    have hafter := hgood (actions ++ [a]) (List.prefix_refl _)
    obtain ⟨hstate, hstack⟩ := ih (fun before hb => hgood before (hb.trans (List.prefix_append _ _)))
    rw [run_concat] at hafter ⊢
    generalize run d actions = m at hbefore hafter hstate hstack ⊢
    have hstep := step_sound d m a
    generalize m.step d a = m' at hstep hafter ⊢
    cases hstep with
    | stutter => exact ⟨hstate, hstack⟩
    | effect caller call s heffect => exact ⟨h.effect hstate hbefore hafter heffect, hstack⟩
    -- the state that the call started from is put aside
    | enter caller call s payment heffect =>
      constructor
      . exact h.effect hstate hbefore hafter heffect
      . intro frame hframe
        cases hframe with
        | head => exact hstate
        | tail _ hframe => exact hstack frame hframe
    | leave frame stack hcons =>
      constructor
      . exact @h.effect (.idle m.now) _ _ _ hstate hbefore hafter (.resume frame.payment)
      . intro f hf
        exact hstack f (by simp [hcons, hf])
    | revert frame stack hcons =>
      constructor
      . exact hstack frame (by simp [hcons])
      . intro f hf
        exact hstack f (by simp [hcons, hf])
    | forceSend amount =>
      exact ⟨@h.effect (.idle m.now) _ _ _ hstate hbefore hafter (.forceSend amount), hstack⟩
    | wait seconds hnil hnow =>
      constructor
      . exact h.mono (Nat.le_add_right _ _) hstate
      . intro frame hframe
        dsimp at hframe
        rw [hnil] at hframe
        cases hframe

structure Invariant (d : Deployment) (Inv : Nat → State → Prop) : Prop where
  init : Inv d.deployedAt (constructor d)
  mono : ∀ {t t' s}, t ≤ t' → Inv t s → Inv t' s
  effect : ∀ {env call s s'}, Inv env.timestamp s → Effect d env s call s' → Inv env.timestamp s'

theorem run_invariant {d : Deployment} {Inv : Nat → State → Prop} (h : Invariant d Inv)
    (actions : List Action)
    : Inv (run d actions).now (run d actions).state
        ∧ ∀ frame ∈ (run d actions).stack, Inv (run d actions).now frame.snapshot := by
  have hon : InvariantOn d (fun _ => True) Inv :=
    ⟨fun _ => h.init, h.mono, fun hinv _ _ heffect => h.effect hinv heffect⟩
  exact run_invariantOn hon actions (fun _ _ => trivial)

/--
At most one call is in flight: the guard is entered exactly while a payee runs.
-/
theorem run_entered (d : Deployment) (actions : List Action)
    : ((run d actions).stack = [] ∧ (run d actions).state.entered = false)
        ∨ ∃ frame, (run d actions).stack = [frame] ∧ (run d actions).state.entered = true
            ∧ frame.snapshot.entered = false := by
  induction actions using List.reverseRecOn with
  | nil => exact .inl ⟨rfl, rfl⟩
  | append_singleton actions a ih =>
    rw [run_concat]
    generalize run d actions = m at ih
    have hstep := step_sound d m a
    generalize m.step d a = m' at hstep ⊢
    cases hstep with
    | stutter => exact ih
    | effect caller call s h hentered =>
      dsimp
      rw [hentered]
      exact ih
    | enter caller call s payment h hbefore hafter =>
      rcases ih with ⟨hnil, -⟩ | ⟨frame, -, htrue, -⟩
      . exact .inr ⟨⟨m.state, payment⟩, by simp [hnil], hafter, hbefore⟩
      . rw [htrue] at hbefore
        cases hbefore
    | leave frame stack hcons =>
      rcases ih with ⟨hnil, -⟩ | ⟨f, hf, -, -⟩
      . rw [hnil] at hcons
        cases hcons
      . rw [hf] at hcons
        cases hcons
        exact .inl ⟨rfl, rfl⟩
    | revert frame stack hcons =>
      rcases ih with ⟨hnil, -⟩ | ⟨f, hf, -, hsnapshot⟩
      . rw [hnil] at hcons
        cases hcons
      . rw [hf] at hcons
        cases hcons
        exact .inl ⟨rfl, hsnapshot⟩
    | forceSend amount => exact ih
    | wait seconds hnil hnow => exact ih

theorem run_invariant_committed {d : Deployment} {Inv : Nat → State → Prop} (h : Invariant d Inv)
    (actions : List Action) : Inv (run d actions).now (run d actions).committed := by
  obtain ⟨hstate, hstack⟩ := run_invariant h actions
  unfold committed
  split
  . exact hstate
  . next frame hframe => exact hstack frame (List.mem_of_getLast? hframe)

section Committed

variable {d : Deployment} {Inv : Nat → State → Prop} {R : State → State → Prop}
variable (h : Invariant d Inv) (hrefl : ∀ s, R s s) (htrans : ∀ {s t u}, R s t → R t u → R s u)
variable (hR : ∀ {env call s s'}, Inv env.timestamp s → Effect d env s call s' → R s s')

include h hrefl htrans hR

theorem run_committed_state (actions : List Action)
    : R (run d actions).committed (run d actions).state := by
  induction actions using List.reverseRecOn with
  | nil => exact hrefl _
  | append_singleton actions a ih =>
    have hinv := (run_invariant h actions).1
    have hentered := run_entered d actions
    rw [run_concat]
    generalize run d actions = m at ih hinv hentered
    have hstep := step_sound d m a
    generalize m.step d a = m' at hstep ⊢
    cases hstep with
    | stutter => exact ih
    | effect caller call s heffect =>
      rcases hentered with ⟨hnil, -⟩ | ⟨frame, hframe, -, -⟩
      . simp only [committed, hnil]
        exact hrefl _
      . simp only [committed, hframe] at ih ⊢
        exact htrans ih (hR hinv heffect)
    | enter caller call s payment heffect hbefore hafter =>
      rcases hentered with ⟨hnil, -⟩ | ⟨frame, -, htrue, -⟩
      . simp only [committed, hnil]
        exact hR hinv heffect
      . rw [htrue] at hbefore
        cases hbefore
    | leave frame stack hcons =>
      rcases hentered with ⟨hnil, -⟩ | ⟨f, hf, -, -⟩
      . rw [hnil] at hcons
        cases hcons
      . rw [hf] at hcons
        cases hcons
        exact hrefl _
    | revert frame stack hcons =>
      rcases hentered with ⟨hnil, -⟩ | ⟨f, hf, -, -⟩
      . rw [hnil] at hcons
        cases hcons
      . rw [hf] at hcons
        cases hcons
        exact hrefl _
    | forceSend amount =>
      rcases hentered with ⟨hnil, -⟩ | ⟨frame, hframe, -, -⟩
      . simp only [committed, hnil]
        exact hrefl _
      . simp only [committed, hframe] at ih ⊢
        exact htrans ih (@hR (.idle m.now) _ _ _ hinv (.forceSend amount))
    | wait seconds hnil hnow => exact ih

theorem run_committed_step (actions : List Action) (a : Action)
    : R (run d actions).committed (run d (actions ++ [a])).committed := by
  have hstate := run_committed_state h hrefl htrans hR actions
  have hinv := (run_invariant h actions).1
  have hentered := run_entered d actions
  rw [run_concat]
  generalize run d actions = m at hstate hinv hentered
  have hstep := step_sound d m a
  generalize m.step d a = m' at hstep ⊢
  cases hstep with
  | stutter => exact hrefl _
  -- inside another call nothing is committed yet
  | effect caller call s heffect =>
    rcases hentered with ⟨hnil, -⟩ | ⟨f, hf, -, -⟩
    . simp only [committed, hnil]
      exact hR hinv heffect
    . simp only [committed, hf]
      exact hrefl _
  | enter caller call s payment heffect hbefore hafter =>
    rcases hentered with ⟨hnil, -⟩ | ⟨f, hf, htrue, -⟩
    . simp only [committed, hnil]
      exact hrefl _
    . rw [htrue] at hbefore
      cases hbefore
  -- the call of the frame has succeeded, with all that happened since it began
  | leave frame stack hcons =>
    rcases hentered with ⟨hnil, -⟩ | ⟨f, hf, -, -⟩
    . rw [hnil] at hcons
      cases hcons
    . rw [hf] at hcons
      cases hcons
      refine htrans hstate ?_
      exact @hR (.idle m.now) _ _ _ hinv (.resume frame.payment)
  | revert frame stack hcons =>
    rcases hentered with ⟨hnil, -⟩ | ⟨f, hf, -, -⟩
    . rw [hnil] at hcons
      cases hcons
    . simp only [committed, hf]
      rw [hf] at hcons
      cases hcons
      exact hrefl _
  | forceSend amount =>
    rcases hentered with ⟨hnil, -⟩ | ⟨f, hf, -, -⟩
    . simp only [committed, hnil]
      exact @hR (.idle m.now) _ _ _ hinv (.forceSend amount)
    . simp only [committed, hf]
      exact hrefl _
  | wait seconds hnil hnow =>
    simp only [committed, hnil]
    exact hrefl _

/--
A preorder that contains every effect relates the states between transactions along a run. A call
that reverts in the end never happened there.
-/
theorem run_committed (actions more : List Action)
    : R (run d actions).committed (run d (actions ++ more)).committed := by
  induction more using List.reverseRecOn with
  | nil =>
    rw [List.append_nil]
    exact hrefl _
  | append_singleton more a ih =>
    rw [← List.append_assoc]
    exact htrans ih (run_committed_step h hrefl htrans hR (actions ++ more) a)

end Committed

end Machine

end Credits
end Longjing
