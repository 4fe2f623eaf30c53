import Longjing.Credits.Machine
import Longjing.Lib.Fallible

/-!
What each function does when it does not revert.
-/

namespace Longjing
namespace Credits

open Fallible

@[simp]
theorem revertIf_eq_ok {cond : Prop} [Decidable cond] {error : Error} {r : Unit}
    : revertIf cond error = .ok r ↔ ¬cond := by
  unfold revertIf
  split <;> simp_all

theorem revertIf_eq_error {cond : Prop} [Decidable cond] {error e : Error}
    : revertIf cond error = .error e ↔ cond ∧ error = e := by
  unfold revertIf
  split <;> simp_all

@[simp]
theorem checkedAdd_eq_ok {a b r : Nat} : checkedAdd a b = .ok r ↔ a + b < 2 ^ 256 ∧ r = a + b := by
  unfold checkedAdd
  split <;> simp_all [eq_comm]

theorem checkedAdd_eq_error {a b : Nat} {e : Error}
    : checkedAdd a b = .error e ↔ 2 ^ 256 ≤ a + b ∧ e = .panic := by
  unfold checkedAdd
  split <;> simp_all [eq_comm]

@[simp]
theorem checkedSub_eq_ok {a b r : Nat} : checkedSub a b = .ok r ↔ b ≤ a ∧ r = a - b := by
  unfold checkedSub
  split <;> simp_all [eq_comm]

@[simp]
theorem nonReentrant_eq_ok {s s' : State}
    : nonReentrant s = .ok s' ↔ s.entered = false ∧ s' = { s with entered := true } := by
  simp only [nonReentrant, bind_eq_ok, revertIf_eq_ok, pure_eq_ok, exists_const, Bool.not_eq_true]

@[simp]
theorem whenNotPaused_eq_ok {s : State} {r : Unit} : whenNotPaused s = .ok r ↔ s.paused = false := by
  simp [whenNotPaused]

@[simp]
theorem whenPaused_eq_ok {s : State} {r : Unit} : whenPaused s = .ok r ↔ s.paused = true := by
  simp [whenPaused]

@[simp]
theorem onlyOwner_eq_ok {env : Env} {s : State} {r : Unit}
    : onlyOwner env s = .ok r ↔ env.sender = s.owner := by
  simp [onlyOwner]

theorem pausedTime_of_not_paused {env : Env} {s : State} (h : s.paused = false)
    : pausedTime env s = .ok s.totalPausedTime := by
  simp [pausedTime, h]

@[simp]
theorem removeLeaf_eq_ok {d : Deployment} {env : Env} {leafIndex : Nat} {s s' : State}
    : removeLeaf d env leafIndex s = .ok s'
        ↔
      leafIndex < s.leaves.length
        ∧ s' = updateLeaf d env leafIndex { s with leaves := s.leaves.set leafIndex 0 } := by
  simp only [removeLeaf, bind_eq_ok, revertIf_eq_ok, pure_eq_ok, exists_const, Nat.not_le]

@[simp]
theorem creditOperator_eq_ok {commitment amount : Nat} {s s' : State}
    : creditOperator commitment amount s = .ok s'
        ↔
      s.operatorBalance + amount < 2 ^ 256
        ∧ s' =
            { s with
              operatorBalance := s.operatorBalance + amount
              ledger := .credited commitment amount :: s.ledger
            } := by
  simp only [creditOperator, bind_eq_ok, checkedAdd_eq_ok, pure_eq_ok]
  constructor
  . rintro ⟨a, ⟨h, rfl⟩, rfl⟩
    exact ⟨h, rfl⟩
  . rintro ⟨h, rfl⟩
    exact ⟨_, ⟨h, rfl⟩, rfl⟩

theorem deposit_eq_ok {d : Deployment} {env : Env} {commitment : Nat} {s s' : State}
    : deposit d env commitment s = .ok s'
        ↔
      s.entered = false
        ∧ s.paused = false
        ∧ d.cMax ≤ env.value
        ∧ env.value < 2 ^ 128
        ∧ commitment < FIELD_MODULUS
        ∧ (s.notes commitment).status = .none
        ∧ s.leaves.length ≠ 2 ^ TREE_DEPTH
        ∧ s' =
            leave (emit env (.deposited commitment env.value s.leaves.length)
              (updateLeaf d env s.leaves.length
                { s with
                  entered := true
                  notes := Function.update s.notes commitment
                    ⟨env.value, env.timestamp, s.leaves.length, .active⟩
                  pausedTimeAtDeposit :=
                    Function.update s.pausedTimeAtDeposit commitment s.totalPausedTime
                  leaves := s.leaves ++ [d.poseidon.hash2 commitment env.value]
                  balance := s.balance + env.value
                  ledger := .deposited commitment env.value :: s.ledger
                })) := by
  simp only [deposit, bind_eq_ok, nonReentrant_eq_ok, whenNotPaused_eq_ok, revertIf_eq_ok,
    pure_eq_ok, setNote]
  constructor
  . rintro ⟨_, ⟨h1, rfl⟩, _, h2, _, h3, _, h4, _, h5, _, h6, t, ht, rfl⟩
    rw [pausedTime_of_not_paused h2] at ht
    cases ht
    simp only [not_or, Nat.not_lt, Nat.not_le, not_not] at h3 h4 h5 h6
    exact ⟨h1, h2, h3.1, h3.2, h4, h5, h6, rfl⟩
  . rintro ⟨h1, h2, h3, h3', h4, h5, h6, rfl⟩
    refine ⟨_, ⟨h1, rfl⟩, (), h2, (), ?_, (), ?_, (), ?_, (), h6, s.totalPausedTime, ?_, rfl⟩
    . omega
    . omega
    . simpa using h5
    . exact pausedTime_of_not_paused h2

def newExit (d : Deployment) (env : Env) (args : WithdrawalArgs) : Exit :=
  ⟨args.nullifier, withdrawalSignalX d args.recipient, args.signalY, args.payout, args.recipient,
    env.timestamp + CHALLENGE_WINDOW⟩

theorem initiateWithdrawal_eq_ok {d : Deployment} {env : Env} {args : WithdrawalArgs}
    {s s' : State}
    : initiateWithdrawal d env args s = .ok s'
        ↔
      s.entered = false
        ∧ args.recipient ≠ 0
        ∧ (s.notes args.commitment).status = .active
        ∧ s.acceptedRefundKeys (refundKeyId d args.refundKey) = true
        ∧ args.payout ≤ (s.notes args.commitment).amount
        ∧ env.verifySettlementProof s.settlementVerifier args.proof
            (settlementSignals d args.commitment args.recipient args.refundKey args.nullifier
              args.signalY args.payout (s.notes args.commitment).amount) = true
        ∧ env.timestamp + CHALLENGE_WINDOW < 2 ^ 256
        ∧ (s.notes args.commitment).leafIndex < s.leaves.length
        ∧ s' =
            leave (emit env (.withdrawalInitiated args.commitment (newExit d env args))
              (updateLeaf d env (s.notes args.commitment).leafIndex
                { s with
                  entered := true
                  notes := Function.update s.notes args.commitment
                    { s.notes args.commitment with status := .exiting }
                  exits := Function.update s.exits args.commitment (newExit d env args)
                  leaves := s.leaves.set (s.notes args.commitment).leafIndex 0
                })) := by
  simp only [initiateWithdrawal, bind_eq_ok, nonReentrant_eq_ok, revertIf_eq_ok, pure_eq_ok,
    checkedAdd_eq_ok, removeLeaf_eq_ok, setNote]
  constructor
  . rintro ⟨_, ⟨h1, rfl⟩, _, h2, _, h3, _, h4, _, h5, _, h6, _, ⟨h7, rfl⟩, _, ⟨h8, rfl⟩, rfl⟩
    refine ⟨h1, h2, ?_, ?_, ?_, ?_, h7, h8, rfl⟩
    . simpa using h3
    . simpa using h4
    . simpa using h5
    . simpa using h6
  . rintro ⟨h1, h2, h3, h4, h5, h6, h7, h8, rfl⟩
    refine ⟨_, ⟨h1, rfl⟩, (), h2, (), ?_, (), ?_, (), ?_, (), ?_, _, ⟨h7, rfl⟩, _, ⟨h8, rfl⟩, rfl⟩
    . simpa using h3
    . simpa using h4
    . simpa using h5
    . simpa using h6

theorem mem_logs_initiateWithdrawal {d : Deployment} {env : Env} {args : WithdrawalArgs} {s s' : State}
    (h : initiateWithdrawal d env args s = .ok s')
    : ⟨env.timestamp, .withdrawalInitiated args.commitment (newExit d env args)⟩ ∈ s'.logs := by
  obtain ⟨-, -, -, -, -, -, -, -, rfl⟩ := initiateWithdrawal_eq_ok.mp h
  exact List.mem_cons_self

theorem exec_initiateWithdrawal_eq_ok {d : Deployment} {env : Env} {args : WithdrawalArgs} {s s' : State}
    (hvalue : env.value = 0) (h : initiateWithdrawal d env args s = .ok s')
    : exec d env (.initiateWithdrawal args) s = .ok (s', none) := by
  simp only [exec, hvalue, revertIf, ne_eq, not_true_eq_false, and_false, if_false, bind_eq_ok]
  exact ⟨(), trivial, s', h, rfl⟩

theorem exec_payoutExceedsDeposit {d : Deployment} {env : Env} {args : WithdrawalArgs} {s : State}
    (h : exec d env (.initiateWithdrawal args) s = .error .payoutExceedsDeposit)
    : (s.notes args.commitment).amount < args.payout := by
  simp only [exec, initiateWithdrawal, nonReentrant, removeLeaf, bind_eq_error, revertIf_eq_error,
    checkedAdd_eq_error, pure_ne_error, reduceCtorEq, and_false, exists_false, or_false, false_or,
    and_true] at h
  obtain ⟨_, -, t, ht, _, -, _, -, _, -, hlt⟩ := h
  obtain ⟨-, -, rfl⟩ : ∃ r, revertIf (s.entered = true) .reentrantCall = .ok r ∧ t = { s with entered := true } := by
    simpa only [bind_eq_ok, pure_eq_ok] using ht
  exact hlt

theorem finalizeWithdrawal_eq_ok {env : Env} {commitment : Nat} {s s' : State} {payment : Payment}
    : finalizeWithdrawal env commitment s = .ok (s', payment)
        ↔
      s.entered = false
        ∧ (s.notes commitment).status = .exiting
        ∧ (s.exits commitment).exitAt ≤ env.timestamp
        ∧ (s.exits commitment).payout ≤ (s.notes commitment).amount
        ∧ s.operatorBalance + ((s.notes commitment).amount - (s.exits commitment).payout) < 2 ^ 256
        ∧ payment =
            .finalize commitment (s.exits commitment).recipient (s.exits commitment).payout
        ∧ s' =
            { s with
              entered := true
              notes := Function.update s.notes commitment
                { s.notes commitment with status := .closed }
              operatorBalance :=
                s.operatorBalance + ((s.notes commitment).amount - (s.exits commitment).payout)
              ledger :=
                .credited commitment ((s.notes commitment).amount - (s.exits commitment).payout)
                  :: s.ledger
            } := by
  simp only [finalizeWithdrawal, bind_eq_ok, nonReentrant_eq_ok, revertIf_eq_ok, pure_eq_ok,
    checkedSub_eq_ok, creditOperator_eq_ok, setNote, Prod.mk.injEq]
  constructor
  . rintro ⟨_, ⟨h1, rfl⟩, _, h2, _, h3, _, ⟨h4, rfl⟩, _, ⟨h5, rfl⟩, rfl, rfl⟩
    refine ⟨h1, ?_, ?_, h4, h5, rfl, rfl⟩
    . simpa using h2
    . simpa using h3
  . rintro ⟨h1, h2, h3, h4, h5, rfl, rfl⟩
    refine ⟨_, ⟨h1, rfl⟩, (), ?_, (), ?_, _, ⟨h4, rfl⟩, _, ⟨h5, rfl⟩, rfl, rfl⟩
    . simpa using h2
    . simpa using h3

/--
What the slasher of a note gets.
-/
def bountyOf (d : Deployment) (note : Note) : Nat :=
  if note.amount < d.slashBounty then note.amount else d.slashBounty

theorem bountyOf_le (d : Deployment) (note : Note) : bountyOf d note ≤ note.amount := by
  unfold bountyOf
  split <;> omega

/--
The state in which `slash` settles the note's amount, with the note's leaf gone if it had one.
-/
def slashedState (d : Deployment) (note : Note) (commitment : Nat) (s : State) : State :=
  { s with
    notes := Function.update s.notes commitment { note with status := .slashed }
    operatorBalance := s.operatorBalance + (note.amount - bountyOf d note)
    ledger := .credited commitment (note.amount - bountyOf d note) :: s.ledger
  }

theorem slash_eq_ok {d : Deployment} {env : Env} {secretKey : Nat} {s s' : State}
    {payment : Payment}
    : slash d env secretKey s = .ok (s', payment)
        ↔
      s.entered = false
        ∧ secretKey < FIELD_MODULUS
        ∧ s.operatorBalance
            + ((s.notes (d.poseidon.hash1 secretKey)).amount
              - bountyOf d (s.notes (d.poseidon.hash1 secretKey))) < 2 ^ 256
        ∧ payment =
            .slash (d.poseidon.hash1 secretKey) env.sender
              (bountyOf d (s.notes (d.poseidon.hash1 secretKey)))
        ∧ (((s.notes (d.poseidon.hash1 secretKey)).status = .active
            ∧ (s.notes (d.poseidon.hash1 secretKey)).leafIndex < s.leaves.length
            ∧ s' =
                slashedState d (s.notes (d.poseidon.hash1 secretKey)) (d.poseidon.hash1 secretKey)
                  (updateLeaf d env (s.notes (d.poseidon.hash1 secretKey)).leafIndex
                    { s with
                      entered := true
                      leaves := s.leaves.set
                        (s.notes (d.poseidon.hash1 secretKey)).leafIndex 0
                    }))
          ∨ ((s.notes (d.poseidon.hash1 secretKey)).status = .exiting
            ∧ s' =
                slashedState d (s.notes (d.poseidon.hash1 secretKey)) (d.poseidon.hash1 secretKey)
                  { s with entered := true })) := by
  simp only [slash, bind_eq_ok, nonReentrant_eq_ok, revertIf_eq_ok, pure_eq_ok,
    checkedSub_eq_ok, creditOperator_eq_ok, setNote, Prod.mk.injEq]
  generalize hc : d.poseidon.hash1 secretKey = c
  constructor
  . rintro ⟨_, ⟨h1, rfl⟩, _, h2, s1, hs1, _, ⟨-, rfl⟩, _, ⟨h5, rfl⟩, rfl, rfl⟩
    unfold slash.removeActive at hs1
    split at hs1
    . next hactive =>
      rw [removeLeaf_eq_ok] at hs1
      obtain ⟨hleaf, rfl⟩ := hs1
      exact ⟨h1, by omega, h5, rfl, .inl ⟨hactive, hleaf, rfl⟩⟩
    . simp only [bind_eq_ok, revertIf_eq_ok, not_not, pure_eq_ok] at hs1
      obtain ⟨_, hexiting, rfl⟩ := hs1
      exact ⟨h1, by omega, h5, rfl, .inr ⟨hexiting, rfl⟩⟩
  . rintro ⟨h1, h2, h5, rfl, ⟨hactive, hleaf, rfl⟩ | ⟨hexiting, rfl⟩⟩
    . refine ⟨_, ⟨h1, rfl⟩, (), by omega,
        updateLeaf d env (s.notes c).leafIndex
          { s with entered := true, leaves := s.leaves.set (s.notes c).leafIndex 0 },
        ?_, _, ⟨bountyOf_le d _, rfl⟩, _, ⟨h5, rfl⟩, rfl, rfl⟩
      unfold slash.removeActive
      rw [if_pos hactive, removeLeaf_eq_ok]
      exact ⟨hleaf, rfl⟩
    . refine ⟨_, ⟨h1, rfl⟩, (), by omega, { s with entered := true }, ?_, _,
        ⟨bountyOf_le d _, rfl⟩, _, ⟨h5, rfl⟩, rfl, rfl⟩
      unfold slash.removeActive
      rw [if_neg (by simp [hexiting])]
      simp only [bind_eq_ok, revertIf_eq_ok, not_not, pure_eq_ok]
      exact ⟨(), hexiting, trivial⟩

theorem claimExpired_eq_ok {d : Deployment} {env : Env} {commitment : Nat} {s s' : State}
    : claimExpired d env commitment s = .ok s'
        ↔
      s.entered = false
        ∧ s.paused = false
        ∧ env.sender = s.serverAddress
        ∧ (s.notes commitment).status = .active
        ∧ (∃ expiry, noteExpiry env commitment s = .ok expiry ∧ expiry ≤ env.timestamp)
        ∧ (s.notes commitment).leafIndex < s.leaves.length
        ∧ s.operatorBalance + (s.notes commitment).amount < 2 ^ 256
        ∧ s' =
            leave (emit env (.noteExpiredClaimed commitment (s.notes commitment).amount)
              { updateLeaf d env (s.notes commitment).leafIndex
                  { s with
                    entered := true
                    notes := Function.update s.notes commitment
                      { s.notes commitment with status := .expired }
                    leaves := s.leaves.set (s.notes commitment).leafIndex 0
                  } with
                operatorBalance := s.operatorBalance + (s.notes commitment).amount
                ledger := .credited commitment (s.notes commitment).amount :: s.ledger
              }) := by
  simp only [claimExpired, bind_eq_ok, nonReentrant_eq_ok, whenNotPaused_eq_ok, revertIf_eq_ok,
    pure_eq_ok, removeLeaf_eq_ok, creditOperator_eq_ok, setNote]
  have hexpiry : noteExpiry env commitment { s with entered := true }
      = noteExpiry env commitment s := rfl
  constructor
  . rintro ⟨_, ⟨h1, rfl⟩, _, h2, _, h3, _, h4, t, ht, _, h5, _, ⟨h6, rfl⟩, _, ⟨h7, rfl⟩, rfl⟩
    refine ⟨h1, h2, ?_, ?_, ⟨t, ?_, ?_⟩, h6, h7, rfl⟩
    . simpa using h3
    . simpa using h4
    . rw [← hexpiry]
      exact ht
    . simpa using h5
  . rintro ⟨h1, h2, h3, h4, ⟨t, ht, h5⟩, h6, h7, rfl⟩
    refine ⟨_, ⟨h1, rfl⟩, (), h2, (), ?_, (), ?_, t, ?_, (), ?_, _, ⟨h6, rfl⟩, _, ⟨h7, rfl⟩, rfl⟩
    . simpa using h3
    . simpa using h4
    . rw [hexpiry]
      exact ht
    . simpa using h5

theorem withdrawOperatorBalance_eq_ok {env : Env} {s s' : State} {payment : Payment}
    : withdrawOperatorBalance env s = .ok (s', payment)
        ↔
      s.entered = false
        ∧ env.sender = s.serverAddress
        ∧ payment = .operator s.serverAddress s.operatorBalance
        ∧ s' = { s with entered := true, operatorBalance := 0 } := by
  simp only [withdrawOperatorBalance, bind_eq_ok, nonReentrant_eq_ok, revertIf_eq_ok, pure_eq_ok,
    Prod.mk.injEq]
  constructor
  . rintro ⟨_, ⟨h1, rfl⟩, _, h2, rfl, rfl⟩
    refine ⟨h1, ?_, rfl, rfl⟩
    simpa using h2
  . rintro ⟨h1, h2, rfl, rfl⟩
    refine ⟨_, ⟨h1, rfl⟩, (), ?_, rfl, rfl⟩
    simpa using h2

end Credits
end Longjing
