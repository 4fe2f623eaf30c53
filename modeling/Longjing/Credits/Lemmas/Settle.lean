import Longjing.Credits.Lemmas.Exit
import Longjing.Credits.Lemmas.Pause
import Longjing.Credits.Lemmas.Tree

/-!
How a note ends without its owner: whoever has its key can slash it at any time, and the operator can
collect it when its lifetime is over.
-/

namespace Longjing
namespace Credits

open Fallible

/--
A note that ended stays as it is, and so does its account.
-/
def AccountKept (s s' : State) : Prop :=
  ∀ c, (s.notes c).status.Terminal →
    s'.notes c = s.notes c ∧ accountOf c s'.ledger = accountOf c s.ledger

theorem AccountKept.refl (s : State) : AccountKept s s :=
  fun _ _ => ⟨rfl, rfl⟩

theorem AccountKept.trans {s t u : State} (hst : AccountKept s t) (htu : AccountKept t u)
    : AccountKept s u := by
  intro c hended
  obtain ⟨hnote, haccount⟩ := hst c hended
  obtain ⟨hnote', haccount'⟩ := htu c (by rw [hnote]; exact hended)
  exact ⟨hnote'.trans hnote, haccount'.trans haccount⟩

theorem Effect.accountKept {d : Deployment} {env : Env} {call : Option Call} {s s' : State}
    (h : Effect d env s call s') : AccountKept s s' := by
  intro c hended
  refine ⟨(h.later c).ended hended, ?_⟩
  -- what is written to the ledger is about a note that has not ended
  have hother {c' : Nat} (hc' : ¬ (s.notes c').status.Terminal) : c' ≠ c := by
    rintro rfl
    exact hc' hended
  have hcons {e : LedgerEntry} {c' : Nat} (ledger : List LedgerEntry) (he : e.commitment? = some c')
      (hc' : ¬ (s.notes c').status.Terminal) : accountOf c (e :: ledger) = accountOf c ledger :=
    accountOf_cons_of_ne ledger (by rw [he, ne_eq, Option.some.injEq]; exact hother hc')
  cases h with
  | deposit c' _ _ _ _ _ hnone => exact hcons _ rfl (by simp [hnone, Status.Terminal])
  | initiateWithdrawal => rfl
  | finalizeWithdrawal c' _ hexiting =>
    have hlive : ¬ (s.notes c').status.Terminal := by simp [hexiting, Status.Terminal]
    exact (hcons _ rfl hlive).trans (hcons _ rfl hlive)
  | slashActive secretKey _ _ hactive =>
    have hlive : ¬ (s.notes (d.poseidon.hash1 secretKey)).status.Terminal := by simp [hactive, Status.Terminal]
    exact (hcons _ rfl hlive).trans (hcons _ rfl hlive)
  | slashExiting secretKey _ _ hexiting =>
    have hlive : ¬ (s.notes (d.poseidon.hash1 secretKey)).status.Terminal := by simp [hexiting, Status.Terminal]
    exact (hcons _ rfl hlive).trans (hcons _ rfl hlive)
  | claimExpired c' _ _ _ hactive => exact hcons _ rfl (by simp [hactive, Status.Terminal])
  | withdrawOperatorBalance => exact accountOf_cons_of_ne _ (by simp [LedgerEntry.commitment?])
  | executeChange target => cases target <;> rfl
  | _ => rfl

theorem run_account_kept (d : Deployment) (actions more : List Action) {c : Nat}
    (hended : ((run d actions).committed.notes c).status.Terminal)
    : ((run d (actions ++ more)).state.notes c) = (run d actions).committed.notes c
        ∧ accountOf c (run d (actions ++ more)).state.ledger = accountOf c (run d actions).committed.ledger := by
  have hkept : ∀ {env call s s'}, Accounting d s → Effect d env s call s' → AccountKept s s' :=
    fun _ h => h.accountKept
  have hcommitted := Machine.run_committed (Accounting.invariant d) AccountKept.refl AccountKept.trans hkept
    actions more
  have hstate := Machine.run_committed_state (Accounting.invariant d) AccountKept.refl AccountKept.trans hkept
    (actions ++ more)
  exact (hcommitted.trans hstate) c hended

theorem accountOf_cons_self {c : Nat} {e : LedgerEntry} (ledger : List LedgerEntry)
    (h : e.commitment? = some c) : accountOf c (e :: ledger) = e :: accountOf c ledger := by
  unfold accountOf
  rw [List.filter_cons_of_pos (by simp [h])]

theorem committed_of_stack {m : Machine} (h : m.stack = []) : m.committed = m.state := by
  simp only [Machine.committed, h, List.getLast?_nil]

theorem entered_of_stack {d : Deployment} {actions : List Action} (h : (run d actions).stack = [])
    : (run d actions).state.entered = false := by
  rcases Machine.run_entered d actions with ⟨-, hfalse⟩ | ⟨f, hf, -, -⟩
  . exact hfalse
  . rw [h] at hf
    cases hf

/--
A top level `slash` of a live note reaches its payee with the bounty.
-/
theorem run_slash {d : Deployment} {actions : List Action} {caller : Caller} {secretKey : Nat}
    (hstack : (run d actions).stack = []) (hkey : secretKey < FIELD_MODULUS)
    (hlive : ((run d actions).state.notes (d.poseidon.hash1 secretKey)).Live)
    (hvalue : caller.value = 0) (hself : caller.sender ≠ d.self)
    : (run d (actions ++ [.call caller (.slash secretKey)])).stack
          = [⟨(run d actions).state, .slash (d.poseidon.hash1 secretKey) caller.sender
              (bountyOf d ((run d actions).state.notes (d.poseidon.hash1 secretKey)))⟩]
        ∧ (run d (actions ++ [.call caller (.slash secretKey)])).state.ledger
            = .paid (d.poseidon.hash1 secretKey) caller.sender
                (bountyOf d ((run d actions).state.notes (d.poseidon.hash1 secretKey)))
              :: .credited (d.poseidon.hash1 secretKey)
                  (((run d actions).state.notes (d.poseidon.hash1 secretKey)).amount
                    - bountyOf d ((run d actions).state.notes (d.poseidon.hash1 secretKey)))
              :: (run d actions).state.ledger
        ∧ (run d (actions ++ [.call caller (.slash secretKey)])).state.notes (d.poseidon.hash1 secretKey)
            = { (run d actions).state.notes (d.poseidon.hash1 secretKey) with status := .slashed } := by
  have haccounting := (Machine.run_invariant (Accounting.invariant d) actions).1
  have hcapacity := (Machine.run_invariant (Capacity.invariant d) actions).1
  have hleaves := (Machine.run_invariant (Leaves.invariant d) actions).1
  have hfree := entered_of_stack hstack
  rw [run_concat]
  generalize run d actions = m at hstack hlive haccounting hcapacity hleaves hfree ⊢
  obtain ⟨hcovered, hoverflow⟩ := amount_le_balance haccounting hcapacity hlive
  have hbounty := bountyOf_le d (m.state.notes (d.poseidon.hash1 secretKey))
  -- nothing reverts in front of the payment, which the account covers
  obtain ⟨s, hexec, hledger, hbalance, hnote⟩ : ∃ s, exec d (caller.env m.now) (.slash secretKey) m.state
        = .ok (s, some (.slash (d.poseidon.hash1 secretKey) caller.sender
            (bountyOf d (m.state.notes (d.poseidon.hash1 secretKey)))))
      ∧ s.ledger = .credited (d.poseidon.hash1 secretKey)
          ((m.state.notes (d.poseidon.hash1 secretKey)).amount
            - bountyOf d (m.state.notes (d.poseidon.hash1 secretKey))) :: m.state.ledger
      ∧ s.balance = m.state.balance
      ∧ s.notes (d.poseidon.hash1 secretKey)
          = { m.state.notes (d.poseidon.hash1 secretKey) with status := .slashed } := by
    have hreached {s : State} (hslash : slash d (caller.env m.now) secretKey m.state = .ok (s, .slash
        (d.poseidon.hash1 secretKey) caller.sender (bountyOf d (m.state.notes (d.poseidon.hash1 secretKey)))))
        : exec d (caller.env m.now) (.slash secretKey) m.state = .ok (s, some (.slash
            (d.poseidon.hash1 secretKey) caller.sender
            (bountyOf d (m.state.notes (d.poseidon.hash1 secretKey))))) := by
      simp only [exec, bind_eq_ok, revertIf_eq_ok, pure_eq_ok, Prod.mk.injEq]
      exact ⟨(), by simp [Caller.env, hvalue], (_, _), hslash, rfl, rfl⟩
    rcases hlive with hactive | hexiting
    . have hleaf := hleaves.index_lt (d.poseidon.hash1 secretKey) (by simp [hactive])
      refine ⟨_, hreached (slash_eq_ok.mpr ⟨hfree, hkey, by omega, rfl, .inl ⟨hactive, hleaf, rfl⟩⟩), rfl, rfl, ?_⟩
      simp [slashedState]
    . refine ⟨_, hreached (slash_eq_ok.mpr ⟨hfree, hkey, by omega, rfl, .inr ⟨hexiting, rfl⟩⟩), rfl, rfl, ?_⟩
      simp [slashedState]
  rw [Machine.step_call_pay hexec hself (by rw [hbalance]; simp only [Payment.amount]; omega)]
  refine ⟨by simp [hstack], ?_, hnote⟩
  simp only [Payment.transfer, Payment.entry, hledger]

/--
While a payee runs, a preorder that contains every effect relates the states.
-/
theorem run_inner_rel {d : Deployment} {R : State → State → Prop} (hrefl : ∀ s, R s s)
    (htrans : ∀ {s t u}, R s t → R t u → R s u)
    (hR : ∀ {env call s s'}, Effect d env s call s' → R s s') {actions : List Action} {frame : Frame}
    (hstack : (run d actions).stack = [frame]) (inner : List Action)
    (hinner : ∀ a ∈ inner, ∀ success, a ≠ .payeeReturn success)
    : (run d (actions ++ inner)).stack = [frame]
        ∧ R (run d actions).state (run d (actions ++ inner)).state := by
  induction inner using List.reverseRecOn with
  | nil => simp [hstack, hrefl]
  | append_singleton inner a ih =>
    obtain ⟨ihstack, ihrel⟩ := ih (fun a' ha' => hinner a' (by simp [ha']))
    have ha := hinner a (by simp)
    have hentered := Machine.run_entered d (actions ++ inner)
    rw [← List.append_assoc, run_concat]
    generalize run d (actions ++ inner) = m at ihstack ihrel hentered
    have hstep := Machine.step_sound d m a
    generalize m.step d a = m' at hstep
    cases hstep with
    | stutter => exact ⟨ihstack, ihrel⟩
    | effect caller call s heffect => exact ⟨ihstack, htrans ihrel (hR heffect)⟩
    | enter caller call s payment heffect hbefore =>
      rcases hentered with ⟨hnil, -⟩ | ⟨f, -, htrue, -⟩
      . rw [hnil] at ihstack
        cases ihstack
      . rw [htrue] at hbefore
        cases hbefore
    | leave => exact absurd rfl (ha true)
    | revert => exact absurd rfl (ha false)
    | forceSend amount => exact ⟨ihstack, htrans ihrel (@hR (.idle m.now) _ _ _ (.forceSend amount))⟩
    | wait seconds hnil =>
      rw [hnil] at ihstack
      cases ihstack

/--
A note that ended while its payee runs is settled: whatever the payee does before it returns, and whatever comes
later, the note and its account stay as they are.
-/
theorem run_ended {d : Deployment} {actions : List Action} {frame : Frame} {c : Nat}
    (hstack : (run d actions).stack = [frame]) (hended : ((run d actions).state.notes c).status.Terminal)
    (inner more : List Action) (hinner : ∀ a ∈ inner, ∀ success, a ≠ .payeeReturn success)
    : (run d (actions ++ inner ++ [.payeeReturn true])).stack = []
      ∧ (run d (actions ++ inner ++ [.payeeReturn true] ++ more)).state.notes c = (run d actions).state.notes c
      ∧ accountOf c (run d (actions ++ inner ++ [.payeeReturn true] ++ more)).state.ledger
        = accountOf c (run d actions).state.ledger := by
  obtain ⟨hframe, hkept⟩ := run_inner_rel AccountKept.refl AccountKept.trans (fun h => h.accountKept) hstack inner
    hinner
  -- the end of the call writes no entry
  obtain ⟨hdone, hreturned⟩ : (run d (actions ++ inner ++ [.payeeReturn true])).stack = []
      ∧ AccountKept (run d actions).state (run d (actions ++ inner ++ [.payeeReturn true])).state := by
    rw [run_concat d _ (.payeeReturn true)]
    generalize run d (actions ++ inner) = m at hframe hkept
    simp only [Machine.step, hframe, if_true, true_and]
    exact hkept.trans (@Effect.accountKept d (.idle m.now) _ _ _ (.resume _))
  obtain ⟨hnote, haccount⟩ := hreturned c hended
  have hcommitted := committed_of_stack hdone
  obtain ⟨hnote', haccount'⟩ := run_account_kept d (actions ++ inner ++ [.payeeReturn true]) more
    (by rw [hcommitted, hnote]; exact hended)
  rw [hcommitted] at hnote' haccount'
  exact ⟨hdone, hnote'.trans hnote, haccount'.trans haccount⟩

/--
A slash, with everything that happens until its payee returns.
-/
def slashActions (caller : Caller) (secretKey : Nat) (inner : List Action) : List Action :=
  .call caller (.slash secretKey) :: (inner ++ [.payeeReturn true])

/--
The account of a slashed note.
-/
def slashedAccount (d : Deployment) (note : Note) (c slasher : Nat) : List LedgerEntry :=
  [.paid c slasher (bountyOf d note), .credited c (note.amount - bountyOf d note), .deposited c note.amount]

/--
Whoever has the key of a live note ends it, in every state between two transactions, paused or not,
whatever the payee does before it returns: the bounty is paid once, the rest is the operator's, and
nothing else is ever paid for the note.
-/
theorem run_slash_settles (d : Deployment) (actions inner more : List Action) (caller : Caller) (secretKey : Nat)
    (hstack : (run d actions).stack = []) (hkey : secretKey < FIELD_MODULUS)
    (hlive : ((run d actions).state.notes (d.poseidon.hash1 secretKey)).Live)
    (hvalue : caller.value = 0) (hself : caller.sender ≠ d.self)
    (hinner : ∀ a ∈ inner, ∀ success, a ≠ .payeeReturn success)
    : (run d (actions ++ slashActions caller secretKey inner)).stack = []
      ∧ (run d (actions ++ slashActions caller secretKey inner ++ more)).state.notes (d.poseidon.hash1 secretKey)
        = { (run d actions).state.notes (d.poseidon.hash1 secretKey) with status := .slashed }
      ∧ accountOf (d.poseidon.hash1 secretKey)
          (run d (actions ++ slashActions caller secretKey inner ++ more)).state.ledger
        = slashedAccount d ((run d actions).state.notes (d.poseidon.hash1 secretKey))
            (d.poseidon.hash1 secretKey) caller.sender := by
  have haccount := (Machine.run_invariant (Accounting.invariant d) actions).1.account (d.poseidon.hash1 secretKey)
  have hdeposited : accountOf (d.poseidon.hash1 secretKey) (run d actions).state.ledger
      = [.deposited (d.poseidon.hash1 secretKey)
          ((run d actions).state.notes (d.poseidon.hash1 secretKey)).amount] := by
    rcases hlive with hactive | hexiting
    . simpa only [Account, hactive] using haccount
    . simp only [Account, hexiting] at haccount
      exact haccount.1
  obtain ⟨hframe, hledger, hnote⟩ := run_slash hstack hkey hlive hvalue hself
  have hslashed : ((run d (actions ++ [.call caller (.slash secretKey)])).state.notes
      (d.poseidon.hash1 secretKey)).status.Terminal := by
    rw [hnote]
    exact .inr (.inl rfl)
  have hsplit : actions ++ slashActions caller secretKey inner
      = actions ++ [.call caller (.slash secretKey)] ++ inner ++ [.payeeReturn true] := by
    simp [slashActions]
  obtain ⟨hdone, hnote', haccount'⟩ := run_ended hframe hslashed inner more hinner
  rw [hsplit]
  refine ⟨hdone, hnote'.trans hnote, haccount'.trans ?_⟩
  rw [hledger, accountOf_cons_self _ rfl, accountOf_cons_self _ rfl, hdeposited]
  rfl

section Example

theorem firstDeposit_facts
    : (run firstDeployment [firstDeposit]).stack.length = 0
      ∧ (run firstDeployment [firstDeposit]).state.notes firstCommitment
        = ⟨1000000000000000000, 1700000000, 0, .active⟩
      ∧ (run firstDeployment [firstDeposit]).state.serverAddress = 2005 := by
  decide +kernel

/-- The note is slashed with its key, and time goes on. -/
theorem run_slash_settles_deposit
    : accountOf firstCommitment (run firstDeployment ([firstDeposit] ++ slashActions ⟨2010, 0, fun _ _ _ => false⟩ 1
          [.forceSend 3] ++ [.wait 60])).state.ledger
        = [.paid firstCommitment 2010 10000000000000000, .credited firstCommitment 990000000000000000,
          .deposited firstCommitment 1000000000000000000] := by
  obtain ⟨hstack, hnote, -⟩ := firstDeposit_facts
  have hcommitment : firstDeployment.poseidon.hash1 1 = firstCommitment := by decide +kernel
  have hsettled := (run_slash_settles firstDeployment [firstDeposit] [.forceSend 3] [.wait 60]
    ⟨2010, 0, fun _ _ _ => false⟩ 1 (List.length_eq_zero_iff.mp hstack) (by decide +kernel)
    (by rw [hcommitment, hnote]; exact .inl rfl) rfl (by decide) (by simp)).2.2
  rw [hcommitment, hnote] at hsettled
  exact hsettled

end Example

namespace LedgerEntry

def depositedAmount : LedgerEntry → Nat
  | deposited _ amount => amount
  | _ => 0

def operatorPaidAmount : LedgerEntry → Nat
  | operatorPaid _ amount => amount
  | _ => 0

end LedgerEntry

def total (amount : LedgerEntry → Nat) (ledger : List LedgerEntry) : Nat := (ledger.map amount).sum

theorem total_append (amount : LedgerEntry → Nat) (entries ledger : List LedgerEntry)
    : total amount (entries ++ ledger) = total amount entries + total amount ledger := by
  simp [total]

/--
What came in went out or is there, and the operator was paid what it was credited and no longer has.
-/
structure Flow (s : State) : Prop where
  balance : s.balance + total LedgerEntry.paidAmount s.ledger + total LedgerEntry.operatorPaidAmount s.ledger
    = total LedgerEntry.depositedAmount s.ledger + s.forced
  operator : s.operatorBalance + total LedgerEntry.operatorPaidAmount s.ledger
    = total LedgerEntry.creditedAmount s.ledger

namespace Flow

variable {d : Deployment} {env : Env} {s s' : State}

theorem move (h : Flow s) (entries : List LedgerEntry) (hledger : s'.ledger = entries ++ s.ledger)
    (hbalance : s'.balance + total LedgerEntry.paidAmount entries + total LedgerEntry.operatorPaidAmount entries
        + s.forced
      = s.balance + total LedgerEntry.depositedAmount entries + s'.forced)
    (hoperator : s'.operatorBalance + total LedgerEntry.operatorPaidAmount entries
      = s.operatorBalance + total LedgerEntry.creditedAmount entries)
    : Flow s' := by
  have hin := h.balance
  have hout := h.operator
  constructor
  . rw [hledger]
    simp only [total_append]
    omega
  . rw [hledger]
    simp only [total_append]
    omega

theorem slash {note : Note} {c slasher : Nat} (h : Flow s) (hpaid : bountyOf d note ≤ s.balance)
    (hledger : s'.ledger = [.paid c slasher (bountyOf d note), .credited c (note.amount - bountyOf d note)] ++ s.ledger)
    (hbalance : s'.balance = s.balance - bountyOf d note) (hforced : s'.forced = s.forced)
    (hoperator : s'.operatorBalance = s.operatorBalance + (note.amount - bountyOf d note)) : Flow s' := by
  refine h.move _ hledger ?_ ?_
  . simp only [hbalance, hforced, total, List.map_cons, List.map_nil, List.sum_cons, List.sum_nil,
      LedgerEntry.paidAmount, LedgerEntry.operatorPaidAmount, LedgerEntry.depositedAmount]
    omega
  . simp only [hoperator, total, List.map_cons, List.map_nil, List.sum_cons, List.sum_nil,
      LedgerEntry.operatorPaidAmount, LedgerEntry.creditedAmount]
    omega

theorem effect {call : Option Call} (h : Flow s) (heffect : Effect d env s call s') : Flow s' := by
  cases heffect with
  | deposit c => exact h.move [.deposited c env.value] rfl (by rfl) rfl
  | finalizeWithdrawal c _ _ _ hpayout hpaid =>
    refine h.move [.paid _ _ _, .credited _ _] rfl ?_ ?_
    . show s.balance - (s.exits c).payout + ((s.exits c).payout + 0) + 0 + s.forced = s.balance + 0 + s.forced
      omega
    . show s.operatorBalance + ((s.notes c).amount - (s.exits c).payout) + 0
        = s.operatorBalance + (0 + ((s.notes c).amount - (s.exits c).payout + 0))
      omega
  | slashActive secretKey _ _ _ _ hpaid => exact h.slash hpaid rfl rfl rfl rfl
  | slashExiting secretKey _ _ _ hpaid => exact h.slash hpaid rfl rfl rfl rfl
  | claimExpired c => exact h.move [.credited c (s.notes c).amount] rfl rfl rfl
  | withdrawOperatorBalance _ _ hpaid =>
    refine h.move [.operatorPaid s.serverAddress s.operatorBalance] rfl ?_ ?_
    . show s.balance - s.operatorBalance + 0 + (s.operatorBalance + 0) + s.forced = s.balance + 0 + s.forced
      omega
    . show 0 + (s.operatorBalance + 0) = s.operatorBalance + 0
      omega
  | forceSend amount =>
    refine h.move [] rfl ?_ rfl
    show s.balance + amount + 0 + 0 + s.forced = s.balance + 0 + (s.forced + amount)
    omega
  | executeChange target => cases target <;> exact h.move [] rfl rfl rfl
  | _ => exact h.move [] rfl rfl rfl

theorem invariant (d : Deployment) : Machine.Invariant d (fun _ s => Flow s) where
  init := ⟨rfl, rfl⟩
  mono := fun _ h => h
  effect := effect

end Flow

/--
The operator's side, in every state between two transactions: it can collect a note exactly when the
note's unpaused lifetime is over and the contract is not paused, it can take out all that it has, and
what it was paid and has is what it was credited.
-/
theorem run_operator_collects (d : Deployment) (actions : List Action) (caller : Caller)
    (hstack : (run d actions).stack = []) (hvalue : caller.value = 0)
    : Flow (run d actions).state
      ∧ (∀ c, (∃ s, exec d (caller.env (run d actions).now) (.claimExpired c) (run d actions).state = .ok (s, none)
            ∧ s.notes c = { (run d actions).state.notes c with status := .expired }
            ∧ s.operatorBalance = (run d actions).state.operatorBalance + ((run d actions).state.notes c).amount
            ∧ accountOf c s.ledger = [.credited c ((run d actions).state.notes c).amount,
              .deposited c ((run d actions).state.notes c).amount])
          ↔ caller.sender = (run d actions).state.serverAddress
            ∧ ((run d actions).state.notes c).status = .active ∧ (run d actions).state.paused = false
            ∧ NOTE_TTL ≤ secondsPaused (fun u => !(run d actions).pausedSecond u)
                ((run d actions).state.notes c).depositedAt (run d actions).now)
      ∧ (caller.sender = (run d actions).state.serverAddress → caller.sender ≠ d.self →
          (run d (actions ++ [.call caller .withdrawOperatorBalance, .payeeReturn true])).stack = []
          ∧ (run d (actions ++ [.call caller .withdrawOperatorBalance, .payeeReturn true])).state.operatorBalance = 0
          ∧ (run d (actions ++ [.call caller .withdrawOperatorBalance, .payeeReturn true])).state.ledger
            = .operatorPaid caller.sender (run d actions).state.operatorBalance :: (run d actions).state.ledger) := by
  have hflow := (Machine.run_invariant (Flow.invariant d) actions).1
  have haccounting := (Machine.run_invariant (Accounting.invariant d) actions).1
  have hcapacity := (Machine.run_invariant (Capacity.invariant d) actions).1
  have hleaves := (Machine.run_invariant (Leaves.invariant d) actions).1
  have hclock := (run_pauseClock d actions).1
  have hfree := entered_of_stack hstack
  refine ⟨hflow, ?_, ?_⟩
  . intro c
    have hcompl := secondsPaused_compl (run d actions).pausedSecond
      ((run d actions).state.notes c).depositedAt (run d actions).now
    have hle := secondsPaused_le (run d actions).pausedSecond
      ((run d actions).state.notes c).depositedAt (run d actions).now
    constructor
    . rintro ⟨s, hexec, -⟩
      simp only [exec, bind_eq_ok, revertIf_eq_ok, pure_eq_ok, Prod.mk.injEq] at hexec
      obtain ⟨_, -, s', hclaim, -⟩ := hexec
      obtain ⟨-, hpaused, hsender, hactive, ⟨expiry, hexpiry, hexpired⟩, -⟩ := claimExpired_eq_ok.mp hclaim
      rw [noteExpiry_eq rfl (by simp [hactive])] at hexpiry
      cases hexpiry
      have hexpired : ((run d actions).state.notes c).depositedAt + NOTE_TTL
          + secondsPaused (run d actions).pausedSecond
              ((run d actions).state.notes c).depositedAt (run d actions).now ≤ (run d actions).now := hexpired
      exact ⟨hsender, hactive, hpaused, by omega⟩
    . rintro ⟨hsender, hactive, hpaused, hlifetime⟩
      have hexists : ((run d actions).state.notes c).status ≠ .none := by simp [hactive]
      obtain ⟨hdeposited, -⟩ := hclock.note c hexists
      obtain ⟨-, hoverflow⟩ := amount_le_balance haccounting hcapacity (.inl hactive)
      have haccount := haccounting.account c
      simp only [Account, hactive] at haccount
      have hexpired : ((run d actions).state.notes c).depositedAt + NOTE_TTL
          + secondsPaused (run d actions).pausedSecond
              ((run d actions).state.notes c).depositedAt (run d actions).now ≤ (run d actions).now := by
        omega
      obtain ⟨s, hclaim⟩ : ∃ s, claimExpired d (caller.env (run d actions).now) c (run d actions).state = .ok s :=
        ⟨_, claimExpired_eq_ok.mpr ⟨hfree, hpaused, hsender, hactive, ⟨_, noteExpiry_eq rfl hexists, hexpired⟩,
          hleaves.index_lt c hexists, hoverflow, rfl⟩⟩
      refine ⟨s, ?_, ?_⟩
      . simp only [exec, bind_eq_ok, revertIf_eq_ok, pure_eq_ok, Prod.mk.injEq]
        exact ⟨(), by simp [Caller.env, hvalue], s, hclaim, rfl, trivial⟩
      . obtain ⟨-, -, -, -, -, -, -, rfl⟩ := claimExpired_eq_ok.mp hclaim
        refine ⟨by simp [leave, emit, updateLeaf, pushRoot], rfl, ?_⟩
        show accountOf c (.credited c _ :: (run d actions).state.ledger) = _
        rw [accountOf_cons_self _ rfl, haccount]
  . intro hsender hself
    obtain ⟨total, -, hbalance⟩ := haccounting.solvent
    have hsplit : actions ++ [.call caller .withdrawOperatorBalance, .payeeReturn true]
        = actions ++ [.call caller .withdrawOperatorBalance] ++ [.payeeReturn true] := by
      simp
    rw [hsplit, run_concat d _ (.payeeReturn true), run_concat]
    generalize run d actions = m at hstack hfree hsender hbalance ⊢
    have hexec : exec d (caller.env m.now) .withdrawOperatorBalance m.state
        = .ok ({ m.state with entered := true, operatorBalance := 0 },
          some (.operator m.state.serverAddress m.state.operatorBalance)) := by
      simp only [exec, bind_eq_ok, revertIf_eq_ok, pure_eq_ok, Prod.mk.injEq]
      exact ⟨(), by simp [Caller.env, hvalue], (_, _),
        withdrawOperatorBalance_eq_ok.mpr ⟨hfree, hsender, rfl, rfl⟩, rfl, rfl⟩
    rw [Machine.step_call_pay hexec (by rw [← hsender]; exact hself) (by simp only [Payment.amount]; omega), hsender]
    simp only [Machine.step, if_true]
    exact ⟨hstack, rfl, rfl⟩

/-- A year later the operator collects the note. -/
theorem run_operator_collects_deposit
    : ∃ s, exec firstDeployment ((⟨2005, 0, fun _ _ _ => false⟩ : Caller).env
          (run firstDeployment [firstDeposit, .wait NOTE_TTL]).now) (.claimExpired firstCommitment)
          (run firstDeployment [firstDeposit, .wait NOTE_TTL]).state = .ok (s, none)
        ∧ s.operatorBalance = 1000000000000000000 := by
  have hfacts : (run firstDeployment [firstDeposit, .wait NOTE_TTL]).stack.length = 0
      ∧ (run firstDeployment [firstDeposit, .wait NOTE_TTL]).state.notes firstCommitment
        = ⟨1000000000000000000, 1700000000, 0, .active⟩
      ∧ (run firstDeployment [firstDeposit, .wait NOTE_TTL]).state.serverAddress = 2005
      ∧ (run firstDeployment [firstDeposit, .wait NOTE_TTL]).state.operatorBalance = 0
      ∧ (run firstDeployment [firstDeposit, .wait NOTE_TTL]).state.paused = false
      ∧ (run firstDeployment [firstDeposit, .wait NOTE_TTL]).now = 1700000000 + NOTE_TTL := by
    decide +kernel
  obtain ⟨hstack, hnote, hserver, hbalance, hpaused, hnow⟩ := hfacts
  have hclock := (run_pauseClock firstDeployment [firstDeposit, .wait NOTE_TTL]).1.total
  have hsub := secondsPaused_add (f := (run firstDeployment [firstDeposit, .wait NOTE_TTL]).pausedSecond)
    (Nat.zero_le 1700000000) (Nat.le_add_right 1700000000 NOTE_TTL)
  have hcompl := secondsPaused_compl (run firstDeployment [firstDeposit, .wait NOTE_TTL]).pausedSecond 1700000000
    (1700000000 + NOTE_TTL)
  have htotal : (run firstDeployment [firstDeposit, .wait NOTE_TTL]).state.totalPausedTime = 0 := by decide +kernel
  rw [hpaused, htotal, hnow] at hclock
  obtain ⟨s, hexec, -, hcollected, -⟩ := ((run_operator_collects firstDeployment [firstDeposit, .wait NOTE_TTL]
    ⟨2005, 0, fun _ _ _ => false⟩ (List.length_eq_zero_iff.mp hstack) rfl).2.1 firstCommitment).mpr
      ⟨hserver.symm, by rw [hnote], hpaused, by
        rw [hnote, hnow]
        simp only [Bool.false_eq_true, if_false] at hclock
        show NOTE_TTL ≤ secondsPaused _ 1700000000 (1700000000 + NOTE_TTL)
        omega⟩
  rw [hnote, hbalance] at hcollected
  exact ⟨s, hexec, hcollected⟩

end Credits
end Longjing
