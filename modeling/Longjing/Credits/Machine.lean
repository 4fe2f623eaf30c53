import Longjing.Credits.Impl

/-!
The contract as a machine: any caller may call any function at any time, the payee of a `_pay` runs
in the middle of the call that pays it, and ETH may be forced into the account.
-/

namespace Longjing
namespace Credits

inductive Call where
  | deposit (commitment : Nat)
  | initiateWithdrawal (args : WithdrawalArgs)
  | finalizeWithdrawal (commitment : Nat)
  | slash (secretKey : Nat)
  | claimExpired (commitment : Nat)
  | withdrawOperatorBalance
  | proposeChange (target : Target) (value : Nat)
  | proposeRefundKey (x y : Nat)
  | executeChange (target : Target)
  | cancelChange (target : Target)
  | pause
  | unpause
  | transferOwnership (newOwner : Nat)
  | renounceOwnership
  deriving DecidableEq, Repr

def Call.payable : Call → Bool
  | .deposit _ => true
  | _ => false

/--
Runs a function to its end, or up to its `_pay`.
-/
def exec (d : Deployment) (env : Env) (call : Call) (s : State)
    : Except Error (State × Option Payment) := do
  revertIf (call.payable = false ∧ env.value ≠ 0) .nonPayable
  match call with
  | .deposit commitment => return (← deposit d env commitment s, none)
  | .initiateWithdrawal args => return (← initiateWithdrawal d env args s, none)
  | .finalizeWithdrawal commitment =>
    let (s, payment) ← finalizeWithdrawal env commitment s
    return (s, some payment)
  | .slash secretKey =>
    let (s, payment) ← slash d env secretKey s
    return (s, some payment)
  | .claimExpired commitment => return (← claimExpired d env commitment s, none)
  | .withdrawOperatorBalance =>
    let (s, payment) ← withdrawOperatorBalance env s
    return (s, some payment)
  | .proposeChange target value => return (← proposeChange env target value s, none)
  | .proposeRefundKey x y => return (← proposeRefundKey env x y s, none)
  | .executeChange target => return (← executeChange d env target s, none)
  | .cancelChange target => return (← cancelChange env target s, none)
  | .pause => return (← pause env s, none)
  | .unpause => return (← unpause env s, none)
  | .transferOwnership newOwner => return (← transferOwnership env newOwner s, none)
  | .renounceOwnership => return (← renounceOwnership env s, none)

namespace Payment

def payee : Payment → Nat
  | finalize _ recipient _ => recipient
  | slash _ slasher _ => slasher
  | operator payee _ => payee

def amount : Payment → Nat
  | finalize _ _ payout => payout
  | slash _ _ bounty => bounty
  | operator _ amount => amount

def entry : Payment → LedgerEntry
  | finalize commitment recipient payout => .paid commitment recipient payout
  | slash commitment slasher bounty => .paid commitment slasher bounty
  | operator payee amount => .operatorPaid payee amount

/--
The event behind `_pay`. `withdrawOperatorBalance` reads `serverAddress` again for it.
-/
def event (s : State) : Payment → Event
  | finalize commitment recipient payout => .withdrawalFinalized commitment recipient payout
  | slash commitment slasher bounty => .slashed commitment slasher bounty
  | operator _ amount => .operatorBalanceWithdrawn s.serverAddress amount

/--
The value of `_pay` leaves the account before the payee's code runs.
-/
def transfer (payment : Payment) (s : State) : State :=
  { s with balance := s.balance - payment.amount, ledger := payment.entry :: s.ledger }

/--
What runs after the payee returned.
-/
def resume (payment : Payment) (timestamp : Nat) (s : State) : State :=
  leave { s with logs := ⟨timestamp, payment.event s⟩ :: s.logs }

end Payment

/--
A call suspended in `_pay`: the state it started from, which a revert restores, and what is left.
-/
structure Frame where
  snapshot : State
  payment : Payment

structure Machine where
  state : State
  -- The calls waiting for their payee, innermost first.
  stack : List Frame
  -- `block.timestamp`.
  now : Nat
  -- Whether the contract was paused during each second before `now`.
  pausedSecond : Nat → Bool

/--
The caller of a step and the answer its verifier would give.
-/
structure Caller where
  sender : Nat
  value : Nat
  verifySettlementProof : (verifier : Nat) → (proof publicSignals : List Nat) → Bool

inductive Action where
  -- Anyone calls a function; while a payee runs, this is a re-entrant call.
  | call (caller : Caller) (call : Call)
  -- The innermost payee ends, with success or with a revert.
  | payeeReturn (success : Bool)
  -- ETH arrives without a call.
  | forceSend (amount : Nat)
  -- Time passes between transactions.
  | wait (seconds : Nat)

def Caller.env (caller : Caller) (now : Nat) : Env where
  sender := caller.sender
  value := caller.value
  timestamp := now
  verifySettlementProof := caller.verifySettlementProof

def deploy (d : Deployment) : Machine where
  state := constructor d
  stack := []
  now := d.deployedAt
  pausedSecond := fun _ => false

/--
The external call of `_pay`. It fails when the account cannot cover it, and when the payee is the
contract itself, which accepts no plain transfer; the whole function then reverts.
-/
def Machine.pay (d : Deployment) (m : Machine) (s : State) (payment : Payment) : Machine :=
  if payment.payee ≠ d.self ∧ payment.amount ≤ s.balance then
    { m with
      state := payment.transfer s
      stack := ⟨m.state, payment⟩ :: m.stack
    }
  else
    m

def Machine.step (d : Deployment) (m : Machine) : Action → Machine
  | .call caller call =>
    match exec d (caller.env m.now) call m.state with
    | .error _ => m
    | .ok (s, none) => { m with state := s }
    | .ok (s, some payment) => m.pay d s payment
  | .payeeReturn success =>
    match m.stack with
    | [] => m
    | frame :: stack =>
      if success then
        { m with state := frame.payment.resume m.now m.state, stack := stack }
      else
        { m with state := frame.snapshot, stack := stack }
  | .forceSend amount =>
    { m with
      state := { m.state with
        balance := m.state.balance + amount
        forced := m.state.forced + amount
      }
    }
  | .wait seconds =>
    if m.stack = [] ∧ m.now + seconds < 2 ^ 64 then
      { m with
        now := m.now + seconds
        pausedSecond := fun u =>
          if m.now ≤ u ∧ u < m.now + seconds then m.state.paused else m.pausedSecond u
      }
    else
      m

/--
Every reachable machine is `run d actions` for some list of actions, oldest first.
-/
def run (d : Deployment) (actions : List Action) : Machine :=
  actions.foldl (Machine.step d) (deploy d)

@[simp]
theorem run_nil (d : Deployment) : run d [] = deploy d :=
  rfl

@[simp]
theorem run_concat (d : Deployment) (actions : List Action) (a : Action)
    : run d (actions ++ [a]) = (run d actions).step d a := by
  simp [run]

/--
The state between transactions: what a revert of everything in flight would restore.
-/
def Machine.committed (m : Machine) : State :=
  match m.stack.getLast? with
  | none => m.state
  | some frame => frame.snapshot

end Credits
end Longjing
