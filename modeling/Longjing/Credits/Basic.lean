import Longjing.Poseidon
import Mathlib.Logic.Function.Basic

/-!
The types and the storage of `LongjingCredits.sol`.
-/

namespace Longjing
namespace Credits

inductive Status where
  | none
  | active
  | exiting
  | closed
  | slashed
  | expired
  deriving DecidableEq, Repr

structure Note where
  -- D, the whole deposit.
  amount : Nat
  depositedAt : Nat
  leafIndex : Nat
  status : Status
  deriving DecidableEq, Repr

/--
Settings that can only be changed through the timelock.
-/
inductive Target where
  | settlementVerifier
  | serverAddress
  | refundKey
  deriving DecidableEq, Repr

structure PendingChange where
  -- Unused for `refundKey`.
  value : Nat
  -- `refundKey` only.
  keyX : Nat
  keyY : Nat
  -- 0 when nothing is pending.
  eta : Nat
  deriving DecidableEq, Repr

structure EdDSAPublicKey where
  x : Nat
  y : Nat
  deriving DecidableEq, Repr

/--
A pending exit, challengeable until `exitAt`.
-/
structure Exit where
  nullifier : Nat
  signalX : Nat
  signalY : Nat
  payout : Nat
  recipient : Nat
  exitAt : Nat
  deriving DecidableEq, Repr

def TREE_DEPTH : Nat := 20
def ROOT_HISTORY_SIZE : Nat := 30
def ADMIN_DELAY : Nat := 7 * 24 * 60 * 60
def NOTE_TTL : Nat := 365 * 24 * 60 * 60
def CHALLENGE_WINDOW : Nat := 3 * 24 * 60 * 60

inductive Event where
  | deposited (commitment amount leafIndex : Nat)
  | withdrawalInitiated (commitment : Nat) (exit : Exit)
  | withdrawalFinalized (commitment recipient payout : Nat)
  | slashed (commitment slasher bounty : Nat)
  | merkleRootUpdated (newRoot leafCount : Nat)
  | noteExpiredClaimed (commitment amount : Nat)
  | operatorBalanceWithdrawn (payee amount : Nat)
  | serverAddressUpdated (oldAddress newAddress : Nat)
  | refundKeyProposed (x y eta : Nat)
  | refundKeyUpdated (x y : Nat)
  | changeProposed (target : Target) (value eta : Nat)
  | changeExecuted (target : Target) (value : Nat)
  | changeCancelled (target : Target) (value : Nat)
  deriving DecidableEq, Repr

/--
The custom errors, those of the inherited OpenZeppelin contracts, and the reverts of the compiler
(arithmetic and array bounds, value sent to a function that is not payable).
-/
inductive Error where
  | invalidDepositAmount
  | invalidCommitment
  | invalidSecretKey
  | noteAlreadyExists
  | noteNotActive
  | noteNotExiting
  | challengeWindowOpen
  | unknownRefundKey
  | payoutExceedsDeposit
  | invalidProof
  | unauthorized
  | zeroAddress
  | zeroKey
  | useProposeRefundKey
  | noPendingChange
  | timelockNotExpired
  | noteNotExpired
  | treeFull
  | transferFailed
  | leafIndexOutOfBounds
  | reentrantCall
  | enforcedPause
  | expectedPause
  | ownableUnauthorizedAccount
  | ownableInvalidOwner
  | nonPayable
  | panic
  deriving DecidableEq, Repr

/--
The accounting of one note or of the operator. The contract keeps no such record; it is written
next to each statement that moves value, so that a note's whole life can be read back.
-/
inductive LedgerEntry where
  -- `msg.value` accepted as the note's deposit.
  | deposited (commitment amount : Nat)
  -- Added to `operatorBalance` on the note's account.
  | credited (commitment amount : Nat)
  -- ETH sent out by `_pay` on the note's account.
  | paid (commitment payee amount : Nat)
  -- ETH sent out by `_pay` from `operatorBalance`.
  | operatorPaid (payee amount : Nat)
  deriving DecidableEq, Repr

structure Log where
  timestamp : Nat
  event : Event
  deriving DecidableEq, Repr

/--
What a deployment fixes: the constructor's arguments and caller, the immutables, the chain and the
hash functions the contract calls.
-/
structure Deployment where
  poseidon : Poseidon
  -- `keccak256(abi.encode(x, y))`.
  keccak : Nat → Nat → Nat
  chainId : Nat
  -- `address(this)`.
  self : Nat
  -- `msg.sender` of the constructor, the first owner.
  deployer : Nat
  -- The `SettlementVerifier` the constructor creates.
  verifier : Nat
  serverAddress : Nat
  serverPublicKey : EdDSAPublicKey
  cMax : Nat
  slashBounty : Nat
  -- Block time of the deployment.
  deployedAt : Nat
  -- Otherwise the constructor reverts with `ZeroAddress`.
  serverAddress_ne_zero : serverAddress ≠ 0
  -- Block times are 64 bit numbers.
  deployedAt_lt : deployedAt < 2 ^ 64

/--
The storage of the contract, the inherited storage of `Ownable`, `Pausable` and `ReentrancyGuard`,
and the contract's account. Mappings and fixed arrays are functions, `leaves` is a list.
-/
structure State where
  notes : Nat → Note
  exits : Nat → Exit
  acceptedRefundKeys : Nat → Bool
  leaves : List Nat
  zeros : Nat → Nat
  treeNodes : Nat → Nat → Nat
  merkleRoot : Nat
  roots : Nat → Nat
  currentRootIndex : Nat
  serverAddress : Nat
  serverPublicKey : EdDSAPublicKey
  operatorBalance : Nat
  settlementVerifier : Nat
  pendingChanges : Target → PendingChange
  totalPausedTime : Nat
  pausedAt : Nat
  pausedTimeAtDeposit : Nat → Nat
  owner : Nat
  paused : Bool
  -- `ReentrancyGuard` is entered.
  entered : Bool
  -- `address(this).balance`.
  balance : Nat
  -- The part of `balance` that was forced into the account without a call.
  forced : Nat
  -- The emitted events, newest first.
  logs : List Log
  -- Newest first.
  ledger : List LedgerEntry

/--
What a call sees besides its arguments: `msg`, `block.timestamp` and the answer of whichever
contract stands at the verifier's address, reached by a static call.
-/
structure Env where
  sender : Nat
  value : Nat
  timestamp : Nat
  verifySettlementProof : (verifier : Nat) → (proof publicSignals : List Nat) → Bool

end Credits
end Longjing
