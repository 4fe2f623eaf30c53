import Longjing.Credits.Basic

/-!
The functions of `LongjingCredits.sol`. A function takes the storage it starts from and returns the
storage it leaves behind, or the error it reverts with. The functions that end in `_pay` stop in
front of the external call and return what is left to do as a `Payment`.
-/

namespace Longjing
namespace Credits

def revertIf (cond : Prop) [Decidable cond] (error : Error) : Except Error Unit :=
  if cond then .error error else .ok ()

def checkedAdd (a b : Nat) : Except Error Nat :=
  if a + b < 2 ^ 256 then .ok (a + b) else .error .panic

def checkedSub (a b : Nat) : Except Error Nat :=
  if b ≤ a then .ok (a - b) else .error .panic

def emit (env : Env) (event : Event) (s : State) : State :=
  { s with logs := ⟨env.timestamp, event⟩ :: s.logs }

/-! # Modifiers -/

/--
`nonReentrant` in front of the body.
-/
def nonReentrant (s : State) : Except Error State := do
  revertIf (s.entered = true) .reentrantCall
  return { s with entered := true }

/--
`nonReentrant` behind the body.
-/
def leave (s : State) : State :=
  { s with entered := false }

def whenNotPaused (s : State) : Except Error Unit :=
  revertIf (s.paused = true) .enforcedPause

def whenPaused (s : State) : Except Error Unit :=
  revertIf (s.paused = false) .expectedPause

def onlyOwner (env : Env) (s : State) : Except Error Unit :=
  revertIf (env.sender ≠ s.owner) .ownableUnauthorizedAccount

/-! # Internal -/

def pausedTime (env : Env) (s : State) : Except Error Nat :=
  if s.paused then do
    let t ← checkedAdd s.totalPausedTime env.timestamp
    checkedSub t s.pausedAt
  else
    return s.totalPausedTime

def refundKeyId (d : Deployment) (key : EdDSAPublicKey) : Nat :=
  d.keccak key.x key.y

def sibling (index : Nat) : Nat :=
  if index % 2 = 0 then index + 1 else index - 1

def node (zeros : Nat → Nat) (treeNodes : Nat → Nat → Nat) (level index : Nat) : Nat :=
  if treeNodes level index ≠ 0 then treeNodes level index else zeros level

def setNode (treeNodes : Nat → Nat → Nat) (level index value : Nat) : Nat → Nat → Nat :=
  Function.update treeNodes level (Function.update (treeNodes level) index value)

def pushRoot (env : Env) (root : Nat) (s : State) : State :=
  let currentRootIndex := (s.currentRootIndex + 1) % ROOT_HISTORY_SIZE
  emit env (.merkleRootUpdated root s.leaves.length)
    { s with
      currentRootIndex := currentRootIndex
      roots := Function.update s.roots currentRootIndex root
      merkleRoot := root
    }

/--
The loop of `_updateLeaf`, `remaining` levels below the root. Returns the rewritten nodes and the
new root.
-/
def updateLeaf.go (P : Poseidon) (zeros : Nat → Nat) (remaining level index current : Nat)
    (treeNodes : Nat → Nat → Nat) : (Nat → Nat → Nat) × Nat :=
  match remaining with
  | 0 => (treeNodes, current)
  | remaining + 1 =>
    let other := node zeros treeNodes level (sibling index)
    let current := if index % 2 = 0 then P.hash2 current other else P.hash2 other current
    let index := index / 2
    go P zeros remaining (level + 1) index current (setNode treeNodes (level + 1) index current)

def updateLeaf (d : Deployment) (env : Env) (leafIndex : Nat) (s : State) : State :=
  let current := s.leaves.getD leafIndex 0
  let treeNodes := setNode s.treeNodes 0 leafIndex current
  let res := updateLeaf.go d.poseidon s.zeros TREE_DEPTH 0 leafIndex current treeNodes
  pushRoot env res.2 { s with treeNodes := res.1 }

def removeLeaf (d : Deployment) (env : Env) (leafIndex : Nat) (s : State) : Except Error State := do
  revertIf (s.leaves.length ≤ leafIndex) .panic
  return updateLeaf d env leafIndex { s with leaves := s.leaves.set leafIndex 0 }

def setNote (commitment : Nat) (note : Note) (s : State) : State :=
  { s with notes := Function.update s.notes commitment note }

/--
`operatorBalance += amount`, on the account of the note.
-/
def creditOperator (commitment amount : Nat) (s : State) : Except Error State := do
  let operatorBalance ← checkedAdd s.operatorBalance amount
  return { s with
    operatorBalance := operatorBalance
    ledger := .credited commitment amount :: s.ledger
  }

/-! # Constructor -/

/--
The constructor's loop: the roots of the empty subtrees of height below `levels`, and the next one.
-/
def emptySubtrees (P : Poseidon) : (levels : Nat) → (Nat → Nat) × Nat
  | 0 => (fun _ => 0, 0)
  | i + 1 =>
    let (zeros, currentZero) := emptySubtrees P i
    (Function.update zeros i currentZero, P.hash2 currentZero currentZero)

def deployEnv (d : Deployment) : Env where
  sender := d.deployer
  value := 0
  timestamp := d.deployedAt
  verifySettlementProof := fun _ _ _ => false

def constructor (d : Deployment) : State :=
  let (zeros, currentZero) := emptySubtrees d.poseidon TREE_DEPTH
  pushRoot (deployEnv d) currentZero
    {
      notes := fun _ => ⟨0, 0, 0, .none⟩
      exits := fun _ => ⟨0, 0, 0, 0, 0, 0⟩
      acceptedRefundKeys :=
        Function.update (fun _ => false) (refundKeyId d d.serverPublicKey) true
      leaves := []
      zeros := zeros
      treeNodes := fun _ _ => 0
      merkleRoot := 0
      roots := fun _ => 0
      currentRootIndex := 0
      serverAddress := d.serverAddress
      serverPublicKey := d.serverPublicKey
      operatorBalance := 0
      settlementVerifier := d.verifier
      pendingChanges := fun _ => ⟨0, 0, 0, 0⟩
      totalPausedTime := 0
      pausedAt := 0
      pausedTimeAtDeposit := fun _ => 0
      owner := d.deployer
      paused := false
      entered := false
      balance := 0
      forced := 0
      logs := []
      ledger := []
    }

/-! # Notes -/

def deposit (d : Deployment) (env : Env) (commitment : Nat) (s : State) : Except Error State := do
  let s ← nonReentrant s
  whenNotPaused s
  revertIf (env.value < d.cMax ∨ 2 ^ 128 ≤ env.value) .invalidDepositAmount
  revertIf (FIELD_MODULUS ≤ commitment) .invalidCommitment
  revertIf ((s.notes commitment).status ≠ .none) .noteAlreadyExists
  revertIf (s.leaves.length = 2 ^ TREE_DEPTH) .treeFull
  let leafIndex := s.leaves.length
  let pausedTime ← pausedTime env s
  let s := setNote commitment ⟨env.value, env.timestamp, leafIndex, .active⟩ s
  let s := { s with
    pausedTimeAtDeposit := Function.update s.pausedTimeAtDeposit commitment pausedTime
    leaves := s.leaves ++ [d.poseidon.hash2 commitment env.value]
    balance := s.balance + env.value
    ledger := .deposited commitment env.value :: s.ledger
  }
  let s := updateLeaf d env leafIndex s
  return leave (emit env (.deposited commitment env.value leafIndex) s)

def withdrawalSignalX (d : Deployment) (recipient : Nat) : Nat :=
  d.poseidon.hash3 recipient d.chainId d.self

/--
The public signals `initiateWithdrawal` hands to the verifier.
-/
def settlementSignals (d : Deployment) (commitment recipient : Nat) (refundKey : EdDSAPublicKey)
    (nullifier signalY payout amount : Nat) : List Nat :=
  [nullifier, signalY, payout, commitment, amount, d.cMax, refundKey.x, refundKey.y, recipient,
    withdrawalSignalX d recipient]

structure WithdrawalArgs where
  commitment : Nat
  recipient : Nat
  refundKey : EdDSAPublicKey
  proof : List Nat
  nullifier : Nat
  signalY : Nat
  payout : Nat
  deriving DecidableEq, Repr

def initiateWithdrawal (d : Deployment) (env : Env) (args : WithdrawalArgs) (s : State)
    : Except Error State := do
  let s ← nonReentrant s
  revertIf (args.recipient = 0) .zeroAddress
  let note := s.notes args.commitment
  revertIf (note.status ≠ .active) .noteNotActive
  revertIf (s.acceptedRefundKeys (refundKeyId d args.refundKey) = false) .unknownRefundKey
  revertIf (note.amount < args.payout) .payoutExceedsDeposit
  let publicSignals := settlementSignals d args.commitment args.recipient args.refundKey
    args.nullifier args.signalY args.payout note.amount
  revertIf (env.verifySettlementProof s.settlementVerifier args.proof publicSignals = false)
    .invalidProof
  let exitAt ← checkedAdd env.timestamp CHALLENGE_WINDOW
  let exit : Exit := ⟨args.nullifier, withdrawalSignalX d args.recipient, args.signalY,
    args.payout, args.recipient, exitAt⟩
  let s := setNote args.commitment { note with status := .exiting } s
  let s := { s with exits := Function.update s.exits args.commitment exit }
  let s ← removeLeaf d env note.leafIndex s
  return leave (emit env (.withdrawalInitiated args.commitment exit) s)

/--
What a function that ends in `_pay` still has to do: the external call, then an event that depends
on the function.
-/
inductive Payment where
  | finalize (commitment recipient payout : Nat)
  | slash (commitment slasher bounty : Nat)
  | operator (payee amount : Nat)
  deriving DecidableEq, Repr

def finalizeWithdrawal (env : Env) (commitment : Nat) (s : State)
    : Except Error (State × Payment) := do
  let s ← nonReentrant s
  let note := s.notes commitment
  revertIf (note.status ≠ .exiting) .noteNotExiting
  let exit := s.exits commitment
  revertIf (env.timestamp < exit.exitAt) .challengeWindowOpen
  let s := setNote commitment { note with status := .closed } s
  let share ← checkedSub note.amount exit.payout
  let s ← creditOperator commitment share s
  return (s, .finalize commitment exit.recipient exit.payout)

/--
The leaf of an active note goes when it is slashed; an exiting note has none left.
-/
def slash.removeActive (d : Deployment) (env : Env) (note : Note) (s : State)
    : Except Error State :=
  if note.status = .active then
    removeLeaf d env note.leafIndex s
  else do
    revertIf (note.status ≠ .exiting) .noteNotActive
    return s

def slash (d : Deployment) (env : Env) (secretKey : Nat) (s : State)
    : Except Error (State × Payment) := do
  let s ← nonReentrant s
  revertIf (FIELD_MODULUS ≤ secretKey) .invalidSecretKey
  let commitment := d.poseidon.hash1 secretKey
  let note := s.notes commitment
  let s ← slash.removeActive d env note s
  let bounty := if note.amount < d.slashBounty then note.amount else d.slashBounty
  let s := setNote commitment { note with status := .slashed } s
  let share ← checkedSub note.amount bounty
  let s ← creditOperator commitment share s
  return (s, .slash commitment env.sender bounty)

def noteExpiry (env : Env) (commitment : Nat) (s : State) : Except Error Nat := do
  let note := s.notes commitment
  revertIf (note.status = .none) .noteNotActive
  let t ← checkedAdd note.depositedAt NOTE_TTL
  let pausedTime ← pausedTime env s
  let t ← checkedAdd t pausedTime
  checkedSub t (s.pausedTimeAtDeposit commitment)

def claimExpired (d : Deployment) (env : Env) (commitment : Nat) (s : State)
    : Except Error State := do
  let s ← nonReentrant s
  whenNotPaused s
  revertIf (env.sender ≠ s.serverAddress) .unauthorized
  let note := s.notes commitment
  revertIf (note.status ≠ .active) .noteNotActive
  let expiry ← noteExpiry env commitment s
  revertIf (env.timestamp < expiry) .noteNotExpired
  let s := setNote commitment { note with status := .expired } s
  let s ← removeLeaf d env note.leafIndex s
  let s ← creditOperator commitment note.amount s
  return leave (emit env (.noteExpiredClaimed commitment note.amount) s)

def withdrawOperatorBalance (env : Env) (s : State) : Except Error (State × Payment) := do
  let s ← nonReentrant s
  revertIf (env.sender ≠ s.serverAddress) .unauthorized
  let amount := s.operatorBalance
  return ({ s with operatorBalance := 0 }, .operator s.serverAddress amount)

/-! # Views -/

def isKnownRoot (s : State) (root : Nat) : Bool :=
  if root = 0 then
    false
  else
    (List.range ROOT_HISTORY_SIZE).any (fun i => s.roots i == root)

/--
The loop of `getMerkleProof`: sibling and parity for each of the `remaining` levels.
-/
def getMerkleProof.go (zeros : Nat → Nat) (treeNodes : Nat → Nat → Nat)
    (remaining level index : Nat) : List (Nat × Nat) :=
  match remaining with
  | 0 => []
  | remaining + 1 =>
    (node zeros treeNodes level (sibling index), index % 2)
      :: go zeros treeNodes remaining (level + 1) (index / 2)

/--
The pairs `(pathElements[level], pathIndices[level])`, from the leaf up.
-/
def getMerkleProof (s : State) (leafIndex : Nat) : Except Error (List (Nat × Nat)) := do
  revertIf (s.leaves.length ≤ leafIndex) .leafIndexOutOfBounds
  return getMerkleProof.go s.zeros s.treeNodes TREE_DEPTH 0 leafIndex

/-! # Admin -/

def proposeChange (env : Env) (target : Target) (value : Nat) (s : State) : Except Error State := do
  onlyOwner env s
  revertIf (target = .refundKey) .useProposeRefundKey
  revertIf (value = 0) .zeroAddress
  let eta ← checkedAdd env.timestamp ADMIN_DELAY
  let s := { s with
    pendingChanges := Function.update s.pendingChanges target ⟨value, 0, 0, eta⟩ }
  return emit env (.changeProposed target value eta) s

def proposeRefundKey (env : Env) (x y : Nat) (s : State) : Except Error State := do
  onlyOwner env s
  revertIf (x = 0 ∧ y = 0) .zeroKey
  let eta ← checkedAdd env.timestamp ADMIN_DELAY
  let s := { s with
    pendingChanges := Function.update s.pendingChanges .refundKey ⟨0, x, y, eta⟩ }
  return emit env (.refundKeyProposed x y eta) s

/--
The part of `executeChange` that depends on the target.
-/
def installChange (d : Deployment) (env : Env) (target : Target) (change : PendingChange)
    (s : State) : State :=
  match target with
  | .settlementVerifier => { s with settlementVerifier := change.value }
  | .refundKey =>
    let key : EdDSAPublicKey := ⟨change.keyX, change.keyY⟩
    emit env (.refundKeyUpdated key.x key.y)
      { s with
        serverPublicKey := key
        acceptedRefundKeys := Function.update s.acceptedRefundKeys (refundKeyId d key) true
      }
  | .serverAddress =>
    { emit env (.serverAddressUpdated s.serverAddress change.value) s with
      serverAddress := change.value }

def executeChange (d : Deployment) (env : Env) (target : Target) (s : State)
    : Except Error State := do
  onlyOwner env s
  let change := s.pendingChanges target
  revertIf (change.eta = 0) .noPendingChange
  revertIf (env.timestamp < change.eta) .timelockNotExpired
  let s := { s with pendingChanges := Function.update s.pendingChanges target ⟨0, 0, 0, 0⟩ }
  let s := installChange d env target change s
  return emit env (.changeExecuted target change.value) s

def cancelChange (env : Env) (target : Target) (s : State) : Except Error State := do
  onlyOwner env s
  let change := s.pendingChanges target
  revertIf (change.eta = 0) .noPendingChange
  let s := { s with pendingChanges := Function.update s.pendingChanges target ⟨0, 0, 0, 0⟩ }
  return emit env (.changeCancelled target change.value) s

def pause (env : Env) (s : State) : Except Error State := do
  onlyOwner env s
  whenNotPaused s
  return { s with paused := true, pausedAt := env.timestamp }

def unpause (env : Env) (s : State) : Except Error State := do
  onlyOwner env s
  whenPaused s
  let elapsed ← checkedSub env.timestamp s.pausedAt
  let total ← checkedAdd s.totalPausedTime elapsed
  return { s with paused := false, totalPausedTime := total, pausedAt := 0 }

def transferOwnership (env : Env) (newOwner : Nat) (s : State) : Except Error State := do
  onlyOwner env s
  revertIf (newOwner = 0) .ownableInvalidOwner
  return { s with owner := newOwner }

def renounceOwnership (env : Env) (s : State) : Except Error State := do
  onlyOwner env s
  return { s with owner := 0 }

end Credits
end Longjing
