import Longjing.Accumulator.Basic
import Longjing.Blockchain.Watch
import Longjing.Poseidon
import Longjing.Server.Encoding
import Longjing.Server.ProofFormat
import Longjing.Server.Slashing

/-!
This module contains `handleRequest` of `longjing.service.ts` as a machine that stops at every
`await`, and the server that runs any number of requests next to `ExitWatcherService.ingest`.
-/

namespace Longjing
namespace Server

open Js Accumulator
open Blockchain (WithdrawalInitiated)

def CLAUDE_MODELS : List String :=
  ["claude-fable-5-1", "claude-opus-4-6", "claude-sonnet-4-6", "claude-haiku-4-5"]

def DEFAULT_CLAUDE_MODEL : String := "claude-fable-5-1"

structure RlnSignalDto where
  x : String
  y : String
deriving DecidableEq, Repr

structure AccumulatorDto where
  x : String
  y : String
deriving DecidableEq, Repr

structure RequestBody where
  payload : String
  nonce : String
  nullifier : String
  signal : RlnSignalDto
  proof : String
  merkleRoot : String
  accumulator : AccumulatorDto
  model : Option String
deriving DecidableEq, Repr

def MAX_PROOF_LENGTH : Nat := 4096
def MAX_PAYLOAD_LENGTH : Nat := 100000

/-- U+FE0E and U+FE0F, which say how the character before them is shown. -/
def isVariationSelector (c : Char) : Bool := c = '\uFE0E' || c = '\uFE0F'

/-- The length of a string as `isLength` takes it: a variation selector counts with its character. -/
def shownLength : List Char → Nat
  | [] => 0
  | [_] => 1
  | c :: d :: cs =>
    if !isVariationSelector c && isVariationSelector d then shownLength cs + 1 else shownLength (d :: cs) + 1

def maxLength (s : String) (max : Nat) : Bool := shownLength s.toList ≤ max

/-- What the validation pipe checks of a body. -/
def RequestBody.isValid (b : RequestBody) : Bool :=
  b.payload ≠ "" && maxLength b.payload MAX_PAYLOAD_LENGTH
    && isFieldElement b.nonce && isFieldElement b.nullifier
    && isFieldElement b.signal.x && isFieldElement b.signal.y
    && b.proof ≠ "" && maxLength b.proof MAX_PROOF_LENGTH
    && isFieldElement b.merkleRoot
    && isFieldElement b.accumulator.x && isFieldElement b.accumulator.y
    && b.model.all (CLAUDE_MODELS.contains ·)

/-- A body that passed the validation pipe; no other reaches `handleRequest`. -/
structure LongjingRequestDto extends RequestBody where
  valid : toRequestBody.isValid = true

structure Signature where
  R8x : String
  R8y : String
  S : String
deriving DecidableEq, Repr

structure SignedAccumulatorDto where
  x : String
  y : String
  signature : Signature
deriving DecidableEq, Repr

structure LongjingResponseDto where
  response : String
  refund : String
  accumulator : SignedAccumulatorDto
deriving DecidableEq, Repr

inductive Thrown where
  -- an HTTP exception with a message
  | http (status : Nat) (message : String)
  -- the `BadGatewayException` of a failed provider call, whose body is an object
  | badGateway (refund : String) (accumulator : SignedAccumulatorDto)
  -- any other error
  | other
deriving DecidableEq, Repr

abbrev Outcome := Except Thrown LongjingResponseDto

/-- What is kept for a retry. -/
inductive Kept where
  | response (response : LongjingResponseDto)
  | failure (refund : String) (accumulator : SignedAccumulatorDto)
deriving DecidableEq, Repr

def Kept.outcome : Kept → Outcome
  | .response r => .ok r
  | .failure refund accumulator => .error (.badGateway refund accumulator)

/-- What the server is deployed with, and what it uses of code that is not its own. -/
structure Config where
  prod : Bool
  poseidon : Poseidon
  -- SHA-256 of the UTF-8 payload, reduced into the field
  payloadDigest : String → Nat
  -- the refund signer's public key
  serverKey : Int × Int
  -- EdDSA-Poseidon over Poseidon(A.x, A.y) with the refund key
  sign : Point → Signature
  -- `snarkjs.groth16.verify` with the request circuit's key; `verifyProof` answers false where it throws
  groth16 : SnarkjsProof → List Int → Bool
  groth16_canonical : ∀ proof signals, groth16 proof signals = true →
    ∀ s ∈ signals, 0 ≤ s ∧ s < FIELD_MODULUS

def SIZE_CLASSES : List Nat := [512, 1024, 2048, 4096, 8192, 16384, 32768, 65536, 131072, 262144]

def padResponse (content : String) : String :=
  let currentSize := content.utf8ByteSize
  let targetSize := (SIZE_CLASSES.find? (currentSize ≤ ·)).getD (2 ^ Nat.clog 2 currentSize)
  content ++ String.ofList (List.replicate (targetSize - currentSize) '\x00')

variable (cfg : Config)

def payloadSignalX (payload : String) (nonce : Int) : Int :=
  cfg.poseidon.hash2 (cfg.payloadDigest payload) nonce.toNat

def signalXMatchesRequest (signalX payload nonce : String) : Bool :=
  match parseFieldElement signalX, parseFieldElement nonce with
  | some x, some rho => if FIELD_MODULUS ≤ rho then false else x = payloadSignalX cfg payload rho
  | _, _ => false

/-- The public signals of `request.circom`: outputs first, then inputs. -/
def publicSignals (req : LongjingRequestDto) (cMax : Nat) : Option (List Int) := do
  let nullifier ← toBigInt req.nullifier
  let signalY ← toBigInt req.signal.y
  let accumulatorX ← toBigInt req.accumulator.x
  let accumulatorY ← toBigInt req.accumulator.y
  let merkleRoot ← toBigInt req.merkleRoot
  let signalX ← toBigInt req.signal.x
  return [nullifier, signalY, accumulatorX, accumulatorY, merkleRoot, (cMax : Int), signalX,
    cfg.serverKey.1, cfg.serverKey.2]

/-- What the verification finds: the circuit artifacts, whether as many verifications are under way as may be,
and the roots the contract knows (`none` when it cannot be asked). -/
structure VerifyAnswer where
  artifacts : Bool
  isFull : Bool
  isKnownRoot : Option (Nat → Bool)

/-- `BlockchainService.isKnownRoot`, `none` when it throws. -/
def knownRoot (answer : VerifyAnswer) (root : String) : Option Bool :=
  match answer.isKnownRoot, BigInt root with
  | some known, some r => if 0 ≤ r ∧ r < 2 ^ 256 then some (known r.toNat) else none
  | _, _ => none

def serverBusy : Thrown := .http 503 "Server busy, retry later"

/-- `ProofVerifierService.verify`. -/
def verify (req : LongjingRequestDto) (cMax : Nat) (answer : VerifyAnswer) : Except Thrown Bool :=
  if cfg.prod && !answer.artifacts then
    .error .other
  else
    match readProof req.proof with
    | .error _ => .error .other
    | .ok none => .ok false
    | .ok (some proof) =>
      if answer.isFull then
        .error serverBusy
      else
        match knownRoot answer req.merkleRoot with
        | some false => .ok false
        | root =>
          if root = none ∧ cfg.prod = true then
            .error (.http 503 "Cannot verify the Merkle root against the chain")
          else if !answer.artifacts then
            .error .other
          else
            match publicSignals cfg req cMax with
            | none => .error .other
            | some signals => .ok (cfg.groth16 proof signals)

/-- What a request holds between the record of its nullifier and its response. -/
structure Ticket where
  nullifier : String
  signal : StoredSignal
  cMax : Nat
  published : Point
deriving DecidableEq, Repr

/-- What `handleRequest` awaits. -/
inductive Pc where
  -- `signalXMatchesRequest`
  | matching (nullifier : String)
  -- `worstCaseCostInETH`
  | pricing (nullifier : String) (cMax : Nat)
  -- `proofVerifier.verify`
  | verifying (nullifier : String) (cMax : Nat)
  -- `slashRevealed`, before it refuses the request
  | slashing
  -- `executeClaudeRequest`
  | calling (ticket : Ticket)
  -- `nextAccumulator` after the provider call failed
  | refunding (ticket : Ticket)
  -- `calculateCostInETH`
  | costing (ticket : Ticket) (content : String)
  -- `nextAccumulator` after the provider call
  | signing (ticket : Ticket) (refund : Nat) (content : String)
  | done (outcome : Outcome)
  -- the process stopped in the middle of the request
  | lost

/-- A crash loses every request that has not been answered. -/
def Pc.crash : Pc → Pc
  | .done outcome => .done outcome
  | _ => .lost

/-- The ticket of a request whose successor is still to be signed. -/
def Pc.ticket? : Pc → Option Ticket
  | .calling ticket => some ticket
  | .refunding ticket => some ticket
  | .costing ticket _ => some ticket
  | .signing ticket _ _ => some ticket
  | _ => none

def Pc.nullifier? : Pc → Option String
  | .matching nullifier => some nullifier
  | .pricing nullifier _ => some nullifier
  | .verifying nullifier _ => some nullifier
  | pc => pc.ticket?.map Ticket.nullifier

inductive Answer where
  | matched (cMax : Option Nat)
  | cost (wei : Option Nat)
  | verified (answer : VerifyAnswer) (slashing : Bool)
  | slashed
  | provider (content : Option String)
  | signed (ok : Bool)

/-- What happens outside the store, and which signals reach it. -/
inductive Event where
  -- the proof of a request verified
  | accepted (req : LongjingRequestDto)
  | ingested (exit : WithdrawalInitiated)
  -- the provider is called
  | provider (req : LongjingRequestDto)
  -- a successor accumulator is signed
  | signed (req : LongjingRequestDto) (accumulator : Point) (refund : Nat)
  | slashRevealed (signal1 signal2 : StoredSignal)
  | slash (secretKey : Int)

def slashEvents (enabled : Bool) (existing signal : StoredSignal) : List Event :=
  .slashRevealed existing signal
    :: ((slashRevealed enabled existing signal).map Event.slash).toList

/-- The outcome of a piece of `handleRequest` that runs between two awaits. -/
structure Piece where
  store : Store Kept
  pc : Pc
  events : List Event

def refuse (status : Nat) (message : String) : Pc := .done (.error (.http status message))

/-- Up to the first `await`. -/
def startRequest (now : Nat) (store : Store Kept) (req : LongjingRequestDto) : Piece :=
  let model := req.model.getD DEFAULT_CLAUDE_MODEL
  if !CLAUDE_MODELS.contains model then
    ⟨store, refuse 400 ("Unsupported model: " ++ model), []⟩
  else
    match parseFieldElement req.nullifier with
    | none => ⟨store, .done (.error .other), []⟩
    | some n =>
      let nullifier := toString n
      match store.checkRateLimit now nullifier with
      | (store, false) =>
        ⟨store, refuse 403
          "Rate limit exceeded for this nullifier. Maximum 3 requests per minute.", []⟩
      | (store, true) => ⟨store, .matching nullifier, []⟩

def afterMatching (req : LongjingRequestDto) (nullifier : String) (cMax : Option Nat) : Pc :=
  if !signalXMatchesRequest cfg req.signal.x req.payload req.nonce then
    refuse 400 "Signal x does not match the payload and nonce"
  else
    match cMax with
    | none => refuse 503 "Cannot read C_MAX from the contract"
    | some cMax => .pricing nullifier cMax

def afterPricing (req : LongjingRequestDto) (nullifier : String) (cMax : Nat) : Option Nat → Pc
  | none => .done (.error .other)
  | some worstCaseCost =>
    if cMax < worstCaseCost then
      refuse 400 ("The worst-case cost of " ++ toString worstCaseCost ++ " wei for "
        ++ req.model.getD DEFAULT_CLAUDE_MODEL ++ " exceeds C_MAX")
    else
      .verifying nullifier cMax

/-- A nullifier that was recorded before: slash a second signal, answer a retry. -/
def spent (now : Nat) (store : Store Kept) (nullifier : String) (existing signal : StoredSignal)
    (slashing : Bool) : Piece :=
  if existing.x ≠ signal.x then
    ⟨store, .slashing, slashEvents slashing existing signal⟩
  else
    match store.recallResponse now nullifier signal with
    | some kept => ⟨store, .done kept.outcome, []⟩
    | none => ⟨store, refuse 403 "Nullifier already used", []⟩

/-- The record of (N, x, y), once the proof verified. -/
def record (now : Nat) (store : Store Kept) (req : LongjingRequestDto) (nullifier : String) (cMax : Nat)
    (slashing : Bool) : Piece :=
  match parseFieldElement req.signal.x, parseFieldElement req.signal.y with
  | some x, some y =>
    let signal := storedSignal x y
    match store.checkAndSet nullifier signal with
    | (store, some existing) => spent now store nullifier existing signal slashing
    | (store, none) =>
      match parseFieldElement req.accumulator.x, parseFieldElement req.accumulator.y with
      | some ax, some ay => ⟨store, .calling ⟨nullifier, signal, cMax, (ax, ay)⟩, [.provider req]⟩
      | _, _ => ⟨store, .done (.error .other), []⟩
  | _, _ => ⟨store, .done (.error .other), []⟩

def afterVerifying (now : Nat) (store : Store Kept) (req : LongjingRequestDto) (nullifier : String)
    (cMax : Nat) (answer : VerifyAnswer) (slashing : Bool) : Piece :=
  match verify cfg req cMax answer with
  | .error e => ⟨store, .done (.error e), []⟩
  | .ok false => ⟨store, refuse 401 "Invalid ZK proof", []⟩
  | .ok true =>
    let piece := record now store req nullifier cMax slashing
    { piece with events := .accepted req :: piece.events }

/-- `nextAccumulator`: A' = A_pub + v·G + J, signed with the refund key. -/
def nextAccumulator (published : Point) (refund : Nat) : SignedAccumulatorDto :=
  let next := applyRefund published refund
  ⟨toString next.1, toString next.2, cfg.sign next⟩

def afterCalling (ticket : Ticket) : Option String → Pc
  | none => .refunding ticket
  | some content => .costing ticket content

def afterRefunding (now : Nat) (store : Store Kept) (req : LongjingRequestDto) (ticket : Ticket)
    (ok : Bool) : Piece :=
  if ok then
    let failure := Kept.failure (toString ticket.cMax) (nextAccumulator cfg ticket.published ticket.cMax)
    ⟨store.rememberResponse now ticket.nullifier ticket.signal failure, .done failure.outcome,
      [.signed req (applyRefund ticket.published ticket.cMax) ticket.cMax]⟩
  else
    ⟨store, .done (.error .other), []⟩

/-- v = C_MAX − C_actual, clamped to [0, C_MAX]. -/
def refundOf (cMax actualCost : Nat) : Nat :=
  if actualCost < cMax then cMax - actualCost else 0

def afterCosting (ticket : Ticket) (content : String) : Option Nat → Pc
  | none => .done (.error .other)
  | some actualCost => .signing ticket (refundOf ticket.cMax actualCost) content

def afterSigning (now : Nat) (store : Store Kept) (req : LongjingRequestDto) (ticket : Ticket)
    (refund : Nat) (content : String) (ok : Bool) : Piece :=
  if ok then
    let result := Kept.response
      ⟨padResponse content, toString refund, nextAccumulator cfg ticket.published refund⟩
    ⟨store.rememberResponse now ticket.nullifier ticket.signal result, .done result.outcome,
      [.signed req (applyRefund ticket.published refund) refund]⟩
  else
    ⟨store, .done (.error .other), []⟩

/-- One piece of `handleRequest`; an answer to something that is not awaited changes nothing. -/
def resume (now : Nat) (store : Store Kept) (req : LongjingRequestDto) (pc : Pc) (answer : Answer)
    : Piece :=
  match pc, answer with
  | .matching nullifier, .matched cMax => ⟨store, afterMatching cfg req nullifier cMax, []⟩
  | .pricing nullifier cMax, .cost wei => ⟨store, afterPricing req nullifier cMax wei, []⟩
  | .verifying nullifier cMax, .verified answer slashing =>
    afterVerifying cfg now store req nullifier cMax answer slashing
  | .slashing, .slashed =>
    ⟨store, refuse 403
      "Double-spend detected. Your secret key has been extracted and you will be slashed.", []⟩
  | .calling ticket, .provider content => ⟨store, afterCalling ticket content, []⟩
  | .refunding ticket, .signed ok => afterRefunding cfg now store req ticket ok
  | .costing ticket content, .cost wei => ⟨store, afterCosting ticket content wei, []⟩
  | .signing ticket refund content, .signed ok =>
    afterSigning cfg now store req ticket refund content ok
  | pc, _ => ⟨store, pc, []⟩

/-- `ExitWatcherService.ingest`. -/
def ingest (store : Store Kept) (exit : WithdrawalInitiated) (slashing : Bool)
    : Store Kept × List Event :=
  let signal := storedSignal exit.signalX exit.signalY
  match store.checkAndSet (toString (exit.nullifier : Int)) signal with
  | (store, some existing) =>
    (store, if existing.x ≠ signal.x then slashEvents slashing existing signal else [])
  | (store, none) => (store, [])

structure Exec where
  req : LongjingRequestDto
  pc : Pc

structure State where
  store : Store Kept
  now : Nat
  execs : List Exec
  events : List Event

inductive Action where
  | arrive (req : LongjingRequestDto)
  | resume (exec : Nat) (answer : Answer)
  | ingest (exit : WithdrawalInitiated) (slashing : Bool)
  -- any reading of `Date.now()`
  | clock (now : Nat)
  -- the timer that drops expired responses and attempts
  | cleanup
  | crash

def init (rows : Map String StoredSignal) : State where
  store := ⟨rows, [], []⟩
  now := 0
  execs := []
  events := []

def State.step (s : State) : Action → State
  | .arrive req =>
    let piece := startRequest s.now s.store req
    { s with
      store := piece.store
      execs := s.execs ++ [⟨req, piece.pc⟩]
      events := s.events ++ piece.events }
  | .resume i answer =>
    match s.execs[i]? with
    | none => s
    | some exec =>
      let piece := resume cfg s.now s.store exec.req exec.pc answer
      { s with
        store := piece.store
        execs := s.execs.set i ⟨exec.req, piece.pc⟩
        events := s.events ++ piece.events }
  | .ingest exit slashing =>
    let (store, events) := ingest s.store exit slashing
    { s with store, events := s.events ++ .ingested exit :: events }
  | .clock now => { s with now }
  | .cleanup => { s with store := (s.store.cleanupRateLimitMap s.now).cleanupResponses s.now }
  | .crash =>
    { s with store := s.store.restart, execs := s.execs.map fun exec => { exec with pc := exec.pc.crash } }

def State.run (s : State) (actions : List Action) : State :=
  actions.foldl (State.step cfg) s

end Server
end Longjing
