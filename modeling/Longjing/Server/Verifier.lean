import Longjing.Server.Lemmas.Once

/-!
This module contains `ConcurrencyLimiter` and `ProofVerifierService` as machines that stop at every
`await`. `handleRequest` takes a verification as one step, `Server.verify`: every verdict of this service
is the one of that step, as of its call or of the moment the chain was asked, or it says that the signer has
no key.
-/

namespace Longjing
namespace Server

/-- Caps how many tasks run at once; the constructor throws for a limit that is not positive. -/
structure ConcurrencyLimiter where
  max : Nat
  active : Int
  max_pos : 0 < max

namespace ConcurrencyLimiter

def new (max : Nat) (h : 0 < max) : ConcurrencyLimiter := ⟨max, 0, h⟩

def isFull (l : ConcurrencyLimiter) : Bool := (l.max : Int) ≤ l.active

def enter (l : ConcurrencyLimiter) : ConcurrencyLimiter := { l with active := l.active + 1 }

def leave (l : ConcurrencyLimiter) : ConcurrencyLimiter := { l with active := l.active - 1 }

end ConcurrencyLimiter

abbrev Verdict := Except Thrown Bool

/-- What `ProofVerifierService.verify` awaits. -/
inductive VerifyPc where
  -- `blockchainService.isKnownRoot`
  | root (proof : SnarkjsProof)
  -- `refundSignerService.getPublicKey`
  | key (proof : SnarkjsProof)
  -- `snarkjsProofService.verifyProof`
  | pairing (proof : SnarkjsProof) (signals : List Int)
  -- the task has ended, the `finally` of `ConcurrencyLimiter.run` is still to come
  | leaving (verdict : Verdict)
  | done (verdict : Verdict)

/-- Holds a slot of the limiter. -/
def VerifyPc.underWay : VerifyPc → Bool
  | .done _ => false
  | _ => true

def VerifyPc.verdict? : VerifyPc → Option Verdict
  | .leaving verdict => some verdict
  | .done verdict => some verdict
  | _ => none

/-- A call of `ProofVerifierService.verify`. -/
structure Verification where
  -- the execution of `handleRequest` that awaits it
  caller : Nat
  req : LongjingRequestDto
  cMax : Nat
  pc : VerifyPc

structure ProofVerifierService where
  -- `computeLimiter.verification`
  limiter : ConcurrencyLimiter
  -- `snarkjsProofService.isSetup`
  isSetup : Bool
  verificationCount : Nat
  successfulVerifications : Nat
  failedVerifications : Nat
  verifications : List Verification

namespace ProofVerifierService

def new (limiter : ConcurrencyLimiter) (isSetup : Bool) : ProofVerifierService :=
  ⟨limiter, isSetup, 0, 0, 0, []⟩

variable (cfg : Config)

/-- Up to the first `await`. -/
def start (s : ProofVerifierService) (req : LongjingRequestDto) : ProofVerifierService × VerifyPc :=
  if cfg.prod && !s.isSetup then
    (s, .done (.error .other))
  else
    match readProof req.proof with
    | .error _ => (s, .done (.error .other))
    | .ok none => (s, .done (.ok false))
    | .ok (some proof) =>
      if s.limiter.isFull then
        (s, .done (.error serverBusy))
      else
        ({ s with limiter := s.limiter.enter }, .root proof)

def fail (s : ProofVerifierService) : ProofVerifierService :=
  { s with failedVerifications := s.failedVerifications + 1 }

/-- `known` is `none` when the chain cannot be asked. -/
def afterRoot (s : ProofVerifierService) (proof : SnarkjsProof) (known : Option Bool)
    : ProofVerifierService × VerifyPc :=
  if known = some false then
    (s, .leaving (.ok false))
  else if known = none ∧ cfg.prod = true then
    (s, .leaving (.error (.http 503 "Cannot verify the Merkle root against the chain")))
  else
    let s := { s with verificationCount := s.verificationCount + 1 }
    if !s.isSetup then
      -- counted where it is thrown, and once more where it is caught
      (s.fail.fail, .leaving (.error .other))
    else
      (s, .key proof)

def afterKey (s : ProofVerifierService) (proof : SnarkjsProof) (req : LongjingRequestDto) (cMax : Nat)
    (ok : Bool) : ProofVerifierService × VerifyPc :=
  match ok, publicSignals cfg req cMax with
  | true, some signals => (s, .pairing proof signals)
  | _, _ => (s.fail, .leaving (.error .other))

/-- `verifyProof` finds the artifacts: `isSetup` is never reset. -/
def afterPairing (s : ProofVerifierService) (proof : SnarkjsProof) (signals : List Int)
    : ProofVerifierService × VerifyPc :=
  if cfg.groth16 proof signals then
    ({ s with successfulVerifications := s.successfulVerifications + 1 }, .leaving (.ok true))
  else
    (s.fail, .leaving (.ok false))

inductive Answer where
  -- the roots the contract knows, `none` when it cannot be asked
  | roots (isKnownRoot : Option (Nat → Bool))
  | key (ok : Bool)
  | pairing
  | left

/-- One piece of `verify`; an answer to something that is not awaited changes nothing. -/
def resume (s : ProofVerifierService) (v : Verification) (answer : Answer)
    : ProofVerifierService × VerifyPc :=
  match v.pc, answer with
  | .root proof, .roots isKnownRoot =>
    s.afterRoot cfg proof (knownRoot ⟨s.isSetup, false, isKnownRoot⟩ v.req.merkleRoot)
  | .key proof, .key ok => s.afterKey cfg proof v.req v.cMax ok
  | .pairing proof signals, .pairing => s.afterPairing cfg proof signals
  | .leaving verdict, .left => ({ s with limiter := s.limiter.leave }, .done verdict)
  | pc, _ => (s, pc)

inductive Action where
  | verify (caller : Nat) (req : LongjingRequestDto) (cMax : Nat)
  | resume (verification : Nat) (answer : Answer)
  -- `snarkjsProofService.initialize`, and whether it finds the verification key
  | load (found : Bool)

def step (s : ProofVerifierService) : Action → ProofVerifierService
  | .verify caller req cMax =>
    let (next, pc) := s.start cfg req
    { next with verifications := s.verifications ++ [⟨caller, req, cMax, pc⟩] }
  | .resume i answer =>
    match s.verifications[i]? with
    | none => s
    | some v =>
      let (next, pc) := s.resume cfg v answer
      { next with verifications := s.verifications.set i { v with pc } }
  | .load found => { s with isSetup := s.isSetup || found }

def run (s : ProofVerifierService) (actions : List Action) : ProofVerifierService :=
  actions.foldl (step cfg) s

variable {cfg}

theorem run_concat (s : ProofVerifierService) (actions : List Action) (action : Action)
    : s.run cfg (actions ++ [action]) = (s.run cfg actions).step cfg action := by
  simp [run, List.foldl_append]

/-- The state after a piece of the verification at `i`. -/
def after (s : ProofVerifierService) (i : Nat) (v : Verification) (piece : ProofVerifierService × VerifyPc)
    : ProofVerifierService :=
  { piece.1 with verifications := s.verifications.set i { v with pc := piece.2 } }

theorem step_resume {s : ProofVerifierService} {i : Nat} {v : Verification} {answer : Answer}
    (h : s.verifications[i]? = some v)
    : s.step cfg (.resume i answer) = s.after i v (s.resume cfg v answer) := by
  simp only [step, h]
  rfl

theorem step_resume_none {s : ProofVerifierService} {i : Nat} {answer : Answer}
    (h : s.verifications[i]? = none) : s.step cfg (.resume i answer) = s := by
  simp only [step, h]

/-!
# Slots and metrics
-/

end ProofVerifierService

/-- Counted, and neither as a success nor as a failure yet. -/
def VerifyPc.isChecking : VerifyPc → Bool
  | .key _ => true
  | .pairing _ _ => true
  | _ => false

def VerifyPc.isAccepted (pc : VerifyPc) : Bool :=
  match pc.verdict? with
  | some (.ok true) => true
  | _ => false

namespace ProofVerifierService

def underWay (s : ProofVerifierService) : Nat := s.verifications.countP (·.pc.underWay)
def checking (s : ProofVerifierService) : Nat := s.verifications.countP (·.pc.isChecking)
def accepted (s : ProofVerifierService) : Nat := s.verifications.countP (·.pc.isAccepted)

/-- What a piece that leads from `pc` to `pc'` does to the limiter and the counters. -/
structure Balanced (s : ProofVerifierService) (pc : VerifyPc) (s' : ProofVerifierService) (pc' : VerifyPc)
    : Prop where
  verifications : s'.verifications = s.verifications
  max : s'.limiter.max = s.limiter.max
  isSetup : s'.isSetup = s.isSetup
  active : s'.limiter.active + pc.underWay.toNat = s.limiter.active + pc'.underWay.toNat
  underWay : pc'.underWay.toNat ≤ pc.underWay.toNat
  successful : s'.successfulVerifications + pc.isAccepted.toNat
    = s.successfulVerifications + pc'.isAccepted.toNat
  counted : s'.successfulVerifications + pc'.isChecking.toNat + s.verificationCount
    ≤ s'.verificationCount + s.successfulVerifications + pc.isChecking.toNat
  atMost : s'.verificationCount + s.successfulVerifications + s.failedVerifications + pc.isChecking.toNat
    ≤ s.verificationCount + s'.successfulVerifications + s'.failedVerifications + pc'.isChecking.toNat
  total : s.isSetup = true →
    s'.verificationCount + s.successfulVerifications + s.failedVerifications + pc.isChecking.toNat
      = s.verificationCount + s'.successfulVerifications + s'.failedVerifications + pc'.isChecking.toNat

theorem Balanced.refl (s : ProofVerifierService) (pc : VerifyPc) : Balanced s pc s pc where
  verifications := rfl
  max := rfl
  isSetup := rfl
  active := rfl
  underWay := le_rfl
  successful := rfl
  counted := by omega
  atMost := by omega
  total := by omega

theorem afterRoot_balanced (s : ProofVerifierService) (proof : SnarkjsProof) (known : Option Bool)
    : Balanced s (.root proof) (s.afterRoot cfg proof known).1 (s.afterRoot cfg proof known).2 := by
  unfold afterRoot
  split
  . constructor <;> simp [VerifyPc.underWay, VerifyPc.isAccepted, VerifyPc.verdict?, VerifyPc.isChecking]
    omega
  . split
    . constructor <;> simp [VerifyPc.underWay, VerifyPc.isAccepted, VerifyPc.verdict?, VerifyPc.isChecking]
      omega
    . by_cases hsetup : s.isSetup = true
      . constructor <;>
          simp [hsetup, VerifyPc.underWay, VerifyPc.isAccepted, VerifyPc.verdict?, VerifyPc.isChecking] <;>
          omega
      . constructor <;>
          simp [hsetup, fail, VerifyPc.underWay, VerifyPc.isAccepted, VerifyPc.verdict?, VerifyPc.isChecking] <;>
          omega

theorem afterKey_balanced (s : ProofVerifierService) (proof : SnarkjsProof) (req : LongjingRequestDto)
    (cMax : Nat) (ok : Bool)
    : Balanced s (.key proof) (s.afterKey cfg proof req cMax ok).1 (s.afterKey cfg proof req cMax ok).2 := by
  unfold afterKey
  split
  . constructor <;> simp [VerifyPc.underWay, VerifyPc.isAccepted, VerifyPc.verdict?, VerifyPc.isChecking]
    omega
  . constructor <;>
      simp [fail, VerifyPc.underWay, VerifyPc.isAccepted, VerifyPc.verdict?, VerifyPc.isChecking] <;>
      omega

theorem afterPairing_balanced (s : ProofVerifierService) (proof : SnarkjsProof) (signals : List Int)
    : Balanced s (.pairing proof signals) (s.afterPairing cfg proof signals).1
        (s.afterPairing cfg proof signals).2 := by
  unfold afterPairing
  split
  . constructor <;>
      simp [VerifyPc.underWay, VerifyPc.isAccepted, VerifyPc.verdict?, VerifyPc.isChecking] <;> omega
  . constructor <;>
      simp [fail, VerifyPc.underWay, VerifyPc.isAccepted, VerifyPc.verdict?, VerifyPc.isChecking] <;>
      omega

theorem leave_balanced (s : ProofVerifierService) (verdict : Verdict)
    : Balanced s (.leaving verdict) { s with limiter := s.limiter.leave } (.done verdict) := by
  constructor <;>
    simp [ConcurrencyLimiter.leave, VerifyPc.underWay, VerifyPc.isAccepted, VerifyPc.verdict?, VerifyPc.isChecking]
  omega

theorem resume_balanced (s : ProofVerifierService) (v : Verification) (answer : Answer)
    : Balanced s v.pc (s.resume cfg v answer).1 (s.resume cfg v answer).2 := by
  unfold resume
  split
  next _ _ _ hpc =>
    rw [hpc]
    exact s.afterRoot_balanced ..
  next _ _ _ hpc =>
    rw [hpc]
    exact s.afterKey_balanced ..
  next _ _ hpc =>
    rw [hpc]
    exact s.afterPairing_balanced ..
  next _ hpc =>
    rw [hpc]
    exact s.leave_balanced _
  next => exact .refl s _

/-- What every run keeps of the slots and the counters. -/
structure Counted (s : ProofVerifierService) : Prop where
  active : s.limiter.active = s.underWay
  capped : s.underWay ≤ s.limiter.max
  successful : s.successfulVerifications = s.accepted
  counted : s.successfulVerifications + s.checking ≤ s.verificationCount
  atMost : s.verificationCount ≤ s.successfulVerifications + s.failedVerifications + s.checking

theorem Counted.new (limiter : ConcurrencyLimiter) (h : limiter.active = 0) (isSetup : Bool)
    : (new limiter isSetup).Counted where
  active := by simpa [ProofVerifierService.new, underWay] using h
  capped := by simp [ProofVerifierService.new, underWay]
  successful := by simp [ProofVerifierService.new, accepted]
  counted := by simp [ProofVerifierService.new, checking]
  atMost := by simp [ProofVerifierService.new]

theorem countP_set_toNat {α : Type} {p : α → Bool} {l : List α} {i : Nat} {a : α} (b : α)
    (h : l[i]? = some a) : (l.set i b).countP p + (p a).toNat = l.countP p + (p b).toNat := by
  have := State.countP_set_add (p := p) (b := b) h
  cases ha : p a <;> cases hb : p b <;> simpa [ha, hb] using this

theorem Counted.after {s s' : ProofVerifierService} {i : Nat} {v : Verification} {pc : VerifyPc}
    (h : s.Counted) (hv : s.verifications[i]? = some v) (hpiece : Balanced s v.pc s' pc)
    : (s.after i v (s', pc)).Counted := by
  have hunder := countP_set_toNat (p := (·.pc.underWay)) { v with pc } hv
  have haccepted := countP_set_toNat (p := (·.pc.isAccepted)) { v with pc } hv
  have hchecking := countP_set_toNat (p := (·.pc.isChecking)) { v with pc } hv
  have := h.active
  have := h.capped
  have := h.successful
  have := h.counted
  have := h.atMost
  have := hpiece.active
  have := hpiece.successful
  have := hpiece.counted
  have := hpiece.atMost
  have := hpiece.underWay
  simp only [underWay, accepted, checking] at *
  constructor <;> simp only [ProofVerifierService.after, underWay, accepted, checking]
  . omega
  . rw [hpiece.max]
    omega
  . omega
  . omega
  . omega

/-- A call passes the checks that come before the limiter. -/
structure Admissible (cfg : Config) (s : ProofVerifierService) (req : LongjingRequestDto)
    (proof : SnarkjsProof) : Prop where
  isSetup : cfg.prod = true → s.isSetup = true
  readProof_eq : readProof req.proof = .ok (some proof)

theorem start_admissible {s : ProofVerifierService} {req : LongjingRequestDto} {proof : SnarkjsProof}
    (h : Admissible cfg s req proof)
    : s.start cfg req = if s.limiter.isFull then (s, .done (.error serverBusy))
        else ({ s with limiter := s.limiter.enter }, .root proof) := by
  have hprod : ¬(cfg.prod && !s.isSetup) = true := by
    simpa using h.isSetup
  simp only [start, hprod, h.readProof_eq, Bool.false_eq_true, if_false]

/-- A call that does not pass them ends at once, with what `Server.verify` says of it whatever it is
answered. -/
theorem start_inadmissible {s : ProofVerifierService} {req : LongjingRequestDto}
    (h : ∀ proof, ¬Admissible cfg s req proof)
    : ∃ verdict, verdict ≠ .ok true ∧ s.start cfg req = (s, .done verdict)
        ∧ ∀ cMax isFull roots, verdict = verify cfg req cMax ⟨s.isSetup, isFull, roots⟩ := by
  unfold start verify
  split
  . exact ⟨_, by simp, rfl, fun _ _ _ => rfl⟩
  next hprod =>
    cases hread : readProof req.proof with
    | error e => exact ⟨_, by simp, rfl, fun _ _ _ => rfl⟩
    | ok proof =>
      cases proof with
      | none => exact ⟨_, by simp, rfl, fun _ _ _ => rfl⟩
      | some proof => exact absurd ⟨by simpa using hprod, hread⟩ (h proof)

theorem start_cases (cfg : Config) (s : ProofVerifierService) (req : LongjingRequestDto)
    : (∃ verdict, verdict ≠ .ok true ∧ s.start cfg req = (s, .done verdict))
      ∨ s.limiter.isFull = false
        ∧ ∃ proof, Admissible cfg s req proof
          ∧ s.start cfg req = ({ s with limiter := s.limiter.enter }, .root proof) := by
  by_cases hadmissible : ∃ proof, Admissible cfg s req proof
  . obtain ⟨proof, hadmissible⟩ := hadmissible
    rw [start_admissible hadmissible]
    cases hfull : s.limiter.isFull with
    | true => exact .inl ⟨_, by simp, rfl⟩
    | false => exact .inr ⟨rfl, proof, hadmissible, rfl⟩
  . obtain ⟨verdict, hne, hstart, -⟩ := start_inadmissible (fun proof h => hadmissible ⟨proof, h⟩)
    exact .inl ⟨verdict, hne, hstart⟩

theorem Counted.step {s : ProofVerifierService} (h : s.Counted) (action : Action)
    : (s.step cfg action).Counted := by
  have hactive := h.active
  have hcapped := h.capped
  have hsuccessful := h.successful
  have hcounted := h.counted
  have hatMost := h.atMost
  cases action with
  | verify caller req cMax =>
    rcases s.start_cases cfg req with ⟨verdict, hne, hstart⟩ | ⟨hfree, proof, -, hstart⟩
    . have haccepted : (VerifyPc.done verdict).isAccepted = false := by
        cases verdict with
        | error => rfl
        | ok value => cases value <;> simp_all [VerifyPc.isAccepted, VerifyPc.verdict?]
      have hunder : (VerifyPc.done verdict).underWay = false := rfl
      have hchecking : (VerifyPc.done verdict).isChecking = false := rfl
      constructor <;>
        simpa [ProofVerifierService.step, hstart, underWay, accepted, checking, List.countP_append,
          List.countP_cons, haccepted, hunder, hchecking]
    . have hlt : s.limiter.active < s.limiter.max := by
        simpa [ConcurrencyLimiter.isFull] using hfree
      have hunder : (VerifyPc.root proof).underWay = true := rfl
      have haccepted : (VerifyPc.root proof).isAccepted = false := rfl
      have hchecking : (VerifyPc.root proof).isChecking = false := rfl
      simp only [underWay, accepted, checking] at *
      constructor <;>
        simp [ProofVerifierService.step, hstart, underWay, accepted, checking, List.countP_append,
          ConcurrencyLimiter.enter, hunder, haccepted, hchecking] <;>
        omega
  | resume i answer =>
    cases hv : s.verifications[i]? with
    | none =>
      rw [step_resume_none hv]
      exact h
    | some v =>
      rw [step_resume hv]
      exact h.after hv (s.resume_balanced v answer)
  | load found => exact ⟨hactive, hcapped, hsuccessful, hcounted, hatMost⟩

theorem Counted.run {s : ProofVerifierService} (h : s.Counted) (actions : List Action)
    : (s.run cfg actions).Counted := by
  induction actions generalizing s with
  | nil => exact h
  | cons action actions ih => exact ih (h.step action)

theorem Counted.isFull_iff {s : ProofVerifierService} (h : s.Counted)
    : s.limiter.isFull = true ↔ s.underWay = s.limiter.max := by
  have := h.active
  have := h.capped
  simp only [ConcurrencyLimiter.isFull, decide_eq_true_eq]
  omega

theorem step_max {s : ProofVerifierService} (action : Action)
    : (s.step cfg action).limiter.max = s.limiter.max := by
  cases action with
  | verify caller req cMax =>
    rcases s.start_cases cfg req with ⟨verdict, -, hstart⟩ | ⟨-, proof, -, hstart⟩
    . simp [ProofVerifierService.step, hstart]
    . simp [ProofVerifierService.step, hstart, ConcurrencyLimiter.enter]
  | resume i answer =>
    cases hv : s.verifications[i]? with
    | none => rw [step_resume_none hv]
    | some v =>
      rw [step_resume hv]
      exact (s.resume_balanced v answer).max
  | load found => rfl

theorem run_max {s : ProofVerifierService} (actions : List Action)
    : (s.run cfg actions).limiter.max = s.limiter.max := by
  induction actions generalizing s with
  | nil => rfl
  | cons action actions ih => exact ih.trans (step_max action)

/-- No verification is under way without the artifacts: then every one that is counted becomes a success or
a failure. -/
structure Measured (s : ProofVerifierService) : Prop where
  isSetup : s.isSetup = true ∨ ∀ v ∈ s.verifications, v.pc.underWay = false
  total : s.verificationCount = s.successfulVerifications + s.failedVerifications + s.checking

theorem resume_over {s : ProofVerifierService} {v : Verification} {answer : Answer}
    (h : v.pc.underWay = false) : s.resume cfg v answer = (s, v.pc) := by
  unfold resume
  split
  next hpc => simp [hpc, VerifyPc.underWay] at h
  next hpc => simp [hpc, VerifyPc.underWay] at h
  next hpc => simp [hpc, VerifyPc.underWay] at h
  next hpc => simp [hpc, VerifyPc.underWay] at h
  next => rfl

theorem Measured.resumed {s : ProofVerifierService} {i : Nat} {v : Verification} (answer : Answer)
    (h : s.Measured) (hv : s.verifications[i]? = some v)
    : (s.after i v (s.resume cfg v answer)).Measured := by
  rcases h.isSetup with hsetup | hover
  . have hpiece := @resume_balanced cfg s v answer
    have hchecking := countP_set_toNat (p := (·.pc.isChecking)) { v with pc := (s.resume cfg v answer).2 } hv
    have htotal := h.total
    have hpieces := hpiece.total hsetup
    simp only [checking] at htotal hchecking
    constructor <;> simp only [ProofVerifierService.after, checking]
    . rw [hpiece.isSetup]
      exact .inl hsetup
    . omega
  -- nothing is awaited
  . rw [resume_over (hover v (List.mem_of_getElem? hv))]
    obtain ⟨hi, hget⟩ := List.getElem?_eq_some_iff.mp hv
    have hset : s.verifications.set i { v with pc := v.pc } = s.verifications := by
      rw [← hget, List.set_getElem_self]
    simp only [ProofVerifierService.after, hset]
    exact ⟨h.isSetup, h.total⟩

theorem Measured.step {s : ProofVerifierService} (h : s.Measured) (hsetup : s.isSetup = true ∨ cfg.prod = true)
    (action : Action) : (s.step cfg action).Measured := by
  have htotal := h.total
  cases action with
  | verify caller req cMax =>
    have hdone (verdict : Verdict) : (VerifyPc.done verdict).isChecking = false := rfl
    have hroot (proof : SnarkjsProof) : (VerifyPc.root proof).isChecking = false := rfl
    rcases s.start_cases cfg req with ⟨verdict, -, hstart⟩ | ⟨-, proof, hadmissible, hstart⟩
    . constructor
      . rcases h.isSetup with hsetup | hover
        . exact .inl (by simpa [ProofVerifierService.step, hstart] using hsetup)
        . refine .inr fun v hv => ?_
          simp only [ProofVerifierService.step, hstart, List.mem_append, List.mem_singleton] at hv
          rcases hv with hv | rfl
          . exact hover v hv
          . rfl
      . simpa [ProofVerifierService.step, hstart, checking, List.countP_append, List.countP_cons, hdone]
    . constructor
      . exact .inl (by simpa [ProofVerifierService.step, hstart] using hsetup.elim id hadmissible.isSetup)
      . simpa [ProofVerifierService.step, hstart, checking, List.countP_append, List.countP_cons, hroot]
  | resume i answer =>
    cases hv : s.verifications[i]? with
    | none =>
      rw [step_resume_none hv]
      exact h
    | some v =>
      rw [step_resume hv]
      exact h.resumed answer hv
  | load found => exact ⟨h.isSetup.imp_left fun hsetup => by simp [ProofVerifierService.step, hsetup], htotal⟩

theorem step_isSetup {s : ProofVerifierService} (action : Action) (h : s.isSetup = true)
    : (s.step cfg action).isSetup = true := by
  cases action with
  | verify caller req cMax =>
    rcases s.start_cases cfg req with ⟨verdict, -, hstart⟩ | ⟨-, proof, -, hstart⟩
    . simpa [ProofVerifierService.step, hstart] using h
    . simpa [ProofVerifierService.step, hstart] using h
  | resume i answer =>
    cases hv : s.verifications[i]? with
    | none => rwa [step_resume_none hv]
    | some v =>
      rw [step_resume hv]
      simpa [ProofVerifierService.after, (s.resume_balanced v answer).isSetup] using h
  | load found => simp [ProofVerifierService.step, h]

theorem Measured.run {s : ProofVerifierService} (h : s.Measured) (hsetup : s.isSetup = true ∨ cfg.prod = true)
    (actions : List Action) : (s.run cfg actions).Measured := by
  induction actions generalizing s with
  | nil => exact h
  | cons action actions ih => exact ih (h.step hsetup action) (hsetup.imp_left (step_isSetup action))

/-- All a verification can wait for, in order. -/
def answers (i : Nat) (roots : Option (Nat → Bool)) (ok : Bool) : List Action :=
  [.resume i (.roots roots), .resume i (.key ok), .resume i .pairing, .resume i .left]

/-- How many answers it takes at most until the slot is free. -/
def awaits : VerifyPc → Nat
  | .root _ => 4
  | .key _ => 3
  | .pairing _ _ => 2
  | .leaving _ => 1
  | .done _ => 0

def Answer.order : Answer → Nat
  | .roots _ => 4
  | .key _ => 3
  | .pairing => 2
  | .left => 1

theorem afterRoot_awaits (s : ProofVerifierService) (proof : SnarkjsProof) (known : Option Bool)
    : awaits (s.afterRoot cfg proof known).2 < 4 := by
  unfold afterRoot
  split
  . simp [awaits]
  . split
    . simp [awaits]
    . by_cases hsetup : s.isSetup = true <;> simp [hsetup, awaits]

theorem resume_awaits {s : ProofVerifierService} {v : Verification} {answer : Answer}
    (h : awaits v.pc ≤ answer.order) : awaits (s.resume cfg v answer).2 < answer.order := by
  unfold resume
  split
  next => exact s.afterRoot_awaits ..
  next =>
    unfold afterKey
    split <;> simp [awaits, Answer.order]
  next =>
    unfold afterPairing
    split <;> simp [awaits, Answer.order]
  next => simp [awaits, Answer.order]
  next answer _ _ hroot hkey hpairing hleaving =>
    -- something else is awaited, so it comes later in the order
    refine lt_of_le_of_ne h fun heq => ?_
    cases hpc : v.pc <;> cases answer <;> simp_all [awaits, Answer.order]

theorem step_awaits (cfg : Config) {s : ProofVerifierService} {verifications : List Verification} {i : Nat}
    {v : Verification} (answer : Answer) (hi : i < verifications.length)
    (hv : ∃ pc, s.verifications = verifications.set i { v with pc } ∧ awaits pc ≤ answer.order)
    : ∃ pc, (s.step cfg (.resume i answer)).verifications = verifications.set i { v with pc }
        ∧ awaits pc < answer.order := by
  obtain ⟨pc, hset, hle⟩ := hv
  have hget : s.verifications[i]? = some { v with pc } := by
    rw [hset, List.getElem?_set_self hi]
  refine ⟨(s.resume cfg { v with pc } answer).2, ?_, resume_awaits hle⟩
  rw [step_resume hget, ProofVerifierService.after, hset, List.set_set]

/-- Once its answers have come the slot of a verification is free, whatever has come already. -/
theorem run_answers {s : ProofVerifierService} {i : Nat} {v : Verification}
    (hv : s.verifications[i]? = some v) (hunder : v.pc.underWay = true) (roots : Option (Nat → Bool))
    (ok : Bool) : (s.run cfg (answers i roots ok)).underWay + 1 = s.underWay := by
  obtain ⟨hi, hget⟩ := List.getElem?_eq_some_iff.mp hv
  have hstart : ∃ pc, s.verifications = s.verifications.set i { v with pc } ∧ awaits pc ≤ 4 := by
    refine ⟨v.pc, ?_, by cases v.pc <;> simp [awaits]⟩
    rw [← hget, List.set_getElem_self]
  have hend : ∃ pc, (s.run cfg (answers i roots ok)).verifications = s.verifications.set i { v with pc }
      ∧ awaits pc = 0 := by
    have hroots := step_awaits cfg (.roots roots) hi hstart
    have hkey := step_awaits cfg (.key ok) hi
      (hroots.imp fun _ h => ⟨h.1, Nat.le_of_lt_succ h.2⟩)
    have hpairing := step_awaits cfg .pairing hi
      (hkey.imp fun _ h => ⟨h.1, Nat.le_of_lt_succ h.2⟩)
    have hleft := step_awaits cfg .left hi
      (hpairing.imp fun _ h => ⟨h.1, Nat.le_of_lt_succ h.2⟩)
    exact hleft.imp fun _ h => ⟨h.1, Nat.lt_one_iff.mp h.2⟩
  obtain ⟨pc, hset, hzero⟩ := hend
  have hdone : pc.underWay = false := by
    cases pc <;> simp_all [awaits, VerifyPc.underWay]
  have hcount := countP_set_toNat (p := (·.pc.underWay)) { v with pc } hv
  simp only [hdone, hunder, Bool.toNat_true, Bool.toNat_false, Nat.add_zero] at hcount
  simpa only [underWay, hset] using hcount

/-- The limit holds in every run, a call is refused as busy exactly when it is reached, no slot is lost, and
the metrics add up; without the artifacts, which only a server that is not in production starts to check
without, one failure is counted twice. -/
theorem run_limited (cfg : Config) (max : Nat) (hmax : 0 < max) (isSetup : Bool) (actions : List Action)
    : let s := (new (.new max hmax) isSetup).run cfg actions
      s.limiter.active = s.underWay
      ∧ s.underWay ≤ max
      ∧ (∀ req proof, Admissible cfg s req proof →
          ((s.start cfg req).2 = .done (.error serverBusy) ↔ s.underWay = max))
      ∧ (∀ (i : Nat) (v : Verification), s.verifications[i]? = some v → v.pc.underWay = true →
          ∀ roots ok, (s.run cfg (answers i roots ok)).underWay + 1 = s.underWay)
      ∧ s.successfulVerifications = s.accepted
      ∧ s.successfulVerifications + s.checking ≤ s.verificationCount
      ∧ s.verificationCount ≤ s.successfulVerifications + s.failedVerifications + s.checking
      ∧ (isSetup = true ∨ cfg.prod = true →
          s.verificationCount = s.successfulVerifications + s.failedVerifications + s.checking) := by
  intro s
  have hcounted : s.Counted := (Counted.new (.new max hmax) rfl isSetup).run actions
  have hlimit : s.limiter.max = max := run_max actions
  refine ⟨hcounted.active, hlimit ▸ hcounted.capped, fun req proof hadmissible => ?_,
    fun i v hv hunder roots ok => run_answers hv hunder roots ok, hcounted.successful, hcounted.counted,
    hcounted.atMost, fun hsetup => ?_⟩
  . have hfull := hcounted.isFull_iff
    rw [hlimit] at hfull
    rw [start_admissible hadmissible, ← hfull]
    split <;> simp_all
  . have hmeasured : (new (.new max hmax) isSetup).Measured := ⟨.inr (by simp [new]), rfl⟩
    exact (hmeasured.run hsetup actions).total

theorem exists_start_example
    : ∃ proof, ∀ s : ProofVerifierService, Admissible exampleConfig s exampleRequest proof
        ∧ s.start exampleConfig exampleRequest = if s.limiter.isFull then (s, .done (.error serverBusy))
          else ({ s with limiter := s.limiter.enter }, .root proof) := by
  obtain ⟨proof, hread⟩ := readProof_exampleProof
  refine ⟨proof, fun s => ?_⟩
  have hadmissible : Admissible exampleConfig s exampleRequest proof := ⟨by simp [exampleConfig], hread⟩
  exact ⟨hadmissible, start_admissible hadmissible⟩

/-- With one slot, a second call is refused while the first is under way. -/
theorem run_limited_one
    : let s := (new (.new 1 one_pos) true).run exampleConfig [.verify 0 exampleRequest 10]
      (s.start exampleConfig exampleRequest).2 = .done (.error serverBusy) := by
  intro s
  have hlimited := run_limited exampleConfig 1 one_pos true [.verify 0 exampleRequest 10]
  obtain ⟨proof, hstart⟩ := exists_start_example
  have hunder : s.underWay = 1 := by
    have hrun : s = (new (.new 1 one_pos) true).step exampleConfig (.verify 0 exampleRequest 10) := rfl
    have hfree : (new (.new 1 one_pos) true).limiter.isFull = false := rfl
    rw [hrun]
    simp only [step, (hstart _).2, hfree, Bool.false_eq_true, if_false]
    rfl
  exact (hlimited.2.2.1 exampleRequest proof (hstart s).1).mpr hunder

/-!
# Verdicts
-/

theorem afterRoot_verify {s : ProofVerifierService} {req : LongjingRequestDto} {proof : SnarkjsProof} (cMax : Nat)
    (roots : Option (Nat → Bool)) (h : Admissible cfg s req proof)
    : match (s.afterRoot cfg proof (knownRoot ⟨s.isSetup, false, roots⟩ req.merkleRoot)).2 with
      | .key proof' => proof' = proof
        ∧ verify cfg req cMax ⟨s.isSetup, false, roots⟩ = match publicSignals cfg req cMax with
          | none => .error .other
          | some signals => .ok (cfg.groth16 proof signals)
      | .leaving verdict => verdict = verify cfg req cMax ⟨s.isSetup, false, roots⟩
      | _ => False := by
  have hprod : ¬(cfg.prod && !s.isSetup) = true := by
    simpa using h.isSetup
  simp only [afterRoot, verify, hprod, h.readProof_eq, Bool.false_eq_true, if_false]
  cases hknown : knownRoot ⟨s.isSetup, false, roots⟩ req.merkleRoot with
  | none =>
    by_cases hp : cfg.prod = true
    . simp [hp]
    . by_cases hsetup : s.isSetup = true
      . cases publicSignals cfg req cMax <;> simp [hp, hsetup]
      . simp [hp, hsetup]
  | some known =>
    cases known with
    | false => simp
    | true =>
      by_cases hsetup : s.isSetup = true
      . cases publicSignals cfg req cMax <;> simp [hsetup]
      . simp [hsetup]

/-- The verdict on the `i`-th verification is the one of `Server.verify` when the chain answered, on that
answer. -/
def Answered (cfg : Config) (s : ProofVerifierService) (actions : List Action) (i : Nat) (v : Verification)
    (verdict : Verdict) : Prop :=
  ∃ before after roots proof, actions = before ++ .resume i (.roots roots) :: after
    ∧ (s.run cfg before).verifications[i]? = some { v with pc := .root proof }
    ∧ verdict = verify cfg v.req v.cMax ⟨(s.run cfg before).isSetup, false, roots⟩

/-- Where a verdict can come from. -/
inductive Explained (cfg : Config) (s : ProofVerifierService) (actions : List Action) (i : Nat)
    (v : Verification) : Verdict → Prop where
  -- settled at its call: it is what `Server.verify` says whatever is answered
  | called (before after : List Action) (h : actions = before ++ .verify v.caller v.req v.cMax :: after)
    (hcall : (s.run cfg before).verifications.length = i) {verdict : Verdict}
    (hverdict : ∀ isFull roots,
      verdict = verify cfg v.req v.cMax ⟨(s.run cfg before).isSetup, isFull, roots⟩)
    : Explained cfg s actions i v verdict
  -- refused at its call, when as many verifications were under way as may be
  | busy (before after : List Action) (h : actions = before ++ .verify v.caller v.req v.cMax :: after)
    (hcall : (s.run cfg before).verifications.length = i)
    (hfull : (s.run cfg before).underWay = s.limiter.max)
    : Explained cfg s actions i v (.error serverBusy)
  | answered {verdict : Verdict} (h : Answered cfg s actions i v verdict) : Explained cfg s actions i v verdict
  -- the signer has no key
  | noKey (before after : List Action) (proof : SnarkjsProof) (h : actions = before ++ .resume i (.key false) :: after)
    (hkey : (s.run cfg before).verifications[i]? = some { v with pc := .key proof })
    : Explained cfg s actions i v (.error .other)

variable {s : ProofVerifierService} {actions : List Action} {i : Nat} {v : Verification} {verdict : Verdict}

theorem Answered.concat (h : Answered cfg s actions i v verdict) (action : Action)
    : Answered cfg s (actions ++ [action]) i v verdict := by
  obtain ⟨before, after, roots, proof, rfl, hroot, hverdict⟩ := h
  exact ⟨before, after ++ [action], roots, proof, by simp, hroot, hverdict⟩

theorem Explained.concat (h : Explained cfg s actions i v verdict) (action : Action)
    : Explained cfg s (actions ++ [action]) i v verdict := by
  cases h with
  | called before after h hcall hverdict => exact .called before (after ++ [action]) (by simp [h]) hcall hverdict
  | busy before after h hcall hfull => exact .busy before (after ++ [action]) (by simp [h]) hcall hfull
  | answered h => exact .answered (h.concat action)
  | noKey before after proof h hkey => exact .noKey before (after ++ [action]) proof (by simp [h]) hkey

/-- It depends on the call only, not on how far the verification has come. -/
theorem Explained.move (h : Explained cfg s actions i v verdict) (pc : VerifyPc)
    : Explained cfg s actions i { v with pc } verdict := by
  cases h with
  | called before after h hcall hverdict =>
    exact @Explained.called cfg s actions i { v with pc } before after h hcall _ hverdict
  | busy before after h hcall hfull => exact .busy before after h hcall hfull
  | answered h => exact .answered h
  | noKey before after proof h hkey => exact .noKey before after proof h hkey

/-- What a run has settled about its `i`-th verification. -/
def Traced (cfg : Config) (s : ProofVerifierService) (actions : List Action) (i : Nat) (v : Verification)
    : Prop :=
  match v.pc with
  | .root proof => Admissible cfg (s.run cfg actions) v.req proof
  | .key proof => Answered cfg s actions i v (match publicSignals cfg v.req v.cMax with
    | none => .error .other
    | some signals => .ok (cfg.groth16 proof signals))
  | .pairing proof signals => Answered cfg s actions i v (.ok (cfg.groth16 proof signals))
  | .leaving verdict => Explained cfg s actions i v verdict
  | .done verdict => Explained cfg s actions i v verdict

/-- A step leaves what the run has settled about a verification that it does not resume. -/
theorem Traced.concat (h : Traced cfg s actions i v) (action : Action)
    : Traced cfg s (actions ++ [action]) i v := by
  unfold Traced at *
  split at h
  . exact ⟨fun hprod => by
      rw [run_concat]
      exact step_isSetup action (h.isSetup hprod), h.readProof_eq⟩
  . exact h.concat action
  . exact h.concat action
  . exact h.concat action
  . exact h.concat action

theorem Traced.call (caller : Nat) (req : LongjingRequestDto) (cMax : Nat)
    (hcounted : (s.run cfg actions).Counted)
    : Traced cfg s (actions ++ [.verify caller req cMax]) (s.run cfg actions).verifications.length
        ⟨caller, req, cMax, ((s.run cfg actions).start cfg req).2⟩ := by
  by_cases hadmissible : ∃ proof, Admissible cfg (s.run cfg actions) req proof
  . obtain ⟨proof, hadmissible⟩ := hadmissible
    rw [start_admissible hadmissible]
    by_cases hfull : (s.run cfg actions).limiter.isFull = true
    . rw [if_pos hfull]
      exact .busy actions [] rfl rfl ((hcounted.isFull_iff.mp hfull).trans (run_max actions))
    . rw [if_neg hfull]
      refine ⟨fun hprod => ?_, hadmissible.readProof_eq⟩
      rw [run_concat]
      exact step_isSetup _ (hadmissible.isSetup hprod)
  . obtain ⟨verdict, -, hstart, hverdict⟩ := start_inadmissible fun proof h => hadmissible ⟨proof, h⟩
    rw [hstart]
    exact @Explained.called cfg s _ _ ⟨caller, req, cMax, .done verdict⟩ actions [] rfl rfl _ (hverdict cMax)

theorem Traced.resume (h : Traced cfg s actions i v)
    (hv : (s.run cfg actions).verifications[i]? = some v) (answer : Answer)
    : Traced cfg s (actions ++ [.resume i answer]) i
        { v with pc := ((s.run cfg actions).resume cfg v answer).2 } := by
  unfold ProofVerifierService.resume
  split
  next proof isKnownRoot hpc =>
    -- the chain's answer decides
    have hadmissible : Admissible cfg (s.run cfg actions) v.req proof := by
      simpa [Traced, hpc] using h
    have hmoment (verdict : Verdict)
        (hverdict : verdict = verify cfg v.req v.cMax ⟨(s.run cfg actions).isSetup, false, isKnownRoot⟩)
        : Answered cfg s (actions ++ [.resume i (.roots isKnownRoot)]) i v verdict :=
      ⟨actions, [], isKnownRoot, proof, rfl, by rw [hv, ← hpc], hverdict⟩
    have hroot := afterRoot_verify v.cMax isKnownRoot hadmissible
    unfold Traced
    split at hroot <;> rename_i hnext
    . obtain ⟨rfl, hroot⟩ := hroot
      simp only [hnext]
      exact hmoment _ hroot.symm
    . simp only [hnext]
      exact .answered (hmoment _ hroot)
    . exact hroot.elim
  next proof ok hpc =>
    have hanswered : Answered cfg s actions i v (match publicSignals cfg v.req v.cMax with
        | none => .error .other
        | some signals => .ok (cfg.groth16 proof signals)) := by
      simpa [Traced, hpc] using h
    cases ok with
    | false => exact .noKey actions [] proof rfl (by rw [hv, ← hpc])
    | true =>
      unfold afterKey
      cases hsignals : publicSignals cfg v.req v.cMax with
      | none =>
        simp only [hsignals] at hanswered
        exact .answered (hanswered.concat _)
      | some signals =>
        simp only [hsignals] at hanswered
        exact hanswered.concat _
  next proof signals hpc =>
    have hanswered : Answered cfg s actions i v (.ok (cfg.groth16 proof signals)) := by
      simpa [Traced, hpc] using h
    unfold afterPairing
    split <;> rename_i hvalid
    . rw [hvalid] at hanswered
      exact .answered (hanswered.concat _)
    . rw [Bool.not_eq_true _ |>.mp hvalid] at hanswered
      exact .answered (hanswered.concat _)
  next verdict hpc =>
    have hexplained : Explained cfg s actions i v verdict := by
      simpa [Traced, hpc] using h
    exact (hexplained.concat _).move _
  next => exact h.concat _

/-- Whatever order the calls and the answers come in, a run accounts for each of its verifications. -/
theorem run_traced (hcounted : s.Counted) (hempty : s.verifications = []) (actions : List Action)
    : ∀ i v, (s.run cfg actions).verifications[i]? = some v → Traced cfg s actions i v := by
  induction actions using List.reverseRecOn with
  | nil =>
    intro i v hv
    simp [ProofVerifierService.run, hempty] at hv
  | append_singleton actions action ih =>
    intro i v hv
    rw [run_concat] at hv
    cases action with
    | verify caller req cMax =>
      have hv : ((s.run cfg actions).verifications
          ++ [⟨caller, req, cMax, ((s.run cfg actions).start cfg req).2⟩])[i]? = some v := by
        have hlist : ((s.run cfg actions).start cfg req).1.verifications = (s.run cfg actions).verifications := by
          rcases start_cases cfg (s.run cfg actions) req with ⟨_, -, hstart⟩ | ⟨-, _, -, hstart⟩ <;> rw [hstart]
        exact hv
      rcases Nat.lt_or_ge i (s.run cfg actions).verifications.length with hlt | hge
      . rw [List.getElem?_append_left hlt] at hv
        exact (ih i v hv).concat _
      . obtain ⟨hi, hv⟩ := List.getElem?_eq_some_iff.mp hv
        obtain rfl : i = (s.run cfg actions).verifications.length := by
          simp at hi
          omega
        simp only [List.getElem_concat_length] at hv
        subst hv
        exact Traced.call caller req cMax (hcounted.run actions)
    | resume j answer =>
      cases hj : (s.run cfg actions).verifications[j]? with
      | none =>
        rw [step_resume_none hj] at hv
        exact (ih i v hv).concat _
      | some w =>
        rw [step_resume hj] at hv
        simp only [ProofVerifierService.after, List.getElem?_set] at hv
        split at hv
        . rename_i heq
          subst heq
          split at hv
          . obtain rfl := Option.some.inj hv
            exact (ih j w hj).resume hj answer
          . cases hv
        . exact (ih i v hv).concat _
    | load found => exact (ih i v hv).concat _

/-- However calls and answers interleave, the service gives each verdict as if it had verified in one step on
the answers it got, or it refuses because the limit is reached or because the signer has no key. -/
theorem run_verdict (cfg : Config) (max : Nat) (hmax : 0 < max) (isSetup : Bool) (actions : List Action)
    (i : Nat) (v : Verification) (verdict : Verdict)
    (hv : ((new (.new max hmax) isSetup).run cfg actions).verifications[i]? = some v)
    (hdone : v.pc = .done verdict)
    : Explained cfg (new (.new max hmax) isSetup) actions i v verdict := by
  have h := run_traced (Counted.new (.new max hmax) rfl isSetup) rfl actions i v hv
  simpa only [Traced, hdone] using h

/-- A proof that is fine is accepted when a slot is free. -/
theorem run_accepted {req : LongjingRequestDto} {cMax : Nat} {proof : SnarkjsProof} {known : Nat → Bool}
    {signals : List Int} (hread : readProof req.proof = .ok (some proof))
    (hroot : knownRoot ⟨true, false, some known⟩ req.merkleRoot = some true)
    (hsignals : publicSignals cfg req cMax = some signals) (hvalid : cfg.groth16 proof signals = true)
    : ((new (.new 1 one_pos) true).run cfg [.verify 0 req cMax, .resume 0 (.roots (some known)), .resume 0 (.key true),
          .resume 0 .pairing, .resume 0 .left]).verifications
        = [⟨0, req, cMax, .done (.ok true)⟩] := by
  have hfree : ConcurrencyLimiter.isFull ⟨1, 0, one_pos⟩ = false := rfl
  simp only [run, List.foldl_cons, List.foldl_nil, step, start, hread, Bool.not_true, Bool.and_false, new,
    ConcurrencyLimiter.new, ConcurrencyLimiter.enter, zero_add, hfree, Bool.false_eq_true, if_false, if_true,
    List.nil_append, List.getElem?_cons_zero, List.set_cons_zero, resume, hroot, afterRoot, afterKey, hsignals,
    afterPairing, hvalid, reduceCtorEq, false_and, Option.some.injEq]

/-- With one slot, a proof that is fine is accepted, and another call is refused until it is. -/
theorem run_accepted_busy {req : LongjingRequestDto} {cMax : Nat} {proof : SnarkjsProof} {known : Nat → Bool}
    {signals : List Int} (hread : readProof req.proof = .ok (some proof))
    (hroot : knownRoot ⟨true, false, some known⟩ req.merkleRoot = some true)
    (hsignals : publicSignals cfg req cMax = some signals) (hvalid : cfg.groth16 proof signals = true)
    : ((new (.new 1 one_pos) true).run cfg [.verify 0 req cMax, .verify 1 req cMax, .resume 0 (.roots (some known)),
          .resume 0 (.key true), .resume 0 .pairing, .resume 0 .left]).verifications
        = [⟨0, req, cMax, .done (.ok true)⟩, ⟨1, req, cMax, .done (.error serverBusy)⟩] := by
  have hfree : ConcurrencyLimiter.isFull ⟨1, 0, one_pos⟩ = false := rfl
  have hfull : ConcurrencyLimiter.isFull ⟨1, 1, one_pos⟩ = true := rfl
  simp only [run, List.foldl_cons, List.foldl_nil, step, start, hread, Bool.not_true, Bool.and_false, new,
    ConcurrencyLimiter.new, ConcurrencyLimiter.enter, zero_add, hfree, hfull, Bool.false_eq_true, if_false, if_true,
    List.nil_append, List.singleton_append, List.getElem?_cons_zero, List.set_cons_zero, resume, hroot,
    afterRoot, afterKey, hsignals, afterPairing, hvalid, reduceCtorEq, false_and, Option.some.injEq]

/-- Two calls with one slot; the chain knows the root of the first one, which is checked to its end. -/
def exampleVerifications : List Action :=
  [.verify 0 exampleRequest 10, .verify 1 exampleRequest 10, .resume 0 (.roots (some fun _ => true)),
    .resume 0 (.key true), .resume 0 .pairing, .resume 0 .left]

theorem run_exampleVerifications
    : ((new (.new 1 one_pos) true).run exampleConfig exampleVerifications).verifications
        = [⟨0, exampleRequest, 10, .done (.ok true)⟩, ⟨1, exampleRequest, 10, .done (.error serverBusy)⟩] := by
  obtain ⟨proof, hread⟩ := readProof_exampleProof
  exact run_accepted_busy hread (example_knownRoot rfl)
    (example_publicSignals exampleRequest _ rfl example_signalY_readers.2) (example_canonical proof)

theorem run_verdict_accepted
    : Explained exampleConfig (new (.new 1 one_pos) true) exampleVerifications 0
          ⟨0, exampleRequest, 10, .done (.ok true)⟩ (.ok true)
      ∧ Explained exampleConfig (new (.new 1 one_pos) true) exampleVerifications 1
          ⟨1, exampleRequest, 10, .done (.error serverBusy)⟩ (.error serverBusy) := by
  have hlist := run_exampleVerifications
  exact ⟨run_verdict exampleConfig 1 one_pos true exampleVerifications 0 _ _ (by rw [hlist]; rfl) rfl,
    run_verdict exampleConfig 1 one_pos true exampleVerifications 1 _ _ (by rw [hlist]; rfl) rfl⟩

end ProofVerifierService

end Server
end Longjing
