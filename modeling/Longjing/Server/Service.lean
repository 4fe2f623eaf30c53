import Longjing.Lib.Simulation
import Longjing.Server.Lemmas.Retry
import Longjing.Server.Verifier

/-!
This module contains the server together with the verifier it calls. A run of the two is a run of the
server alone, in which a request that was refused without a verdict on its proof waits forever.
-/

namespace Longjing
namespace Server

open Js
open Blockchain (WithdrawalInitiated)

/-- `afterVerifying`, once the verdict is there. -/
def afterVerdict (now : Nat) (store : Store Kept) (req : LongjingRequestDto) (nullifier : String)
    (cMax : Nat) (verdict : Verdict) (slashing : Bool) : Piece :=
  match verdict with
  | .error e => ⟨store, .done (.error e), []⟩
  | .ok false => ⟨store, refuse 401 "Invalid ZK proof", []⟩
  | .ok true =>
    let piece := record now store req nullifier cMax slashing
    { piece with events := .accepted req :: piece.events }

/-- What the server does by itself, without a verdict. -/
def Action.isOwn : Action → Bool
  | .resume _ (.verified _ _) => false
  | .crash => false
  | _ => true

structure LongjingService where
  server : State
  verifier : ProofVerifierService

namespace LongjingService

/-- The verification that an execution calls in the step from `before` to `after`. -/
def call? (before after : State) : Server.Action → Option ProofVerifierService.Action
  | .resume i _ =>
    match before.execs[i]?, after.execs[i]? with
    | some ⟨_, .pricing _ _⟩, some ⟨req, .verifying _ cMax⟩ => some (.verify i req cMax)
    | _, _ => none
  | _ => none

inductive Action where
  | server (action : Server.Action)
  | verifier (verification : Nat) (answer : ProofVerifierService.Answer)
  -- the verdict of a verification reaches the execution that awaits it
  | verdict (verification : Nat) (slashing : Bool)
  | load (found : Bool)
  -- the process stops and starts again, and `found` says whether it finds the verification key
  | crash (found : Bool)

variable (cfg : Config)

def step (s : LongjingService) : Action → LongjingService
  | .server action =>
    if action.isOwn then
      let server := s.server.step cfg action
      { server, verifier := s.verifier.run cfg (call? s.server server action).toList }
    else
      s
  | .verifier k answer => { s with verifier := s.verifier.step cfg (.resume k answer) }
  | .verdict k slashing =>
    match s.verifier.verifications[k]? with
    | some ⟨caller, _, _, .done verdict⟩ =>
      match s.server.execs[caller]? with
      | some ⟨req, .verifying nullifier cMax⟩ =>
        let piece := afterVerdict s.server.now s.server.store req nullifier cMax verdict slashing
        { s with server := s.server.after caller ⟨req, .verifying nullifier cMax⟩ piece }
      | _ => s
    | _ => s
  | .load found => { s with verifier := s.verifier.step cfg (.load found) }
  | .crash found =>
    let limiter := ConcurrencyLimiter.new s.verifier.limiter.max s.verifier.limiter.max_pos
    { server := s.server.step cfg .crash, verifier := .new limiter found }

def run (s : LongjingService) (actions : List Action) : LongjingService :=
  actions.foldl (step cfg) s

end LongjingService

/-!
# The execution of a verification
-/

/-- How far an execution is that has called a verification. -/
def Pc.HasCalled (cMax : Nat) : Pc → Prop
  | .matching _ => False
  | .pricing _ _ => False
  | .verifying _ c => c = cMax
  | _ => True

theorem Pc.HasCalled.resume {cfg : Config} {now i : Nat} {store : Store Kept} {req : LongjingRequestDto}
    {pc : Pc} {answer : Answer} {cMax : Nat} (h : pc.HasCalled cMax)
    (hown : (Action.resume i answer).isOwn = true)
    : (resume cfg now store req pc answer).pc.HasCalled cMax := by
  unfold Server.resume
  split
  next => exact h.elim
  next => exact h.elim
  next => simp [Action.isOwn] at hown
  next => trivial
  next content =>
    cases content <;> trivial
  next ticket ok =>
    cases ok <;> trivial
  next wei =>
    cases wei <;> trivial
  next ok =>
    cases ok <;> trivial
  next => exact h

theorem afterVerdict_hasCalled (now : Nat) (store : Store Kept) (req : LongjingRequestDto)
    (nullifier : String) (c : Nat) (verdict : Verdict) (slashing : Bool) (cMax : Nat)
    : (afterVerdict now store req nullifier c verdict slashing).pc.HasCalled cMax := by
  unfold afterVerdict
  split
  . trivial
  . trivial
  . have hrecord : Recorded now store req nullifier c slashing (record now store req nullifier c slashing) :=
      record_sound nullifier c slashing
    generalize record now store req nullifier c slashing = piece at hrecord ⊢
    cases hrecord <;> trivial

namespace ProofVerifierService

variable {cfg : Config} {s : ProofVerifierService} {v : Verification}

/-- Has come to its state since the process started. -/
def Running (cfg : Config) (s : ProofVerifierService) : Prop :=
  ∃ (start : ProofVerifierService) (actions : List Action),
    start.Counted ∧ start.verifications = [] ∧ s = start.run cfg actions

theorem Running.new (limiter : ConcurrencyLimiter) (h : limiter.active = 0) (isSetup : Bool)
    : Running cfg (.new limiter isSetup) :=
  ⟨.new limiter isSetup, [], .new limiter h isSetup, rfl, rfl⟩

theorem Running.run (h : Running cfg s) (actions : List Action) : Running cfg (s.run cfg actions) := by
  obtain ⟨start, before, hcounted, hempty, rfl⟩ := h
  exact ⟨start, before ++ actions, hcounted, hempty, List.foldl_append.symm⟩

/-- What a verification can have ended with. -/
theorem Running.verdict (h : Running cfg s) {k : Nat} {verdict : Verdict}
    (hv : s.verifications[k]? = some v) (hdone : v.pc = .done verdict)
    : (∃ answer, verdict = verify cfg v.req v.cMax answer) ∨ verdict = .error serverBusy
      ∨ verdict = .error .other := by
  obtain ⟨start, actions, hcounted, hempty, rfl⟩ := h
  have htraced := run_traced hcounted hempty actions k v hv
  simp only [Traced, hdone] at htraced
  cases htraced with
  | called _ _ _ _ hverdict => exact .inl ⟨_, hverdict true none⟩
  | busy => exact .inr (.inl rfl)
  | answered h =>
    obtain ⟨_, _, _, _, -, -, hverdict⟩ := h
    exact .inl ⟨_, hverdict⟩
  | noKey => exact .inr (.inr rfl)

theorem mem_verifications_call {caller cMax : Nat} {req : LongjingRequestDto}
    (h : v ∈ (s.step cfg (.verify caller req cMax)).verifications)
    : v ∈ s.verifications ∨ v.caller = caller ∧ v.req = req ∧ v.cMax = cMax := by
  rcases List.mem_append.mp h with h | h
  . exact .inl h
  . rw [List.mem_singleton.mp h]
    exact .inr ⟨rfl, rfl, rfl⟩

theorem mem_verifications_resume {k : Nat} {answer : Answer}
    (h : v ∈ (s.step cfg (.resume k answer)).verifications)
    : ∃ pc, { v with pc } ∈ s.verifications := by
  cases hk : s.verifications[k]? with
  | none =>
    rw [step_resume_none hk] at h
    exact ⟨v.pc, h⟩
  | some w =>
    rw [step_resume hk] at h
    rcases List.mem_or_eq_of_mem_set h with h | rfl
    . exact ⟨v.pc, h⟩
    . exact ⟨w.pc, List.mem_of_getElem? hk⟩

end ProofVerifierService

namespace LongjingService

variable {cfg : Config} {s : LongjingService}

/-- Each verification was called by an execution of the same request. -/
structure Linked (cfg : Config) (s : LongjingService) : Prop where
  verifier : s.verifier.Running cfg
  caller : ∀ v ∈ s.verifier.verifications,
    ∃ pc, s.server.execs[v.caller]? = some ⟨v.req, pc⟩ ∧ pc.HasCalled v.cMax

/-- A call is made for the execution that has come to its verification. -/
theorem call?_eq_some {before after : State} {action : Server.Action}
    {call : ProofVerifierService.Action} (h : call? before after action = some call)
    : ∃ i req nullifier cMax, call = .verify i req cMax
        ∧ after.execs[i]? = some ⟨req, .verifying nullifier cMax⟩ := by
  unfold call? at h
  split at h
  . split at h
    . obtain rfl := Option.some.inj h
      exact ⟨_, _, _, _, rfl, ‹_›⟩
    . cases h
  . cases h

/-- An own step of the server leaves the executions that have called a verification past the call. -/
theorem hasCalled_step {server : State} {action : Server.Action} (hown : action.isOwn = true) {i : Nat}
    {req : LongjingRequestDto} {cMax : Nat}
    (h : ∃ pc, server.execs[i]? = some ⟨req, pc⟩ ∧ pc.HasCalled cMax)
    : ∃ pc, (server.step cfg action).execs[i]? = some ⟨req, pc⟩ ∧ pc.HasCalled cMax := by
  obtain ⟨pc, hexec, hcalled⟩ := h
  cases action with
  | arrive req' =>
    refine ⟨pc, ?_, hcalled⟩
    obtain ⟨hi, -⟩ := List.getElem?_eq_some_iff.mp hexec
    show (server.execs ++ _)[i]? = _
    rw [List.getElem?_append_left hi, hexec]
  | resume j answer =>
    cases hj : server.execs[j]? with
    | none =>
      rw [State.step_resume_none hj]
      exact ⟨pc, hexec, hcalled⟩
    | some exec =>
      rw [State.step_resume hj]
      by_cases hij : j = i
      . subst hij
        obtain rfl := Option.some.inj (hexec.symm.trans hj)
        obtain ⟨hi, -⟩ := List.getElem?_eq_some_iff.mp hexec
        exact ⟨_, List.getElem?_set_self hi, hcalled.resume hown⟩
      . exact ⟨pc, by rw [State.after, List.getElem?_set_ne hij, hexec], hcalled⟩
  | ingest exit slashing => exact ⟨pc, hexec, hcalled⟩
  | clock now => exact ⟨pc, hexec, hcalled⟩
  | cleanup => exact ⟨pc, hexec, hcalled⟩
  | crash => cases hown

/-- A verdict goes to an execution that still awaits it, or nowhere. -/
theorem step_verdict (cfg : Config) (s : LongjingService) (k : Nat) (slashing : Bool)
    : s.step cfg (.verdict k slashing) = s
      ∨ ∃ v verdict req nullifier cMax, s.verifier.verifications[k]? = some v ∧ v.pc = .done verdict
        ∧ s.server.execs[v.caller]? = some ⟨req, .verifying nullifier cMax⟩
        ∧ s.step cfg (.verdict k slashing) = { s with
          server := s.server.after v.caller ⟨req, .verifying nullifier cMax⟩
            (afterVerdict s.server.now s.server.store req nullifier cMax verdict slashing) } := by
  simp only [LongjingService.step]
  split
  . split
    . exact .inr ⟨_, _, _, _, _, ‹_›, rfl, ‹_›, rfl⟩
    . exact .inl rfl
  . exact .inl rfl

theorem Linked.step (h : Linked cfg s) (action : Action) : Linked cfg (s.step cfg action) := by
  cases action with
  | server action =>
    by_cases hown : action.isOwn = true
    . simp only [LongjingService.step, hown, if_true]
      refine ⟨h.verifier.run _, fun v hv => ?_⟩
      cases hcall : call? s.server (s.server.step cfg action) action with
      | none =>
        rw [hcall] at hv
        exact hasCalled_step hown (h.caller v hv)
      | some call =>
        obtain ⟨i, req, nullifier, cMax, rfl, hexec⟩ := call?_eq_some hcall
        rw [hcall] at hv
        rcases ProofVerifierService.mem_verifications_call hv with hv | ⟨rfl, rfl, rfl⟩
        . exact hasCalled_step hown (h.caller v hv)
        . exact ⟨_, hexec, rfl⟩
    . simp only [LongjingService.step, hown]
      exact h
  | verifier k answer =>
    refine ⟨h.verifier.run [.resume k answer], fun v hv => ?_⟩
    obtain ⟨pc, hv⟩ := ProofVerifierService.mem_verifications_resume hv
    exact h.caller { v with pc } hv
  | verdict k slashing =>
    rcases s.step_verdict cfg k slashing with hstep | ⟨w, _, req, _, _, _, _, hexec, hstep⟩
    . rw [hstep]
      exact h
    . rw [hstep]
      refine ⟨h.verifier, fun v hv => ?_⟩
      obtain ⟨pc, hpc, hcalled⟩ := h.caller v hv
      by_cases heq : w.caller = v.caller
      . rw [heq] at hexec ⊢
        obtain ⟨hi, -⟩ := List.getElem?_eq_some_iff.mp hpc
        obtain ⟨rfl, -⟩ := Exec.mk.inj (Option.some.inj (hexec.symm.trans hpc))
        exact ⟨_, List.getElem?_set_self hi, afterVerdict_hasCalled ..⟩
      . exact ⟨pc, by rw [State.after, List.getElem?_set_ne heq, hpc], hcalled⟩
  | load found => exact ⟨h.verifier.run [.load found], h.caller⟩
  | crash found => exact ⟨.new _ rfl found, fun v hv => by cases hv⟩

/-- The executions are alike, or this one was refused without a verdict on its proof and the other one
waits for the verdict. -/
def Agrees (exec waiting : Exec) : Prop :=
  exec.req = waiting.req
    ∧ (exec.pc = waiting.pc
      ∨ (exec.pc = .done (.error serverBusy) ∨ exec.pc = .done (.error .other))
        ∧ ((∃ nullifier cMax, waiting.pc = .verifying nullifier cMax) ∨ waiting.pc = .lost))

/-- The server alone is in the state of this one, except for executions that still wait. -/
structure Refines (s : LongjingService) (alone : State) : Prop where
  store : s.server.store = alone.store
  now : s.server.now = alone.now
  events : s.server.events = alone.events
  execs : List.Forall₂ Agrees s.server.execs alone.execs

theorem Agrees.refl (exec : Exec) : Agrees exec exec := ⟨rfl, .inl rfl⟩

theorem Agrees.crash {exec waiting : Exec} (h : Agrees exec waiting)
    : Agrees { exec with pc := exec.pc.crash } { waiting with pc := waiting.pc.crash } := by
  obtain ⟨hreq, hpc | ⟨hrefused, hwaits⟩⟩ := h
  . exact ⟨hreq, .inl (by rw [hpc])⟩
  . refine ⟨hreq, .inr ⟨?_, .inr ?_⟩⟩
    . rcases hrefused with hrefused | hrefused
      . exact .inl (by rw [hrefused]; rfl)
      . exact .inr (by rw [hrefused]; rfl)
    . rcases hwaits with ⟨nullifier, cMax, hwaits⟩ | hwaits
      . rw [hwaits]
        rfl
      . rw [hwaits]
        rfl

/-- The same piece of the same execution on both sides. -/
theorem Refines.after {alone : State} (h : Refines s alone) (i : Nat) (exec : Exec) (piece : Piece)
    (verifier : ProofVerifierService)
    : Refines ⟨s.server.after i exec piece, verifier⟩ (alone.after i exec piece) where
  store := rfl
  now := h.now
  events := by simp [State.after, h.events]
  execs := forall₂_set h.execs (.refl _) i

theorem resume_done (now : Nat) (store : Store Kept) (req : LongjingRequestDto) (outcome : Outcome)
    (answer : Answer) : resume cfg now store req (.done outcome) answer = ⟨store, .done outcome, []⟩ := by
  cases answer <;> rfl

theorem Refines.resume {alone : State} (h : Refines s alone) (i : Nat) (answer : Answer)
    (verifier : ProofVerifierService)
    : ∃ actions, Refines ⟨s.server.step cfg (.resume i answer), verifier⟩ (alone.run cfg actions) := by
  cases hexec : s.server.execs[i]? with
  | none =>
    rw [State.step_resume_none hexec]
    exact ⟨[], h.store, h.now, h.events, h.execs⟩
  | some exec =>
    rw [State.step_resume hexec]
    obtain ⟨waiting, hwaiting, hreq, hpc | ⟨hrefused, hwaits⟩⟩ := forall₂_getElem?_some h.execs hexec
    . obtain rfl : exec = waiting := by
        cases exec
        cases waiting
        simp_all
      refine ⟨[.resume i answer], ?_⟩
      have hstep : alone.run cfg [.resume i answer] = alone.step cfg (.resume i answer) := rfl
      rw [hstep, State.step_resume hwaiting, ← h.store, ← h.now]
      exact h.after ..
    -- who was refused has nothing to await
    . obtain ⟨outcome, hdone⟩ : ∃ outcome, exec.pc = .done outcome := by
        rcases hrefused with hrefused | hrefused
        . exact ⟨_, hrefused⟩
        . exact ⟨_, hrefused⟩
      have hset : s.server.execs.set i ⟨exec.req, exec.pc⟩ = s.server.execs := by
        obtain ⟨hi, hget⟩ := List.getElem?_eq_some_iff.mp hexec
        exact hget ▸ List.set_getElem_self hi
      refine ⟨[], ?_⟩
      rw [hdone, resume_done, State.after, ← hdone, hset, List.append_nil]
      exact ⟨h.store, h.now, h.events, h.execs⟩

theorem Refines.server {alone : State} (h : Refines s alone) {action : Server.Action}
    (hown : action.isOwn = true) (verifier : ProofVerifierService)
    : ∃ actions, Refines ⟨s.server.step cfg action, verifier⟩ (alone.run cfg actions) := by
  obtain ⟨hstore, hnow, hevents, hexecs⟩ := h
  cases action with
  | arrive req =>
    refine ⟨[.arrive req], ?_⟩
    simp only [State.run, List.foldl_cons, List.foldl_nil, State.step, ← hstore, ← hnow, ← hevents]
    exact ⟨rfl, rfl, rfl, List.rel_append hexecs (.cons (.refl _) .nil)⟩
  | resume i answer => exact Refines.resume ⟨hstore, hnow, hevents, hexecs⟩ i answer verifier
  | ingest exit slashing =>
    refine ⟨[.ingest exit slashing], ?_⟩
    simp only [State.run, List.foldl_cons, List.foldl_nil, State.step, ← hstore, ← hevents]
    exact ⟨rfl, hnow, rfl, hexecs⟩
  | clock now => exact ⟨[.clock now], hstore, rfl, hevents, hexecs⟩
  | cleanup =>
    refine ⟨[.cleanup], ?_, hnow, hevents, hexecs⟩
    simp only [State.run, List.foldl_cons, List.foldl_nil, State.step, hstore, hnow]
  | crash => cases hown

theorem Refines.verdict {alone : State} (hlinked : Linked cfg s) (h : Refines s alone) (k : Nat)
    (slashing : Bool)
    : ∃ actions, Refines (s.step cfg (.verdict k slashing)) (alone.run cfg actions) := by
  rcases s.step_verdict cfg k slashing
    with hstep | ⟨v, verdict, req, nullifier, cMax, hv, hdone, hexec, hstep⟩
  . rw [hstep]
    exact ⟨[], h⟩
  rw [hstep]
  obtain ⟨waiting, hwaiting, hreq, hpc⟩ := forall₂_getElem?_some h.execs hexec
  obtain rfl : waiting = ⟨req, .verifying nullifier cMax⟩ := by
    cases waiting
    simp_all
  obtain ⟨pc, hcaller, hcalled⟩ := hlinked.caller v (List.mem_of_getElem? hv)
  obtain ⟨rfl, rfl⟩ := Exec.mk.inj (Option.some.inj (hexec.symm.trans hcaller))
  obtain rfl : cMax = v.cMax := hcalled
  -- a refusal keeps everything but the execution
  have hrefused (e : Thrown) (he : e = serverBusy ∨ e = .other)
      : Refines ⟨s.server.after v.caller ⟨v.req, .verifying nullifier v.cMax⟩
          ⟨s.server.store, .done (.error e), []⟩, s.verifier⟩ alone := by
    refine ⟨h.store, h.now, by simpa [State.after] using h.events, ?_⟩
    have hset := forall₂_set h.execs (a := ⟨v.req, .done (.error e)⟩)
      (b := ⟨v.req, .verifying nullifier v.cMax⟩)
      ⟨rfl, .inr ⟨by rcases he with rfl | rfl <;> simp, .inl ⟨_, _, rfl⟩⟩⟩ v.caller
    obtain ⟨hi, hget⟩ := List.getElem?_eq_some_iff.mp hwaiting
    rwa [← hget, List.set_getElem_self] at hset
  rcases hlinked.verifier.verdict hv hdone with ⟨answer, rfl⟩ | rfl | rfl
  . refine ⟨[.resume v.caller (.verified answer slashing)], ?_⟩
    have hstep : alone.run cfg [.resume v.caller (.verified answer slashing)]
        = alone.step cfg (.resume v.caller (.verified answer slashing)) := rfl
    rw [hstep, State.step_resume hwaiting, ← h.store, ← h.now]
    exact h.after ..
  . exact ⟨[], hrefused _ (.inl rfl)⟩
  . exact ⟨[], hrefused _ (.inr rfl)⟩

theorem simulates (cfg : Config)
    : Simulates (step cfg) (State.step cfg) fun s alone => Linked cfg s ∧ Refines s alone := by
  intro s alone ⟨hlinked, h⟩ action
  suffices ∃ actions, Refines (s.step cfg action) (alone.run cfg actions) from
    this.imp fun _ hactions => ⟨hlinked.step action, hactions⟩
  cases action with
  | server action =>
    by_cases hown : action.isOwn = true
    . simp only [step, hown, if_true]
      exact h.server hown _
    . simp only [step, hown]
      exact ⟨[], h⟩
  | verifier k answer => exact ⟨[], h.store, h.now, h.events, h.execs⟩
  | verdict k slashing => exact h.verdict hlinked k slashing
  | load found => exact ⟨[], h.store, h.now, h.events, h.execs⟩
  | crash found =>
    refine ⟨[.crash], ?_, h.now, h.events, ?_⟩
    . simp [step, State.run, State.step, h.store]
    . exact List.rel_map (R := Agrees) (fun _ _ hagrees => hagrees.crash) h.execs

def init (rows : Map String StoredSignal) (max : Nat) (hmax : 0 < max) (isSetup : Bool)
    : LongjingService :=
  ⟨Server.init rows, .new (.new max hmax) isSetup⟩

theorem Linked.init (rows : Map String StoredSignal) (max : Nat) (hmax : 0 < max) (isSetup : Bool)
    : Linked cfg (init rows max hmax isSetup) :=
  ⟨.new _ rfl isSetup, fun v hv => by cases hv⟩

theorem step_max (s : LongjingService) (action : Action)
    : (s.step cfg action).verifier.limiter.max = s.verifier.limiter.max := by
  cases action with
  | server action =>
    by_cases hown : action.isOwn = true
    . simp only [step, hown, if_true]
      exact ProofVerifierService.run_max _
    . simp only [step, hown]
      rfl
  | verifier k answer => exact ProofVerifierService.step_max _
  | verdict k slashing =>
    rcases s.step_verdict cfg k slashing with hstep | ⟨_, _, _, _, _, _, _, _, hstep⟩
    . rw [hstep]
    . rw [hstep]
  | load found => exact ProofVerifierService.step_max _
  | crash found => rfl

theorem run_max (s : LongjingService) (actions : List Action)
    : (s.run cfg actions).verifier.limiter.max = s.verifier.limiter.max := by
  induction actions generalizing s with
  | nil => rfl
  | cons action actions ih => exact (ih _).trans (s.step_max action)

/-- The server that verifies proofs step by step, under a limit and with restarts, does to its store and to
the outside what the server alone does in some run; so a nullifier is still served at most once. -/
theorem run_refines (cfg : Config) (rows : Map String StoredSignal) (max : Nat) (hmax : 0 < max)
    (isSetup : Bool) (actions : List Action)
    : let s := (init rows max hmax isSetup).run cfg actions
      (∃ actions', Refines s ((Server.init rows).run cfg actions'))
      ∧ (∀ N, s.server.providerCalls N ≤ 1 ∧ s.server.signatures N ≤ 1)
      ∧ s.verifier.underWay ≤ max := by
  intro s
  obtain ⟨actions', hlinked, hrefines⟩ := (simulates cfg).run
    ⟨Linked.init rows max hmax isSetup, rfl, rfl, rfl, (.nil : List.Forall₂ Agrees [] [])⟩ actions
  refine ⟨⟨actions', hrefines⟩, fun N => ?_, ?_⟩
  . have honce : State.Once N ((Server.init rows).run cfg actions') := (State.Once.init N rows).run actions'
    have hbalance := honce.balance
    have hcalls := honce.once
    have hevents : s.server.events = ((Server.init rows).run cfg actions').events := hrefines.events
    simp only [State.providerCalls, State.signatures, hevents] at *
    omega
  . obtain ⟨start, before, hcounted, -, hrun⟩ := hlinked.verifier
    have hrun : s.verifier = start.run cfg before := hrun
    have hcapped : s.verifier.underWay ≤ s.verifier.limiter.max := by
      rw [hrun]
      exact (hcounted.run before).capped
    have hmax : s.verifier.limiter.max = max := run_max _ actions
    exact hmax ▸ hcapped

/-- A request up to its record, with its verification step by step. -/
def recordedActions (req : LongjingRequestDto) (cMax worstCaseCost : Nat) (known : Nat → Bool) (slashing : Bool)
    : List Action :=
  [.server (.arrive req), .server (.resume 0 (.matched (some cMax))),
    .server (.resume 0 (.cost (some worstCaseCost))), .verifier 0 (.roots (some known)), .verifier 0 (.key true),
    .verifier 0 .pairing, .verifier 0 .left, .verdict 0 slashing]

theorem run_recordedActions {req : LongjingRequestDto} {n : Int} {cMax worstCaseCost : Nat} {known : Nat → Bool}
    {proof : SnarkjsProof} {signals : List Int} (slashing : Bool) (hn : parseFieldElement req.nullifier = some n)
    (hbound : signalXMatchesRequest cfg req.signal.x req.payload req.nonce = true)
    (hle : worstCaseCost ≤ cMax) (hread : readProof req.proof = .ok (some proof))
    (hroot : knownRoot ⟨true, false, some known⟩ req.merkleRoot = some true)
    (hsignals : publicSignals cfg req cMax = some signals) (hvalid : cfg.groth16 proof signals = true)
    : ((init [] 1 one_pos true).run cfg (recordedActions req cMax worstCaseCost known slashing)).server
      = (Server.init []).run cfg [.arrive req, .resume 0 (.matched (some cMax)),
          .resume 0 (.cost (some worstCaseCost)), .resume 0 (.verified ⟨true, false, some known⟩ slashing)] := by
  have hallowed : ((Server.init []).store.checkRateLimit 0 (toString n)).2 = true :=
    Store.checkRateLimit_fresh 0 rfl
  have hstart : startRequest 0 (Server.init []).store req
      = ⟨((Server.init []).store.checkRateLimit 0 (toString n)).1, .matching (toString n), []⟩ := by
    unfold startRequest
    simp only [req.supported, Bool.not_true, Bool.false_eq_true, if_false, hn]
    generalize (Server.init []).store.checkRateLimit 0 (toString n) = limited at hallowed
    obtain ⟨limited, allowed⟩ := limited
    simp only at hallowed
    rw [hallowed]
  have hlt : ¬ cMax < worstCaseCost := Nat.not_lt_of_le hle
  have hverify : verify cfg req cMax ⟨true, false, some known⟩ = .ok true :=
    verify_eq_true_iff.mpr ⟨rfl, rfl, by simp [hroot], by simp [hroot], signals, hsignals, proof, hread, hvalid⟩
  have hnow : (Server.init []).now = 0 := rfl
  simp only [recordedActions, init, run, State.run, List.foldl_cons, List.foldl_nil, step, Action.isOwn,
    Server.Action.isOwn, if_true, State.step, hnow, hstart, call?, Option.toList, ProofVerifierService.run]
  have hexecs : (Server.init []).execs = [] := rfl
  simp only [hexecs, List.nil_append, List.getElem?_cons_zero, List.set_cons_zero, Server.resume, afterMatching,
    hbound, Bool.not_true, Bool.false_eq_true, if_false, afterPricing, hlt, List.foldl_cons, List.foldl_nil]
  have haccepted := ProofVerifierService.run_accepted hread hroot hsignals hvalid
  simp only [ProofVerifierService.run, List.foldl_cons, List.foldl_nil] at haccepted
  simp only [haccepted, List.getElem?_cons_zero, State.after, List.set_cons_zero, afterVerdict, afterVerifying, hverify]

/-- A request that is served with its verification step by step. -/
theorem run_refines_recorded
    : let s := (init [] 1 one_pos true).run exampleConfig (recordedActions exampleRequest 10 1 (fun _ => true) true)
      s.server.events = [.accepted exampleRequest, .provider exampleRequest]
        ∧ (∃ actions', Refines s ((Server.init []).run exampleConfig actions'))
        ∧ (∀ N, s.server.providerCalls N ≤ 1 ∧ s.server.signatures N ≤ 1)
        ∧ s.verifier.underWay ≤ 1 := by
  intro s
  obtain ⟨proof, hread⟩ := readProof_exampleProof
  have hserver : s.server = _ := run_recordedActions true example_nullifier_readers.1 (example_bound _)
    (by decide : 1 ≤ 10) hread (example_knownRoot rfl)
    (example_publicSignals exampleRequest _ rfl example_signalY_readers.2) (example_canonical proof)
  refine ⟨?_, run_refines exampleConfig [] 1 one_pos true _⟩
  rw [hserver]
  exact congrArg State.events exampleRecorded_run

end LongjingService

end Server
end Longjing
