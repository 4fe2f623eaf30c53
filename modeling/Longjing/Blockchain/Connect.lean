import Mathlib.Data.List.Basic
import Mathlib.Data.List.Count
import Mathlib.Tactic.Common

/-!
This module contains the production connection of `blockchain.service.ts`: the attempts of
`connectProd`, suspended at each `await`, against requests and `onConnected` registrations that may
arrive in any of these states.
-/

namespace Longjing
namespace Blockchain

def LOCAL_CHAIN_ID : Nat := 31337

/-- `assertChainMatchesProfile` in production, which never runs on a local node. -/
def chainMatchesProd (chainId : Nat) : Bool := chainId ≠ LOCAL_CHAIN_ID

/-- A Baby Jubjub public key, as `serverPublicKey()` and `getPublicKey()` return it. -/
structure PublicKey where
  x : Nat
  y : Nat
deriving DecidableEq, Repr

namespace Connect

/-- What `connectProd` awaits. There is one attempt at a time: only an attempt that ended sets the
timer that starts the next one. -/
inductive Pc where
  -- awaits `fetchChainId(rpcUrl)`
  | fetchingChainId
  -- awaits `contract.C_MAX()`, the contract is built
  | readingCMax
  -- awaits `contract.serverPublicKey()`
  | readingServerPublicKey
  -- awaits `refundSigner.getPublicKey()`
  | readingSigner (onchain : PublicKey)
  -- awaits `contract.serverAddress()`
  | readingServerAddress
  -- awaits a handler, `rest` is what the loop has left of the spliced `connectedHandlers`
  | handling (rest : List Nat)
  -- no attempt is running
  | idle
deriving DecidableEq, Repr

/-- A call of a registered handler, with the contract the service holds at the call. -/
structure Run where
  handler : Nat
  contract : Option Nat
deriving DecidableEq, Repr

/--
The service and its history. A contract is named by the attempt that built it, a handler by its
place among the registrations.
-/
structure State where
  provider : Option Nat
  contract : Option Nat
  cMax : Option Nat
  connectedHandlers : List Nat
  retry : Bool
  destroyed : Bool
  pc : Pc
  -- the number of the latest attempt
  attempt : Nat
  -- contracts whose `C_MAX` was read
  cMaxRead : List Nat
  -- contracts whose `serverPublicKey` was found equal to the refund signer
  keyChecked : List Nat
  -- contracts the service connected to
  connections : List Nat
  -- contracts given up by `disconnect`
  tornDown : List Nat
  -- for each registration, how many connections came before it
  registrations : List Nat
  ran : List Run
deriving DecidableEq, Repr

/-- `onModuleInit` in production: the first attempt. -/
def boot : State where
  provider := none
  contract := none
  cMax := none
  connectedHandlers := []
  retry := false
  destroyed := false
  pc := .fetchingChainId
  attempt := 0
  cMaxRead := []
  keyChecked := []
  connections := []
  tornDown := []
  registrations := []
  ran := []

/-- Answers to what is awaited (`none` is a rejection), and what may happen between them. -/
inductive Action where
  | chainId (answer : Option Nat)
  | cMax (answer : Option Nat)
  | serverPublicKey (answer : Option PublicKey)
  | signerKey (answer : Option PublicKey)
  | serverAddress (answer : Option Nat)
  | handlerSettled
  | retryTimer
  | destroy
  | request
  | register
deriving DecidableEq, Repr

namespace State

def isAvailable (s : State) : Bool := s.contract.isSome && s.provider.isSome

/-- `ContractReadyGuard.canActivate` in production. -/
def canActivate (s : State) : Except String Bool :=
  if !s.isAvailable then .error "LongjingCredits does not answer yet" else .ok true

def build (s : State) : State :=
  { s with provider := some s.attempt, contract := some s.attempt }

def disconnect (s : State) : State :=
  { s with provider := none, contract := none, cMax := none, tornDown := s.tornDown ++ s.contract.toList }

/-- The `catch` of `connectProd`: a misconfigured deployment is not retried (found at boot, it also
keeps the process from starting). -/
def fail (s : State) (misconfigured : Bool) : State :=
  let s := { s.disconnect with pc := .idle }
  if misconfigured then s else { s with retry := !s.destroyed }

/-- The head of the loop over the spliced handlers. -/
def next (s : State) (handlers : List Nat) : State :=
  match handlers with
  | [] => { s with pc := .idle }
  | handler :: rest => { s with pc := .handling rest, ran := s.ran ++ [⟨handler, s.contract⟩] }

def connect (s : State) : State :=
  { s with connections := s.connections ++ s.contract.toList, connectedHandlers := [] }.next
    s.connectedHandlers

def onConnected (s : State) : State :=
  let handler := s.registrations.length
  let s := { s with registrations := s.registrations ++ [s.connections.length] }
  if s.isAvailable then
    { s with ran := s.ran ++ [⟨handler, s.contract⟩] }
  else
    { s with connectedHandlers := s.connectedHandlers ++ [handler] }

def answerChainId (s : State) : Option Nat → State
  | none => s.fail false
  | some chainId =>
    if chainMatchesProd chainId then { s.build with pc := .readingCMax } else s.fail true

def answerCMax (s : State) : Option Nat → State
  | none => s.fail false
  | some cMax =>
    { s with cMax := some cMax, cMaxRead := s.cMaxRead ++ [s.attempt], pc := .readingServerPublicKey }

def answerSigner (s : State) (onchain : PublicKey) : Option PublicKey → State
  | none => s.fail false
  | some signer =>
    if onchain.x ≠ signer.x ∨ onchain.y ≠ signer.y then
      s.fail true
    else
      { s with keyChecked := s.keyChecked ++ [s.attempt], pc := .readingServerAddress }

/-- An answer to something that is not awaited changes nothing. -/
def step (s : State) (a : Action) : State :=
  match s.pc, a with
  | .fetchingChainId, .chainId answer => s.answerChainId answer
  | .readingCMax, .cMax answer => s.answerCMax answer
  | .readingServerPublicKey, .serverPublicKey none => s.fail false
  | .readingServerPublicKey, .serverPublicKey (some onchain) => { s with pc := .readingSigner onchain }
  | .readingSigner onchain, .signerKey answer => s.answerSigner onchain answer
  | .readingServerAddress, .serverAddress none => s.fail false
  -- a `serverAddress` that is not the signer is only logged
  | .readingServerAddress, .serverAddress (some _) => s.connect
  | .handling rest, .handlerSettled => s.next rest
  | .idle, .retryTimer =>
    if s.retry then
      { s with retry := false, attempt := s.attempt + 1, pc := .fetchingChainId }
    else
      s
  | _, .destroy => { s with destroyed := true, retry := false }
  | _, .register => s.onConnected
  | _, _ => s

def run (s : State) (actions : List Action) : State :=
  actions.foldl step s

/-- The held contract is one whose `C_MAX` was read and whose key was found to be the signer's. -/
def Verified (s : State) : Prop :=
  ∃ n, s.contract = some n ∧ s.cMax.isSome ∧ n ∈ s.cMaxRead ∧ n ∈ s.keyChecked

/-- What the loop over the handlers has still to run. -/
def due (s : State) : List Nat :=
  match s.pc with
  | .handling rest => rest
  | _ => []

/--
Every handler is run (or next in the loop) once for each connection after its registration, and once
when it was registered with the contract connected. None ran against a contract that is given up.
-/
structure HandlersRunOnce (s : State) : Prop where
  count : ∀ handler before, s.registrations[handler]? = some before →
    (s.ran.map Run.handler ++ s.due).count handler
      = (s.connections.length - before) + if 0 < before then 1 else 0
  kept : ∀ r ∈ s.ran, ∀ n, r.contract = some n → n ∉ s.tornDown

/-- An arrival that `isAvailable` lets through finds a verified contract. -/
def Admits (s : State) : Action → Prop
  | .request => s.canActivate = .ok true → s.Verified
  | .register => s.isAvailable → s.Verified
  | _ => True

/-- At every step of the run arrivals find a verified contract and handlers are run once. -/
def AdmitsRun (s : State) : List Action → Prop
  | [] => True
  | a :: actions => s.Admits a ∧ (s.step a).HandlersRunOnce ∧ (s.step a).AdmitsRun actions

/-- Whoever asks now whether the service is available gets a yes only for a verified contract. -/
structure Ready (s : State) : Prop where
  available : s.isAvailable = true → s.Verified
  handlers : s.HandlersRunOnce

/-- The service is ready in every state of the run, whether or not anything arrives there. -/
def ReadyRun (s : State) : List Action → Prop
  | [] => s.Ready
  | a :: actions => s.Ready ∧ (s.step a).ReadyRun actions

/--
No request arrives between `build` and the key check, and no registration between `build` and the
end of `checkServerKeys`.
-/
def Calm (s : State) : Action → Prop
  | .request =>
    match s.pc with
    | .readingCMax | .readingServerPublicKey | .readingSigner _ => False
    | _ => True
  | .register =>
    match s.pc with
    | .readingCMax | .readingServerPublicKey | .readingSigner _ | .readingServerAddress => False
    | _ => True
  | _ => True

def CalmRun (s : State) : List Action → Prop
  | [] => True
  | a :: actions => s.Calm a ∧ (s.step a).CalmRun actions

/-- No attempt gets to `build`: its chain id never comes, or is one that production refuses. -/
def Unbuilt (s : State) : Action → Prop
  | .chainId (some chainId) => s.pc = .fetchingChainId → chainMatchesProd chainId = false
  | _ => True

def UnbuiltRun (s : State) : List Action → Prop
  | [] => True
  | a :: actions => s.Unbuilt a ∧ (s.step a).UnbuiltRun actions

/-- The service is connected to the contract of its latest attempt. -/
structure Connected (s : State) : Prop where
  connections : s.connections = [s.attempt]
  contract : s.contract = some s.attempt
  cMax : s.cMax.isSome
  cMaxRead : s.attempt ∈ s.cMaxRead
  keyChecked : s.attempt ∈ s.keyChecked

theorem Connected.verified {s : State} (h : s.Connected) : s.Verified :=
  ⟨s.attempt, h.contract, h.cMax, h.cMaxRead, h.keyChecked⟩

/-- What the fields hold while the attempt is suspended at a given `await`. -/
def Phase (s : State) : Prop :=
  match s.pc with
  | .fetchingChainId => s.contract = none ∧ s.connections = []
      ∧ s.attempt ∉ s.cMaxRead ∧ s.attempt ∉ s.keyChecked ∧ s.attempt ∉ s.tornDown
  | .readingCMax => s.contract = some s.attempt ∧ s.connections = []
      ∧ s.attempt ∉ s.cMaxRead ∧ s.attempt ∉ s.keyChecked
  | .readingServerPublicKey | .readingSigner _ => s.contract = some s.attempt ∧ s.connections = []
      ∧ s.cMax.isSome ∧ s.attempt ∈ s.cMaxRead ∧ s.attempt ∉ s.keyChecked
  | .readingServerAddress => s.contract = some s.attempt ∧ s.connections = []
      ∧ s.cMax.isSome ∧ s.attempt ∈ s.cMaxRead ∧ s.attempt ∈ s.keyChecked
  | .handling _ => s.Connected
  | .idle => s.Connected ∨ s.contract = none ∧ s.connections = []

structure Links (s : State) : Prop where
  provider : s.provider = s.contract
  phase : s.Phase
  bound : ∀ n ∈ s.cMaxRead ++ s.keyChecked ++ s.tornDown, n ≤ s.attempt
  held : ∀ n, s.contract = some n → n ∉ s.tornDown
  timer : s.retry = true → s.pc = .idle ∧ s.connections = []

/-- Where the registered handlers are: waiting for a connection, or run exactly once. -/
structure Handlers (s : State) : Prop where
  waiting : s.connections = [] → s.ran = [] ∧ s.due = [] ∧ (∀ b ∈ s.registrations, b = 0)
    ∧ ∀ h, s.connectedHandlers.count h = if h < s.registrations.length then 1 else 0
  served : s.connections ≠ [] → s.connections.length = 1 ∧ s.connectedHandlers = []
    ∧ (∀ b ∈ s.registrations, b ≤ 1) ∧ (∀ r ∈ s.ran, r.contract = s.contract)
    ∧ ∀ h, (s.ran.map Run.handler ++ s.due).count h = if h < s.registrations.length then 1 else 0

theorem isAvailable_iff {s : State} (h : s.Links) : s.isAvailable = true ↔ s.contract.isSome := by
  simp [isAvailable, h.provider]

theorem canActivate_iff {s : State} : s.canActivate = .ok true ↔ s.isAvailable = true := by
  unfold canActivate
  cases s.isAvailable <;> simp

theorem Handlers.runOnce {s : State} (h : s.Handlers) (hlinks : s.Links) : s.HandlersRunOnce := by
  rcases List.eq_nil_or_concat s.connections with hnil | ⟨ns, n, hcons⟩
  . obtain ⟨hran, hdue, hzero, -⟩ := h.waiting hnil
    constructor
    . intro handler before hreg
      have := hzero before (List.mem_of_getElem? hreg)
      simp [hran, hdue, hnil, this]
    . simp [hran]
  . have hne : s.connections ≠ [] := by simp [hcons]
    obtain ⟨hone, -, hle, hcontract, hcount⟩ := h.served hne
    constructor
    . intro handler before hreg
      have hlt := (List.getElem?_eq_some_iff.mp hreg).1
      have := hle before (List.mem_of_getElem? hreg)
      rw [hcount, if_pos hlt, hone]
      split <;> omega
    . intro r hr n hn
      exact hlinks.held n ((hcontract r hr).symm.trans hn)

theorem Links.fail {s : State} (h : s.Links) (hnone : s.connections = [])
    (hcontract : ∀ n, s.contract = some n → n = s.attempt) (misconfigured : Bool)
    : (s.fail misconfigured).Links := by
  have hbound : ∀ n ∈ s.cMaxRead ++ s.keyChecked ++ (s.tornDown ++ s.contract.toList), n ≤ s.attempt := by
    intro n hn
    rw [← List.append_assoc, List.mem_append] at hn
    rcases hn with hn | hn
    . exact h.bound n hn
    . exact Nat.le_of_eq (hcontract n (by simpa using hn))
  unfold State.fail
  split
  . exact ⟨rfl, Or.inr ⟨rfl, hnone⟩, hbound, by simp [disconnect], by
      intro hretry
      exact ⟨rfl, hnone⟩⟩
  . exact ⟨rfl, Or.inr ⟨rfl, hnone⟩, hbound, by simp [disconnect], fun _ => ⟨rfl, hnone⟩⟩

theorem Handlers.fail {s : State} (h : s.Handlers) (hnone : s.connections = [])
    (misconfigured : Bool) : (s.fail misconfigured).Handlers := by
  obtain ⟨hran, -, hzero, hcount⟩ := h.waiting hnone
  unfold State.fail
  split
  . exact ⟨fun _ => ⟨hran, rfl, hzero, hcount⟩, fun hne => absurd hnone hne⟩
  . exact ⟨fun _ => ⟨hran, rfl, hzero, hcount⟩, fun hne => absurd hnone hne⟩

/-- While nothing is connected, a step that leaves the registrations alone keeps the handlers. -/
theorem Handlers.suspend {s s' : State} (h : s.Handlers) (hnone : s.connections = [])
    (hconn : s'.connections = s.connections) (hran : s'.ran = s.ran) (hdue : s'.due = [])
    (hreg : s'.registrations = s.registrations)
    (hhandlers : s'.connectedHandlers = s.connectedHandlers) : s'.Handlers := by
  obtain ⟨hran', -, hzero, hcount⟩ := h.waiting hnone
  refine ⟨fun _ => ⟨hran.trans hran', hdue, ?_, ?_⟩, fun hne => absurd (hconn.trans hnone) hne⟩
  . rw [hreg]
    exact hzero
  . rw [hreg, hhandlers]
    exact hcount

theorem due_next (s : State) (handlers : List Nat)
    : (s.next handlers).ran.map Run.handler ++ (s.next handlers).due
      = s.ran.map Run.handler ++ handlers := by
  cases handlers <;> simp [next, due]

theorem Links.next {s : State} (h : s.Links) (hconn : s.Connected) (handlers : List Nat)
    : (s.next handlers).Links := by
  have htimer : s.retry = false := by
    by_contra hretry
    simp only [Bool.not_eq_false] at hretry
    have := (h.timer hretry).2
    rw [hconn.connections] at this
    simp at this
  cases handlers with
  | nil =>
    exact ⟨h.provider, Or.inl ⟨hconn.1, hconn.2, hconn.3, hconn.4, hconn.5⟩, h.bound, h.held, by
      simp [State.next, htimer]⟩
  | cons handler rest =>
    exact ⟨h.provider, ⟨hconn.1, hconn.2, hconn.3, hconn.4, hconn.5⟩, h.bound, h.held, by
      simp [State.next, htimer]⟩

theorem Handlers.next {s : State} {handlers : List Nat} (hone : s.connections.length = 1)
    (hwait : s.connectedHandlers = []) (hle : ∀ b ∈ s.registrations, b ≤ 1)
    (hcontract : ∀ r ∈ s.ran, r.contract = s.contract)
    (hcount : ∀ h, (s.ran.map Run.handler ++ handlers).count h
      = if h < s.registrations.length then 1 else 0)
    : (s.next handlers).Handlers := by
  have hne : s.connections ≠ [] := by
    intro hnil
    simp [hnil] at hone
  have hcount' : ∀ h, ((s.next handlers).ran.map Run.handler ++ (s.next handlers).due).count h
      = if h < s.registrations.length then 1 else 0 := by
    intro h
    rw [due_next, hcount]
  cases handlers with
  | nil => exact ⟨fun hnil => absurd hnil hne, fun _ => ⟨hone, hwait, hle, hcontract, hcount'⟩⟩
  | cons handler rest =>
    refine ⟨fun hnil => absurd hnil hne, fun _ => ⟨hone, hwait, hle, ?_, hcount'⟩⟩
    intro r hr
    simp only [State.next, List.mem_append, List.mem_singleton] at hr ⊢
    rcases hr with hr | rfl
    . exact hcontract r hr
    . rfl

theorem count_snoc {handlers : List Nat} {k : Nat}
    (h : ∀ i, handlers.count i = if i < k then 1 else 0) (i : Nat)
    : handlers.count i + [k].count i = if i < k + 1 then 1 else 0 := by
  rw [h i, List.count_singleton]
  rcases Nat.lt_trichotomy i k with hlt | rfl | hgt
  . simp [hlt, Nat.lt_succ_of_lt hlt, Nat.ne_of_gt hlt]
  . simp
  . simp [Nat.not_lt_of_gt hgt, Nat.ne_of_lt hgt]
    omega

theorem Links.arrival {s : State} (h : s.Links) (registrations connectedHandlers : List Nat)
    (ran : List Run) : { s with registrations, connectedHandlers, ran }.Links := by
  refine ⟨h.provider, ?_, h.bound, h.held, h.timer⟩
  have hphase := h.phase
  cases hpc : s.pc with
  | idle =>
    simp only [Phase, hpc] at hphase ⊢
    refine hphase.imp (fun hconn => ?_) id
    exact ⟨hconn.1, hconn.2, hconn.3, hconn.4, hconn.5⟩
  | handling rest =>
    simp only [Phase, hpc] at hphase ⊢
    exact ⟨hphase.1, hphase.2, hphase.3, hphase.4, hphase.5⟩
  | _ =>
    simp only [Phase, hpc] at hphase ⊢
    exact hphase

theorem onConnected_of_available {s : State} (h : s.isAvailable = true)
    : s.onConnected =
      { s with
        registrations := s.registrations ++ [s.connections.length]
        ran := s.ran ++ [⟨s.registrations.length, s.contract⟩] } := by
  unfold State.onConnected
  exact if_pos h

theorem onConnected_of_not_available {s : State} (h : ¬ s.isAvailable = true)
    : s.onConnected =
      { s with
        registrations := s.registrations ++ [s.connections.length]
        connectedHandlers := s.connectedHandlers ++ [s.registrations.length] } := by
  unfold State.onConnected
  exact if_neg h

theorem Links.onConnected {s : State} (h : s.Links) : s.onConnected.Links := by
  by_cases havail : s.isAvailable = true
  . rw [onConnected_of_available havail]
    exact h.arrival _ _ _
  . rw [onConnected_of_not_available havail]
    exact h.arrival _ _ _

/-- Outside the window of the checks, the contract is held exactly when it is connected. -/
theorem connected_or_none {s : State} (h : s.Links) (hcalm : s.Calm .register)
    : s.Connected ∨ s.contract = none ∧ s.connections = [] := by
  have hphase := h.phase
  unfold Phase at hphase
  unfold Calm at hcalm
  split at hphase
  next => exact Or.inr ⟨hphase.1, hphase.2.1⟩
  next hpc => simp [hpc] at hcalm
  next hpc => simp [hpc] at hcalm
  next hpc => simp [hpc] at hcalm
  next hpc => simp [hpc] at hcalm
  next => exact Or.inl hphase
  next => exact hphase

theorem Handlers.onConnected {s : State} (h : s.Handlers) (hlinks : s.Links)
    (hcalm : s.Calm .register) : s.onConnected.Handlers := by
  have hlength (b : Nat) : (s.registrations ++ [b]).length = s.registrations.length + 1 := by simp
  rcases connected_or_none hlinks hcalm with hconn | ⟨hnone, hnil⟩
  . -- connected: the handler runs at once
    have hne : s.connections ≠ [] := by simp [hconn.connections]
    obtain ⟨hone, hwait, hle, hcontract, hcount⟩ := h.served hne
    have havail : s.isAvailable = true := by
      rw [isAvailable_iff hlinks]
      simp [hconn.contract]
    rw [onConnected_of_available havail]
    refine ⟨fun hnil => absurd hnil hne, fun _ => ⟨hone, hwait, ?_, ?_, ?_⟩⟩
    . intro b hb
      rcases List.mem_append.mp hb with hb | hb
      . exact hle b hb
      . simp only [List.mem_singleton] at hb
        omega
    . intro r hr
      rcases List.mem_append.mp hr with hr | hr
      . exact hcontract r hr
      . simp only [List.mem_singleton] at hr
        rw [hr]
    . intro i
      have hsnoc := count_snoc hcount i
      have hdue : ∀ registrations' ran', State.due { s with registrations := registrations', ran := ran' } = s.due := by
        intros
        rfl
      simp only [hdue, hlength, List.map_append, List.map_cons, List.map_nil, List.count_append] at hsnoc ⊢
      omega
  . -- not connected: the handler waits
    obtain ⟨hran, hdue, hzero, hcount⟩ := h.waiting hnil
    have havail : ¬ s.isAvailable = true := by
      rw [isAvailable_iff hlinks]
      simp [hnone]
    rw [onConnected_of_not_available havail]
    refine ⟨fun _ => ⟨hran, hdue, ?_, ?_⟩, fun hne => absurd hnil hne⟩
    . intro b hb
      rcases List.mem_append.mp hb with hb | hb
      . exact hzero b hb
      . simp only [List.mem_singleton, hnil, List.length_nil] at hb
        exact hb
    . intro i
      have hsnoc := count_snoc hcount i
      simp only [hlength, List.count_append]
      exact hsnoc

theorem Links.build {s : State} (h : s.Links) (hpc : s.pc = .fetchingChainId)
    : { s.build with pc := .readingCMax }.Links := by
  have hphase := h.phase
  simp only [Phase, hpc] at hphase
  obtain ⟨-, hnil, hread, hkey, htorn⟩ := hphase
  have htimer : s.retry = false := by
    by_contra hretry
    simp only [Bool.not_eq_false] at hretry
    have := (h.timer hretry).1
    simp [hpc] at this
  exact ⟨rfl, ⟨rfl, hnil, hread, hkey⟩, h.bound, by simpa [State.build] using htorn, by
    simp [State.build, htimer]⟩

structure Inv (s : State) : Prop where
  links : s.Links
  handlers : s.Handlers

theorem Inv.boot : Connect.boot.Inv where
  links := ⟨rfl, by simp [Phase, Connect.boot], by simp [Connect.boot], by simp [Connect.boot], by
    simp [Connect.boot]⟩
  handlers := ⟨by simp [Connect.boot, due], by simp [Connect.boot]⟩

theorem retry_eq_false {s : State} (h : s.Links) (hpc : s.pc ≠ .idle) : s.retry = false := by
  by_contra hretry
  simp only [Bool.not_eq_false] at hretry
  exact hpc (h.timer hretry).1

theorem Inv.fail {s : State} (h : s.Inv) (hnone : s.connections = [])
    (hcontract : ∀ n, s.contract = some n → n = s.attempt) (misconfigured : Bool)
    : (s.fail misconfigured).Inv :=
  ⟨h.links.fail hnone hcontract misconfigured, h.handlers.fail hnone misconfigured⟩

theorem Inv.answerChainId {s : State} (h : s.Inv) (hpc : s.pc = .fetchingChainId)
    (answer : Option Nat) : (s.answerChainId answer).Inv := by
  have hphase := h.links.phase
  simp only [Phase, hpc] at hphase
  obtain ⟨hcontract, hnone, -⟩ := hphase
  have hfail := h.fail hnone (by simp [hcontract])
  unfold State.answerChainId
  split
  next => exact hfail false
  next =>
    split
    . exact ⟨h.links.build hpc, h.handlers.suspend hnone rfl rfl rfl rfl rfl⟩
    . exact hfail true

theorem Inv.answerCMax {s : State} (h : s.Inv) (hpc : s.pc = .readingCMax) (answer : Option Nat)
    : (s.answerCMax answer).Inv := by
  have hphase := h.links.phase
  simp only [Phase, hpc] at hphase
  obtain ⟨hcontract, hnone, hread, hkey⟩ := hphase
  have htimer := retry_eq_false h.links (by simp [hpc])
  unfold State.answerCMax
  split
  next => exact h.fail hnone (by simp [hcontract]) false
  next cMax =>
    refine ⟨⟨h.links.provider, ?_, ?_, h.links.held, by simp [htimer]⟩,
      h.handlers.suspend hnone rfl rfl rfl rfl rfl⟩
    . exact ⟨hcontract, hnone, rfl, by simp, hkey⟩
    . intro n hn
      have hbound := h.links.bound n
      simp only [List.mem_append, List.mem_singleton] at hn hbound
      rcases hn with ((hn | rfl) | hn) | hn
      . exact hbound (Or.inl (Or.inl hn))
      . exact Nat.le_refl _
      . exact hbound (Or.inl (Or.inr hn))
      . exact hbound (Or.inr hn)

theorem Inv.answerSigner {s : State} (h : s.Inv) {onchain : PublicKey}
    (hpc : s.pc = .readingSigner onchain) (answer : Option PublicKey)
    : (s.answerSigner onchain answer).Inv := by
  have hphase := h.links.phase
  simp only [Phase, hpc] at hphase
  obtain ⟨hcontract, hnone, hcMax, hread, hkey⟩ := hphase
  have htimer := retry_eq_false h.links (by simp [hpc])
  have hfail := h.fail hnone (by simp [hcontract])
  unfold State.answerSigner
  split
  next => exact hfail false
  next signer =>
    split
    . exact hfail true
    . refine ⟨⟨h.links.provider, ?_, ?_, h.links.held, by simp [htimer]⟩,
        h.handlers.suspend hnone rfl rfl rfl rfl rfl⟩
      . exact ⟨hcontract, hnone, hcMax, hread, by simp⟩
      . intro n hn
        have hbound := h.links.bound n
        simp only [List.mem_append, List.mem_singleton] at hn hbound
        rcases hn with (hn | (hn | rfl)) | hn
        . exact hbound (Or.inl (Or.inl hn))
        . exact hbound (Or.inl (Or.inr hn))
        . exact Nat.le_refl _
        . exact hbound (Or.inr hn)

theorem Inv.connect {s : State} (h : s.Inv) (hpc : s.pc = .readingServerAddress)
    : s.connect.Inv := by
  have hphase := h.links.phase
  simp only [Phase, hpc] at hphase
  obtain ⟨hcontract, hnone, hcMax, hread, hkey⟩ := hphase
  have htimer := retry_eq_false h.links (by simp [hpc])
  obtain ⟨hran, -, hzero, hcount⟩ := h.handlers.waiting hnone
  have hconn : s.connections ++ s.contract.toList = [s.attempt] := by simp [hnone, hcontract]
  unfold State.connect
  rw [hconn]
  constructor
  . -- the fields of the state before the loop, still at its last `await`
    have hlinks : { s with connections := [s.attempt], connectedHandlers := [], pc := .handling [] }.Links :=
      ⟨h.links.provider, ⟨rfl, hcontract, hcMax, hread, hkey⟩, h.links.bound, h.links.held, by
        simp [htimer]⟩
    have hnext := hlinks.next ⟨rfl, hcontract, hcMax, hread, hkey⟩ s.connectedHandlers
    generalize s.connectedHandlers = handlers at hnext ⊢
    cases handlers <;> exact hnext
  . exact Handlers.next rfl rfl (fun b hb => by simp [hzero b hb]) (by simp [hran]) (by simpa [hran] using hcount)

theorem Inv.next {s : State} (h : s.Inv) {rest : List Nat} (hpc : s.pc = .handling rest)
    : (s.next rest).Inv := by
  have hphase := h.links.phase
  simp only [Phase, hpc] at hphase
  obtain ⟨hone, hwait, hle, hcontract, hcount⟩ := h.handlers.served (by simp [hphase.connections])
  refine ⟨h.links.next hphase rest, Handlers.next hone hwait hle hcontract ?_⟩
  simpa [due, hpc] using hcount

theorem Inv.retryTimer {s : State} (h : s.Inv) (hpc : s.pc = .idle) (hretry : s.retry = true)
    : { s with retry := false, attempt := s.attempt + 1, pc := .fetchingChainId }.Inv := by
  obtain ⟨-, hnone⟩ := h.links.timer hretry
  have hphase := h.links.phase
  simp only [Phase, hpc] at hphase
  have hcontract : s.contract = none := by
    rcases hphase with hconn | hidle
    . simp [hconn.connections] at hnone
    . exact hidle.1
  have hfresh {l : List Nat} (hl : ∀ n ∈ l, n ≤ s.attempt) : s.attempt + 1 ∉ l := by
    intro hmem
    have := hl _ hmem
    omega
  have hbound := h.links.bound
  simp only [List.mem_append] at hbound
  refine ⟨⟨h.links.provider, ?_, ?_, h.links.held, by simp⟩,
    h.handlers.suspend hnone rfl rfl rfl rfl rfl⟩
  . exact ⟨hcontract, hnone, hfresh fun n hn => hbound n (Or.inl (Or.inl hn)),
      hfresh fun n hn => hbound n (Or.inl (Or.inr hn)), hfresh fun n hn => hbound n (Or.inr hn)⟩
  . intro n hn
    have := h.links.bound n hn
    exact Nat.le_succ_of_le this

theorem Inv.destroy {s : State} (h : s.Inv) : { s with destroyed := true, retry := false }.Inv := by
  refine ⟨⟨h.links.provider, ?_, h.links.bound, h.links.held, by simp⟩, ?_⟩
  . have hphase := h.links.phase
    cases hpc : s.pc with
    | idle =>
      simp only [Phase, hpc] at hphase ⊢
      refine hphase.imp (fun hconn => ?_) id
      exact ⟨hconn.1, hconn.2, hconn.3, hconn.4, hconn.5⟩
    | handling rest =>
      simp only [Phase, hpc] at hphase ⊢
      exact ⟨hphase.1, hphase.2, hphase.3, hphase.4, hphase.5⟩
    | _ =>
      simp only [Phase, hpc] at hphase ⊢
      exact hphase
  . exact ⟨h.handlers.waiting, h.handlers.served⟩

theorem Inv.step {s : State} (h : s.Inv) {a : Action} (hcalm : s.Calm a) : (s.step a).Inv := by
  have hphase := h.links.phase
  unfold State.step
  split
  next hpc => exact h.answerChainId hpc _
  next hpc => exact h.answerCMax hpc _
  next hpc =>
    simp only [Phase, hpc] at hphase
    exact h.fail hphase.2.1 (by simp [hphase.1]) false
  next hpc =>
    simp only [Phase, hpc] at hphase
    have htimer := retry_eq_false h.links (by simp [hpc])
    exact ⟨⟨h.links.provider, hphase, h.links.bound, h.links.held, by simp [htimer]⟩,
      h.handlers.suspend hphase.2.1 rfl rfl rfl rfl rfl⟩
  next hpc => exact h.answerSigner hpc _
  next hpc =>
    simp only [Phase, hpc] at hphase
    exact h.fail hphase.2.1 (by simp [hphase.1]) false
  next hpc => exact h.connect hpc
  next hpc => exact h.next hpc
  next hpc =>
    split
    next hretry => exact h.retryTimer hpc hretry
    next => exact h
  next => exact h.destroy
  next => exact ⟨h.links.onConnected, h.handlers.onConnected h.links hcalm⟩
  next => exact h

theorem Inv.admits {s : State} (h : s.Inv) {a : Action} (hcalm : s.Calm a) : s.Admits a := by
  have hphase := h.links.phase
  cases a with
  | request =>
    intro hactive
    rw [canActivate_iff, isAvailable_iff h.links] at hactive
    unfold Phase at hphase
    unfold Calm at hcalm
    split at hphase
    next => simp [hphase.1] at hactive
    next hpc => simp [hpc] at hcalm
    next hpc => simp [hpc] at hcalm
    next hpc => simp [hpc] at hcalm
    next => exact ⟨s.attempt, hphase.1, hphase.2.2.1, hphase.2.2.2.1, hphase.2.2.2.2⟩
    next => exact Connected.verified hphase
    next =>
      rcases hphase with hconn | hidle
      . exact hconn.verified
      . simp [hidle.1] at hactive
  | register =>
    intro havail
    rw [isAvailable_iff h.links] at havail
    rcases connected_or_none h.links hcalm with hconn | hidle
    . exact hconn.verified
    . simp [hidle.1] at havail
  | _ => trivial

/-- In the window of the checks the contract is held, and its key is not yet known to be right. -/
theorem Inv.not_verified {s : State} (h : s.Inv) (hcalm : ¬ s.Calm .request)
    : s.isAvailable = true ∧ ¬ s.Verified := by
  have hphase := h.links.phase
  have hunchecked (hcontract : s.contract = some s.attempt) (hkey : s.attempt ∉ s.keyChecked)
      : s.isAvailable = true ∧ ¬ s.Verified := by
    refine ⟨by rw [isAvailable_iff h.links]; simp [hcontract], ?_⟩
    rintro ⟨n, hn, -, -, hchecked⟩
    rw [hcontract, Option.some.injEq] at hn
    exact hkey (hn ▸ hchecked)
  unfold Phase at hphase
  unfold Calm at hcalm
  split at hphase
  next hpc => simp [hpc] at hcalm
  next => exact hunchecked hphase.1 hphase.2.2.2
  next => exact hunchecked hphase.1 hphase.2.2.2.2
  next => exact hunchecked hphase.1 hphase.2.2.2.2
  next hpc => simp [hpc] at hcalm
  next hpc => simp [hpc] at hcalm
  next hpc => simp [hpc] at hcalm

/-- A registration that arrives before the last check has its handler run with no connection. -/
theorem Inv.not_runOnce {s : State} (h : s.Inv) (hpc : s.pc = .readingServerAddress)
    : ¬ (s.step .register).HandlersRunOnce := by
  have hphase := h.links.phase
  simp only [Phase, hpc] at hphase
  obtain ⟨hcontract, hnone, -⟩ := hphase
  obtain ⟨hran, hdue, -⟩ := h.handlers.waiting hnone
  have havail : s.isAvailable = true := by
    rw [isAvailable_iff h.links]
    simp [hcontract]
  have hstep : s.step .register = s.onConnected := by simp [State.step, hpc]
  rw [hstep, onConnected_of_available havail]
  intro hright
  have := hright.count s.registrations.length 0 (by simp [hnone])
  simp [hran, hnone] at this

theorem calm_of_ready {s : State} (h : s.Inv) {a : Action} (hadmits : s.Admits a)
    (hright : (s.step a).HandlersRunOnce) : s.Calm a := by
  by_contra hcalm
  cases a with
  | request =>
    obtain ⟨havail, hnot⟩ := h.not_verified hcalm
    exact hnot (hadmits (canActivate_iff.mpr havail))
  | register =>
    by_cases hpc : s.pc = .readingServerAddress
    . exact h.not_runOnce hpc hright
    . have hrequest : ¬ s.Calm .request := by
        intro hrequest
        apply hcalm
        unfold Calm at hrequest ⊢
        cases hs : s.pc <;> simp_all
      obtain ⟨havail, hnot⟩ := h.not_verified hrequest
      exact hnot (hadmits havail)
  | _ => exact hcalm trivial

theorem admitsRun_iff {s : State} (h : s.Inv) (actions : List Action)
    : s.AdmitsRun actions ↔ s.CalmRun actions := by
  induction actions generalizing s with
  | nil => simp [AdmitsRun, CalmRun]
  | cons a actions ih =>
    unfold AdmitsRun CalmRun
    constructor
    . rintro ⟨hadmits, hright, hready⟩
      have hcalm := calm_of_ready h hadmits hright
      exact ⟨hcalm, (ih (h.step hcalm)).mp hready⟩
    . rintro ⟨hcalm, hrest⟩
      have hstep := h.step hcalm
      exact ⟨h.admits hcalm, hstep.handlers.runOnce hstep.links, (ih hstep).mpr hrest⟩

/-- No attempt has come to `build` yet, or the last one that did has given its contract up. -/
structure Fresh (s : State) : Prop where
  inv : s.Inv
  contract : s.contract = none
  pc : s.pc = .fetchingChainId ∨ s.pc = .idle

theorem Fresh.boot : Connect.boot.Fresh := ⟨.boot, rfl, .inl rfl⟩

theorem Fresh.ready {s : State} (h : s.Fresh) : s.Ready where
  available havail := by
    rw [isAvailable_iff h.inv.links, h.contract] at havail
    cases havail
  handlers := h.inv.handlers.runOnce h.inv.links

theorem Fresh.calm {s : State} (h : s.Fresh) (a : Action) : s.Calm a := by
  unfold Calm
  rcases h.pc with hpc | hpc <;> split <;> simp [hpc]

theorem Fresh.step {s : State} (h : s.Fresh) {a : Action} (hunbuilt : s.Unbuilt a) : (s.step a).Fresh := by
  suffices hnone : (s.step a).contract = none ∧ ((s.step a).pc = .fetchingChainId ∨ (s.step a).pc = .idle) from
    ⟨h.inv.step (h.calm a), hnone.1, hnone.2⟩
  have hregister : s.onConnected.contract = none ∧ s.onConnected.pc = s.pc := by
    unfold State.onConnected
    dsimp only
    split <;> exact ⟨h.contract, rfl⟩
  have hfail (misconfigured : Bool) : (s.fail misconfigured).contract = none ∧ (s.fail misconfigured).pc = .idle := by
    cases misconfigured <;> exact ⟨rfl, rfl⟩
  rcases h.pc with hpc | hpc
  . cases a with
    | chainId answer =>
      have hstep : s.step (.chainId answer) = s.answerChainId answer := by simp [State.step, hpc]
      rw [hstep]
      cases answer with
      | none => exact ⟨(hfail false).1, .inr (hfail false).2⟩
      | some chainId =>
        simp only [State.answerChainId, hunbuilt hpc, Bool.false_eq_true, if_false]
        exact ⟨(hfail true).1, .inr (hfail true).2⟩
    | register =>
      have hstep : s.step .register = s.onConnected := by simp [State.step, hpc]
      rw [hstep, hregister.2]
      exact ⟨hregister.1, .inl hpc⟩
    | _ => simp [State.step, hpc, h.contract]
  . cases a with
    | retryTimer =>
      simp only [State.step, hpc]
      split
      . exact ⟨h.contract, .inl rfl⟩
      . exact ⟨h.contract, .inr hpc⟩
    | register =>
      have hstep : s.step .register = s.onConnected := by simp [State.step, hpc]
      rw [hstep, hregister.2]
      exact ⟨hregister.1, .inr hpc⟩
    | _ => simp [State.step, hpc, h.contract]

/-- From `build` on the service says that it is available, with nothing read from the contract. -/
theorem Fresh.not_ready {s : State} (h : s.Fresh) {a : Action} (hbuilt : ¬ s.Unbuilt a) : ¬ (s.step a).Ready := by
  unfold Unbuilt at hbuilt
  split at hbuilt
  next chainId =>
    simp only [Classical.not_imp, Bool.not_eq_false] at hbuilt
    obtain ⟨hpc, hchain⟩ := hbuilt
    have hinv := h.inv.step (h.calm (.chainId (some chainId)))
    have hpc' : (s.step (.chainId (some chainId))).pc = .readingCMax := by
      simp [State.step, hpc, State.answerChainId, hchain]
    obtain ⟨havail, hnot⟩ := hinv.not_verified (by simp [Calm, hpc'])
    exact fun hready => hnot (hready.available havail)
  next => exact absurd trivial hbuilt

theorem ReadyRun.head {s : State} {actions : List Action} (h : s.ReadyRun actions) : s.Ready := by
  cases actions with
  | nil => exact h
  | cons a actions => exact h.1

theorem readyRun_iff {s : State} (h : s.Fresh) (actions : List Action)
    : s.ReadyRun actions ↔ s.UnbuiltRun actions := by
  induction actions generalizing s with
  | nil => exact iff_of_true h.ready trivial
  | cons a actions ih =>
    unfold ReadyRun UnbuiltRun
    constructor
    . rintro ⟨-, hrest⟩
      have hunbuilt : s.Unbuilt a := by
        by_contra hbuilt
        exact h.not_ready hbuilt hrest.head
      exact ⟨hunbuilt, (ih (h.step hunbuilt)).mp hrest⟩
    . rintro ⟨hunbuilt, hrest⟩
      exact ⟨h.ready, (ih (h.step hunbuilt)).mpr hrest⟩

end State

/--
In production the service is ready in every state of a run, if and only if no attempt gets to `build`:
from there on it says it is available with nothing read. As to those who do ask, the requests and the
registrations: they find a verified contract, and every handler is run once, if and only if none of them
comes while a built contract is being checked.
-/
theorem connectProd_ready_iff (actions : List Action)
    : (boot.ReadyRun actions ↔ boot.UnbuiltRun actions)
      ∧ (boot.AdmitsRun actions ↔ boot.CalmRun actions) :=
  ⟨State.readyRun_iff State.Fresh.boot actions, State.admitsRun_iff State.Inv.boot actions⟩

/--
The RPC does not answer at boot, the retry gets the chain id, and a request arrives before `C_MAX`
and the keys are read: the service is available, and the request is let through.
-/
theorem connectProd_admits_unchecked
    : ¬ boot.ReadyRun [.chainId none, .retryTimer, .chainId (some 1), .request]
      ∧ ¬ boot.AdmitsRun [.chainId none, .retryTimer, .chainId (some 1), .request] := by
  rw [State.readyRun_iff State.Fresh.boot, State.admitsRun_iff State.Inv.boot]
  constructor
  . simp [State.UnbuiltRun, State.Unbuilt, State.step, boot, State.answerChainId, State.fail,
      State.disconnect, chainMatchesProd, LOCAL_CHAIN_ID]
  . simp [State.CalmRun, State.Calm, State.step, boot, State.answerChainId, State.fail,
      State.disconnect, State.build, chainMatchesProd, LOCAL_CHAIN_ID]

end Connect
end Blockchain
end Longjing
