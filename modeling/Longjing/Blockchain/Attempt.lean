import Longjing.Blockchain.Connect
import Mathlib.Tactic.Common

/-!
This module contains what one step does to an attempt of `connectProd` in any run, whatever arrives
while a contract is being checked.
-/

namespace Longjing
namespace Blockchain
namespace Connect
namespace State

/-- The attempt is between `build` and the end of `checkServerKeys`. -/
def Checking (s : State) : Prop :=
  match s.pc with
  | .readingCMax | .readingServerPublicKey | .readingSigner _ | .readingServerAddress => True
  | _ => False

instance (s : State) : Decidable s.Checking := by
  unfold Checking
  split <;> infer_instance

/-- The provider that `build` creates in a step. -/
def built (s : State) : Action → Option Nat
  | .chainId (some chainId) =>
    if s.pc = .fetchingChainId ∧ chainMatchesProd chainId then some s.attempt else none
  | _ => none

/-- The attempt passes the last of its checks. -/
def Connects (s : State) : Action → Prop
  | .serverAddress (some _) => s.pc = .readingServerAddress
  | _ => False

/-- The step calls a handler. -/
def Starts (s : State) : Action → Prop
  | .serverAddress (some _) => s.pc = .readingServerAddress ∧ s.connectedHandlers ≠ []
  | .handlerSettled => s.due ≠ []
  | .register => s.isAvailable = true
  | _ => False

/-- The step creates no provider, calls no handler and does not end the checks. -/
structure Quiet (s : State) (a : Action) : Prop where
  built : s.built a = none
  connects : ¬ s.Connects a
  starts : ¬ s.Starts a

/-- What a step does, up to the fields that only `Connect` is about. -/
inductive Moves (s : State) : Action → State → Prop where
  | build (chainId : Nat) (hpc : s.pc = .fetchingChainId)
      (hbuilt : s.built (.chainId (some chainId)) = some s.attempt)
    : Moves s (.chainId (some chainId)) { s.build with pc := .readingCMax }
  | fail (a : Action) (hquiet : s.Quiet a) (hpc : s.pc = .fetchingChainId ∨ s.Checking)
      (misconfigured : Bool)
    : Moves s a (s.fail misconfigured)
  | check (a : Action) (hquiet : s.Quiet a) (hpc : s.Checking) (cMax : Option Nat)
      (cMaxRead keyChecked : List Nat) (pc : Pc) (hnext : State.Checking { s with pc })
    : Moves s a { s with cMax, cMaxRead, keyChecked, pc }
  | connect (address : Nat) (hpc : s.pc = .readingServerAddress)
    : Moves s (.serverAddress (some address)) s.connect
  | next (rest : List Nat) (hpc : s.pc = .handling rest) : Moves s .handlerSettled (s.next rest)
  | retryTimer (hpc : s.pc = .idle) (hretry : s.retry = true)
    : Moves s .retryTimer { s with retry := false, attempt := s.attempt + 1, pc := .fetchingChainId }
  | destroy : Moves s .destroy { s with destroyed := true, retry := false }
  | register : Moves s .register s.onConnected
  | stay (a : Action) (hquiet : s.Quiet a) : Moves s a s

theorem moves (s : State) (a : Action) : s.Moves a (s.step a) := by
  unfold State.step
  split
  next answer hpc =>
    cases answer with
    | none => exact .fail _ ⟨rfl, id, id⟩ (.inl hpc) false
    | some chainId =>
      unfold State.answerChainId
      dsimp only
      split
      next hchain => exact .build chainId hpc (by simp [built, hpc, hchain])
      next hchain => exact .fail _ ⟨by simp [built, hchain], id, id⟩ (.inl hpc) true
  next answer hpc =>
    have hchecking : s.Checking := by simp [Checking, hpc]
    cases answer with
    | none => exact .fail _ ⟨rfl, id, id⟩ (.inr hchecking) false
    | some cMax => exact .check _ ⟨rfl, id, id⟩ hchecking _ _ _ _ trivial
  next hpc => exact .fail _ ⟨rfl, id, id⟩ (.inr (by simp [Checking, hpc])) false
  next onchain hpc => exact .check _ ⟨rfl, id, id⟩ (by simp [Checking, hpc]) _ _ _ _ trivial
  next onchain answer hpc =>
    have hchecking : s.Checking := by simp [Checking, hpc]
    cases answer with
    | none => exact .fail _ ⟨rfl, id, id⟩ (.inr hchecking) false
    | some signer =>
      unfold State.answerSigner
      dsimp only
      split
      next => exact .fail _ ⟨rfl, id, id⟩ (.inr hchecking) true
      next => exact .check _ ⟨rfl, id, id⟩ hchecking _ _ _ _ trivial
  next hpc => exact .fail _ ⟨rfl, id, id⟩ (.inr (by simp [Checking, hpc])) false
  next address hpc => exact .connect address hpc
  next rest hpc => exact .next rest hpc
  next hpc =>
    split
    next hretry => exact .retryTimer hpc hretry
    next => exact .stay _ ⟨rfl, id, id⟩
  next => exact .destroy
  next => exact .register
  next a _ hregister hchain _ _ _ _ _ hconnect hhandling _ =>
    -- the action answers nothing that is awaited
    refine .stay _ ⟨?_, ?_, ?_⟩
    . unfold built
      split
      . exact if_neg (fun hpc => hchain _ hpc.1 rfl)
      . rfl
    . unfold Connects
      split
      . exact fun hpc => hconnect _ hpc rfl
      . exact id
    . unfold Starts
      split
      . exact fun hpc => hconnect _ hpc.1 rfl
      . intro hdue
        unfold due at hdue
        split at hdue
        next hpc => exact hhandling _ hpc rfl
        next => exact hdue rfl
      . exact fun _ => hregister rfl
      . exact id

/-- What the fields hold in any run, whatever arrives while a contract is being checked. -/
structure Fields (s : State) : Prop where
  provider : s.provider = s.contract
  fetching : s.pc = .fetchingChainId → s.contract = none
  checking : s.Checking → s.contract = some s.attempt
  held : ∀ n, s.contract = some n → n = s.attempt
  timer : s.retry = true → s.pc = .idle ∧ s.contract = none ∧ s.destroyed = false

theorem not_checking_of_handling {s : State} {rest : List Nat} (h : s.pc = .handling rest)
    : ¬ s.Checking := by
  simp [Checking, h]

theorem not_checking_of_idle {s : State} (h : s.pc = .idle) : ¬ s.Checking := by
  simp [Checking, h]

theorem checking_of_readingServerAddress {s : State} (h : s.pc = .readingServerAddress)
    : s.Checking := by
  simp [Checking, h]

theorem Checking.pc_ne {s : State} (h : s.Checking) : s.pc ≠ .fetchingChainId ∧ s.pc ≠ .idle := by
  constructor <;> intro hpc <;> simp [Checking, hpc] at h

theorem Fields.boot : Connect.boot.Fields where
  provider := rfl
  fetching _ := rfl
  checking := by simp [Checking, Connect.boot]
  held := by simp [Connect.boot]
  timer := by simp [Connect.boot]

theorem next_fields (s : State) (handlers : List Nat)
    : (s.next handlers).provider = s.provider ∧ (s.next handlers).contract = s.contract
      ∧ (s.next handlers).retry = s.retry ∧ (s.next handlers).destroyed = s.destroyed
      ∧ (s.next handlers).attempt = s.attempt := by
  cases handlers <;> exact ⟨rfl, rfl, rfl, rfl, rfl⟩

theorem next_pc (s : State) (handlers : List Nat)
    : ¬ (s.next handlers).Checking ∧ (s.next handlers).pc ≠ .fetchingChainId := by
  cases handlers <;> simp [State.next, Checking]

theorem connect_fields (s : State)
    : s.connect.provider = s.provider ∧ s.connect.contract = s.contract ∧ s.connect.retry = s.retry
      ∧ s.connect.destroyed = s.destroyed ∧ s.connect.attempt = s.attempt := by
  unfold State.connect
  exact next_fields _ _

theorem connect_pc (s : State) : ¬ s.connect.Checking ∧ s.connect.pc ≠ .fetchingChainId := by
  unfold State.connect
  exact next_pc _ _

theorem onConnected_fields (s : State)
    : s.onConnected.provider = s.provider ∧ s.onConnected.contract = s.contract
      ∧ s.onConnected.retry = s.retry ∧ s.onConnected.destroyed = s.destroyed
      ∧ s.onConnected.attempt = s.attempt ∧ s.onConnected.pc = s.pc := by
  by_cases havail : s.isAvailable = true
  . rw [onConnected_of_available havail]
    exact ⟨rfl, rfl, rfl, rfl, rfl, rfl⟩
  . rw [onConnected_of_not_available havail]
    exact ⟨rfl, rfl, rfl, rfl, rfl, rfl⟩

/-- The state goes on with the same fields outside the checks, and no timer is armed. -/
theorem Fields.settle {s s' : State} (h : s.Fields) (hpc : s.pc ≠ .idle)
    (hprovider : s'.provider = s.provider) (hcontract : s'.contract = s.contract)
    (hretry : s'.retry = s.retry) (hattempt : s'.attempt = s.attempt) (hchecking : ¬ s'.Checking)
    (hfetching : s'.pc ≠ .fetchingChainId)
    : s'.Fields where
  provider := by rw [hprovider, hcontract, h.provider]
  fetching := fun hpc' => absurd hpc' hfetching
  checking := fun hpc' => absurd hpc' hchecking
  held := by
    rw [hcontract, hattempt]
    exact h.held
  timer := by
    rw [hretry]
    exact fun htimer => absurd (h.timer htimer).1 hpc

theorem Fields.moves {s s' : State} {a : Action} (h : s.Fields) (hmoves : s.Moves a s') : s'.Fields := by
  have htimer (hpc : s.pc ≠ .idle) : ¬ s.retry = true := fun hretry => hpc (h.timer hretry).1
  cases hmoves with
  | build chainId hpc hbuilt =>
    have hretry := htimer (by simp [hpc])
    exact ⟨rfl, by simp, fun _ => rfl, by simp [State.build], fun hretry' => absurd hretry' hretry⟩
  | fail _ hquiet hpc misconfigured =>
    have hidle : s.pc ≠ .idle := by
      rcases hpc with hpc | hpc
      . simp [hpc]
      . exact hpc.pc_ne.2
    cases misconfigured with
    | true =>
      exact ⟨rfl, fun _ => rfl, fun hchecking => hchecking.elim, by simp [State.fail, disconnect],
        fun hretry => absurd hretry (htimer hidle)⟩
    | false =>
      exact ⟨rfl, fun _ => rfl, fun hchecking => hchecking.elim, by simp [State.fail, disconnect],
        fun hretry => ⟨rfl, rfl, by simpa [State.fail] using hretry⟩⟩
  | check _ hquiet hpc cMax cMaxRead keyChecked pc hnext =>
    have hnext' : State.Checking { s with cMax, cMaxRead, keyChecked, pc } := hnext
    exact ⟨h.provider, fun hpc' => absurd hpc' hnext'.pc_ne.1, fun _ => h.checking hpc, h.held,
      fun hretry => absurd hretry (htimer hpc.pc_ne.2)⟩
  | connect address hpc =>
    obtain ⟨hprovider, hcontract, hretry, -, hattempt⟩ := connect_fields s
    have hpc' := connect_pc s
    exact h.settle (by simp [hpc]) hprovider hcontract hretry hattempt hpc'.1 hpc'.2
  | next rest hpc =>
    obtain ⟨hprovider, hcontract, hretry, -, hattempt⟩ := next_fields s rest
    have hpc' := next_pc s rest
    exact h.settle (by simp [hpc]) hprovider hcontract hretry hattempt hpc'.1 hpc'.2
  | retryTimer hpc hretry =>
    have hnone := (h.timer hretry).2.1
    exact ⟨h.provider, fun _ => hnone, fun hchecking => hchecking.elim, by simp [hnone], by simp⟩
  | destroy => exact ⟨h.provider, h.fetching, h.checking, h.held, by simp⟩
  | register =>
    obtain ⟨hprovider, hcontract, hretry, hdestroyed, hattempt, hpc⟩ := onConnected_fields s
    refine ⟨by rw [hprovider, hcontract, h.provider], ?_, ?_, ?_, ?_⟩
    . rw [hpc, hcontract]
      exact h.fetching
    . unfold Checking
      rw [hpc, hcontract, hattempt]
      exact h.checking
    . rw [hcontract, hattempt]
      exact h.held
    . rw [hretry, hpc, hcontract, hdestroyed]
      exact h.timer
  | stay => exact h

theorem next_ran (s : State) (handlers : List Nat)
    : ∃ started, (s.next handlers).ran = s.ran ++ started ∧ (started = [] ↔ handlers = [])
      ∧ ∀ r ∈ started, r.contract = s.contract := by
  cases handlers with
  | nil => exact ⟨[], by simp [State.next], by simp, by simp⟩
  | cons handler rest => exact ⟨[⟨handler, s.contract⟩], rfl, by simp, by simp⟩

theorem onConnected_ran (s : State)
    : ∃ started, s.onConnected.ran = s.ran ++ started ∧ (started = [] ↔ ¬ s.isAvailable = true)
      ∧ ∀ r ∈ started, r.contract = s.contract := by
  by_cases havail : s.isAvailable = true
  . rw [onConnected_of_available havail]
    exact ⟨[⟨s.registrations.length, s.contract⟩], rfl, by simp [havail], by simp⟩
  . rw [onConnected_of_not_available havail]
    exact ⟨[], by simp, by simp [havail], by simp⟩

theorem step_ran (s : State) (a : Action)
    : ∃ started, (s.step a).ran = s.ran ++ started ∧ (started = [] ↔ ¬ s.Starts a)
      ∧ ∀ r ∈ started, r.contract = s.contract := by
  generalize hs' : s.step a = s'
  have hmoves := s.moves a
  rw [hs'] at hmoves
  cases hmoves with
  | build chainId hpc hbuilt => exact ⟨[], by simp [State.build], by simp [Starts], by simp⟩
  | fail _ hquiet hpc misconfigured =>
    refine ⟨[], ?_, by simp [hquiet.starts], by simp⟩
    cases misconfigured <;> simp [State.fail, disconnect]
  | check _ hquiet hpc cMax cMaxRead keyChecked pc hnext =>
    exact ⟨[], by simp, by simp [hquiet.starts], by simp⟩
  | connect address hpc =>
    obtain ⟨started, hran, hnil, hcontract⟩ := next_ran
      { s with connections := s.connections ++ s.contract.toList, connectedHandlers := [] } s.connectedHandlers
    exact ⟨started, hran, by simp [hnil, Starts, hpc], hcontract⟩
  | next rest hpc =>
    obtain ⟨started, hran, hnil, hcontract⟩ := next_ran s rest
    exact ⟨started, hran, by simp [hnil, Starts, due, hpc], hcontract⟩
  | retryTimer hpc hretry => exact ⟨[], by simp, by simp [Starts], by simp⟩
  | destroy => exact ⟨[], by simp, by simp [Starts], by simp⟩
  | register => exact onConnected_ran s
  | stay _ hquiet => exact ⟨[], by simp, by simp [hquiet.starts], by simp⟩

/-- The contract was built by an attempt that had its chain id. -/
def Spent (s : State) (n : Nat) : Prop :=
  n < s.attempt ∨ n = s.attempt ∧ s.pc ≠ .fetchingChainId

theorem Fields.spent {s : State} (h : s.Fields) {n : Nat} (hn : s.contract = some n) : s.Spent n := by
  refine Or.inr ⟨h.held n hn, fun hpc => ?_⟩
  simp [h.fetching hpc] at hn

theorem Spent.step {s : State} {n : Nat} (h : s.Spent n) (a : Action) : (s.step a).Spent n := by
  generalize hs' : s.step a = s'
  have hmoves := s.moves a
  rw [hs'] at hmoves
  unfold Spent at h ⊢
  cases hmoves with
  | build chainId hpc hbuilt => exact h.imp id fun hn => ⟨hn.1, by simp⟩
  | fail _ hquiet hpc misconfigured =>
    cases misconfigured <;> exact h.imp id fun hn => ⟨hn.1, by simp [State.fail]⟩
  | check _ hquiet hpc cMax cMaxRead keyChecked pc hnext =>
    exact h.imp id fun hn => ⟨hn.1, (Checking.pc_ne hnext).1⟩
  | connect address hpc =>
    rw [(connect_fields s).2.2.2.2]
    exact h.imp id fun hn => ⟨hn.1, (connect_pc s).2⟩
  | next rest hpc =>
    rw [(next_fields s rest).2.2.2.2]
    exact h.imp id fun hn => ⟨hn.1, (next_pc _ _).2⟩
  | retryTimer hpc hretry =>
    refine Or.inl ?_
    dsimp only
    omega
  | destroy => exact h
  | register =>
    obtain ⟨-, -, -, -, hattempt, hpc⟩ := onConnected_fields s
    rw [hattempt, hpc]
    exact h
  | stay => exact h

/-- What a step does to the provider: `build`, `disconnect`, or nothing. -/
theorem step_provider {s : State} (h : s.Fields) (a : Action)
    : (s.step a).Checking ∧ s.provider = none ∧ (s.step a).provider = some s.attempt
          ∧ s.built a = some s.attempt
      ∨ (s.step a).provider = none ∧ s.built a = none ∧ ¬ s.Connects a
      ∨ (s.step a).provider = s.provider ∧ s.built a = none
        ∧ (s.Checking → (s.step a).Checking ∨ s.Connects a) := by
  generalize hs' : s.step a = s'
  have hmoves := s.moves a
  rw [hs'] at hmoves
  cases hmoves with
  | build chainId hpc hbuilt =>
    exact Or.inl ⟨trivial, h.provider.trans (h.fetching hpc), rfl, hbuilt⟩
  | fail _ hquiet hpc misconfigured =>
    refine Or.inr (Or.inl ⟨?_, hquiet.built, hquiet.connects⟩)
    cases misconfigured <;> rfl
  | check _ hquiet hpc cMax cMaxRead keyChecked pc hnext =>
    exact Or.inr (Or.inr ⟨rfl, hquiet.built, fun _ => Or.inl hnext⟩)
  | connect address hpc =>
    exact Or.inr (Or.inr ⟨(connect_fields s).1, rfl, fun _ => Or.inr hpc⟩)
  | next rest hpc =>
    refine Or.inr (Or.inr ⟨(next_fields s rest).1, rfl, fun hchecking => ?_⟩)
    exact absurd hchecking (not_checking_of_handling hpc)
  | retryTimer hpc hretry =>
    exact Or.inr (Or.inr ⟨rfl, rfl, fun hchecking => absurd hchecking (not_checking_of_idle hpc)⟩)
  | destroy => exact Or.inr (Or.inr ⟨rfl, rfl, Or.inl⟩)
  | register =>
    obtain ⟨hprovider, -, -, -, -, hpc⟩ := onConnected_fields s
    refine Or.inr (Or.inr ⟨hprovider, rfl, fun hchecking => Or.inl ?_⟩)
    unfold Checking
    rw [hpc]
    exact hchecking
  | stay _ hquiet => exact Or.inr (Or.inr ⟨rfl, hquiet.built, Or.inl⟩)

/-- The attempt has ended its checks, and no other will start. -/
structure Over (s : State) : Prop where
  checking : ¬ s.Checking
  fetching : s.pc ≠ .fetchingChainId
  timer : s.retry = false

theorem Over.step {s : State} (h : s.Over) (a : Action)
    : (s.step a).Over ∧ (s.step a).provider = s.provider := by
  generalize hs' : s.step a = s'
  have hmoves := s.moves a
  rw [hs'] at hmoves
  cases hmoves with
  | build chainId hpc hbuilt => exact absurd hpc h.fetching
  | fail _ hquiet hpc misconfigured =>
    rcases hpc with hpc | hpc
    . exact absurd hpc h.fetching
    . exact absurd hpc h.checking
  | check _ hquiet hpc cMax cMaxRead keyChecked pc hnext => exact absurd hpc h.checking
  | connect address hpc => exact absurd (checking_of_readingServerAddress hpc) h.checking
  | next rest hpc =>
    obtain ⟨hprovider, -, hretry, -, -⟩ := next_fields s rest
    exact ⟨⟨(next_pc s rest).1, (next_pc s rest).2, hretry.trans h.timer⟩, hprovider⟩
  | retryTimer hpc hretry => simp [h.timer] at hretry
  | destroy => exact ⟨⟨h.checking, h.fetching, rfl⟩, rfl⟩
  | register =>
    obtain ⟨hprovider, -, hretry, -, -, hpc⟩ := onConnected_fields s
    refine ⟨⟨?_, hpc ▸ h.fetching, hretry.trans h.timer⟩, hprovider⟩
    unfold Checking
    rw [hpc]
    exact h.checking
  | stay => exact ⟨h, rfl⟩

theorem Connects.checking {s : State} {a : Action} (h : s.Connects a) : s.Checking := by
  unfold Connects at h
  split at h
  . exact checking_of_readingServerAddress h
  . exact h.elim

theorem step_destroy (s : State) : s.step .destroy = { s with destroyed := true, retry := false } := by
  unfold State.step
  split <;> simp_all

theorem step_destroyed (s : State) {a : Action} (ha : a ≠ .destroy)
    : (s.step a).destroyed = s.destroyed := by
  generalize hs' : s.step a = s'
  have hmoves := s.moves a
  rw [hs'] at hmoves
  cases hmoves with
  | fail _ hquiet hpc misconfigured => cases misconfigured <;> rfl
  | connect address hpc => exact (connect_fields s).2.2.2.1
  | next rest hpc => exact (next_fields s rest).2.2.2.1
  | destroy => exact absurd rfl ha
  | register => exact (onConnected_fields s).2.2.2.1
  | _ => rfl

theorem Connects.over {s : State} {a : Action} (h : s.Connects a) (htimer : s.retry = false)
    : (s.step a).Over ∧ (s.step a).provider = s.provider := by
  unfold Connects at h
  split at h
  next address =>
    have hstep : s.step (.serverAddress (some address)) = s.connect := by simp [State.step, h]
    rw [hstep]
    obtain ⟨hprovider, -, hretry, -, -⟩ := connect_fields s
    exact ⟨⟨(connect_pc s).1, (connect_pc s).2, hretry.trans htimer⟩, hprovider⟩
  next => exact h.elim

theorem eq_chainId_of_built {s : State} {a : Action} {n : Nat} (h : s.built a = some n)
    : ∃ chainId, a = .chainId (some chainId) ∧ s.pc = .fetchingChainId ∧ chainMatchesProd chainId = true := by
  unfold built at h
  split at h
  next chainId =>
    split at h
    next hbuilt => exact ⟨chainId, rfl, hbuilt.1, hbuilt.2⟩
    next => cases h
  next => cases h

theorem attempt_of_built {s : State} {a : Action} {n : Nat} (h : s.built a = some n)
    : (s.step a).attempt = s.attempt := by
  obtain ⟨chainId, rfl, hpc, hchain⟩ := eq_chainId_of_built h
  simp [State.step, hpc, State.answerChainId, hchain, State.build]

/-- A contract that is being checked was built in the step, or was being checked before. -/
theorem checking_of_step {s : State} {a : Action} (hbuilt : s.built a ≠ some s.attempt)
    (h : (s.step a).Checking) : s.Checking ∧ (s.step a).attempt = s.attempt := by
  generalize hs' : s.step a = s' at h ⊢
  have hmoves := s.moves a
  rw [hs'] at hmoves
  cases hmoves with
  | build chainId hpc hbuilt' => exact absurd hbuilt' hbuilt
  | fail _ hquiet hpc misconfigured => cases misconfigured <;> exact h.elim
  | check _ hquiet hpc cMax cMaxRead keyChecked pc hnext => exact ⟨hpc, rfl⟩
  | connect address hpc => exact absurd h (connect_pc s).1
  | next rest hpc => exact absurd h (next_pc s rest).1
  | retryTimer hpc hretry => exact h.elim
  | destroy => exact ⟨h, rfl⟩
  | register =>
    obtain ⟨-, -, -, -, hattempt, hpc⟩ := onConnected_fields s
    refine ⟨?_, hattempt⟩
    unfold Checking at h ⊢
    rwa [hpc] at h
  | stay => exact ⟨h, rfl⟩

/-- Once the `destroyed` flag is set, a check that ends is the end of the attempts. -/
theorem over_or_checking {s : State} (h : s.Fields) (hchecking : s.Checking) (hdestroyed : s.destroyed = true)
    (a : Action) (ha : a ≠ .destroy)
    : (s.step a).Over
      ∨ (s.step a).Checking ∧ (s.step a).attempt = s.attempt ∧ (s.step a).provider = s.provider := by
  have htimer : s.retry = false := by
    by_contra hretry
    simp only [Bool.not_eq_false] at hretry
    simp [(h.timer hretry).2.2] at hdestroyed
  generalize hs' : s.step a = s'
  have hmoves := s.moves a
  rw [hs'] at hmoves
  cases hmoves with
  | build chainId hpc hbuilt => exact absurd hpc hchecking.pc_ne.1
  | fail _ hquiet hpc misconfigured =>
    refine .inl ⟨?_, ?_, ?_⟩
    . cases misconfigured <;> exact id
    . cases misconfigured <;> simp [State.fail]
    . cases misconfigured <;> simp [State.fail, disconnect, hdestroyed, htimer]
  | check _ hquiet hpc cMax cMaxRead keyChecked pc hnext => exact .inr ⟨hnext, rfl, rfl⟩
  | connect address hpc =>
    obtain ⟨-, -, hretry, -, -⟩ := connect_fields s
    exact .inl ⟨(connect_pc s).1, (connect_pc s).2, hretry.trans htimer⟩
  | next rest hpc => exact absurd hchecking (not_checking_of_handling hpc)
  | retryTimer hpc hretry => exact absurd hchecking (not_checking_of_idle hpc)
  | destroy => exact absurd rfl ha
  | register =>
    obtain ⟨hprovider, -, -, -, hattempt, hpc⟩ := onConnected_fields s
    refine .inr ⟨?_, hattempt, hprovider⟩
    unfold Checking
    rw [hpc]
    exact hchecking
  | stay => exact .inr ⟨hchecking, rfl, rfl⟩

end State
end Connect
end Blockchain
end Longjing
