import Longjing.Blockchain.Attempt
import Mathlib.Data.List.Induction
import Mathlib.Tactic.Common

/-!
This module contains `onModuleDestroy` of `blockchain.service.ts` against the attempts of
`connectProd`: it may be called at any `await` of an attempt, and is itself suspended at its own.
-/

namespace Longjing
namespace Blockchain
namespace Shutdown

/-- Where `onModuleDestroy` is, which Nest calls once. -/
inductive Phase where
  | notCalled
  -- awaits `contract.removeAllListeners()`
  | removingListeners
  | completed
deriving DecidableEq, Repr

/--
The service with what it created and destroyed. A provider and its contract are named by the attempt.
-/
structure Service where
  conn : Connect.State
  phase : Phase
  -- providers that `build` created
  created : List Nat
  -- providers whose `destroy` was called
  destroyed : List Nat
  -- contracts with a subscribed listener
  listeners : List Nat
  -- handlers that were called once the `destroyed` flag was set
  late : List Connect.Run
deriving DecidableEq, Repr

inductive Event where
  -- an answer, the timer or a registration. `destroy` is the call of `onModuleDestroy`
  | action (a : Connect.Action)
  -- `removeAllListeners` has answered
  | listenersRemoved
  -- the `i`-th handler that was called reaches its `contract.on`
  | subscribe (i : Nat)
deriving DecidableEq, Repr

/-- The service at its first attempt. -/
def start : Service where
  conn := Connect.boot
  phase := .notCalled
  created := []
  destroyed := []
  listeners := []
  late := []

namespace Service

/-- `provider?.destroy()`, which also drops the listeners of the contract on it. -/
def destroyProvider (s : Service) (provider : Option Nat) : Service :=
  { s with
    destroyed := s.destroyed ++ provider.toList
    listeners := s.listeners.filter fun n => provider ≠ some n }

/-- A step of the attempt. `disconnect` is what clears the `provider` field, and destroys it before. -/
def act (s : Service) (a : Connect.Action) : Service :=
  let conn := s.conn.step a
  let started := conn.ran.drop s.conn.ran.length
  { s with
    conn
    created := s.created ++ (s.conn.built a).toList
    late := if s.conn.destroyed then s.late ++ started else s.late }.destroyProvider
      (if conn.provider.isNone then s.conn.provider else none)

/-- Up to its `await`. -/
def onModuleDestroy (s : Service) : Service :=
  { s with
    conn := s.conn.step .destroy
    phase := .removingListeners
    listeners := s.listeners.filter fun n => s.conn.contract ≠ some n }

/-- `watchWithdrawals` keeps the contract it was called with. -/
def subscribe (s : Service) (i : Nat) : Service :=
  { s with listeners := s.listeners ++ (s.conn.ran[i]?.bind Connect.Run.contract).toList }

def step (s : Service) : Event → Service
  | .action .destroy => if s.phase = .notCalled then s.onModuleDestroy else s
  | .action a => s.act a
  | .listenersRemoved =>
    if s.phase = .removingListeners then
      { s.destroyProvider s.conn.provider with phase := .completed }
    else
      s
  | .subscribe i => s.subscribe i

def run (s : Service) (events : List Event) : Service :=
  events.foldl step s

/-- `onModuleDestroy` has completed, and the attempt has run to its end. -/
structure Ended (s : Service) : Prop where
  completed : s.phase = .completed
  idle : s.conn.pc = .idle

/-- Nothing of the service is left. -/
structure Final (s : Service) : Prop where
  providers : ∀ n ∈ s.created, n ∈ s.destroyed
  listeners : s.listeners = []
  timer : s.conn.retry = false
  handlers : s.late = []

/--
The step calls no handler once the `destroyed` flag is set, no attempt passes its checks with a
provider that `onModuleDestroy` missed, and a listener is subscribed where it will be removed.
-/
def Harmless (s : Service) : Event → Prop
  | .action a =>
    (s.conn.destroyed = true → ¬ s.conn.Starts a)
      ∧ (s.phase = .completed → s.conn.Connects a →
        s.conn.attempt ∈ s.destroyed ∧ s.conn.attempt ∉ s.listeners)
  | .listenersRemoved => True
  | .subscribe i => ∀ n, s.conn.ran[i]?.bind Connect.Run.contract = some n →
      s.conn.contract = some n ∧ (s.phase = .completed → s.conn.Checking)

def HarmlessRun (s : Service) : List Event → Prop
  | [] => True
  | event :: events => s.Harmless event ∧ (s.step event).HarmlessRun events

/-- What the service holds in any run, harmless or not. -/
structure Base (s : Service) : Prop where
  fields : s.conn.Fields
  flag : s.conn.destroyed = true ↔ s.phase ≠ .notCalled
  provider : ∀ n, s.conn.provider = some n → n ∈ s.created
  listeners : ∀ n ∈ s.listeners, s.conn.Spent n
  ran : ∀ r ∈ s.conn.ran, ∀ n, r.contract = some n → s.conn.Spent n
  destroyed : ∀ n ∈ s.destroyed, s.conn.Spent n

theorem Base.start : Shutdown.start.Base where
  fields := Connect.State.Fields.boot
  flag := by simp [Shutdown.start, Connect.boot]
  provider := by simp [Shutdown.start, Connect.boot]
  listeners := by simp [Shutdown.start]
  ran := by simp [Shutdown.start, Connect.boot]
  destroyed := by simp [Shutdown.start]

def dropped (s : Service) (a : Connect.Action) : Option Nat :=
  if (s.conn.step a).provider.isNone then s.conn.provider else none

theorem mem_created_act {s : Service} {a : Connect.Action} {n : Nat}
    : n ∈ (s.act a).created ↔ n ∈ s.created ∨ s.conn.built a = some n := by
  simp [act, destroyProvider]

theorem mem_destroyed_act {s : Service} {a : Connect.Action} {n : Nat}
    : n ∈ (s.act a).destroyed ↔ n ∈ s.destroyed ∨ s.dropped a = some n := by
  simp [act, destroyProvider, dropped]

theorem mem_listeners_act {s : Service} {a : Connect.Action} {n : Nat}
    : n ∈ (s.act a).listeners ↔ n ∈ s.listeners ∧ s.dropped a ≠ some n := by
  simp [act, destroyProvider, dropped, imp_iff_not_or]

theorem late_act (s : Service) (a : Connect.Action)
    : ∃ started, (s.act a).late = s.late ++ started
      ∧ (started = [] ↔ (s.conn.destroyed = true → ¬ s.conn.Starts a)) := by
  obtain ⟨started, hran, hnil, -⟩ := s.conn.step_ran a
  by_cases hdestroyed : s.conn.destroyed = true
  . exact ⟨started, by simp [act, destroyProvider, hdestroyed, hran], by simp [hnil, hdestroyed]⟩
  . exact ⟨[], by simp [act, destroyProvider, hdestroyed], by simp [hdestroyed]⟩

theorem dropped_of_provider_eq {s : Service} {a : Connect.Action}
    (h : (s.conn.step a).provider = s.conn.provider) : s.dropped a = none := by
  unfold dropped
  rw [h]
  cases s.conn.provider <;> rfl

theorem step_action {s : Service} {a : Connect.Action} (h : a ≠ .destroy)
    : s.step (.action a) = s.act a := by
  cases a <;> first | rfl | exact absurd rfl h

theorem Base.act {s : Service} (h : s.Base) {a : Connect.Action} (ha : a ≠ .destroy)
    : (s.act a).Base where
  fields := h.fields.moves (s.conn.moves a)
  flag := by
    have hconn : (s.act a).conn = s.conn.step a := rfl
    have hphase : (s.act a).phase = s.phase := rfl
    rw [hconn, hphase, s.conn.step_destroyed ha]
    exact h.flag
  provider := by
    intro n hn
    rw [mem_created_act]
    rcases Connect.State.step_provider h.fields a with
      ⟨-, -, hprovider, hbuilt⟩ | ⟨hprovider, -⟩ | ⟨hprovider, -⟩
    . exact Or.inr (hbuilt.trans (hprovider.symm.trans hn))
    . exact absurd (hprovider.symm.trans hn) (by simp)
    . exact Or.inl (h.provider n (hprovider.symm.trans hn))
  listeners := fun n hn => (h.listeners n (mem_listeners_act.mp hn).1).step a
  ran := by
    obtain ⟨started, hran, -, hcontract⟩ := s.conn.step_ran a
    intro r hr n hn
    have hr' : r ∈ (s.conn.step a).ran := hr
    rw [hran, List.mem_append] at hr'
    rcases hr' with hr' | hr'
    . exact (h.ran r hr' n hn).step a
    . exact (h.fields.spent (hcontract r hr' ▸ hn)).step a
  destroyed := by
    intro n hn
    rcases mem_destroyed_act.mp hn with hn | hn
    . exact (h.destroyed n hn).step a
    . unfold dropped at hn
      split at hn
      . rw [h.fields.provider] at hn
        exact (h.fields.spent hn).step a
      . cases hn

theorem Base.step {s : Service} (h : s.Base) (event : Event) : (s.step event).Base := by
  unfold Service.step
  split
  next =>
    split
    next hphase =>
      have hdestroy := s.conn.step_destroy
      refine ⟨h.fields.moves (s.conn.moves .destroy), ?_, ?_, ?_, ?_, ?_⟩
      . simp [onModuleDestroy, hdestroy]
      . simp only [onModuleDestroy, hdestroy]
        exact h.provider
      . intro n hn
        exact (h.listeners n (List.mem_filter.mp hn).1).step .destroy
      . intro r hr n hn
        simp only [onModuleDestroy, hdestroy] at hr
        exact (h.ran r hr n hn).step .destroy
      . exact fun n hn => (h.destroyed n hn).step .destroy
    next => exact h
  next a ha => exact h.act fun hdestroy => ha (by rw [hdestroy])
  next =>
    split
    next hphase =>
      refine ⟨h.fields, ?_, h.provider, ?_, h.ran, ?_⟩
      . have := h.flag
        simp [hphase, destroyProvider] at this ⊢
        exact this
      . intro n hn
        exact h.listeners n (List.mem_filter.mp hn).1
      . intro n hn
        rcases List.mem_append.mp hn with hn | hn
        . exact h.destroyed n hn
        . rw [Option.mem_toList, h.fields.provider] at hn
          exact h.fields.spent hn
    next => exact h
  next i =>
    refine ⟨h.fields, h.flag, h.provider, ?_, h.ran, h.destroyed⟩
    intro n hn
    simp only [subscribe, List.mem_append, Option.mem_toList] at hn
    rcases hn with hn | hn
    . exact h.listeners n hn
    . obtain ⟨r, hr, hcontract⟩ := Option.bind_eq_some_iff.mp hn
      exact h.ran r (List.mem_of_getElem? hr) n hcontract

/-- What a harmless run keeps: all that is created is destroyed, or held where it will be. -/
structure Clean (s : Service) : Prop where
  created : ∀ n ∈ s.created, n ∈ s.destroyed ∨ s.conn.provider = some n
  completed : s.phase = .completed → ¬ s.conn.Checking →
    ∀ n, s.conn.provider = some n → n ∈ s.destroyed
  listeners : ∀ n ∈ s.listeners,
    s.conn.contract = some n ∧ (s.phase = .completed → s.conn.Checking)
  late : s.late = []

theorem Clean.start : Shutdown.start.Clean where
  created := by simp [Shutdown.start]
  completed := by simp [Shutdown.start]
  listeners := by simp [Shutdown.start]
  late := rfl

theorem Clean.act {s : Service} (h : s.Clean) (hbase : s.Base) {a : Connect.Action}
    (hharmless : s.Harmless (.action a)) : (s.act a).Clean := by
  obtain ⟨hstarts, hconnects⟩ := hharmless
  have hfields := hbase.fields
  have hfields' := hfields.moves (s.conn.moves a)
  have hlate : (s.act a).late = [] := by
    obtain ⟨started, hlate, hnil⟩ := s.late_act a
    rw [hlate, h.late, hnil.mpr hstarts, List.append_nil]
  have hconn : (s.act a).conn = s.conn.step a := rfl
  have hphase : (s.act a).phase = s.phase := rfl
  rcases Connect.State.step_provider hfields a with
    ⟨hchecking, hnone, hprovider, hbuilt⟩ | ⟨hprovider, hbuilt, -⟩ | ⟨hprovider, hbuilt, hchecking⟩
  . -- `build`
    refine ⟨?_, ?_, ?_, hlate⟩
    . intro n hn
      rcases mem_created_act.mp hn with hn | hn
      . rcases h.created n hn with hn | hn
        . exact Or.inl (mem_destroyed_act.mpr (Or.inl hn))
        . simp [hnone] at hn
      . exact Or.inr (hprovider.trans (hbuilt.symm.trans hn))
    . exact fun _ hchecking' => absurd hchecking hchecking'
    . intro n hn
      have hheld := (h.listeners n (mem_listeners_act.mp hn).1).1
      rw [← hfields.provider, hnone] at hheld
      cases hheld
  . -- `disconnect`
    have hdropped : s.dropped a = s.conn.provider := by simp [dropped, hprovider]
    refine ⟨?_, ?_, ?_, hlate⟩
    . intro n hn
      rcases mem_created_act.mp hn with hn | hn
      . rcases h.created n hn with hn | hn
        . exact Or.inl (mem_destroyed_act.mpr (Or.inl hn))
        . exact Or.inl (mem_destroyed_act.mpr (Or.inr (hdropped.trans hn)))
      . simp [hbuilt] at hn
    . intro _ _ n hn
      simp [hconn, hprovider] at hn
    . intro n hn
      obtain ⟨hn, hkept⟩ := mem_listeners_act.mp hn
      rw [hdropped, hfields.provider] at hkept
      exact absurd (h.listeners n hn).1 hkept
  . -- the provider stays
    have hdropped := dropped_of_provider_eq hprovider
    refine ⟨?_, ?_, ?_, hlate⟩
    . intro n hn
      rcases mem_created_act.mp hn with hn | hn
      . rw [mem_destroyed_act, hconn, hprovider]
        exact (h.created n hn).imp Or.inl id
      . simp [hbuilt] at hn
    -- a provider that was checked until now was destroyed before, as the step is harmless
    . intro hcompleted hnot n hn
      rw [hconn, hprovider] at hn
      rw [mem_destroyed_act]
      by_cases hchecking' : s.conn.Checking
      . rcases hchecking hchecking' with hchecking | hconnect
        . exact absurd hchecking hnot
        . rw [hfields.held n (hfields.provider ▸ hn)]
          exact Or.inl (hconnects hcompleted hconnect).1
      . exact Or.inl (h.completed hcompleted hchecking' n hn)
    . intro n hn
      have hn := (mem_listeners_act.mp hn).1
      obtain ⟨hheld, hcompleted⟩ := h.listeners n hn
      refine ⟨?_, fun hphase => ?_⟩
      . rw [hconn, ← hfields'.provider, hprovider, hfields.provider]
        exact hheld
      . rcases hchecking (hcompleted hphase) with hchecking | hconnect
        . exact hchecking
        . exact absurd (hfields.held n hheld ▸ hn) (hconnects hphase hconnect).2

theorem Clean.step {s : Service} (h : s.Clean) (hbase : s.Base) {event : Event}
    (hharmless : s.Harmless event) : (s.step event).Clean := by
  unfold Service.step
  split
  next =>
    split
    next hphase =>
      have hdestroy := s.conn.step_destroy
      unfold onModuleDestroy
      rw [hdestroy]
      refine ⟨h.created, by simp, ?_, h.late⟩
      intro n hn
      obtain ⟨hn, hkept⟩ := List.mem_filter.mp hn
      exact absurd (h.listeners n hn).1 (by simpa using hkept)
    next => exact h
  next a ha => exact h.act hbase hharmless
  next =>
    split
    next hphase =>
      refine ⟨?_, ?_, ?_, h.late⟩
      . intro n hn
        refine Or.inl ?_
        simp only [destroyProvider, List.mem_append, Option.mem_toList]
        exact h.created n hn
      . intro _ _ n hn
        simp only [destroyProvider, List.mem_append, Option.mem_toList]
        exact Or.inr hn
      . intro n hn
        obtain ⟨hn, hkept⟩ := List.mem_filter.mp hn
        rw [hbase.fields.provider] at hkept
        exact absurd (h.listeners n hn).1 (by simpa using hkept)
    next => exact h
  next i =>
    refine ⟨h.created, h.completed, ?_, h.late⟩
    intro n hn
    simp only [subscribe, List.mem_append, Option.mem_toList] at hn
    rcases hn with hn | hn
    . exact h.listeners n hn
    . exact hharmless n hn

theorem Clean.final {s : Service} (h : s.Clean) (hbase : s.Base) (hended : s.Ended) : s.Final := by
  have hnot := Connect.State.not_checking_of_idle hended.idle
  refine ⟨?_, ?_, ?_, h.late⟩
  . intro n hn
    rcases h.created n hn with hn | hn
    . exact hn
    . exact h.completed hended.completed hnot n hn
  . rw [List.eq_nil_iff_forall_not_mem]
    intro n hn
    exact hnot ((h.listeners n hn).2 hended.completed)
  . by_contra hretry
    simp only [Bool.not_eq_false] at hretry
    have hdestroyed : s.conn.destroyed = true := by simp [hbase.flag, hended.completed]
    simp [(hbase.fields.timer hretry).2.2] at hdestroyed

structure Over (s : Service) : Prop where
  completed : s.phase = .completed
  conn : s.conn.Over

/-- What no later step can put right. -/
def Doomed (s : Service) : Prop :=
  s.late ≠ []
    ∨ (s.Over ∧ ∃ n ∈ s.created, n ∉ s.destroyed)
    ∨ ∃ n ∈ s.listeners, s.conn.contract ≠ some n ∨ s.Over

theorem Base.timer {s : Service} (h : s.Base) (hcompleted : s.phase = .completed)
    : s.conn.retry = false := by
  by_contra hretry
  simp only [Bool.not_eq_false] at hretry
  have hdestroyed : s.conn.destroyed = true := by simp [h.flag, hcompleted]
  simp [(h.fields.timer hretry).2.2] at hdestroyed

theorem Over.act {s : Service} (h : s.Over) (a : Connect.Action)
    : (s.act a).Over ∧ s.dropped a = none :=
  ⟨⟨h.completed, (h.conn.step a).1⟩, dropped_of_provider_eq (h.conn.step a).2⟩

theorem contract_step_ne {s : Service} (h : s.Base) {n : Nat} (hspent : s.conn.Spent n)
    (hn : s.conn.contract ≠ some n) (a : Connect.Action) : (s.conn.step a).contract ≠ some n := by
  have hfields := h.fields
  rw [← (hfields.moves (s.conn.moves a)).provider]
  rw [← hfields.provider] at hn
  rcases Connect.State.step_provider hfields a with
    ⟨-, hnone, hprovider, hbuilt⟩ | ⟨hprovider, -⟩ | ⟨hprovider, -⟩
  . have hpc : s.conn.pc = .fetchingChainId := by
      by_contra hpc
      unfold Connect.State.built at hbuilt
      split at hbuilt
      . simp [hpc] at hbuilt
      . simp at hbuilt
    rw [hprovider]
    intro heq
    obtain rfl := Option.some.inj heq
    rcases hspent with hlt | ⟨-, hne⟩
    . exact Nat.lt_irrefl _ hlt
    . exact hne hpc
  . simp [hprovider]
  . rw [hprovider]
    exact hn

theorem Doomed.act {s : Service} (h : s.Doomed) (hbase : s.Base) (a : Connect.Action)
    : (s.act a).Doomed := by
  rcases h with hlate | ⟨hover, n, hn, hleft⟩ | ⟨n, hn, hstuck⟩
  . obtain ⟨started, hlate', -⟩ := s.late_act a
    refine Or.inl ?_
    simp [hlate', hlate]
  . obtain ⟨hover', hdropped⟩ := hover.act a
    refine Or.inr (Or.inl ⟨hover', n, mem_created_act.mpr (Or.inl hn), ?_⟩)
    rw [mem_destroyed_act, hdropped]
    simp [hleft]
  . refine Or.inr (Or.inr ⟨n, mem_listeners_act.mpr ⟨hn, ?_⟩, ?_⟩)
    . rcases hstuck with hne | hover
      . unfold dropped
        split
        . rw [hbase.fields.provider]
          exact hne
        . simp
      . simp [(hover.act a).2]
    . rcases hstuck with hne | hover
      . exact Or.inl (contract_step_ne hbase (hbase.listeners n hn) hne a)
      . exact Or.inr (hover.act a).1

theorem Doomed.step {s : Service} (h : s.Doomed) (hbase : s.Base) (event : Event)
    : (s.step event).Doomed := by
  unfold Service.step
  split
  next =>
    split
    next hphase =>
      unfold onModuleDestroy
      rw [s.conn.step_destroy]
      rcases h with hlate | ⟨hover, -⟩ | ⟨n, hn, hstuck⟩
      . exact Or.inl hlate
      . simp [hover.completed] at hphase
      . rcases hstuck with hne | hover
        . exact Or.inr (Or.inr ⟨n, List.mem_filter.mpr ⟨hn, by simpa using hne⟩, Or.inl hne⟩)
        . simp [hover.completed] at hphase
    next => exact h
  next a _ => exact h.act hbase a
  next =>
    split
    next hphase =>
      rcases h with hlate | ⟨hover, -⟩ | ⟨n, hn, hstuck⟩
      . exact Or.inl hlate
      . simp [hover.completed] at hphase
      . rcases hstuck with hne | hover
        . refine Or.inr (Or.inr ⟨n, List.mem_filter.mpr ⟨hn, ?_⟩, Or.inl hne⟩)
          rw [hbase.fields.provider]
          simpa using hne
        . simp [hover.completed] at hphase
    next => exact h
  next i =>
    rcases h with hlate | ⟨hover, hleft⟩ | ⟨n, hn, hstuck⟩
    . exact Or.inl hlate
    . exact Or.inr (Or.inl ⟨⟨hover.completed, hover.conn⟩, hleft⟩)
    . refine Or.inr (Or.inr ⟨n, List.mem_append_left _ hn, hstuck.imp id fun hover => ?_⟩)
      exact ⟨hover.completed, hover.conn⟩

theorem Base.doomed {s : Service} (h : s.Base) {event : Event} (hharm : ¬ s.Harmless event)
    : (s.step event).Doomed := by
  cases event with
  | action a =>
    have ha : a ≠ .destroy := by
      rintro rfl
      exact hharm ⟨fun _ => id, fun _ => False.elim⟩
    rw [step_action ha]
    by_cases hstarts : s.conn.destroyed = true → ¬ s.conn.Starts a
    . -- the attempt passes its checks
      have hmissed : ¬ (s.phase = .completed → s.conn.Connects a →
          s.conn.attempt ∈ s.destroyed ∧ s.conn.attempt ∉ s.listeners) :=
        fun hok => hharm ⟨hstarts, hok⟩
      simp only [Classical.not_imp] at hmissed
      obtain ⟨hcompleted, hconnects, hmissed⟩ := hmissed
      obtain ⟨hover, hprovider⟩ := hconnects.over (h.timer hcompleted)
      have hdropped := dropped_of_provider_eq hprovider
      have hover' : (s.act a).Over := ⟨hcompleted, hover⟩
      by_cases hdestroyed : s.conn.attempt ∈ s.destroyed
      . have hlistener : s.conn.attempt ∈ s.listeners := by
          by_contra hlistener
          exact hmissed ⟨hdestroyed, hlistener⟩
        refine Or.inr (Or.inr ⟨s.conn.attempt, mem_listeners_act.mpr ⟨hlistener, ?_⟩, Or.inr hover'⟩)
        simp [hdropped]
      . have hheld : s.conn.provider = some s.conn.attempt :=
          h.fields.provider.trans (h.fields.checking hconnects.checking)
        have hcreated : s.conn.attempt ∈ (s.act a).created :=
          mem_created_act.mpr (Or.inl (h.provider _ hheld))
        refine Or.inr (Or.inl ⟨hover', s.conn.attempt, hcreated, ?_⟩)
        rw [mem_destroyed_act, hdropped]
        simp [hdestroyed]
    . obtain ⟨started, hlate, hnil⟩ := s.late_act a
      refine Or.inl ?_
      simp [hlate, mt hnil.mp hstarts]
  | listenersRemoved => exact absurd trivial hharm
  | subscribe i =>
    simp only [Harmless, Classical.not_forall] at hharm
    obtain ⟨n, hn, hharm⟩ := hharm
    refine Or.inr (Or.inr ⟨n, ?_, ?_⟩)
    . simp [Service.step, subscribe, hn]
    . by_cases hheld : s.conn.contract = some n
      . simp only [hheld, true_and, Classical.not_imp] at hharm
        refine Or.inr ⟨hharm.1, hharm.2, fun hpc => ?_, h.timer hharm.1⟩
        simp [h.fields.fetching hpc] at hheld
      . exact Or.inl hheld

theorem Doomed.not_final {s : Service} (h : s.Doomed) : ¬ s.Final := by
  intro hfinal
  rcases h with hlate | ⟨-, n, hn, hleft⟩ | ⟨n, hn, -⟩
  . exact hlate hfinal.handlers
  . exact hleft (hfinal.providers n hn)
  . simp [hfinal.listeners] at hn

theorem Doomed.run {s : Service} (h : s.Doomed) (hbase : s.Base) (events : List Event)
    : (s.run events).Doomed := by
  induction events generalizing s with
  | nil => exact h
  | cons event events ih => exact ih (h.step hbase event) (hbase.step event)

theorem final_run_iff {s : Service} (h : s.Clean) (hbase : s.Base) (events : List Event)
    (hended : (s.run events).Ended) : (s.run events).Final ↔ s.HarmlessRun events := by
  induction events generalizing s with
  | nil => exact ⟨fun _ => trivial, fun _ => h.final hbase hended⟩
  | cons event events ih =>
    have hbase' := hbase.step event
    by_cases hharmless : s.Harmless event
    . rw [HarmlessRun, and_iff_right hharmless]
      exact ih (h.step hbase hharmless) hbase' hended
    . refine ⟨fun hfinal => ?_, fun hrun => absurd hrun.1 hharmless⟩
      exact absurd hfinal (((hbase.doomed hharmless).run hbase' events).not_final)

/-- A step of a run, with the state that it is taken in. -/
theorem harmlessRun_iff {s : Service} {events : List Event}
    : s.HarmlessRun events
      ↔ ∀ before event after, events = before ++ event :: after → (s.run before).Harmless event := by
  induction events generalizing s with
  | nil => simp [HarmlessRun]
  | cons event events ih =>
    unfold HarmlessRun
    rw [ih]
    constructor
    . rintro ⟨hharmless, hrest⟩ before event' after hsplit
      cases before with
      | nil =>
        obtain ⟨rfl, -⟩ := List.cons.inj hsplit
        exact hharmless
      | cons e before =>
        obtain ⟨rfl, htail⟩ := List.cons.inj hsplit
        exact hrest before event' after htail
    . intro hall
      refine ⟨hall [] event events rfl, fun before event' after hsplit => ?_⟩
      exact hall (event :: before) event' after (by rw [hsplit, List.cons_append])

theorem run_concat (s : Service) (events : List Event) (event : Event)
    : s.run (events ++ [event]) = (s.run events).step event := by
  simp [run, List.foldl_append]

theorem Base.run {s : Service} (h : s.Base) (events : List Event) : (s.run events).Base := by
  induction events generalizing s with
  | nil => exact h
  | cons event events ih => exact ih (h.step event)

end Service

/-- The chain id of an attempt is answered, and lets it build, after `onModuleDestroy` has completed. -/
def BuiltLate (before : List Event) (chainId : Nat) : Prop :=
  (start.run before).phase = .completed ∧ (start.run before).conn.pc = .fetchingChainId
    ∧ chainMatchesProd chainId = true

/--
When what may come. Once `onModuleDestroy` was called, no registration comes while a contract is held, no
handler settles that others wait for, and `serverAddress` is not answered while handlers wait. Once it has
completed, `serverAddress` is not answered to an attempt whose chain id came later still. And a handler
subscribes while its contract is the one that is held; once `onModuleDestroy` has completed, only while that
contract is being checked, and then `serverAddress` is not answered any more.
-/
structure Orderly (events : List Event) : Prop where
  register : ∀ before after, events = before ++ .action .register :: after →
    (start.run before).conn.destroyed = true → (start.run before).conn.contract = none
  settled : ∀ before rest after, events = before ++ .action .handlerSettled :: after →
    (start.run before).conn.destroyed = true → (start.run before).conn.pc = .handling rest → rest = []
  serverAddress : ∀ before address after, events = before ++ .action (.serverAddress (some address)) :: after →
    (start.run before).conn.destroyed = true → (start.run before).conn.pc = .readingServerAddress →
    (start.run before).conn.connectedHandlers = []
  chainId : ∀ before chainId between address after,
    events = before ++ .action (.chainId (some chainId)) :: between
      ++ .action (.serverAddress (some address)) :: after →
    BuiltLate before chainId →
    (start.run (before ++ .action (.chainId (some chainId)) :: between)).conn.pc ≠ .readingServerAddress
  subscribe : ∀ before i after n, events = before ++ .subscribe i :: after →
    (start.run before).conn.ran[i]?.bind Connect.Run.contract = some n →
    (start.run before).conn.contract = some n
      ∧ ((start.run before).phase = .completed →
        (start.run before).conn.Checking
          ∧ ∀ between address rest, after = between ++ .action (.serverAddress (some address)) :: rest →
            (start.run (before ++ .subscribe i :: between)).conn.pc ≠ .readingServerAddress)

namespace Service

/-- Where a contract that is being checked comes from, once `onModuleDestroy` has completed. -/
structure Traced (events : List Event) (s : Service) : Prop where
  destroyed : s.phase = .completed → s.conn.Checking → s.conn.attempt ∉ s.destroyed →
    ∃ before chainId between, events = before ++ .action (.chainId (some chainId)) :: between
      ∧ BuiltLate before chainId
  listeners : s.phase = .completed → s.conn.Checking → s.conn.attempt ∈ s.listeners →
    ∃ before i between n, events = before ++ .subscribe i :: between
      ∧ (start.run before).conn.ran[i]?.bind Connect.Run.contract = some n
      ∧ (start.run before).phase = .completed

theorem Traced.keep {events : List Event} {s s' : Service} (h : Traced events s) (event : Event)
    (hphase : s'.phase = .completed → s.phase = .completed)
    (hchecking : s'.conn.Checking → s.conn.Checking ∧ s'.conn.attempt = s.conn.attempt)
    (hdestroyed : ∀ n ∈ s.destroyed, n ∈ s'.destroyed) (hlisteners : ∀ n ∈ s'.listeners, n ∈ s.listeners)
    : Traced (events ++ [event]) s' := by
  constructor
  . intro hcompleted hchecking' hleft
    obtain ⟨hbefore, hattempt⟩ := hchecking hchecking'
    rw [hattempt] at hleft
    obtain ⟨before, chainId, between, rfl, hlate⟩ := h.destroyed (hphase hcompleted) hbefore
      (fun hmem => hleft (hdestroyed _ hmem))
    exact ⟨before, chainId, between ++ [event], by simp, hlate⟩
  . intro hcompleted hchecking' hmem
    obtain ⟨hbefore, hattempt⟩ := hchecking hchecking'
    rw [hattempt] at hmem
    obtain ⟨before, i, between, n, rfl, hran, hlate⟩ := h.listeners (hphase hcompleted) hbefore (hlisteners _ hmem)
    exact ⟨before, i, between ++ [event], n, by simp, hran, hlate⟩

theorem run_traced (events : List Event) : Traced events (start.run events) := by
  induction events using List.reverseRecOn with
  | nil =>
    constructor
    . intro hcompleted
      cases hcompleted
    . intro hcompleted
      cases hcompleted
  | append_singleton events event ih =>
    have hbase : (start.run events).Base := Base.start.run events
    have hbuiltLate : ∀ chainId, (start.run events).phase = .completed →
        (start.run events).conn.pc = .fetchingChainId → chainMatchesProd chainId = true →
        BuiltLate events chainId := fun _ hphase hpc hchain => ⟨hphase, hpc, hchain⟩
    have hsubscribed : ∀ i n, (start.run events).conn.ran[i]?.bind Connect.Run.contract = some n →
        (start.run events).phase = .completed →
        ∃ before i' between n', events ++ [.subscribe i] = before ++ .subscribe i' :: between
          ∧ (start.run before).conn.ran[i']?.bind Connect.Run.contract = some n'
          ∧ (start.run before).phase = .completed :=
      fun i n hran hphase => ⟨events, i, [], n, rfl, hran, hphase⟩
    rw [run_concat]
    generalize start.run events = s at ih hbase hbuiltLate hsubscribed
    unfold Service.step
    split
    next =>
      split
      next =>
        constructor
        . intro hcompleted
          cases hcompleted
        . intro hcompleted
          cases hcompleted
      next => exact ih.keep _ id (fun hchecking => ⟨hchecking, rfl⟩) (fun _ => id) (fun _ => id)
    next a _ =>
      by_cases hbuilt : s.conn.built a = some s.conn.attempt
      . -- `build`: the contract is a new one, with no listener
        obtain ⟨chainId, rfl, hpc, hchain⟩ := Connect.State.eq_chainId_of_built hbuilt
        constructor
        . intro hcompleted _ _
          exact ⟨events, chainId, [], rfl, hbuiltLate chainId hcompleted hpc hchain⟩
        . intro _ _ hmem
          have hattempt := Connect.State.attempt_of_built hbuilt
          have hspent := hbase.listeners _ (mem_listeners_act.mp hmem).1
          have hsame : (s.act (.chainId (some chainId))).conn.attempt = s.conn.attempt := hattempt
          rw [hsame] at hspent
          rcases hspent with hlt | ⟨-, hne⟩
          . exact absurd hlt (Nat.lt_irrefl _)
          . exact absurd hpc hne
      . exact ih.keep _ id (fun hchecking => Connect.State.checking_of_step hbuilt hchecking)
          (fun n hn => mem_destroyed_act.mpr (.inl hn)) (fun n hn => (mem_listeners_act.mp hn).1)
    next =>
      split
      next hphase =>
        -- the provider of a contract that is being checked is destroyed, with its listeners
        have hheld : s.conn.Checking → s.conn.provider = some s.conn.attempt :=
          fun hchecking => hbase.fields.provider.trans (hbase.fields.checking hchecking)
        constructor
        . intro _ hchecking hleft
          refine absurd ?_ hleft
          simp [destroyProvider, hheld hchecking]
        . intro _ hchecking hmem
          exact absurd (hheld hchecking) (of_decide_eq_true (List.mem_filter.mp hmem).2)
      next => exact ih.keep _ id (fun hchecking => ⟨hchecking, rfl⟩) (fun _ => id) (fun _ => id)
    next i =>
      have hkept : Traced (events ++ [.subscribe i]) s :=
        ih.keep _ id (fun hchecking => ⟨hchecking, rfl⟩) (fun _ => id) (fun _ => id)
      refine ⟨hkept.destroyed, fun hcompleted hchecking hmem => ?_⟩
      simp only [subscribe, List.mem_append, Option.mem_toList] at hmem
      rcases hmem with hmem | hmem
      . exact hkept.listeners hcompleted hchecking hmem
      . exact hsubscribed i _ hmem hcompleted

/--
Once `onModuleDestroy` has completed, a contract that is being checked goes on being checked, with its
provider and listeners as they are, or its attempt is over.
-/
theorem step_checking {s : Service} (h : s.Base) (hcompleted : s.phase = .completed) (hchecking : s.conn.Checking)
    (event : Event)
    : (s.step event).phase = .completed
      ∧ ((s.step event).conn.Over
        ∨ (s.step event).conn.Checking ∧ (s.step event).conn.attempt = s.conn.attempt
          ∧ (s.step event).destroyed = s.destroyed ∧ ∀ n ∈ s.listeners, n ∈ (s.step event).listeners) := by
  have htimer := h.timer hcompleted
  have hdestroyed : s.conn.destroyed = true := by simp [h.flag, hcompleted]
  unfold Service.step
  split
  next => simp [hcompleted, hchecking]
  next a ha =>
    refine ⟨hcompleted, ?_⟩
    rcases Connect.State.over_or_checking h.fields hchecking hdestroyed a (fun hd => ha (by rw [hd])) with
      hover | ⟨hnext, hattempt, hprovider⟩
    . exact .inl hover
    . have hdropped := dropped_of_provider_eq hprovider
      refine .inr ⟨hnext, hattempt, ?_, fun n hn => mem_listeners_act.mpr ⟨hn, by simp [hdropped]⟩⟩
      have hact : (s.act a).destroyed = s.destroyed ++ (s.dropped a).toList := rfl
      rw [hact, hdropped, Option.toList_none, List.append_nil]
  next => simp [hcompleted, hchecking]
  next i => exact ⟨hcompleted, .inr ⟨hchecking, rfl, rfl, fun n hn => List.mem_append_left _ hn⟩⟩

theorem Over.run {s : Service} (h : s.Over) (events : List Event) : (s.run events).Over := by
  induction events generalizing s with
  | nil => exact h
  | cons event events ih =>
    refine ih ?_
    unfold Service.step
    split
    next => simpa [h.completed] using h
    next a _ => exact (h.act a).1
    next => simpa [h.completed] using h
    next i => exact ⟨h.completed, h.conn⟩

theorem run_checking {s : Service} (h : s.Base) (hcompleted : s.phase = .completed) (hchecking : s.conn.Checking)
    (events : List Event) (hpc : (s.run events).conn.Checking)
    : (s.run events).phase = .completed ∧ (s.run events).conn.attempt = s.conn.attempt
      ∧ (s.run events).destroyed = s.destroyed ∧ ∀ n ∈ s.listeners, n ∈ (s.run events).listeners := by
  induction events generalizing s with
  | nil => exact ⟨hcompleted, rfl, rfl, fun _ => id⟩
  | cons event events ih =>
    obtain ⟨hphase, hover | ⟨hnext, hattempt, hdestroyed, hlisteners⟩⟩ := step_checking h hcompleted hchecking event
    . have hend : (s.run (event :: events)).Over := Over.run (s := s.step event) ⟨hphase, hover⟩ events
      exact absurd hpc hend.conn.checking
    . obtain ⟨hphase', hattempt', hdestroyed', hlisteners'⟩ := ih (h.step event) hphase hnext hpc
      exact ⟨hphase', hattempt'.trans hattempt, hdestroyed'.trans hdestroyed,
        fun n hn => hlisteners' n (hlisteners n hn)⟩

theorem run_append (s : Service) (events more : List Event) : s.run (events ++ more) = (s.run events).run more :=
  List.foldl_append

theorem harmless_of_orderly {events : List Event} (h : Orderly events) : start.HarmlessRun events := by
  rw [harmlessRun_iff]
  intro before event after hsplit
  have hbase : (start.run before).Base := Base.start.run before
  have htraced := run_traced before
  cases event with
  | listenersRemoved => trivial
  | subscribe i =>
    intro n hn
    obtain ⟨hheld, hcompleted⟩ := h.subscribe before i after n hsplit hn
    exact ⟨hheld, fun hphase => (hcompleted hphase).1⟩
  | action a =>
    constructor
    . intro hdestroyed hstarts
      unfold Connect.State.Starts at hstarts
      split at hstarts
      next address => exact hstarts.2 (h.serverAddress before address after hsplit hdestroyed hstarts.1)
      next =>
        unfold Connect.State.due at hstarts
        split at hstarts
        next rest hpc => exact hstarts (h.settled before rest after hsplit hdestroyed hpc)
        next => exact hstarts rfl
      next =>
        have hnone := h.register before after hsplit hdestroyed
        simp [Connect.State.isAvailable, hnone] at hstarts
      next => exact hstarts
    . intro hcompleted hconnects
      have hchecking := hconnects.checking
      unfold Connect.State.Connects at hconnects
      split at hconnects
      next address =>
        constructor
        . by_contra hleft
          obtain ⟨before', chainId, between, rfl, hlate⟩ := htraced.destroyed hcompleted hchecking hleft
          exact h.chainId before' chainId between address after hsplit hlate hconnects
        . intro hmem
          obtain ⟨before', i, between, n, rfl, hran, hlate⟩ := htraced.listeners hcompleted hchecking hmem
          obtain ⟨-, hlast⟩ := h.subscribe before' i (between ++ .action (.serverAddress (some address)) :: after) n
            (by rw [hsplit, List.append_assoc, List.cons_append]) hran
          exact (hlast hlate).2 between address after rfl hconnects
      next => exact hconnects.elim

theorem orderly_of_harmless {events : List Event} (h : start.HarmlessRun events) : Orderly events := by
  rw [harmlessRun_iff] at h
  refine ⟨?_, ?_, ?_, ?_, ?_⟩
  . intro before after hsplit hdestroyed
    have hbase : (start.run before).Base := Base.start.run before
    have hstarts := (h before _ after hsplit).1 hdestroyed
    cases hcontract : (start.run before).conn.contract with
    | none => rfl
    | some n =>
      refine absurd ?_ hstarts
      simp [Connect.State.Starts, Connect.State.isAvailable, hbase.fields.provider, hcontract]
  . intro before rest after hsplit hdestroyed hpc
    have hstarts := (h before _ after hsplit).1 hdestroyed
    by_contra hrest
    exact hstarts (by simpa [Connect.State.Starts, Connect.State.due, hpc] using hrest)
  . intro before address after hsplit hdestroyed hpc
    have hstarts := (h before _ after hsplit).1 hdestroyed
    by_contra hwaiting
    exact hstarts ⟨hpc, hwaiting⟩
  . rintro before chainId between address after hsplit ⟨hcompleted, hfetching, hchain⟩ hpc
    have hbase : (start.run before).Base := Base.start.run before
    obtain ⟨-, hconnects⟩ := h _ _ after hsplit
    have hsplit' : start.run (before ++ .action (.chainId (some chainId)) :: between)
        = ((start.run before).step (.action (.chainId (some chainId)))).run between := by
      rw [run_append]
      rfl
    rw [hsplit'] at hconnects hpc
    -- the provider is a new one, so it was not destroyed, and it is not while it is checked
    have hstep : ((start.run before).step (.action (.chainId (some chainId)))).conn.Checking
        ∧ ((start.run before).step (.action (.chainId (some chainId)))).conn.attempt = (start.run before).conn.attempt
        ∧ ((start.run before).step (.action (.chainId (some chainId)))).destroyed = (start.run before).destroyed := by
      have hconn : (start.run before).conn.step (.chainId (some chainId))
          = { (start.run before).conn.build with pc := .readingCMax } := by
        simp [Connect.State.step, hfetching, Connect.State.answerChainId, hchain]
      refine ⟨?_, ?_, ?_⟩
      . simp [Service.step, act, destroyProvider, hconn, Connect.State.Checking]
      . simp [Service.step, act, destroyProvider, hconn, Connect.State.build]
      . simp [Service.step, act, destroyProvider, hconn, Connect.State.build]
    have hcompleted' : ((start.run before).step (.action (.chainId (some chainId)))).phase = .completed := hcompleted
    obtain ⟨hphase, hattempt, hdestroyed, -⟩ := run_checking (hbase.step _) hcompleted' hstep.1 between
      (Connect.State.checking_of_readingServerAddress hpc)
    have hmem := (hconnects hphase hpc).1
    rw [hattempt, hdestroyed, hstep.2.1, hstep.2.2] at hmem
    rcases hbase.destroyed _ hmem with hlt | ⟨-, hne⟩
    . exact Nat.lt_irrefl _ hlt
    . exact hne hfetching
  . intro before i after n hsplit hran
    have hbase : (start.run before).Base := Base.start.run before
    obtain ⟨hheld, hcompleted⟩ := h before _ after hsplit n hran
    refine ⟨hheld, fun hphase => ⟨hcompleted hphase, fun between address rest hafter hpc => ?_⟩⟩
    have hsplit' : start.run (before ++ .subscribe i :: between)
        = ((start.run before).subscribe i).run between := by
      rw [run_append]
      rfl
    have hmem : n ∈ ((start.run before).subscribe i).listeners := by
      simp [subscribe, hran]
    obtain ⟨-, hconnects⟩ := h (before ++ .subscribe i :: between) (.action (.serverAddress (some address))) rest
      (by rw [hsplit, hafter, List.append_assoc, List.cons_append])
    rw [hsplit'] at hconnects hpc
    obtain ⟨hphase', hattempt, -, hlisteners⟩ := run_checking (hbase.step (.subscribe i)) hphase (hcompleted hphase)
      between (Connect.State.checking_of_readingServerAddress hpc)
    refine (hconnects hphase' hpc).2 ?_
    have hattempt' : (((start.run before).subscribe i).run between).conn.attempt = n :=
      hattempt.trans (hbase.fields.held n hheld).symm
    rw [hattempt']
    exact hlisteners n hmem

end Service

open Service

/--
Once `onModuleDestroy` has completed and the attempt has ended, nothing of the service is left, if and
only if everything came in order.
-/
theorem onModuleDestroy_final_iff (events : List Event) (hended : (start.run events).Ended)
    : (start.run events).Final ↔ Orderly events :=
  (final_run_iff Clean.start Base.start events hended).trans ⟨orderly_of_harmless, harmless_of_orderly⟩

/-- The contract does not answer any more while it is checked and the service is destroyed. -/
theorem onModuleDestroy_final_checking
    : (start.run [.action (.chainId (some 1)), .action (.cMax (some 10)), .action .destroy,
      .listenersRemoved, .action (.serverPublicKey none)]).Final :=
  (onModuleDestroy_final_iff _ ⟨rfl, rfl⟩).mpr (orderly_of_harmless
    ⟨⟨fun _ => id, fun _ => False.elim⟩, ⟨fun _ => id, fun _ => False.elim⟩,
      ⟨fun _ => id, fun _ => False.elim⟩, trivial, ⟨fun _ => id, fun _ => False.elim⟩, trivial⟩)

/--
The RPC does not answer at boot, and `onModuleDestroy` comes while the retry awaits `fetchChainId`.
The attempt then connects, and its handler subscribes a listener.
-/
theorem onModuleDestroy_not_final
    : ¬ ∀ events, (start.run events).Ended → (start.run events).Final := by
  intro h
  have hfinal := h [.action (.chainId none), .action .register, .action .retryTimer, .action .destroy,
    .listenersRemoved, .action (.chainId (some 1)), .action (.cMax (some 10)),
    .action (.serverPublicKey (some ⟨3, 4⟩)), .action (.signerKey (some ⟨3, 4⟩)),
    .action (.serverAddress (some 7)), .subscribe 0, .action .handlerSettled] ⟨by decide, by decide⟩
  exact absurd hfinal.handlers (by decide)

end Shutdown
end Blockchain
end Longjing
