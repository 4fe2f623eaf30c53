import Mathlib.Algebra.Order.Field.Rat
import Mathlib.Data.List.MinMax
import Mathlib.Data.List.Pairwise
import Mathlib.Tactic.Common

/-!
This module contains `eth-rate-oracle.service.ts`: calls that wait for a rate of ETH side by side, the cache and the
table that they share, and how old a rate gets on its way through them.
-/

namespace Longjing
namespace Pricing

/-- A rate, and when its source gave it. -/
structure Rate where
  usd : Rat
  obtainedAt : Int
deriving DecidableEq, Repr

inductive RateSource where
  | kraken
  | chainlink
deriving DecidableEq, Repr

structure EthRateRow where
  rate : Rate
  source : RateSource
  timestamp : Int
deriving DecidableEq, Repr

structure CachedRate where
  rate : Rate
  timestamp : Int
deriving DecidableEq, Repr

/-- A call of `getEthUsdRate` that waits for a source. -/
structure RateCall where
  start : Int
  waitsFor : RateSource
deriving DecidableEq, Repr

/-- `eth_rates` is on disk, in the order of its ids. -/
structure EthRateOracle where
  cache : Option CachedRate
  eth_rates : List EthRateRow
  calls : List RateCall
deriving DecidableEq, Repr

/-- `ORDER BY timestamp DESC LIMIT 1`, which leaves open what comes first of rows that tie. -/
structure RateSorter where
  latest : List EthRateRow → Option EthRateRow
  latest_eq_none : ∀ rows, latest rows = none ↔ rows = []
  mem_of_latest : ∀ rows row, latest rows = some row → row ∈ rows
  le_latest : ∀ rows row, latest rows = some row → ∀ row' ∈ rows, row'.timestamp ≤ row.timestamp

namespace EthRateOracle

def CACHE_TTL : Int := 60000
def MAX_DB_RATE_AGE : Int := 60 * 60 * 1000

inductive Event where
  | getEthUsdRate (now : Int)
  -- what the source of the i-th call gave, `none` if it failed
  | answer (i : Nat) (rate : Option Rate) (now : Int)
  | restart (now : Int)
deriving DecidableEq, Repr

def Event.time : Event → Int
  | .getEthUsdRate now => now
  | .answer _ _ now => now
  | .restart now => now

/-- The rate that a source gave. -/
def Event.given : Event → Option Rate
  | .answer _ rate _ => rate
  | _ => none

inductive Outcome where
  | waits
  | returned (rate : Rate)
  -- "Unable to fetch ETH/USD rate from any source (Kraken, DB cache, or Chainlink)"
  | threw
deriving DecidableEq, Repr

def init : EthRateOracle := ⟨none, [], []⟩

section Run

variable (db : RateSorter)

/-- The cache is stamped with the start of the call. -/
def step (s : EthRateOracle) : Event → EthRateOracle × Outcome
  | .getEthUsdRate now =>
    match s.cache.filter (now - ·.timestamp < CACHE_TTL) with
    | some cached => (s, .returned cached.rate)
    | none => ({ s with calls := s.calls ++ [⟨now, .kraken⟩] }, .waits)
  | .answer i answer now =>
    match s.calls[i]? with
    | none => (s, .waits)
    | some call =>
      let calls := s.calls.eraseIdx i
      match answer, call.waitsFor with
      | some rate, source =>
        (⟨some ⟨rate, call.start⟩, s.eth_rates ++ [⟨rate, source, now⟩], calls⟩, .returned rate)
      | none, .kraken =>
        match (db.latest s.eth_rates).filter (call.start - ·.timestamp < MAX_DB_RATE_AGE) with
        | some row => (⟨some ⟨row.rate, call.start⟩, s.eth_rates, calls⟩, .returned row.rate)
        | none => ({ s with calls := calls ++ [⟨call.start, .chainlink⟩] }, .waits)
      | none, .chainlink => ({ s with calls }, .threw)
  | .restart _ => (⟨none, s.eth_rates, []⟩, .waits)

/-- A property of each step of a run. -/
def Along (P : EthRateOracle → Event → Prop) : EthRateOracle → List Event → Prop
  | _, [] => True
  | s, event :: events => P s event ∧ Along P (step db s event).1 events

instance instDecidableAlong {P : EthRateOracle → Event → Prop} [hstep : ∀ s event, Decidable (P s event)]
    : ∀ s events, Decidable (Along db P s events)
  | _, [] => .isTrue trivial
  | s, event :: events => @instDecidableAnd _ _ (hstep s event) (instDecidableAlong (step db s event).1 events)

/-- A source answers while the call waits. -/
def Plausible (s : EthRateOracle) : Event → Prop
  | .answer i (some rate) now => ∀ call ∈ s.calls[i]?, call.start ≤ rate.obtainedAt ∧ rate.obtainedAt ≤ now
  | _ => True

instance : ∀ s event, Decidable (Plausible s event)
  | s, .answer i (some rate) now =>
    inferInstanceAs (Decidable (∀ call ∈ s.calls[i]?, call.start ≤ rate.obtainedAt ∧ rate.obtainedAt ≤ now))
  | _, .answer _ none _ => .isTrue trivial
  | _, .getEthUsdRate _ => .isTrue trivial
  | _, .restart _ => .isTrue trivial

/-- What is promised of a step. -/
structure Bounded (s : EthRateOracle) (event : Event) : Prop where
  returned : ∀ rate, (step db s event).2 = .returned rate → event.time - rate.obtainedAt < MAX_DB_RATE_AGE
  cache : ∀ cached ∈ s.cache, ∀ cached' ∈ (step db s event).1.cache,
    cached.rate.obtainedAt ≤ cached'.rate.obtainedAt

/-- No answer waits more than `lag` for its call to go on, and a call that falls back on the table would use the latest
row too if it allowed for `lag`, for its own wait, and for the time for which it will cache the rate. -/
def Timely (lag : Int) (s : EthRateOracle) : Event → Prop
  | .answer i (some rate) now => (s.calls[i]?).isSome = true → now - rate.obtainedAt ≤ lag
  | .answer i none now =>
    ∀ call ∈ s.calls[i]?, call.waitsFor = .kraken →
      ∀ row ∈ db.latest s.eth_rates, call.start - row.timestamp < MAX_DB_RATE_AGE →
        -- the code compares the start of the call
        now - row.timestamp < MAX_DB_RATE_AGE - lag
          -- and stamps the cache with it
          ∧ call.start + CACHE_TTL - row.timestamp ≤ MAX_DB_RATE_AGE - lag
          ∧ ∀ row' ∈ s.eth_rates, row'.timestamp = row.timestamp → row' = row
  | _ => True

instance (lag : Int) : ∀ s event, Decidable (Timely db lag s event)
  | s, .answer i (some rate) now =>
    inferInstanceAs (Decidable ((s.calls[i]?).isSome = true → now - rate.obtainedAt ≤ lag))
  | s, .answer i none now =>
    inferInstanceAs (Decidable (∀ call ∈ s.calls[i]?, call.waitsFor = .kraken →
      ∀ row ∈ db.latest s.eth_rates, call.start - row.timestamp < MAX_DB_RATE_AGE →
        now - row.timestamp < MAX_DB_RATE_AGE - lag ∧ call.start + CACHE_TTL - row.timestamp ≤ MAX_DB_RATE_AGE - lag
          ∧ ∀ row' ∈ s.eth_rates, row'.timestamp = row.timestamp → row' = row))
  | _, .getEthUsdRate _ => .isTrue trivial
  | _, .restart _ => .isTrue trivial

end Run

/-- The calls go on in the order in which the sources answered. -/
def InOrder (events : List Event) : Prop :=
  (events.filterMap Event.given).Pairwise (·.obtainedAt ≤ ·.obtainedAt)

instance (events : List Event) : Decidable (InOrder events) :=
  inferInstanceAs (Decidable ((events.filterMap Event.given).Pairwise (·.obtainedAt ≤ ·.obtainedAt)))

/-- The rows are in the order in which their rates were obtained, and were saved soon. The cache holds the rate of one,
and gives it up in time. -/
structure Inv (lag : Int) (s : EthRateOracle) (now : Int) : Prop where
  ordered : s.eth_rates.Pairwise fun row row' =>
    row.timestamp ≤ row'.timestamp ∧ row.rate.obtainedAt ≤ row'.rate.obtainedAt
  saved : ∀ row ∈ s.eth_rates, row.timestamp ≤ now ∧ row.timestamp - row.rate.obtainedAt ≤ lag
  cached : ∀ cached ∈ s.cache, (∃ row ∈ s.eth_rates, row.rate = cached.rate)
    ∧ cached.timestamp + CACHE_TTL ≤ cached.rate.obtainedAt + MAX_DB_RATE_AGE

variable {db : RateSorter} {lag : Int} {s : EthRateOracle} {now : Int}

theorem Inv.mono {later : Int} (h : Inv lag s now) (hlater : now ≤ later) : Inv lag s later :=
  ⟨h.ordered, fun row hrow => ⟨(h.saved row hrow).1.trans hlater, (h.saved row hrow).2⟩, h.cached⟩

theorem Inv.obtainedAt_le (h : Inv lag s now) {row row' : EthRateRow} (hrow : row ∈ s.eth_rates)
    (hrow' : row' ∈ s.eth_rates) (hlt : row.timestamp < row'.timestamp)
    : row.rate.obtainedAt ≤ row'.rate.obtainedAt := by
  obtain ⟨i, hi, rfl⟩ := List.mem_iff_getElem.mp hrow
  obtain ⟨j, hj, rfl⟩ := List.mem_iff_getElem.mp hrow'
  have hordered := List.pairwise_iff_getElem.mp h.ordered
  rcases Nat.lt_trichotomy i j with hij | rfl | hji
  . exact (hordered i j hi hj hij).2
  . exact le_rfl
  . have hle := (hordered j i hj hi hji).1
    omega

/-- What a step can do. -/
inductive Does (db : RateSorter) (s : EthRateOracle) : Event → EthRateOracle × Outcome → Prop where
  | idle {event : Event} {s' : EthRateOracle} {outcome : Outcome} (rows : s'.eth_rates = s.eth_rates)
      (cache : s'.cache = s.cache ∨ s'.cache = none) (outcome_ne : ∀ rate, outcome ≠ .returned rate)
      : Does db s event (s', outcome)
  | hit {now : Int} {cached : CachedRate} (cache : s.cache = some cached)
      (fresh : now - cached.timestamp < CACHE_TTL) : Does db s (.getEthUsdRate now) (s, .returned cached.rate)
  | used {i : Nat} {rate : Rate} {now : Int} {call : RateCall} {calls : List RateCall}
      (waits : s.calls[i]? = some call)
      : Does db s (.answer i (some rate) now)
        (⟨some ⟨rate, call.start⟩, s.eth_rates ++ [⟨rate, call.waitsFor, now⟩], calls⟩, .returned rate)
  | fallback {i : Nat} {now : Int} {call : RateCall} {row : EthRateRow} {calls : List RateCall}
      (waits : s.calls[i]? = some call) (kraken : call.waitsFor = .kraken)
      (latest : db.latest s.eth_rates = some row) (recent : call.start - row.timestamp < MAX_DB_RATE_AGE)
      : Does db s (.answer i none now) (⟨some ⟨row.rate, call.start⟩, s.eth_rates, calls⟩, .returned row.rate)

theorem step_does (db : RateSorter) (s : EthRateOracle) (event : Event) : Does db s event (step db s event) := by
  cases event with
  | restart now => exact .idle rfl (Or.inr rfl) (by simp)
  | getEthUsdRate now =>
    unfold step
    simp only
    split
    next cached hcached =>
      obtain ⟨hcache, hfresh⟩ := Option.filter_eq_some_iff.mp hcached
      exact .hit hcache (by simpa using hfresh)
    next => exact .idle rfl (Or.inl rfl) (by simp)
  | answer i answer now =>
    unfold step
    simp only
    split
    next => exact .idle rfl (Or.inl rfl) (by simp)
    next call hcall =>
      cases answer with
      | some rate => exact .used hcall
      | none =>
        cases hsource : call.waitsFor with
        | chainlink => exact .idle rfl (Or.inl rfl) (by simp)
        | kraken =>
          simp only
          split
          next row hrow =>
            obtain ⟨hlatest, hrecent⟩ := Option.filter_eq_some_iff.mp hrow
            exact .fallback hcall hsource hlatest (by simpa using hrecent)
          next => exact .idle rfl (Or.inl rfl) (by simp)

/-- A step saves nothing but the rate that a source gave. -/
theorem mem_eth_rates_step {event : Event} {row : EthRateRow} (hrow : row ∈ (step db s event).1.eth_rates)
    : row ∈ s.eth_rates ∨ event.given = some row.rate := by
  have hdoes := step_does db s event
  generalize step db s event = result at hdoes hrow
  cases hdoes with
  | idle rows => exact Or.inl (rows ▸ hrow)
  | hit => exact Or.inl hrow
  | fallback => exact Or.inl hrow
  | used =>
    rcases List.mem_append.mp hrow with hrow | hrow
    . exact Or.inl hrow
    . rw [List.mem_singleton.mp hrow]
      exact Or.inr rfl

theorem Inv.step (h : Inv lag s now) {event : Event} (hclock : now ≤ event.time) (hlag : lag < MAX_DB_RATE_AGE)
    (hanswer : Plausible s event) (htimely : Timely db lag s event)
    (hnewest : ∀ rate ∈ event.given, ∀ row ∈ s.eth_rates, row.rate.obtainedAt ≤ rate.obtainedAt)
    : Bounded db s event ∧ Inv lag (step db s event).1 event.time := by
  have hdoes := step_does db s event
  generalize hstep : EthRateOracle.step db s event = result at hdoes
  cases hdoes with
  | idle rows cache outcome_ne =>
    refine ⟨⟨fun rate hrate => ?_, fun cached hcached cached' hcached' => ?_⟩, ?_⟩
    . rw [hstep] at hrate
      exact absurd hrate (outcome_ne rate)
    . rw [hstep] at hcached'
      rcases cache with hsame | hnone
      . rw [hsame, hcached] at hcached'
        rw [Option.some.inj hcached']
      . rw [hnone] at hcached'
        contradiction
    . refine ⟨rows ▸ h.ordered, rows ▸ (h.mono hclock).saved, fun cached hcached => ?_⟩
      rcases cache with hsame | hnone
      . rw [rows]
        exact h.cached cached (hsame ▸ hcached)
      . rw [hnone] at hcached
        contradiction
  | @hit now' cached cache fresh =>
    refine ⟨⟨fun rate hrate => ?_, fun cached hcached cached' hcached' => ?_⟩, h.mono hclock⟩
    . rw [hstep] at hrate
      cases hrate
      show now' - cached.rate.obtainedAt < MAX_DB_RATE_AGE
      have hgives := (h.cached cached cache).2
      omega
    . rw [hstep, hcached] at hcached'
      rw [Option.some.inj hcached']
  -- no row is newer than the rate that is used
  | @used i rate now' call calls waits =>
    have hwaited : now' - rate.obtainedAt ≤ lag := htimely (by rw [waits]; rfl)
    refine ⟨⟨fun rate' hrate' => ?_, fun cached hcached cached' hcached' => ?_⟩, ?_⟩
    . rw [hstep] at hrate'
      cases hrate'
      exact hwaited.trans_lt hlag
    . rw [hstep] at hcached'
      cases hcached'
      obtain ⟨⟨row, hrow, hrate⟩, -⟩ := h.cached cached hcached
      rw [← hrate]
      exact hnewest rate rfl row hrow
    . refine ⟨?_, fun row hrow => ?_, fun cached hcached => ?_⟩
      . rw [List.pairwise_append]
        refine ⟨h.ordered, List.pairwise_singleton _ _, fun row hrow row' hrow' => ?_⟩
        rw [List.mem_singleton.mp hrow']
        exact ⟨(h.saved row hrow).1.trans hclock, hnewest rate rfl row hrow⟩
      . rcases List.mem_append.mp hrow with hrow | hrow
        . exact (h.mono hclock).saved row hrow
        . rw [List.mem_singleton.mp hrow]
          exact ⟨le_rfl, hwaited⟩
      . cases hcached
        refine ⟨⟨⟨rate, call.waitsFor, now'⟩, by simp, rfl⟩, ?_⟩
        -- a source answers after its call began
        have hstart : call.start ≤ rate.obtainedAt := (hanswer call waits).1
        exact add_le_add hstart (by decide)
  | @fallback i now' call row calls waits kraken latest recent =>
    obtain ⟨hnow, hcache, hties⟩ := htimely call waits kraken row latest recent
    have hrow := db.mem_of_latest _ _ latest
    have hsaved := (h.saved row hrow).2
    refine ⟨⟨fun rate' hrate' => ?_, fun cached hcached cached' hcached' => ?_⟩, ?_⟩
    . rw [hstep] at hrate'
      cases hrate'
      show now' - row.rate.obtainedAt < MAX_DB_RATE_AGE
      omega
    . rw [hstep] at hcached'
      cases hcached'
      obtain ⟨⟨row', hrow', hrate⟩, -⟩ := h.cached cached hcached
      rw [← hrate]
      -- the cache came from an older row, or from this one
      rcases lt_or_eq_of_le (db.le_latest _ _ latest row' hrow') with hlt | heq
      . exact h.obtainedAt_le hrow' hrow hlt
      . rw [hties row' hrow' heq]
    . refine ⟨h.ordered, (h.mono hclock).saved, fun cached hcached => ?_⟩
      cases hcached
      refine ⟨⟨row, hrow, rfl⟩, ?_⟩
      show call.start + CACHE_TTL ≤ row.rate.obtainedAt + MAX_DB_RATE_AGE
      omega

theorem Inv.along {events : List Event} (h : Inv lag s now) (hlag : lag < MAX_DB_RATE_AGE)
    (hclock : ∀ event ∈ events, now ≤ event.time) (hordered : events.Pairwise (·.time ≤ ·.time))
    (hanswers : Along db Plausible s events) (htimely : Along db (Timely db lag) s events)
    (hnewer : ∀ rate ∈ events.filterMap Event.given, ∀ row ∈ s.eth_rates, row.rate.obtainedAt ≤ rate.obtainedAt)
    (horder : InOrder events) : Along db (Bounded db) s events := by
  induction events generalizing s now with
  | nil => trivial
  | cons event events ih =>
    obtain ⟨hfirst, hrest⟩ := List.pairwise_cons.mp hordered
    have hnewest : ∀ rate ∈ event.given, ∀ row ∈ s.eth_rates, row.rate.obtainedAt ≤ rate.obtainedAt :=
      fun rate hrate => hnewer rate (List.mem_filterMap.mpr ⟨event, by simp, hrate⟩)
    obtain ⟨hbounded, hinv⟩ := h.step (hclock event (by simp)) hlag hanswers.1 htimely.1 hnewest
    refine ⟨hbounded, ih hinv hfirst hrest hanswers.2 htimely.2 (fun rate hrate row hrow => ?_) ?_⟩
    . rcases mem_eth_rates_step hrow with hrow | hgiven
      . obtain ⟨later, hlater, hrate⟩ := List.mem_filterMap.mp hrate
        exact hnewer rate (List.mem_filterMap.mpr ⟨later, List.mem_cons_of_mem _ hlater, hrate⟩) row hrow
      . unfold InOrder at horder
        rw [List.filterMap_cons_some hgiven] at horder
        exact (List.pairwise_cons.mp horder).1 rate hrate
    . exact List.Pairwise.sublist ((List.sublist_cons_self event events).filterMap _) horder

section Example

/-- The first row of the table among those that tie. -/
def tableSorter : RateSorter where
  latest := @List.argmax EthRateRow Int Int.instLinearOrder.toPreorder Int.instLinearOrder.toDecidableLT
    EthRateRow.timestamp
  latest_eq_none := fun _ => List.argmax_eq_none
  mem_of_latest := fun _ _ h => List.argmax_mem h
  le_latest := fun _ _ h _ hmem => List.le_of_mem_argmax hmem h

/-- Two calls overlap and the second falls back on what the first one saved. A later rate is read from the cache, and
from the table after a restart. -/
def exampleEvents : List Event :=
  [.getEthUsdRate 0, .getEthUsdRate 10, .answer 0 (some ⟨2000, 80⟩) 85, .answer 0 none 90, .getEthUsdRate 60000,
    .getEthUsdRate 70000, .answer 0 (some ⟨2010, 70100⟩) 70110, .getEthUsdRate 129999, .restart 130000,
    .getEthUsdRate 140000, .answer 0 none 140200, .getEthUsdRate 199999]

/-- A rate from the table that is almost an hour old is cached as new. -/
def staleEvents : List Event :=
  [.getEthUsdRate 0, .answer 0 (some ⟨2000, 0⟩) 0, .getEthUsdRate 3599000, .answer 0 none 3599000,
    .getEthUsdRate 3650000]

/-- Two calls that go on in the other order than their answers came. -/
def crossedEvents : List Event :=
  [.getEthUsdRate 0, .getEthUsdRate 1, .answer 1 (some ⟨2010, 50⟩) 60, .answer 0 (some ⟨2000, 10⟩) 100]

end Example

end EthRateOracle

end Pricing
end Longjing
