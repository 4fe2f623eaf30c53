import Longjing.Pricing.Oracle

/-!
Whether the cache of the oracle follows the repository.
-/

namespace Longjing
namespace Pricing

open Js Oracle

variable {db : Sorter}

/-- The oracle, and the time. -/
structure Session where
  oracle : Oracle
  now : TimeValue

inductive Call where
  | getPricing (providerId : String) (endpoint : Option String)
  | updatePricing (model : PricingModel) (changedBy reason : String)
  -- time passes
  | elapse (ms : Nat)
deriving DecidableEq

namespace Session

/-- Any tables, and nothing cached. -/
def start (repository : Repository) (now : TimeValue) : Session := ⟨⟨repository, []⟩, now⟩

def step (db : Sorter) (s : Session) : Call → Session
  | .getPricing providerId endpoint =>
    { s with oracle := (s.oracle.getPricing db s.now providerId endpoint).1 }
  | .updatePricing model changedBy reason =>
    { s with oracle := (s.oracle.updatePricing db s.now model changedBy reason).1 }
  | .elapse ms => { s with now := s.now.add ms }

def run (db : Sorter) (s : Session) (calls : List Call) : Session := calls.foldl (step db) s

/-- What the repository says now, as an answer of the oracle. -/
def current (db : Sorter) (s : Session) (providerId : String) (endpoint : Option String)
    : Except PricingError PricingModel :=
  match s.oracle.repository.getPricing db s.now providerId endpoint with
  | some model => .ok model
  | none => .error (notFound providerId endpoint)

/-- A price that the oracle would answer from its cache. -/
def IsCached (s : Session) (providerId : String) (endpoint : Option String) (model : PricingModel) : Prop :=
  ∃ expiry, Map.get s.oracle.pricingCache (cacheKey providerId endpoint) = some (model, expiry) ∧ s.now.ms < expiry

end Session

/-- Every lookup of the run answers what the repository says at that moment. -/
def Coherent (db : Sorter) (s : Session) (calls : List Call) : Prop :=
  ∀ earlier providerId endpoint later, calls = earlier ++ .getPricing providerId endpoint :: later →
    ((s.run db earlier).oracle.getPricing db (s.run db earlier).now providerId endpoint).2
      = (s.run db earlier).current db providerId endpoint

/-- No row comes into force or runs out only because time passes. -/
def Steady (db : Sorter) (s : Session) (calls : List Call) : Prop :=
  ∀ earlier (ms : Nat) later, calls = earlier ++ .elapse ms :: later →
    ∀ m ∈ (s.run db earlier).oracle.repository.models,
      m.isActive ((s.run db earlier).now.add ms) = m.isActive (s.run db earlier).now

/-- Lookups that share a key are for the same provider and endpoint. -/
def Separate (calls : List Call) : Prop :=
  ∀ p e p' e', .getPricing p e ∈ calls → .getPricing p' e' ∈ calls → cacheKey p e = cacheKey p' e' →
    p = p' ∧ truthy e = truthy e'

/-- A lookup of an endpoint of the provider that an update is for reads the rows that the update changes: they
are the endpoint's own, or the provider's and the endpoint has none in force. -/
def Repository.Reads (r : Repository) (now : TimeValue) (model : PricingModel) (endpoint : Option String) : Prop :=
  truthy endpoint = truthy model.endpoint
    ∨ truthy model.endpoint = none ∧ ∀ e, truthy endpoint = some e → r.activeRows now model.providerId (some e) = []

/-- Whenever an update passes the validation, a price in the cache that comes from the rows it changes is the one
that is dropped from the cache, or the update stops at an Invalid Date and no row in force was closed by then. -/
def Covered (db : Sorter) (s : Session) (calls : List Call) : Prop :=
  ∀ earlier model changedBy reason later,
    calls = earlier ++ .updatePricing model changedBy reason :: later →
    validatePricingModel (s.run db earlier).now model = .ok () →
    ∀ endpoint cached, .getPricing model.providerId endpoint ∈ calls →
      (s.run db earlier).IsCached model.providerId endpoint cached →
      (s.run db earlier).oracle.repository.Reads (s.run db earlier).now model endpoint →
      match model.toRow with
      | some _ => truthy endpoint = truthy model.endpoint
      | none => ∀ m ∈ (s.run db earlier).oracle.repository.activeRows (s.run db earlier).now model.providerId
          (truthy model.endpoint), m.effective_until ≠ none

theorem truthy_truthy (e : Option String) : truthy (truthy e) = truthy e := by
  cases e <;> simp [truthy]

/-- The key does not tell an empty endpoint from none. -/
theorem cacheKey_congr {p : String} {e e' : Option String} (h : truthy e = truthy e')
    : cacheKey p e = cacheKey p e' := by
  have hgetD (e : Option String) : e.getD "" = (truthy e).getD "" := by
    cases e with
    | none => rfl
    | some e => by_cases he : e = "" <;> simp [truthy, Option.filter, he]
  unfold cacheKey
  rw [hgetD e, hgetD e', h]

namespace Repository

variable {r : Repository} {now : TimeValue} {p : String} {e e' : Option String} {model : PricingModel}

theorem getPricing_congr (h : truthy e = truthy e') : r.getPricing db now p e = r.getPricing db now p e' := by
  unfold getPricing
  rw [h]

/-- The answer comes from the endpoint's own rows if there are any. -/
theorem getPricing_of_activeRows {r r' : Repository} {now' : TimeValue}
    (hown : ∀ e', truthy e = some e' → r'.activeRows now' p (some e') = r.activeRows now p (some e'))
    (hgeneral : (∀ e', truthy e = some e' → r.activeRows now p (some e') = []) →
      r'.activeRows now' p none = r.activeRows now p none)
    : r'.getPricing db now' p e = r.getPricing db now p e := by
  unfold getPricing
  cases hte : truthy e with
  | none =>
    simp only
    rw [hgeneral (by simp [hte])]
  | some e' =>
    simp only [hown e' hte]
    cases hlatest : db.latest (r.activeRows now p (some e')) with
    | some m => rfl
    | none =>
      have hempty := (db.latest_eq_none _).mp hlatest
      simp only
      rw [hgeneral]
      intro e'' he''
      rw [hte, Option.some.injEq] at he''
      rw [← he'', hempty]

theorem activeRows_elapse {ms : Nat} (h : ∀ m ∈ r.models, m.isActive (now.add ms) = m.isActive now)
    (endpoint : Option String) : r.activeRows (now.add ms) p endpoint = r.activeRows now p endpoint := by
  unfold activeRows
  apply List.filter_congr
  intro m hm
  rw [h m hm]

theorem activeRows_closeRows_other {history : List PricingHistory} {endpoint : Option String}
    (h : ¬ (p = model.providerId ∧ endpoint = truthy model.endpoint))
    : (Repository.mk (r.closeRows db now model) history).activeRows now p endpoint = r.activeRows now p endpoint := by
  have hclose : (r.models.map (close now model)).filter
        (fun m => m.provider_id = p && m.endpoint = endpoint && m.isActive now)
      = r.models.filter (fun m => m.provider_id = p && m.endpoint = endpoint && m.isActive now) := by
    induction r.models with
    | nil => rfl
    | cons m models ih =>
      have hsame : m.provider_id = p → m.endpoint = endpoint → close now model m = m := by
        intro hp he
        unfold close
        rw [if_neg]
        rintro ⟨hp', he', -⟩
        exact h ⟨hp.symm.trans hp', he.symm.trans he'⟩
      have hfields : (close now model m).provider_id = m.provider_id ∧ (close now model m).endpoint = m.endpoint := by
        unfold close
        split <;> exact ⟨rfl, rfl⟩
      rw [List.map_cons, List.filter_cons, List.filter_cons, ih, hfields.1, hfields.2]
      by_cases hm : m.provider_id = p ∧ m.endpoint = endpoint
      . rw [hsame hm.1 hm.2]
      . have hfalse (b : Bool) : (decide (m.provider_id = p) && decide (m.endpoint = endpoint) && b) = false := by
          rw [not_and_or] at hm
          rcases hm with hm | hm <;> simp [hm]
        simp [hfalse]
  unfold activeRows closeRows
  split
  . exact hclose
  . rfl

theorem activeRows_closeRows_kept {history : List PricingHistory} {endpoint : Option String}
    (h : ∀ m ∈ r.activeRows now model.providerId (truthy model.endpoint), m.effective_until ≠ none)
    : (Repository.mk (r.closeRows db now model) history).activeRows now p endpoint = r.activeRows now p endpoint := by
  by_cases hlevel : p = model.providerId ∧ endpoint = truthy model.endpoint
  . obtain ⟨rfl, rfl⟩ := hlevel
    refine activeRows_closeRows.trans (List.filter_eq_self.mpr fun m hm => ?_)
    rw [Option.isSome_iff_ne_none]
    exact h m hm
  . exact activeRows_closeRows_other hlevel

theorem activeRows_concat {rows : List PricingModelRow} {history : List PricingHistory} {row : PricingModelRow}
    {endpoint : Option String} (h : ¬ (p = row.provider_id ∧ endpoint = row.endpoint))
    : (Repository.mk (rows ++ [row]) history).activeRows now p endpoint
      = (Repository.mk rows history).activeRows now p endpoint := by
  have hother : (decide (row.provider_id = p) && decide (row.endpoint = endpoint) && row.isActive now) = false := by
    by_cases hp : p = row.provider_id
    . by_cases he : endpoint = row.endpoint
      . exact absurd ⟨hp, he⟩ h
      . simp [Ne.symm he]
    . simp [Ne.symm hp]
  unfold activeRows
  simp [hother]

/-- A lookup that reads other rows than an update changes. -/
theorem getPricing_of_not_reads {r' : Repository}
    (hsame : ∀ endpoint, truthy endpoint = endpoint → ¬ (p = model.providerId ∧ endpoint = truthy model.endpoint) →
      r'.activeRows now p endpoint = r.activeRows now p endpoint)
    (hreads : p = model.providerId → ¬ r.Reads now model e)
    : r'.getPricing db now p e = r.getPricing db now p e := by
  apply getPricing_of_activeRows
  . intro e' he
    refine hsame _ (by rw [← he, truthy_truthy]) ?_
    rintro ⟨hp, hlevel⟩
    exact hreads hp (Or.inl (he.trans hlevel))
  . intro hnone
    refine hsame none rfl ?_
    rintro ⟨rfl, hlevel⟩
    exact hreads rfl (Or.inr ⟨hlevel.symm, hnone⟩)

end Repository

namespace Session

variable {s : Session} {calls : List Call}

/-- What is in the cache for a lookup of the run is what the repository says. -/
def Fresh (db : Sorter) (calls : List Call) (s : Session) : Prop :=
  ∀ p e, .getPricing p e ∈ calls → ∀ model, s.IsCached p e model →
    s.oracle.repository.getPricing db s.now p e = some model

theorem Fresh.start (repository : Repository) (now : TimeValue) : Fresh db calls (start repository now) := by
  rintro p e - model ⟨expiry, hget, -⟩
  simp [Session.start, Map.get] at hget

theorem getPricing_spec (p : String) (e : Option String)
    : (∃ model, s.IsCached p e model ∧ s.oracle.getPricing db s.now p e = (s.oracle, .ok model))
      ∨ s.oracle.getPricing db s.now p e = s.oracle.fetchPricing db s.now p e := by
  unfold Oracle.getPricing
  cases hget : Map.get s.oracle.pricingCache (cacheKey p e) with
  | none => exact Or.inr rfl
  | some entry =>
    obtain ⟨model, expiry⟩ := entry
    by_cases hexpiry : s.now.ms < expiry
    . exact Or.inl ⟨model, ⟨expiry, hget, hexpiry⟩, if_pos hexpiry⟩
    . exact Or.inr (if_neg hexpiry)

theorem fetchPricing_answer (p : String) (e : Option String)
    : (s.oracle.fetchPricing db s.now p e).2 = s.current db p e
      ∧ (s.oracle.fetchPricing db s.now p e).1.repository = s.oracle.repository := by
  unfold fetchPricing current
  cases s.oracle.repository.getPricing db s.now p e <;> exact ⟨rfl, rfl⟩

theorem Fresh.answer {p : String} {e : Option String} (h : Fresh db calls s) (hmem : .getPricing p e ∈ calls)
    : (s.oracle.getPricing db s.now p e).2 = s.current db p e := by
  rcases @getPricing_spec db s p e with ⟨model, hcached, hanswer⟩ | hfetch
  . rw [hanswer]
    simp only [current, h p e hmem model hcached]
  . rw [hfetch]
    exact (fetchPricing_answer p e).1

theorem Fresh.getPricing {p : String} {e : Option String} (h : Fresh db calls s) (hseparate : Separate calls)
    (hmem : .getPricing p e ∈ calls) : Fresh db calls (s.step db (.getPricing p e)) := by
  rcases @getPricing_spec db s p e with ⟨model, -, hanswer⟩ | hfetch
  . have hstep : s.step db (.getPricing p e) = s := by
      simp only [step, hanswer]
    rw [hstep]
    exact h
  . cases hmodel : s.oracle.repository.getPricing db s.now p e with
    | none =>
      have hstep : s.step db (.getPricing p e) = s := by
        simp only [step, hfetch, fetchPricing, hmodel]
      rw [hstep]
      exact h
    | some model =>
      intro p' e' hmem' model' hcached
      obtain ⟨expiry, hget, hexpiry⟩ := hcached
      simp only [step, hfetch, fetchPricing, hmodel] at hget hexpiry ⊢
      rw [Map.get_set] at hget
      split at hget
      next hkey =>
        simp only [Option.some.injEq, Prod.mk.injEq] at hget
        obtain ⟨rfl, he⟩ := hseparate p' e' p e hmem' hmem hkey
        rw [Repository.getPricing_congr he, hmodel, hget.1]
      next => exact h p' e' hmem' model' ⟨expiry, hget, hexpiry⟩

theorem Fresh.updatePricing {model : PricingModel} {changedBy reason : String} (h : Fresh db calls s)
    (hcovered : validatePricingModel s.now model = .ok () →
      ∀ endpoint cached, .getPricing model.providerId endpoint ∈ calls →
        s.IsCached model.providerId endpoint cached → s.oracle.repository.Reads s.now model endpoint →
        match model.toRow with
        | some _ => truthy endpoint = truthy model.endpoint
        | none => ∀ m ∈ s.oracle.repository.activeRows s.now model.providerId (truthy model.endpoint),
            m.effective_until ≠ none)
    : Fresh db calls (s.step db (.updatePricing model changedBy reason)) := by
  simp only [step]
  cases hvalid : validatePricingModel s.now model with
  | error e =>
    unfold Oracle.updatePricing
    simp only [hvalid]
    exact h
  | ok _ =>
    have hcovered := hcovered hvalid
    rintro p e hmem cached ⟨expiry, hget, hexpiry⟩
    cases hrow : model.toRow with
    | some row =>
      simp only [hrow] at hcovered
      obtain ⟨history, hupdate⟩ := @updatePricing_eq_ok db s.now model row s.oracle changedBy reason hvalid hrow
      have hfields := PricingModel.toRow_eq_some.mp hrow
      simp only [hupdate] at hget hexpiry ⊢
      rw [Map.get_delete] at hget
      split at hget
      . contradiction
      next hkey =>
        rw [← h p e hmem cached ⟨expiry, hget, hexpiry⟩]
        apply @Repository.getPricing_of_not_reads db s.oracle.repository s.now p e model
        . intro endpoint hendpoint hlevel
          rw [Repository.activeRows_concat, Repository.activeRows_closeRows_other hlevel]
          rintro ⟨hp, he⟩
          subst hfields
          exact hlevel ⟨hp, by rw [← hendpoint, he]; rfl⟩
        -- the entry of the update itself is gone
        . rintro rfl hreads
          exact hkey (cacheKey_congr (hcovered e cached hmem ⟨expiry, hget, hexpiry⟩ hreads))
    | none =>
      simp only [hrow] at hcovered
      have hthrown : s.oracle.updatePricing db s.now model changedBy reason
          = ({ s.oracle with repository := { s.oracle.repository with
              models := s.oracle.repository.closeRows db s.now model } }, .error (.error "Invalid time value")) := by
        unfold Oracle.updatePricing Repository.upsertPricing
        simp only [hvalid, hrow]
      simp only [hthrown] at hget hexpiry ⊢
      have hcached : s.IsCached p e cached := ⟨expiry, hget, hexpiry⟩
      rw [← h p e hmem cached hcached]
      by_cases hreads : p = model.providerId ∧ s.oracle.repository.Reads s.now model e
      . obtain ⟨rfl, hreads⟩ := hreads
        have hkept := hcovered e cached hmem hcached hreads
        exact Repository.getPricing_of_activeRows (fun _ _ => Repository.activeRows_closeRows_kept hkept)
          fun _ => Repository.activeRows_closeRows_kept hkept
      . exact Repository.getPricing_of_not_reads
          (fun _ _ hlevel => Repository.activeRows_closeRows_other hlevel) fun hp hread => hreads ⟨hp, hread⟩

theorem Fresh.elapse {ms : Nat} (h : Fresh db calls s)
    (hsteady : ∀ m ∈ s.oracle.repository.models, m.isActive (s.now.add ms) = m.isActive s.now)
    : Fresh db calls (s.step db (.elapse ms)) := by
  rintro p e hmem model ⟨expiry, hget, hexpiry⟩
  simp only [step] at hget hexpiry ⊢
  have hlater := s.now.le_add ms
  rw [← h p e hmem model ⟨expiry, hget, by omega⟩]
  apply Repository.getPricing_of_activeRows
  . intro e' _
    exact Repository.activeRows_elapse hsteady _
  . intro _
    exact Repository.activeRows_elapse hsteady _

end Session

/-- A run keeps to the repository while no price of a whole provider is updated under a cached endpoint
that uses it, and no two lookups share a key. -/
theorem getPricing_coherent (db : Sorter) (repository : Repository) (now : TimeValue) (calls : List Call)
    (hsteady : Steady db (.start repository now) calls) (hseparate : Separate calls)
    (hcovered : Covered db (.start repository now) calls) : Coherent db (.start repository now) calls := by
  have hfresh (earlier : List Call) : ∀ later, calls = earlier ++ later →
      Session.Fresh db calls ((Session.start repository now).run db earlier) := by
    induction earlier using List.reverseRecOn with
    | nil => exact fun _ _ => .start repository now
    | append_singleton earlier call ih =>
      intro later hcalls
      rw [List.append_assoc, List.singleton_append] at hcalls
      have hbefore := ih _ hcalls
      have hstep : (Session.start repository now).run db (earlier ++ [call])
          = ((Session.start repository now).run db earlier).step db call := by
        simp [Session.run]
      rw [hstep]
      cases call with
      | getPricing p e => exact hbefore.getPricing hseparate (by simp [hcalls])
      | updatePricing model changedBy reason =>
        exact hbefore.updatePricing (hcovered earlier model changedBy reason later hcalls)
      | elapse ms => exact hbefore.elapse (hsteady earlier ms later hcalls)
  intro earlier p e later hcalls
  exact (hfresh earlier _ hcalls).answer (by simp [hcalls])

section Example

def exampleRow (endpoint : Option String) (rate : Rat) : PricingModelRow :=
  ⟨"claude", endpoint, .perToken, "USD", [⟨.perToken, rate, some "input_token", none⟩], .epoch, none⟩

def exampleModel (endpoint : Option String) (rate : Rat) : PricingModel := rowToPricingModel (exampleRow endpoint rate)

/-- Two lookups of an endpoint without a price of its own, with an update in between. -/
def exampleCalls (endpoint : Option String) : List Call :=
  [.getPricing "claude" (some "/v1/messages"), .updatePricing (exampleModel endpoint 2) "admin" "reduction",
    .getPricing "claude" (some "/v1/messages")]

def exampleSession : Session := .start ⟨[exampleRow none 1], []⟩ .epoch

theorem exampleCalls_steady (endpoint : Option String)
    : Steady .table exampleSession (exampleCalls endpoint) := by
  intro earlier ms later h
  have hmem : .elapse ms ∈ exampleCalls endpoint := by simp [h]
  simp [exampleCalls] at hmem

theorem getPricing_coherent_example : Coherent .table exampleSession (exampleCalls (some "/v1/messages")) := by
  refine getPricing_coherent .table _ _ _ (exampleCalls_steady _) ?_ ?_
  . intro p e p' e' hmem hmem' _
    simp only [exampleCalls, List.mem_cons, Call.getPricing.injEq, List.not_mem_nil, reduceCtorEq, or_false,
      false_or, or_self] at hmem hmem'
    obtain ⟨rfl, rfl⟩ := hmem
    obtain ⟨rfl, rfl⟩ := hmem'
    exact ⟨rfl, rfl⟩
  . intro earlier model changedBy reason later h _ endpoint cached hlookup _ _
    have hmem : .updatePricing model changedBy reason ∈ exampleCalls (some "/v1/messages") := by simp [h]
    simp only [exampleCalls, List.mem_cons, Call.updatePricing.injEq, Call.getPricing.injEq, List.not_mem_nil,
      reduceCtorEq, or_false, false_or, or_self] at hmem hlookup
    obtain ⟨rfl, -, -⟩ := hmem
    have hrow : (exampleModel (some "/v1/messages") 2).toRow = some (exampleRow (some "/v1/messages") 2) :=
      PricingModel.toRow_eq_some.mpr rfl
    rw [hrow, hlookup.2]
    rfl

/-- The endpoint is still charged the price the provider had before the update. -/
theorem stale_fallback_price
    : Steady .table exampleSession (exampleCalls none)
      ∧ ¬ Coherent .table exampleSession (exampleCalls none) := by
  refine ⟨exampleCalls_steady none, fun h => ?_⟩
  have hlast := h
    [.getPricing "claude" (some "/v1/messages"), .updatePricing (exampleModel none 2) "admin" "reduction"]
    "claude" (some "/v1/messages") [] rfl
  exact absurd hlast (by decide +kernel)

/-- An update that stops at an Invalid Date has closed the row, and the cache still answers its price. -/
example : ¬ Coherent .table exampleSession
    [.getPricing "claude" none, .updatePricing { exampleModel none 2 with effectiveFrom := none } "admin" "reduction",
      .getPricing "claude" none] := by
  intro h
  have hlast := h [.getPricing "claude" none,
    .updatePricing { exampleModel none 2 with effectiveFrom := none } "admin" "reduction"] "claude" none [] rfl
  exact absurd hlast (by decide +kernel)

end Example

end Pricing
end Longjing
