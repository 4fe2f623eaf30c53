import Longjing.Pricing.Basic

/-!
This module contains `pricing-oracle.service.ts`: the cache in front of the repository, and the cost of
a use by each kind of price.
-/

namespace Longjing
namespace Pricing

open Js

inductive UnitType where
  | tokens
  | calls
  | bytes
  | seconds
  | images
  | custom
deriving DecidableEq, Repr

structure UsageMetrics where
  units : Rat
  unitType : UnitType
  costUSD : Rat
  breakdown : Option (Map String Rat)
deriving DecidableEq, Repr

/-- `usage.breakdown?.[key]`, where zero counts as absent. -/
def UsageMetrics.count (usage : UsageMetrics) (key : String) : Option Rat :=
  (usage.breakdown.bind (Map.get · key)).filter (· ≠ 0)

structure Oracle where
  repository : Repository
  -- a price, and when it expires
  pricingCache : Map String (PricingModel × Int)

namespace Oracle

def CACHE_TTL_MS : Int := 60 * 60 * 1000

def cacheKey (providerId : String) (endpoint : Option String) : String :=
  providerId ++ ":" ++ endpoint.getD ""

def mention (endpoint : Option String) : String :=
  match truthy endpoint with
  | some e => " (" ++ e ++ ")"
  | none => ""

def notFound (providerId : String) (endpoint : Option String) : PricingError :=
  .notFound ("No pricing model found for provider: " ++ providerId ++ mention endpoint)

variable (db : Sorter)

def fetchPricing (o : Oracle) (now : TimeValue) (providerId : String) (endpoint : Option String)
    : Oracle × Except PricingError PricingModel :=
  match o.repository.getPricing db now providerId endpoint with
  | none => (o, .error (notFound providerId endpoint))
  | some model =>
    ({ o with pricingCache := Map.set o.pricingCache (cacheKey providerId endpoint) (model, now.ms + CACHE_TTL_MS) },
      .ok model)

def getPricing (o : Oracle) (now : TimeValue) (providerId : String) (endpoint : Option String)
    : Oracle × Except PricingError PricingModel :=
  match Map.get o.pricingCache (cacheKey providerId endpoint) with
  | some (model, expiry) => if now.ms < expiry then (o, .ok model) else o.fetchPricing db now providerId endpoint
  | none => o.fetchPricing db now providerId endpoint

def validateRates : List PricingRate → Except PricingError Unit
  | [] => .ok ()
  | rate :: rates =>
    if rate.rate ≤ 0 then
      .error (.error "Rate must be greater than 0")
    else if rate.type = .tiered ∧ rate.tiers = none then
      .error (.error "Tiered pricing requires tiers configuration")
    else
      validateRates rates

/-- `a > b`, which is false of an Invalid Date. -/
def isAfter : Date → Date → Bool
  | some a, some b => b.ms < a.ms
  | _, _ => false

def validatePricingModel (now : TimeValue) (model : PricingModel) : Except PricingError Unit :=
  if model.rates.length = 0 then
    .error (.error "Pricing model must have at least one rate")
  else
    match validateRates model.rates with
    | .error e => .error e
    | .ok () =>
      if isAfter model.effectiveFrom (model.effectiveUntil.getD now) then
        .error (.error "effectiveFrom must be before effectiveUntil")
      else
        .ok ()

def updatePricing (o : Oracle) (now : TimeValue) (model : PricingModel) (changedBy reason : String)
    : Oracle × Except PricingError Unit :=
  match validatePricingModel now model with
  | .error e => (o, .error e)
  | .ok () =>
    let oldModel := o.repository.getPricing db now model.providerId model.endpoint
    match o.repository.upsertPricing db now model with
    -- what was closed stays closed, and the cache is not reached
    | (repository, .error e) => ({ o with repository }, .error e)
    | (repository, .ok ()) =>
      let repository := repository.addHistory
        ⟨model.providerId, model.endpoint, oldModel.map PricingModel.rates, model.rates, changedBy, now, reason⟩
      (⟨repository, Map.delete o.pricingCache (cacheKey model.providerId model.endpoint)⟩, .ok ())

/-- What one rate adds for the tokens it is for. -/
def tokenCost (usage : UsageMetrics) (rate : PricingRate) : Rat :=
  if rate.unit = some "input_token" ∧ (usage.count "input").isSome then
    (usage.count "input").getD 0 / 1000 * rate.rate
  else if rate.unit = some "output_token" ∧ (usage.count "output").isSome then
    (usage.count "output").getD 0 / 1000 * rate.rate
  else if rate.unit = some "cache_read_token" ∧ (usage.count "cacheRead").isSome then
    (usage.count "cacheRead").getD 0 / 1000 * rate.rate
  else if rate.unit = some "cache_write_token" ∧ (usage.count "cacheWrite").isSome then
    (usage.count "cacheWrite").getD 0 / 1000 * rate.rate
  else
    0

def calculateTokenCost (usage : UsageMetrics) (pricing : PricingModel) : Rat :=
  pricing.rates.foldl (fun cost rate => cost + tokenCost usage rate) 0

def firstRate (pricing : PricingModel) : Rat := (pricing.rates.head?.map PricingRate.rate).getD 0

def calculatePerCallCost (_ : UsageMetrics) (pricing : PricingModel) : Rat := firstRate pricing

def calculatePerUnitCost (usage : UsageMetrics) (pricing : PricingModel) : Rat := usage.units * firstRate pricing

/-- The loop over the tiers, with the cost so far. -/
def tieredCost : List PricingTier → Rat → Rat → Rat
  | [], cost, _ => cost
  | tier :: tiers, cost, remainingUnits =>
    if remainingUnits ≤ 0 then
      cost
    else
      let unitsInTier := match tier.upper.filter (· ≠ 0) with
        | some upper => min remainingUnits (upper - tier.lower)
        | none => remainingUnits
      tieredCost tiers (cost + unitsInTier * tier.rate) (remainingUnits - unitsInTier)

def calculateTieredCost (usage : UsageMetrics) (pricing : PricingModel) : Except PricingError Rat :=
  match pricing.rates.head?.bind PricingRate.tiers with
  | none => .error (.error "Tiered pricing requires tiers configuration")
  | some tiers => .ok (tieredCost tiers 0 usage.units)

def calculateCompositeCost (usage : UsageMetrics) (pricing : PricingModel) : Rat :=
  pricing.rates.foldl (fun cost rate =>
    match (truthy rate.unit).bind usage.count with
    | some count => cost + count * rate.rate
    | none => cost) 0

def calculateCost (usage : UsageMetrics) (pricing : PricingModel) : Except PricingError Rat :=
  match pricing.pricingType with
  | .perToken => .ok (calculateTokenCost usage pricing)
  | .perCall => .ok (calculatePerCallCost usage pricing)
  | .perUnit => .ok (calculatePerUnitCost usage pricing)
  | .tiered => calculateTieredCost usage pricing
  | .composite => .ok (calculateCompositeCost usage pricing)

def calculateCostUSD (o : Oracle) (now : TimeValue) (usage : UsageMetrics) (providerId : String)
    (endpoint : Option String) : Oracle × Except PricingError Rat :=
  match o.getPricing db now providerId endpoint with
  | (o, .error e) => (o, .error e)
  | (o, .ok pricing) => (o, calculateCost usage pricing)

variable {db} {r : Repository} {now : TimeValue} {model : PricingModel} {row : PricingModelRow}

theorem getPricing_eq_none {p : String} {e : Option String}
    : r.getPricing db now p e = none ↔ r.activeRows now p (truthy e) = [] ∧ r.activeRows now p none = [] := by
  unfold Repository.getPricing
  cases truthy e with
  | none => simp [db.latest_eq_none]
  | some e' =>
    cases hlatest : db.latest (r.activeRows now p (some e')) with
    | none =>
      simp only
      rw [hlatest, (db.latest_eq_none _).mp hlatest]
      simp [db.latest_eq_none]
    | some m =>
      have hne : r.activeRows now p (some e') ≠ [] := by
        intro hempty
        rw [(db.latest_eq_none _).mpr hempty] at hlatest
        contradiction
      simp [hlatest, hne]

theorem activeRows_closeRows
    : (r.closeRows db now model).filter
        (fun m => m.provider_id = model.providerId && m.endpoint = truthy model.endpoint && m.isActive now)
      = (r.activeRows now model.providerId (truthy model.endpoint)).filter (·.effective_until.isSome) := by
  have hclosed : (r.models.map (Repository.close now model)).filter
        (fun m => m.provider_id = model.providerId && m.endpoint = truthy model.endpoint && m.isActive now)
      = (r.activeRows now model.providerId (truthy model.endpoint)).filter (·.effective_until.isSome) := by
    unfold Repository.activeRows
    induction r.models with
    | nil => rfl
    | cons m models ih =>
      rw [List.map_cons, List.filter_cons, ih]
      by_cases hopen : m.provider_id = model.providerId ∧ m.endpoint = truthy model.endpoint
        ∧ m.effective_until = none
      . have hended : (Repository.close now model m).isActive now = false := by
          unfold Repository.close
          rw [if_pos hopen, ← Bool.not_eq_true, PricingModelRow.isActive_iff]
          exact fun hactive => lt_irrefl _ (hactive.2 now rfl)
        have hdropped : m.effective_until.isSome = false := by rw [hopen.2.2]; rfl
        rw [hended, Bool.and_false, if_neg Bool.false_ne_true, List.filter_cons]
        split <;> simp [hdropped]
      . have hsame : Repository.close now model m = m := by
          unfold Repository.close
          rw [if_neg hopen]
        rw [hsame, List.filter_cons]
        by_cases hrow : (decide (m.provider_id = model.providerId)
            && decide (m.endpoint = truthy model.endpoint) && m.isActive now) = true
        . have hended : m.effective_until.isSome = true := by
            simp only [Bool.and_eq_true, decide_eq_true_eq] at hrow
            rw [Option.isSome_iff_ne_none]
            exact fun hnone => hopen ⟨hrow.1.1, hrow.1.2, hnone⟩
          simp [hrow, hended]
        . simp [hrow]
  unfold Repository.closeRows
  split
  . exact hclosed
  next hnone =>
    -- no price in force, so no row of the endpoint either
    have hempty := (getPricing_eq_none.mp hnone).1
    rw [hempty]
    exact hempty

theorem upsertPricing_eq_ok (hrow : model.toRow = some row)
    : r.upsertPricing db now model = ({ r with models := r.closeRows db now model ++ [row] }, .ok ()) := by
  unfold Repository.upsertPricing
  rw [hrow]

theorem activeRows_upsertPricing_own (hrow : model.toRow = some row)
    : (r.upsertPricing db now model).1.activeRows now model.providerId (truthy model.endpoint)
        =
      (r.activeRows now model.providerId (truthy model.endpoint)).filter (·.effective_until.isSome)
        ++ if row.isActive now = true ∧ truthy model.endpoint = model.endpoint then [row] else [] := by
  have hfields := PricingModel.toRow_eq_some.mp hrow
  have hself : List.filter (fun m => decide (m.provider_id = model.providerId)
        && decide (m.endpoint = truthy model.endpoint) && m.isActive now) [row]
      = if row.isActive now = true ∧ truthy model.endpoint = model.endpoint then [row] else [] := by
    subst hfields
    by_cases hendpoint : truthy row.endpoint = row.endpoint
    . simp [rowToPricingModel, List.filter_cons, hendpoint]
    . simp [rowToPricingModel, hendpoint, Ne.symm hendpoint]
  rw [upsertPricing_eq_ok hrow, ← hself, ← @activeRows_closeRows db]
  exact List.filter_append ..

theorem activeRows_upsertPricing_self (hrow : model.toRow = some row) (hactive : row.isActive now = true)
    (hendpoint : truthy model.endpoint = model.endpoint)
    (hend : ∀ m ∈ r.activeRows now model.providerId model.endpoint, m.effective_until = none)
    : (r.upsertPricing db now model).1.activeRows now model.providerId model.endpoint = [row] := by
  have hrows := @activeRows_upsertPricing_own db r now model row hrow
  have hnone : (r.activeRows now model.providerId model.endpoint).filter (·.effective_until.isSome) = [] := by
    rw [List.filter_eq_nil_iff]
    intro m hm
    simp [hend m hm]
  rw [hendpoint, hnone, if_pos ⟨hactive, rfl⟩] at hrows
  exact hrows

/-- An update that is accepted. -/
theorem updatePricing_eq_ok {o : Oracle} {changedBy reason : String} (hvalid : validatePricingModel now model = .ok ())
    (hrow : model.toRow = some row)
    : ∃ history, o.updatePricing db now model changedBy reason
        = (⟨⟨o.repository.closeRows db now model ++ [row], history⟩,
            Map.delete o.pricingCache (cacheKey model.providerId model.endpoint)⟩, .ok ()) := by
  unfold updatePricing
  rw [hvalid, upsertPricing_eq_ok hrow]
  exact ⟨_, rfl⟩

theorem getPricing_updatePricing {o o' : Oracle} {changedBy reason : String}
    (h : o.updatePricing db now model changedBy reason = (o', .ok ())) (hrow : model.toRow = some row)
    (hactive : row.isActive now = true)
    (hend : ∀ m ∈ o.repository.activeRows now model.providerId model.endpoint, m.effective_until = none)
    (hendpoint : truthy model.endpoint = model.endpoint)
    : (o'.getPricing db now model.providerId model.endpoint).2 = .ok model := by
  have hrows := @activeRows_upsertPricing_self db o.repository now model row hrow hactive hendpoint hend
  have hlatest : db.latest [row] = some row := by
    cases hl : db.latest [row] with
    | none =>
      have := (db.latest_eq_none _).mp hl
      contradiction
    | some m => rw [List.mem_singleton.mp (db.mem_of_latest _ _ hl)]
  have hvalid : validatePricingModel now model = .ok () := by
    unfold updatePricing at h
    cases hvalid : validatePricingModel now model with
    | error e => simp [hvalid] at h
    | ok _ => rfl
  obtain ⟨history, hupdate⟩ := @updatePricing_eq_ok db now model row o changedBy reason hvalid hrow
  rw [hupdate, Prod.mk.injEq] at h
  obtain rfl := h.1
  rw [upsertPricing_eq_ok hrow] at hrows
  have hpricing : (Repository.mk (o.repository.closeRows db now model ++ [row]) history).getPricing db now
      model.providerId model.endpoint = some model := by
    have hsame : (Repository.mk (o.repository.closeRows db now model ++ [row]) history).activeRows now
        model.providerId model.endpoint = [row] := hrows
    unfold Repository.getPricing
    rw [hendpoint]
    cases he : model.endpoint with
    | none =>
      rw [he] at hsame
      simp only [hsame, hlatest, Option.map_some, PricingModel.toRow_eq_some.mp hrow]
    | some e =>
      rw [he] at hsame
      simp only [hsame, hlatest, PricingModel.toRow_eq_some.mp hrow]
  unfold getPricing
  simp only [Map.get_delete, if_true, fetchPricing, hpricing]

end Oracle

end Pricing
end Longjing
