import Longjing.Js.Date
import Longjing.Js.Map
import Mathlib.Algebra.Order.Field.Rat
import Mathlib.Data.List.MinMax

/-!
This module contains `pricing.repository.ts`: the price rows of each provider and endpoint, with the time
in which they are in force.
-/

namespace Longjing
namespace Pricing

open Js

inductive PricingType where
  | perToken
  | perCall
  | perUnit
  | tiered
  | composite
deriving DecidableEq, Repr

structure PricingTier where
  lower : Rat
  -- `none` is no upper end
  upper : Option Rat
  rate : Rat
deriving DecidableEq, Repr

structure PricingRate where
  type : PricingType
  -- USD per unit
  rate : Rat
  unit : Option String
  tiers : Option (List PricingTier)
deriving DecidableEq, Repr

structure PricingModel where
  providerId : String
  endpoint : Option String
  pricingType : PricingType
  rates : List PricingRate
  currency : String
  effectiveFrom : Date
  effectiveUntil : Option Date
deriving DecidableEq, Repr

/-- The columns of a date hold its ISO text, which is what is compared, and which is read back as the date. -/
structure PricingModelRow where
  provider_id : String
  endpoint : Option String
  pricing_type : PricingType
  currency : String
  rates : List PricingRate
  effective_from : TimeValue
  effective_until : Option TimeValue
deriving DecidableEq, Repr

def rowToPricingModel (row : PricingModelRow) : PricingModel where
  providerId := row.provider_id
  endpoint := row.endpoint
  pricingType := row.pricing_type
  rates := row.rates
  currency := row.currency
  effectiveFrom := row.effective_from
  effectiveUntil := row.effective_until.map some

/-- The row that is inserted for a model; `toISOString` throws for an Invalid Date. -/
def PricingModel.toRow (model : PricingModel) : Option PricingModelRow :=
  match model.effectiveFrom, model.effectiveUntil with
  | some start, none =>
    some ⟨model.providerId, model.endpoint, model.pricingType, model.currency, model.rates, start, none⟩
  | some start, some (some stop) =>
    some ⟨model.providerId, model.endpoint, model.pricingType, model.currency, model.rates, start, some stop⟩
  | _, _ => none

theorem PricingModel.toRow_eq_some {model : PricingModel} {row : PricingModelRow}
    : model.toRow = some row ↔ rowToPricingModel row = model := by
  constructor
  . intro h
    obtain ⟨providerId, endpoint, pricingType, rates, currency, effectiveFrom, effectiveUntil⟩ := model
    unfold toRow at h
    split at h
    . obtain rfl := Option.some.inj h
      simp_all [rowToPricingModel]
    . obtain rfl := Option.some.inj h
      simp_all [rowToPricingModel]
    . cases h
  . rintro rfl
    obtain ⟨provider_id, endpoint, pricing_type, currency, rates, effective_from, effective_until⟩ := row
    cases effective_until with
    | none => rfl
    | some stop => rfl

inductive PricingError where
  | notFound (message : String)
  | error (message : String)
deriving DecidableEq, Repr

structure PricingHistory where
  providerId : String
  endpoint : Option String
  oldRates : Option (List PricingRate)
  newRates : List PricingRate
  changedBy : String
  changedAt : TimeValue
  reason : String
deriving DecidableEq, Repr

/-- `ORDER BY effective_from DESC LIMIT 1`, which leaves open what comes first of rows that tie. -/
structure Sorter where
  latest : List PricingModelRow → Option PricingModelRow
  latest_eq_none : ∀ rows, latest rows = none ↔ rows = []
  mem_of_latest : ∀ rows m, latest rows = some m → m ∈ rows
  le_latest : ∀ rows m, latest rows = some m → ∀ m' ∈ rows,
    m'.effective_from.toISOString ≤ m.effective_from.toISOString

/-- The tables `pricing_models` and `pricing_history`, in the order of their ids. -/
structure Repository where
  models : List PricingModelRow
  history : List PricingHistory

/-- An empty endpoint counts as none. -/
def truthy (endpoint : Option String) : Option String := endpoint.filter (· ≠ "")

def PricingModelRow.isActive (row : PricingModelRow) (now : TimeValue) : Bool :=
  row.effective_from.toISOString ≤ now.toISOString
    && row.effective_until.all (now.toISOString < ·.toISOString)

theorem PricingModelRow.isActive_iff {row : PricingModelRow} {now : TimeValue}
    : row.isActive now = true
      ↔ row.effective_from.toISOString ≤ now.toISOString
        ∧ ∀ stop, row.effective_until = some stop → now.toISOString < stop.toISOString := by
  unfold isActive
  simp only [Bool.and_eq_true, decide_eq_true_eq, Option.all_eq_true]

namespace Repository

variable (db : Sorter)

/-- The rows in force for exactly this provider and endpoint (`none` is `IS NULL`). -/
def activeRows (r : Repository) (now : TimeValue) (providerId : String) (endpoint : Option String)
    : List PricingModelRow :=
  r.models.filter fun m => m.provider_id = providerId && m.endpoint = endpoint && m.isActive now

def getPricing (r : Repository) (now : TimeValue) (providerId : String) (endpoint : Option String)
    : Option PricingModel :=
  let specific := match truthy endpoint with
    | some e => db.latest (r.activeRows now providerId (some e))
    | none => none
  match specific with
  | some row => some (rowToPricingModel row)
  | none => (db.latest (r.activeRows now providerId none)).map rowToPricingModel

/-- `SET effective_until` on the rows without an end. -/
def close (now : TimeValue) (model : PricingModel) (m : PricingModelRow) : PricingModelRow :=
  if m.provider_id = model.providerId ∧ m.endpoint = truthy model.endpoint ∧ m.effective_until = none then
    { m with effective_until := some now }
  else
    m

/-- The rows of an update, without the new one. -/
def closeRows (r : Repository) (now : TimeValue) (model : PricingModel) : List PricingModelRow :=
  match r.getPricing db now model.providerId model.endpoint with
  | some _ => r.models.map (close now model)
  | none => r.models

/-- A model with an Invalid Date is found out when the rows it replaces are closed. -/
def upsertPricing (r : Repository) (now : TimeValue) (model : PricingModel)
    : Repository × Except PricingError Unit :=
  let closed := r.closeRows db now model
  match model.toRow with
  | some row => ({ r with models := closed ++ [row] }, .ok ())
  | none => ({ r with models := closed }, .error (.error "Invalid time value"))

def addHistory (r : Repository) (entry : PricingHistory) : Repository :=
  { r with history := r.history ++ [entry] }

end Repository

/-- The first row of the table among those that tie. -/
def Sorter.table : Sorter where
  latest := List.argmax fun row => row.effective_from.toISOString
  latest_eq_none := fun _ => List.argmax_eq_none
  mem_of_latest := fun _ _ h => List.argmax_mem h
  le_latest := by
    intro rows m h m' hmem
    exact List.le_of_mem_argmax (f := fun row : PricingModelRow => row.effective_from.toISOString) hmem h

end Pricing
end Longjing
