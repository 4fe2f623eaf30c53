import Longjing.Pricing.Oracle
import Mathlib.Tactic.FieldSimp
import Mathlib.Tactic.Linarith
import Mathlib.Tactic.NormNum
import Mathlib.Tactic.Positivity
import Mathlib.Tactic.Ring

/-!
This module contains `claude-pricing.ts` and the prices of `claude.provider.ts`: three ways to compute
what a call to Claude costs.
-/

namespace Longjing
namespace Pricing

open Js Oracle

inductive ClaudeModel where
  | fable51
  | opus46
  | sonnet46
  | haiku45
deriving DecidableEq, Repr

/-- USD per million tokens. -/
structure TokenPrices where
  input : Rat
  output : Rat

def CLAUDE_PRICING : ClaudeModel → TokenPrices
  | .fable51 => ⟨10, 50⟩
  | .opus46 => ⟨5, 25⟩
  | .sonnet46 => ⟨3, 15⟩
  | .haiku45 => ⟨1, 5⟩

def DEFAULT_CLAUDE_MODEL : ClaudeModel := .fable51

def claudeCostUSD (model : ClaudeModel) (inputTokens outputTokens : Rat) : Rat :=
  let pricing := CLAUDE_PRICING model
  inputTokens / 1000000 * pricing.input + outputTokens / 1000000 * pricing.output

namespace ClaudeProvider

def CACHE_WRITE_MULTIPLIER : Rat := 5 / 4
def CACHE_READ_MULTIPLIER : Rat := 1 / 10

/-- 2025-01-01 -/
def EFFECTIVE_FROM : Date := some ⟨1735689600000, by decide⟩

/-- Rates are USD per 1K tokens. -/
def perThousand (perMillion : Rat) : Rat := perMillion / 1000

def tokenRate (rate : Rat) (unit : String) : PricingRate := ⟨.perToken, rate, some unit, none⟩

def getPricingConfig (model : ClaudeModel) : PricingModel :=
  let ⟨input, output⟩ := CLAUDE_PRICING model
  { providerId := "claude"
    endpoint := some "/v1/messages"
    pricingType := .perToken
    rates := [
      tokenRate (perThousand input) "input_token",
      tokenRate (perThousand output) "output_token",
      tokenRate (perThousand (input * CACHE_WRITE_MULTIPLIER)) "cache_creation_input_token",
      tokenRate (perThousand (input * CACHE_READ_MULTIPLIER)) "cache_read_input_token"]
    currency := "USD"
    effectiveFrom := EFFECTIVE_FROM
    effectiveUntil := none }

/-- The `usage` of an API response. -/
structure Usage where
  input_tokens : Nat
  output_tokens : Nat
  cache_creation_input_tokens : Option Nat
  cache_read_input_tokens : Option Nat

/-- `usage.cache_creation_input_tokens || 0` -/
def Usage.cacheWrite (usage : Usage) : Nat := usage.cache_creation_input_tokens.getD 0

/-- `usage.cache_read_input_tokens || 0` -/
def Usage.cacheRead (usage : Usage) : Nat := usage.cache_read_input_tokens.getD 0

def tokenCostUSD (pricing : PricingModel) (unit : String) (tokens : Nat) : Rat :=
  let rate := ((pricing.rates.find? (·.unit = some unit)).map PricingRate.rate).getD 0
  tokens * rate / 1000

def extractUsage (usage : Usage) (model : ClaudeModel) : UsageMetrics :=
  let pricing := getPricingConfig model
  let inputCost := tokenCostUSD pricing "input_token" usage.input_tokens
  let outputCost := tokenCostUSD pricing "output_token" usage.output_tokens
  let cacheWriteCost := tokenCostUSD pricing "cache_creation_input_token" usage.cacheWrite
  let cacheReadCost := tokenCostUSD pricing "cache_read_input_token" usage.cacheRead
  let totalTokens := usage.input_tokens + usage.output_tokens + usage.cacheWrite + usage.cacheRead
  { units := totalTokens
    unitType := .tokens
    costUSD := inputCost + outputCost + cacheWriteCost + cacheReadCost
    breakdown := some [("input", (usage.input_tokens : Rat)), ("output", (usage.output_tokens : Rat)),
      ("cacheWrite", (usage.cacheWrite : Rat)), ("cacheRead", (usage.cacheRead : Rat))] }

/-- `seedProviderPricing` of the registry: the provider's own prices, in force from now on. -/
def seedProviderPricing (db : Sorter) (o : Oracle) (now : TimeValue) : Oracle × Except PricingError Unit :=
  o.updatePricing db now { getPricingConfig DEFAULT_CLAUDE_MODEL with effectiveFrom := some now } "system"
    "Auto-seeded from provider claude v1.0.0"

end ClaudeProvider

open ClaudeProvider

variable {usage : Usage} {model : ClaudeModel}

variable (usage model) in
/-- The oracle charges what the provider reports, and without cache tokens so does the helper. -/
structure CostsAgree (db : Sorter) (o : Oracle) (now : TimeValue) : Prop where
  oracle : (o.calculateCostUSD db now (extractUsage usage model) "claude" (some "/v1/messages")).2
    = .ok (extractUsage usage model).costUSD
  helper : usage.cacheWrite = 0 → usage.cacheRead = 0 →
    (extractUsage usage model).costUSD = claudeCostUSD model usage.input_tokens usage.output_tokens

theorem extractUsage_costUSD
    : (extractUsage usage model).costUSD
      = (usage.input_tokens * (CLAUDE_PRICING model).input + usage.output_tokens * (CLAUDE_PRICING model).output
          + (usage.cacheWrite * CACHE_WRITE_MULTIPLIER + usage.cacheRead * CACHE_READ_MULTIPLIER)
            * (CLAUDE_PRICING model).input) / 1000000 := by
  have hunfold : (extractUsage usage model).costUSD
      = usage.input_tokens * ((CLAUDE_PRICING model).input / 1000) / 1000
        + usage.output_tokens * ((CLAUDE_PRICING model).output / 1000) / 1000
        + usage.cacheWrite * ((CLAUDE_PRICING model).input * CACHE_WRITE_MULTIPLIER / 1000) / 1000
        + usage.cacheRead * ((CLAUDE_PRICING model).input * CACHE_READ_MULTIPLIER / 1000) / 1000 := rfl
  rw [hunfold]
  ring

theorem extractUsage_count
    : ((extractUsage usage model).count "input").getD 0 = usage.input_tokens
      ∧ ((extractUsage usage model).count "output").getD 0 = usage.output_tokens := by
  have hcount (n : Nat) : ((some (n : Rat)).filter (· ≠ 0)).getD 0 = (n : Rat) := by
    by_cases hn : (n : Rat) = 0 <;> simp [Option.filter, hn]
  exact ⟨hcount _, hcount _⟩

theorem tokenCost_unit {u : UsageMetrics} {rate : Rat}
    : tokenCost u (tokenRate rate "input_token") = (u.count "input").getD 0 / 1000 * rate
      ∧ tokenCost u (tokenRate rate "output_token") = (u.count "output").getD 0 / 1000 * rate := by
  constructor
  . unfold tokenCost tokenRate
    cases hcount : u.count "input" <;> simp
  . unfold tokenCost tokenRate
    cases hcount : u.count "output" <;> simp

/-- The oracle has other names for cache tokens than the provider. -/
theorem tokenCost_cache (u : UsageMetrics) (rate : Rat)
    : tokenCost u (tokenRate rate "cache_creation_input_token") = 0
      ∧ tokenCost u (tokenRate rate "cache_read_input_token") = 0 := by
  constructor <;> simp [tokenCost, tokenRate]

theorem calculateTokenCost_extractUsage (pricing : PricingModel)
    (hrates : pricing.rates = (getPricingConfig model).rates)
    : calculateTokenCost (extractUsage usage model) pricing
      = (usage.input_tokens * (CLAUDE_PRICING model).input
          + usage.output_tokens * (CLAUDE_PRICING model).output) / 1000000 := by
  obtain ⟨hinput, houtput⟩ := @extractUsage_count usage model
  unfold calculateTokenCost
  rw [hrates]
  simp only [getPricingConfig, List.foldl_cons, List.foldl_nil, tokenCost_unit, tokenCost_cache, hinput, houtput,
    perThousand]
  ring

theorem CLAUDE_PRICING_input_pos (model : ClaudeModel) : 0 < (CLAUDE_PRICING model).input := by
  cases model <;> simp [CLAUDE_PRICING]

theorem cacheCost_eq_zero_iff
    : ((usage.cacheWrite : Rat) * CACHE_WRITE_MULTIPLIER + usage.cacheRead * CACHE_READ_MULTIPLIER)
        * (CLAUDE_PRICING model).input = 0 ↔ usage.cacheWrite = 0 ∧ usage.cacheRead = 0 := by
  have hpos := CLAUDE_PRICING_input_pos model
  have hwrite : (0 : Rat) ≤ usage.cacheWrite := Nat.cast_nonneg _
  have hread : (0 : Rat) ≤ usage.cacheRead := Nat.cast_nonneg _
  unfold CACHE_WRITE_MULTIPLIER CACHE_READ_MULTIPLIER
  constructor
  . intro h
    rcases mul_eq_zero.mp h with hsum | hzero
    . have hw : (usage.cacheWrite : Rat) = 0 := by linarith
      have hr : (usage.cacheRead : Rat) = 0 := by linarith
      exact ⟨by exact_mod_cast hw, by exact_mod_cast hr⟩
    . exact absurd hzero (ne_of_gt hpos)
  . rintro ⟨hw, hr⟩
    simp [hw, hr]

theorem calculateCostUSD_seeded {db : Sorter} {o : Oracle} {now : TimeValue} {effectiveFrom : Date}
    (hseeded : (o.getPricing db now "claude" (some "/v1/messages")).2
      = .ok { getPricingConfig model with effectiveFrom })
    : (o.calculateCostUSD db now (extractUsage usage model) "claude" (some "/v1/messages")).2
      = .ok ((usage.input_tokens * (CLAUDE_PRICING model).input
          + usage.output_tokens * (CLAUDE_PRICING model).output) / 1000000) := by
  unfold calculateCostUSD
  generalize o.getPricing db now "claude" (some "/v1/messages") = answer at hseeded
  obtain ⟨o', result⟩ := answer
  simp only at hseeded
  subst hseeded
  rw [← calculateTokenCost_extractUsage { getPricingConfig model with effectiveFrom } rfl]
  rfl

/-- The cost paths agree exactly on the calls that use no cache. -/
theorem costsAgree_iff (db : Sorter) (o : Oracle) (now : TimeValue) (usage : Usage) (model : ClaudeModel)
    (effectiveFrom : Date)
    (hseeded : (o.getPricing db now "claude" (some "/v1/messages")).2
      = .ok { getPricingConfig model with effectiveFrom })
    : CostsAgree usage model db o now ↔ usage.cacheWrite = 0 ∧ usage.cacheRead = 0 := by
  have hcost := @calculateCostUSD_seeded usage model db o now effectiveFrom hseeded
  have hreported := @extractUsage_costUSD usage model
  constructor
  . rintro ⟨horacle, -⟩
    rw [hcost, hreported, Except.ok.injEq] at horacle
    apply (@cacheCost_eq_zero_iff usage model).mp
    linarith
  . intro hnone
    have hzero := (@cacheCost_eq_zero_iff usage model).mpr hnone
    rw [hzero, add_zero] at hreported
    refine ⟨?_, fun _ _ => ?_⟩
    . rw [hcost, hreported]
    . rw [hreported]
      unfold claudeCostUSD
      ring

/-- The provider registers with an empty database, and the oracle charges its prices. -/
theorem getPricing_seedProviderPricing (db : Sorter) (now : TimeValue)
    : ∃ o, seedProviderPricing db ⟨⟨[], []⟩, []⟩ now = (o, .ok ())
        ∧ (o.getPricing db now "claude" (some "/v1/messages")).2
          = .ok { getPricingConfig DEFAULT_CLAUDE_MODEL with effectiveFrom := some now } := by
  let model := { getPricingConfig DEFAULT_CLAUDE_MODEL with effectiveFrom := some now }
  have hvalid : validatePricingModel now model = .ok () := by
    have hrates : validateRates (getPricingConfig DEFAULT_CLAUDE_MODEL).rates = .ok () := by decide +kernel
    have hend : (getPricingConfig DEFAULT_CLAUDE_MODEL).effectiveUntil = none := rfl
    have hlength : (getPricingConfig DEFAULT_CLAUDE_MODEL).rates.length = 4 := rfl
    simp [model, validatePricingModel, hrates, hend, hlength, isAfter]
  let row : PricingModelRow :=
    ⟨model.providerId, model.endpoint, model.pricingType, model.currency, model.rates, now, none⟩
  have hrow : model.toRow = some row := rfl
  have hactive : row.isActive now = true :=
    PricingModelRow.isActive_iff.mpr ⟨le_refl _, fun stop hstop => nomatch hstop⟩
  obtain ⟨history, hupdate⟩ := @updatePricing_eq_ok db now model row ⟨⟨[], []⟩, []⟩ "system"
    "Auto-seeded from provider claude v1.0.0" hvalid hrow
  refine ⟨_, hupdate, getPricing_updatePricing hupdate hrow hactive ?_ rfl⟩
  simp [Repository.activeRows]

/-- 1000 input and 200 output tokens, and no cache. -/
theorem costsAgree_example
    : ∃ o, seedProviderPricing .table ⟨⟨[], []⟩, []⟩ .epoch = (o, .ok ())
        ∧ CostsAgree ⟨1000, 200, none, some 0⟩ DEFAULT_CLAUDE_MODEL .table o .epoch := by
  obtain ⟨o, ho, hseeded⟩ := getPricing_seedProviderPricing .table .epoch
  have hagree := costsAgree_iff .table o .epoch ⟨1000, 200, none, some 0⟩ DEFAULT_CLAUDE_MODEL (some .epoch) hseeded
  exact ⟨o, ho, hagree.mpr ⟨rfl, rfl⟩⟩

/-- 1000 tokens written to the cache are reported at 0.0125 USD and charged nothing. -/
theorem cache_tokens_not_charged
    : ∃ o, seedProviderPricing .table ⟨⟨[], []⟩, []⟩ .epoch = (o, .ok ())
        ∧ (extractUsage ⟨0, 0, some 1000, none⟩ DEFAULT_CLAUDE_MODEL).costUSD = 1 / 80
        ∧ (o.calculateCostUSD .table .epoch (extractUsage ⟨0, 0, some 1000, none⟩ DEFAULT_CLAUDE_MODEL) "claude"
            (some "/v1/messages")).2 = .ok 0
        ∧ ¬ CostsAgree ⟨0, 0, some 1000, none⟩ DEFAULT_CLAUDE_MODEL .table o .epoch := by
  obtain ⟨o, ho, hseeded⟩ := getPricing_seedProviderPricing .table .epoch
  have hreported : (extractUsage ⟨0, 0, some 1000, none⟩ DEFAULT_CLAUDE_MODEL).costUSD = 1 / 80 := by decide +kernel
  have hcharged : (o.calculateCostUSD .table .epoch (extractUsage ⟨0, 0, some 1000, none⟩ DEFAULT_CLAUDE_MODEL) "claude"
      (some "/v1/messages")).2 = .ok 0 := by
    rw [calculateCostUSD_seeded hseeded]
    simp
  refine ⟨o, ho, hreported, hcharged, fun h => ?_⟩
  have horacle := h.oracle
  rw [hcharged, hreported, Except.ok.injEq] at horacle
  exact absurd horacle (by decide +kernel)

end Pricing
end Longjing
