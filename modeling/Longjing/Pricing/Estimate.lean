import Longjing.Attestation.EventLog
import Longjing.Js.Number
import Longjing.Pricing.Claude

/-!
This module contains `cost-estimation.service.ts`: the estimate of what a request will cost, and the cache
in front of it.
-/

namespace Longjing
namespace Pricing

open Js
open Attestation (Json Num)

structure CostEstimateRequest where
  provider : String
  endpoint : Option String
  estimatedUnits : Rat
  unitType : Option String
  metadata : Option (Map String Json)

structure Breakdown where
  baseCostUSD : Rat
  -- `none` if infinite
  safetyMarginUSD : Option Rat
  currentEthRateUSD : Rat
deriving DecidableEq, Repr

structure CostEstimateResponse where
  provider : String
  endpoint : Option String
  estimatedCostUSD : Rat
  estimatedCostWei : String
  recommendedDepositWei : String
  breakdown : Breakdown
  confidence : Rat
  pricingModel : PricingType
  timestamp : Int
deriving DecidableEq, Repr

/-- What a provider is asked, and what it answers. -/
structure ProviderRequest where
  endpoint : String
  metadata : Map String Json

structure CostEstimate where
  minCostUSD : Rat
  maxCostUSD : Rat
  estimatedCostUSD : Rat
  confidence : Rat
deriving DecidableEq, Repr

inductive EstimateError where
  | notFound (message : String)
  | badRequest (message : String)
  | pricing (e : PricingError)
  -- no source has a rate
  | ethRate
  -- `BigInt` of what is no finite number
  | range
deriving DecidableEq, Repr

/-- What an estimate rests on: the registered providers, the prices and the rate of ETH, and how JavaScript
writes a number. -/
structure Environment where
  providers : String → Option (ProviderRequest → Except EstimateError CostEstimate)
  getPricing : String → Option String → Except PricingError PricingModel
  getEthUsdRate : Except EstimateError Rat
  numberText : Rat → String

/-- `{ ...request.metadata, estimatedUnits, unitType }` -/
def CostEstimateRequest.providerRequest (request : CostEstimateRequest) : ProviderRequest :=
  let metadata := Map.set (request.metadata.getD []) "estimatedUnits" (.num (.finite request.estimatedUnits))
  { endpoint := request.endpoint.getD ""
    metadata := match request.unitType with
      | some unitType => Map.set metadata "unitType" (.str unitType)
      | none => Map.delete metadata "unitType" }

namespace CostEstimationService

def CACHE_TTL_MS : Int := 5 * 60 * 1000
def MAX_CACHE_ENTRIES : Nat := 1000

/-- Each operation rounds to a double; `BigInt` throws on an infinite one. -/
def usdToWei (ethUsdRate usdAmount : Rat) : Except EstimateError Int :=
  if ethUsdRate = 0 then
    .error .range
  else
    match (toDouble (usdAmount / ethUsdRate)).bind fun ethAmount => toDouble (ethAmount * 10 ^ 18) with
    | some wei => .ok wei.ceil
    | none => .error .range

section Estimate

variable (env : Environment)

/-- The call without the cache. -/
def computeEstimate (request : CostEstimateRequest) (now : Int) : Except EstimateError CostEstimateResponse :=
  match env.providers request.provider with
  | none => .error (.notFound ("Provider not found: " ++ request.provider))
  | some estimateCost =>
    match estimateCost request.providerRequest with
    | .error e => .error e
    | .ok providerEstimate =>
      match env.getPricing request.provider request.endpoint with
      | .error e => .error (.pricing e)
      | .ok pricing =>
        match env.getEthUsdRate with
        | .error e => .error e
        | .ok ethRateUSD =>
          let costUSD := providerEstimate.estimatedCostUSD
          match usdToWei ethRateUSD costUSD with
          | .error e => .error e
          | .ok costWei =>
            .ok
              { provider := request.provider
                endpoint := request.endpoint
                estimatedCostUSD := costUSD
                estimatedCostWei := toString costWei
                recommendedDepositWei := toString ((costWei * 120).tdiv 100)
                breakdown := ⟨costUSD, (toDouble (1 / 5)).bind fun margin => toDouble (costUSD * margin), ethRateUSD⟩
                confidence := providerEstimate.confidence
                pricingModel := pricing.pricingType
                timestamp := now }

def getCacheKey (request : CostEstimateRequest) : String :=
  request.provider ++ ":" ++ request.endpoint.getD "" ++ ":" ++ env.numberText request.estimatedUnits ++ ":"
    ++ request.unitType.getD ""

end Estimate

/-- An estimate, and when it expires. -/
abbrev Cache := Map String (CostEstimateResponse × Int)

/-- The loop over the oldest entries. -/
def evict (now : Int) : Cache → Cache
  | [] => []
  | (key, estimate, expiry) :: rest =>
    if now < expiry ∧ rest.length + 1 < MAX_CACHE_ENTRIES then
      (key, estimate, expiry) :: rest
    else
      evict now rest

def cacheEstimate (cache : Cache) (now : Int) (key : String) (estimate : CostEstimateResponse) : Cache :=
  Map.set (evict now (Map.delete cache key)) key (estimate, now + CACHE_TTL_MS)

end CostEstimationService

open CostEstimationService

/-- The service, with the calls that wait for their provider. -/
structure CostEstimationService where
  estimateCache : Cache
  pending : List CostEstimateRequest

/-- What a call was answered, and when; `cached` if from the cache. -/
structure Reply where
  request : CostEstimateRequest
  result : Except EstimateError CostEstimateResponse
  cached : Bool
  time : Int

namespace CostEstimationService

inductive Command where
  -- a call, up to the provider
  | estimateCost (request : CostEstimateRequest) (now : Int)
  -- the rest of the i-th call that waits
  | settle (i : Nat) (now : Int)

section Run

variable (env : Environment)

def step (s : CostEstimationService) : Command → CostEstimationService × List Reply
  | .estimateCost request now =>
    let missed := (⟨s.estimateCache, s.pending ++ [request]⟩, [])
    match Map.get s.estimateCache (getCacheKey env request) with
    | some (estimate, expiry) => if now < expiry then (s, [⟨request, .ok estimate, true, now⟩]) else missed
    | none => missed
  | .settle i now =>
    match s.pending[i]? with
    | none => (s, [])
    | some request =>
      match computeEstimate env request now with
      | .error e => (⟨s.estimateCache, s.pending.eraseIdx i⟩, [⟨request, .error e, false, now⟩])
      | .ok estimate =>
        (⟨cacheEstimate s.estimateCache now (getCacheKey env request) estimate, s.pending.eraseIdx i⟩,
          [⟨request, .ok estimate, false, now⟩])

/-- The state after a run from an empty cache, and every reply so far. -/
def run (commands : List Command) : CostEstimationService × List Reply :=
  commands.foldl (fun (s, replies) command => ((step env s command).1, replies ++ (step env s command).2))
    (⟨[], []⟩, [])

/-- What is promised of an estimate; when it was made is not. -/
structure Agrees (estimate estimate' : CostEstimateResponse) : Prop where
  provider : estimate.provider = estimate'.provider
  endpoint : estimate.endpoint = estimate'.endpoint
  estimatedCostUSD : estimate.estimatedCostUSD = estimate'.estimatedCostUSD
  estimatedCostWei : estimate.estimatedCostWei = estimate'.estimatedCostWei
  recommendedDepositWei : estimate.recommendedDepositWei = estimate'.recommendedDepositWei
  pricingModel : estimate.pricingModel = estimate'.pricingModel

/-- The reply is that of the call without the cache. -/
def Reply.Transparent (reply : Reply) : Prop :=
  match reply.result, computeEstimate env reply.request reply.time with
  | .ok estimate, .ok estimate' => Agrees estimate estimate'
  | .error e, .error e' => e = e'
  | _, _ => False

/-- The two requests ask the same. -/
structure SameInputs (request request' : CostEstimateRequest) : Prop where
  provider : request.provider = request'.provider
  endpoint : request.endpoint = request'.endpoint
  providerRequest : request.providerRequest = request'.providerRequest

/-- While an estimate is in force, its key is only used by requests that ask the same. -/
def Separate (commands : List Command) : Prop :=
  ∀ earlier request now later, commands = earlier ++ .estimateCost request now :: later →
    ∀ reply ∈ (run env earlier).2, reply.cached = false → reply.result.isOk = true →
      getCacheKey env reply.request = getCacheKey env request → now < reply.time + CACHE_TTL_MS →
      SameInputs reply.request request

end Run

variable {env : Environment}

theorem computeEstimate_agrees {request : CostEstimateRequest} {now : Int} {estimate : CostEstimateResponse}
    (h : computeEstimate env request now = .ok estimate) {request' : CostEstimateRequest}
    (hsame : SameInputs request request') (now' : Int)
    : ∃ estimate', computeEstimate env request' now' = .ok estimate' ∧ Agrees estimate estimate' := by
  unfold computeEstimate at h ⊢
  rw [hsame.provider, hsame.endpoint, hsame.providerRequest] at h
  split at h
  next => contradiction
  next estimateCost hprovider =>
    split at h
    next => contradiction
    next providerEstimate hestimate =>
      split at h
      next => contradiction
      next pricing hpricing =>
        split at h
        next => contradiction
        next ethRateUSD hrate =>
          simp only at h ⊢
          split at h
          next => contradiction
          next costWei hcostWei =>
            cases h
            exact ⟨_, rfl, ⟨rfl, rfl, rfl, rfl, rfl, rfl⟩⟩

theorem mem_evict {now : Int} {cache : Cache} {entry : String × CostEstimateResponse × Int}
    (h : entry ∈ evict now cache) : entry ∈ cache := by
  induction cache with
  | nil => exact h
  | cons first rest ih =>
    unfold evict at h
    split at h
    . exact h
    . exact List.mem_cons_of_mem _ (ih h)

theorem mem_cacheEstimate {cache : Cache} {now : Int} {key : String} {estimate : CostEstimateResponse}
    {entry : String × CostEstimateResponse × Int} (h : entry ∈ cacheEstimate cache now key estimate)
    : entry = (key, estimate, now + CACHE_TTL_MS) ∨ entry ∈ cache := by
  rcases Map.mem_set h with h | h
  . exact Or.inl h
  . exact Or.inr (List.mem_of_mem_filter (mem_evict h))

variable (env) in
/-- Every entry of the cache is what some call computed. -/
def Stored (s : CostEstimationService) (replies : List Reply) : Prop :=
  ∀ key estimate expiry, (key, estimate, expiry) ∈ s.estimateCache →
    ∃ reply ∈ replies, reply.cached = false ∧ reply.result.isOk = true ∧ getCacheKey env reply.request = key
      ∧ reply.time + CACHE_TTL_MS = expiry ∧ computeEstimate env reply.request reply.time = .ok estimate

theorem Stored.mono {s s' : CostEstimationService} {replies later : List Reply} (h : Stored env s replies)
    (hsub : ∀ entry ∈ s'.estimateCache, entry ∈ s.estimateCache) : Stored env s' (replies ++ later) := by
  intro key estimate expiry hmem
  obtain ⟨reply, hreply, hstored⟩ := h key estimate expiry (hsub _ hmem)
  exact ⟨reply, List.mem_append_left _ hreply, hstored⟩

theorem Stored.step {s : CostEstimationService} {replies : List Reply} (h : Stored env s replies)
    (command : Command) : Stored env (step env s command).1 (replies ++ (step env s command).2) := by
  cases command with
  | estimateCost request now =>
    apply h.mono
    unfold CostEstimationService.step
    simp only
    split
    . split <;> exact fun _ hmem => hmem
    . exact fun _ hmem => hmem
  | settle i now =>
    unfold CostEstimationService.step
    simp only
    split
    . exact h.mono fun _ hmem => hmem
    next request _ =>
      split
      . exact h.mono fun _ hmem => hmem
      next estimate hcompute =>
        intro key estimate' expiry hmem
        rcases mem_cacheEstimate hmem with heq | hmem
        . cases heq
          exact ⟨⟨request, .ok estimate, false, now⟩, by simp, rfl, rfl, rfl, rfl, hcompute⟩
        . obtain ⟨reply, hreply, hstored⟩ := h key estimate' expiry hmem
          exact ⟨reply, List.mem_append_left _ hreply, hstored⟩

theorem run_concat (commands : List Command) (command : Command)
    : run env (commands ++ [command])
      = ((step env (run env commands).1 command).1,
          (run env commands).2 ++ (step env (run env commands).1 command).2) := by
  unfold run
  rw [List.foldl_append]
  rfl

theorem run_stored (commands : List Command) : Stored env (run env commands).1 (run env commands).2 := by
  induction commands using List.reverseRecOn with
  | nil =>
    intro key estimate expiry hmem
    exact absurd hmem List.not_mem_nil
  | append_singleton commands command ih =>
    rw [run_concat]
    exact ih.step command

theorem step_settle_transparent {s : CostEstimationService} {i : Nat} {now : Int}
    : ∀ reply ∈ (step env s (.settle i now)).2, Reply.Transparent env reply := by
  unfold step
  simp only
  split
  . simp
  next request _ =>
    split
    next e hcompute =>
      simp only [List.mem_singleton, forall_eq]
      unfold Reply.Transparent
      simp only [hcompute]
    next estimate hcompute =>
      simp only [List.mem_singleton, forall_eq]
      unfold Reply.Transparent
      simp only [hcompute]
      exact ⟨rfl, rfl, rfl, rfl, rfl, rfl⟩

theorem step_estimateCost_transparent {s : CostEstimationService} {replies : List Reply}
    (hstored : Stored env s replies) {request : CostEstimateRequest} {now : Int}
    (hseparate : ∀ reply ∈ replies, reply.cached = false → reply.result.isOk = true →
      getCacheKey env reply.request = getCacheKey env request → now < reply.time + CACHE_TTL_MS →
      SameInputs reply.request request)
    : ∀ reply ∈ (step env s (.estimateCost request now)).2, Reply.Transparent env reply := by
  unfold step
  simp only
  split
  next estimate expiry hget =>
    split
    next hfresh =>
      obtain ⟨reply, hreply, hcached, hok, hkey, hexpiry, hcompute⟩ := hstored _ _ _ (Map.mem_of_get hget)
      have hsame := hseparate reply hreply hcached hok hkey (hexpiry ▸ hfresh)
      obtain ⟨estimate', hcompute', hagrees⟩ := computeEstimate_agrees hcompute hsame now
      simp only [List.mem_singleton, forall_eq]
      unfold Reply.Transparent
      simp only [hcompute']
      exact hagrees
    . simp
  . simp

/-- Every reply of a run is that of the call without the cache, if no two requests that ask for something else
share a key. -/
theorem estimateCost_transparent (env : Environment) (commands : List Command) (hseparate : Separate env commands)
    : ∀ reply ∈ (run env commands).2, Reply.Transparent env reply := by
  induction commands using List.reverseRecOn with
  | nil => exact fun reply hmem => absurd hmem List.not_mem_nil
  | append_singleton commands command ih =>
    have hbefore : Separate env commands := by
      intro earlier request now later hcommands
      exact hseparate earlier request now (later ++ [command]) (by simp [hcommands])
    rw [run_concat]
    intro reply hmem
    rcases List.mem_append.mp hmem with hmem | hmem
    . exact ih hbefore reply hmem
    . cases command with
      | settle i now => exact step_settle_transparent reply hmem
      | estimateCost request now =>
        exact step_estimateCost_transparent (run_stored commands) (hseparate commands request now [] rfl) reply hmem

/-- A call whose estimate is computed, and a call that finds it in the cache. -/
theorem run_again {request request' : CostEstimateRequest} {estimate : CostEstimateResponse} {start made asked : Int}
    (hcompute : computeEstimate env request made = .ok estimate)
    (hkey : getCacheKey env request' = getCacheKey env request) (hfresh : asked < made + CACHE_TTL_MS)
    : (run env [.estimateCost request start, .settle 0 made]).2 = [⟨request, .ok estimate, false, made⟩]
      ∧ (run env [.estimateCost request start, .settle 0 made, .estimateCost request' asked]).2
        = [⟨request, .ok estimate, false, made⟩, ⟨request', .ok estimate, true, asked⟩] := by
  have hstored : Map.get (cacheEstimate [] made (getCacheKey env request) estimate) (getCacheKey env request)
      = some (estimate, made + CACHE_TTL_MS) := by
    unfold cacheEstimate
    rw [Map.get_set, if_pos rfl]
  have hempty : Map.get ([] : Cache) (getCacheKey env request) = none := rfl
  constructor
  . simp [run, step, hempty, hcompute]
  . simp [run, step, hempty, hcompute, hkey, hstored, hfresh]

section Claude

/-- A JavaScript string counts UTF-16 units. -/
def jsLength (s : String) : Nat := (s.toList.map fun c => if c.toNat < 2 ^ 16 then 1 else 2).sum

/-- What a part of a message adds to its text; `none` if it is `null` or its `text` is neither a string
nor absent. -/
def partLength : Json → Option Nat
  | .str s => some (jsLength s)
  | .null => none
  | part =>
    match part.get? "text" with
    | some (.str s) => some (jsLength s)
    | none => some 0
    | _ => none

def contentLength : Json → Option Nat
  | .str s => some (jsLength s)
  | .arr parts => (parts.mapM partLength).map List.sum
  | _ => some 0

def messageLength (message : Json) : Option Nat :=
  match message.get? "content" with
  | some content => contentLength content
  | none => some 0

/-- Four characters per token. -/
def estimateTokenCount : Option Json → Option Nat
  | some (.arr messages) => (messages.mapM messageLength).map fun lengths => (lengths.sum + 3) / 4
  | _ => some 0

def claudeModel? : String → Option ClaudeModel
  | "claude-fable-5-1" => some .fable51
  | "claude-opus-4-6" => some .opus46
  | "claude-sonnet-4-6" => some .sonnet46
  | "claude-haiku-4-5" => some .haiku45
  | _ => none

def modelError : EstimateError :=
  .badRequest "model must be one of: claude-fable-5-1, claude-opus-4-6, claude-sonnet-4-6, claude-haiku-4-5"

/-- The `model` of the metadata. -/
def readModel : Option Json → Except EstimateError ClaudeModel
  | none => .ok DEFAULT_CLAUDE_MODEL
  | some (.str name) => ((claudeModel? name).map .ok).getD (.error modelError)
  | some _ => .error modelError

/-- A count of tokens, if it is one. -/
def readTokens : Option Json → Option Nat
  | none => some 1024
  | some (.num (.finite q)) => if q.den = 1 ∧ 0 ≤ q.num then some q.num.toNat else none
  | some _ => none

/-- `estimateCost` of the Claude provider. What JavaScript makes of parts of a message that are none, and of
a count of tokens that is no natural number, is `coerced`. -/
def claudeEstimateCost (coerced : ClaudeModel → ProviderRequest → Except EstimateError CostEstimate)
    (request : ProviderRequest) : Except EstimateError CostEstimate :=
  match readModel (Map.get request.metadata "model") with
  | .error e => .error e
  | .ok model =>
    match estimateTokenCount (Map.get request.metadata "messages"),
      readTokens (Map.get request.metadata "maxTokens") with
    | some estimatedInputTokens, some estimatedOutputTokens =>
      let pricing := ClaudeProvider.getPricingConfig model
      let inputCostUSD := ClaudeProvider.tokenCostUSD pricing "input_token" estimatedInputTokens
      let outputCostUSD := ClaudeProvider.tokenCostUSD pricing "output_token" estimatedOutputTokens
      let estimatedCostUSD := inputCostUSD + outputCostUSD
      .ok ⟨estimatedCostUSD * (7 / 10), estimatedCostUSD * (3 / 2), estimatedCostUSD, 4 / 5⟩
    | _, _ => coerced model request

/-- Claude alone is registered, its own prices are in force, and a rate of 2000 USD. -/
def claudeEnvironment : Environment where
  providers := fun id => if id = "claude" then some (claudeEstimateCost fun _ _ => .error .ethRate) else none
  getPricing := fun id _ =>
    if id = "claude" then .ok (ClaudeProvider.getPricingConfig DEFAULT_CLAUDE_MODEL) else .error (.notFound id)
  getEthUsdRate := .ok 2000
  numberText := fun q => toString q.num

def exampleRequest (maxTokens : Nat) : CostEstimateRequest :=
  ⟨"claude", some "/v1/messages", 1000, some "tokens", some [("maxTokens", .num (.finite maxTokens))]⟩

theorem exists_exampleEstimate {maxTokens : Nat} {now : Int}
    (hok : (computeEstimate claudeEnvironment (exampleRequest maxTokens) now).isOk = true)
    : ∃ estimate, computeEstimate claudeEnvironment (exampleRequest maxTokens) now = .ok estimate := by
  cases hcompute : computeEstimate claudeEnvironment (exampleRequest maxTokens) now with
  | ok estimate => exact ⟨estimate, rfl⟩
  | error e =>
    rw [hcompute] at hok
    cases hok

/-- The same request twice. -/
theorem estimateCost_transparent_repeated
    : Separate claudeEnvironment
        [.estimateCost (exampleRequest 1024) 0, .settle 0 10, .estimateCost (exampleRequest 1024) 20]
      ∧ (run claudeEnvironment
          [.estimateCost (exampleRequest 1024) 0, .settle 0 10, .estimateCost (exampleRequest 1024) 20]).2.length = 2
      ∧ ∀ reply ∈ (run claudeEnvironment
          [.estimateCost (exampleRequest 1024) 0, .settle 0 10, .estimateCost (exampleRequest 1024) 20]).2,
        Reply.Transparent claudeEnvironment reply := by
  obtain ⟨estimate, hcompute⟩ := @exists_exampleEstimate 1024 10 (by decide +kernel)
  have hseparate : Separate claudeEnvironment
      [.estimateCost (exampleRequest 1024) 0, .settle 0 10, .estimateCost (exampleRequest 1024) 20] := by
    intro earlier request now later hcommands reply hreply _ _ _ _
    rcases earlier with _ | ⟨first, _ | ⟨second, _ | ⟨third, rest⟩⟩⟩
    . exact absurd hreply List.not_mem_nil
    . simp at hcommands
    . simp only [List.cons_append, List.nil_append, List.cons.injEq, Command.estimateCost.injEq] at hcommands
      obtain ⟨rfl, rfl, ⟨rfl, -⟩, -⟩ := hcommands
      rw [(@run_again claudeEnvironment _ (exampleRequest 1024) _ 0 10 20 hcompute rfl (by decide)).1] at hreply
      rw [List.mem_singleton.mp hreply]
      exact ⟨rfl, rfl, rfl⟩
    . simp at hcommands
  exact ⟨hseparate, by decide +kernel, estimateCost_transparent claudeEnvironment _ hseparate⟩

/-- The second request is for four times the tokens, and is answered what the first one costs. -/
theorem metadata_not_in_cacheKey
    : ((run claudeEnvironment
          [.estimateCost (exampleRequest 1024) 0, .settle 0 10, .estimateCost (exampleRequest 4096) 20]).2.map
            fun reply => reply.result.toOption.map CostEstimateResponse.estimatedCostUSD)
        = [some (32 / 625), some (32 / 625)]
      ∧ ((computeEstimate claudeEnvironment (exampleRequest 4096) 20).toOption.map
          CostEstimateResponse.estimatedCostUSD) = some (128 / 625)
      ∧ ¬ ∀ reply ∈ (run claudeEnvironment
          [.estimateCost (exampleRequest 1024) 0, .settle 0 10, .estimateCost (exampleRequest 4096) 20]).2,
        Reply.Transparent claudeEnvironment reply := by
  refine ⟨by decide +kernel, by decide +kernel, fun h => ?_⟩
  obtain ⟨estimate, hcompute⟩ := @exists_exampleEstimate 1024 10 (by decide +kernel)
  obtain ⟨estimate', hcompute'⟩ := @exists_exampleEstimate 4096 20 (by decide +kernel)
  rw [(@run_again claudeEnvironment _ (exampleRequest 4096) _ 0 10 20 hcompute rfl (by decide)).2] at h
  have hsecond := h ⟨exampleRequest 4096, .ok estimate, true, 20⟩ (by simp)
  unfold Reply.Transparent at hsecond
  simp only [hcompute'] at hsecond
  have hcost : (computeEstimate claudeEnvironment (exampleRequest 1024) 10).toOption.map
        CostEstimateResponse.estimatedCostUSD
      = (computeEstimate claudeEnvironment (exampleRequest 4096) 20).toOption.map
        CostEstimateResponse.estimatedCostUSD := by
    rw [hcompute, hcompute']
    exact congrArg some hsecond.estimatedCostUSD
  exact absurd hcost (by decide +kernel)

end Claude

end CostEstimationService

end Pricing
end Longjing
