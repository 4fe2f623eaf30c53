import Longjing.Pricing.Estimate

/-!
The bound on the cache of estimates: what a call may evict, whatever the calls in between.
-/

namespace Longjing
namespace Pricing

open Js

namespace CostEstimationService

def Command.now : Command → Int
  | .estimateCost _ now => now
  | .settle _ now => now

/-- The state after a run in which providers, prices and rates may change from step to step. -/
def runAll (steps : List (Environment × Command)) : CostEstimationService :=
  steps.foldl (fun s (env, command) => (step env s command).1) ⟨[], []⟩

/-- What a command stores, and under which key. -/
def insertion (env : Environment) (s : CostEstimationService) : Command → Option (String × CostEstimateResponse)
  | .estimateCost _ _ => none
  | .settle i now => do
    let request ← s.pending[i]?
    let estimate ← (computeEstimate env request now).toOption
    return (getCacheKey env request, estimate)

structure Bounded (cache : Cache) : Prop where
  size : cache.length ≤ MAX_CACHE_ENTRIES
  distinct : Map.Distinct cache
  ordered : cache.Pairwise fun entry later => entry.2.2 ≤ later.2.2

/-- What an insertion leaves, and what it evicts before its time. -/
structure Inserts (cache : Cache) (now : Int) (key : String) (estimate : CostEstimateResponse) (cache' : Cache)
    : Prop where
  stored : (key, estimate, now + CACHE_TTL_MS) ∈ cache'
  live : ∀ entry ∈ cache', now < entry.2.2
  evicted : ∀ entry ∈ cache, entry.1 ≠ key → now < entry.2.2 → entry ∉ cache' →
    cache.length = MAX_CACHE_ENTRIES ∧ ∀ other ∈ cache, entry.2.2 ≤ other.2.2

theorem evict_suffix (now : Int) (cache : Cache) : evict now cache <:+ cache := by
  induction cache with
  | nil => exact List.suffix_refl _
  | cons entry rest ih =>
    unfold evict
    split
    . exact List.suffix_refl _
    . exact ih.trans (List.suffix_cons _ _)

theorem length_evict_lt (now : Int) (cache : Cache) : (evict now cache).length < MAX_CACHE_ENTRIES := by
  induction cache with
  | nil => exact Nat.zero_lt_succ _
  | cons entry rest ih =>
    unfold evict
    split
    next h => exact h.2
    next => exact ih

/-- The loop stops at a live entry, and no later one is older. -/
theorem live_of_mem_evict {now : Int} {cache : Cache} (h : cache.Pairwise fun entry later => entry.2.2 ≤ later.2.2)
    {entry : String × CostEstimateResponse × Int} (hmem : entry ∈ evict now cache) : now < entry.2.2 := by
  induction cache with
  | nil => exact absurd hmem List.not_mem_nil
  | cons first rest ih =>
    obtain ⟨hfirst, hrest⟩ := List.pairwise_cons.mp h
    unfold evict at hmem
    split at hmem
    next hlive =>
      rcases List.mem_cons.mp hmem with rfl | hlater
      . exact hlive.1
      . exact Int.lt_of_lt_of_le hlive.1 (hfirst entry hlater)
    next => exact ih hrest hmem

/-- A live entry only makes room in a full cache, in which it is the oldest. -/
theorem full_of_evict {now : Int} {cache : Cache} (h : cache.Pairwise fun entry later => entry.2.2 ≤ later.2.2)
    (hsize : cache.length ≤ MAX_CACHE_ENTRIES) {entry : String × CostEstimateResponse × Int} (hmem : entry ∈ cache)
    (hlive : now < entry.2.2) (hevicted : entry ∉ evict now cache)
    : cache.length = MAX_CACHE_ENTRIES ∧ ∀ other ∈ cache, entry.2.2 ≤ other.2.2 := by
  induction cache with
  | nil => exact absurd hmem List.not_mem_nil
  | cons first rest ih =>
    obtain ⟨hfirst, hrest⟩ := List.pairwise_cons.mp h
    rw [List.length_cons] at hsize
    unfold evict at hevicted
    split at hevicted
    next => exact absurd hmem hevicted
    next hstop =>
      rcases List.mem_cons.mp hmem with rfl | hlater
      . have hfull : MAX_CACHE_ENTRIES ≤ rest.length + 1 := by
          apply Nat.le_of_not_lt
          intro hroom
          exact hstop ⟨hlive, hroom⟩
        refine ⟨Nat.le_antisymm hsize hfull, ?_⟩
        intro other hother
        rcases List.mem_cons.mp hother with rfl | hother
        . exact Int.le_refl _
        . exact hfirst other hother
      . -- with the first entry gone there is room, so no later one is evicted while it is live
        have hfull := (ih hrest (Nat.le_of_succ_le hsize) hlater hevicted).1
        omega

/-- Every entry expires at most one period after `now`, and the cache is bounded. -/
structure Expiring (now : Int) (cache : Cache) : Prop where
  bounded : Bounded cache
  expiry_le : ∀ entry ∈ cache, entry.2.2 ≤ now + CACHE_TTL_MS

theorem Expiring.mono {now now' : Int} {cache : Cache} (h : Expiring now cache) (hle : now ≤ now')
    : Expiring now' cache := by
  refine ⟨h.bounded, ?_⟩
  intro entry hentry
  have := h.expiry_le entry hentry
  omega

theorem delete_sublist (cache : Cache) (key : String) : (Map.delete cache key).Sublist cache :=
  List.filter_sublist

theorem cacheEstimate_eq (cache : Cache) (now : Int) (key : String) (estimate : CostEstimateResponse)
    : cacheEstimate cache now key estimate
      = evict now (Map.delete cache key) ++ [(key, estimate, now + CACHE_TTL_MS)] := by
  apply Map.set_of_not_mem
  intro hmem
  exact Map.not_mem_keys_delete cache key (((evict_suffix now _).map Prod.fst).subset hmem)

variable {now : Int} {cache : Cache}

theorem Expiring.cacheEstimate (h : Expiring now cache) (key : String) (estimate : CostEstimateResponse)
    : Expiring now (cacheEstimate cache now key estimate) := by
  have hsub : (evict now (Map.delete cache key)).Sublist cache :=
    (evict_suffix now _).sublist.trans (delete_sublist cache key)
  have hroom := length_evict_lt now (Map.delete cache key)
  refine ⟨⟨?_, ?_, ?_⟩, ?_⟩
  . rw [cacheEstimate_eq, List.length_append]
    exact hroom
  . exact Map.Distinct.set (h.bounded.distinct.sublist (hsub.map Prod.fst)) key _
  . rw [cacheEstimate_eq, List.pairwise_append]
    refine ⟨h.bounded.ordered.sublist hsub, List.pairwise_singleton _ _, ?_⟩
    intro entry hentry last hlast
    rw [List.mem_singleton.mp hlast]
    exact h.expiry_le entry (hsub.subset hentry)
  . intro entry hentry
    rw [cacheEstimate_eq, List.mem_append] at hentry
    rcases hentry with hentry | hlast
    . exact h.expiry_le entry (hsub.subset hentry)
    . rw [List.mem_singleton.mp hlast]

theorem inserts_cacheEstimate (h : Bounded cache) (key : String) (estimate : CostEstimateResponse)
    : Inserts cache now key estimate (cacheEstimate cache now key estimate) := by
  have hordered := h.ordered.sublist (delete_sublist cache key)
  constructor
  . rw [cacheEstimate_eq]
    exact List.mem_append_right _ (List.mem_singleton_self _)
  . intro entry hentry
    rw [cacheEstimate_eq, List.mem_append] at hentry
    rcases hentry with hentry | hlast
    . exact live_of_mem_evict hordered hentry
    . rw [List.mem_singleton.mp hlast]
      exact Int.lt_add_of_pos_right now (by decide)
  . intro entry hentry hkey hlive hevicted
    rw [cacheEstimate_eq, List.mem_append, not_or] at hevicted
    have hle := (delete_sublist cache key).length_le
    obtain ⟨hfull, holdest⟩ := full_of_evict hordered (hle.trans h.size)
      (Map.mem_delete.mpr ⟨hentry, hkey⟩) hlive hevicted.1
    -- nothing was replaced, or the cache would not have been full
    have hkept : Map.delete cache key = cache :=
      (delete_sublist cache key).eq_of_length_le (hfull ▸ h.size)
    rw [hkept] at hfull holdest
    exact ⟨hfull, holdest⟩

theorem step_estimateCache (env : Environment) (s : CostEstimationService) (command : Command)
    : (step env s command).1.estimateCache
      = match insertion env s command with
        | none => s.estimateCache
        | some (key, estimate) => CostEstimationService.cacheEstimate s.estimateCache command.now key estimate := by
  cases command with
  | estimateCost request now =>
    unfold step insertion
    simp only
    split
    . split <;> rfl
    . rfl
  | settle i now =>
    cases hpending : s.pending[i]? with
    | none => simp [step, insertion, hpending]
    | some request =>
      cases hcompute : computeEstimate env request now with
      | error e => simp [step, insertion, hpending, hcompute, Except.toOption]
      | ok estimate => simp [step, insertion, hpending, hcompute, Except.toOption, Command.now]

theorem runAll_concat (steps : List (Environment × Command)) (env : Environment) (command : Command)
    : runAll (steps ++ [(env, command)]) = (step env (runAll steps) command).1 := by
  unfold runAll
  rw [List.foldl_append]
  rfl

theorem Expiring.step {s : CostEstimationService} (h : Expiring now s.estimateCache) (env : Environment)
    {command : Command} (hclock : now ≤ command.now) : Expiring command.now (step env s command).1.estimateCache := by
  rw [step_estimateCache]
  split
  . exact h.mono hclock
  . exact (h.mono hclock).cacheEstimate _ _

theorem runAll_expiring {steps : List (Environment × Command)}
    (hclock : (steps.map (·.2.now)).Pairwise (· ≤ ·)) (hle : ∀ entry ∈ steps, entry.2.now ≤ now)
    : Expiring now (runAll steps).estimateCache := by
  induction steps using List.reverseRecOn generalizing now with
  | nil => exact ⟨⟨Nat.zero_le _, List.nodup_nil, List.Pairwise.nil⟩, fun _ h => absurd h List.not_mem_nil⟩
  | append_singleton steps last ih =>
    rw [List.map_append, List.pairwise_append] at hclock
    obtain ⟨hbefore, -, hlast⟩ := hclock
    have hsteps := ih hbefore fun entry hentry =>
      hlast _ (List.mem_map_of_mem hentry) last.2.now (List.mem_singleton_self _)
    rw [runAll_concat]
    exact (hsteps.step last.1 (Int.le_refl _)).mono (hle last (by simp))

/-- Over any run the cache is bounded and in the order of expiry, and every insertion evicts what has expired and
else only the oldest entry of a full cache. -/
theorem runAll_evicts (steps : List (Environment × Command)) (hclock : (steps.map (·.2.now)).Pairwise (· ≤ ·))
    : Bounded (runAll steps).estimateCache
      ∧ ∀ before env command after, steps = before ++ (env, command) :: after →
          match insertion env (runAll before) command with
          | none => (runAll (before ++ [(env, command)])).estimateCache = (runAll before).estimateCache
          | some (key, estimate) =>
            Inserts (runAll before).estimateCache command.now key estimate
              (runAll (before ++ [(env, command)])).estimateCache := by
  constructor
  . obtain ⟨now, hnow⟩ : ∃ now, ∀ entry ∈ steps, entry.2.now ≤ now := by
      induction steps with
      | nil => exact ⟨0, fun _ h => absurd h List.not_mem_nil⟩
      | cons first steps ih =>
        obtain ⟨now, hnow⟩ := ih (List.pairwise_cons.mp hclock).2
        refine ⟨max first.2.now now, ?_⟩
        intro entry hentry
        rcases List.mem_cons.mp hentry with rfl | hentry
        . exact Int.le_max_left _ _
        . exact Int.le_trans (hnow entry hentry) (Int.le_max_right _ _)
    exact (runAll_expiring hclock hnow).bounded
  . rintro before env command after rfl
    rw [List.map_append, List.pairwise_append] at hclock
    obtain ⟨hbefore, -, hlater⟩ := hclock
    have hearlier : ∀ entry ∈ before, entry.2.now ≤ command.now := fun entry hentry =>
      hlater _ (List.mem_map_of_mem hentry) command.now (by simp)
    have hexpiring := runAll_expiring hbefore hearlier
    rw [runAll_concat, step_estimateCache]
    split
    . rfl
    . exact inserts_cacheEstimate hexpiring.bounded _ _

section Example

def unitsRequest (n : Nat) : CostEstimateRequest :=
  ⟨"claude", some "/v1/messages", n, some "tokens", some [("maxTokens", .num (.finite 1024))]⟩

def unitsKey (n : Nat) : String := getCacheKey claudeEnvironment (unitsRequest n)

def unitsEstimate (n : Nat) : CostEstimateResponse where
  provider := "claude"
  endpoint := some "/v1/messages"
  estimatedCostUSD := 32 / 625
  estimatedCostWei := "25600000000000"
  recommendedDepositWei := "30720000000000"
  breakdown := ⟨32 / 625, some (5902958103587057 / 576460752303423488), 2000⟩
  confidence := 4 / 5
  pricingModel := .perToken
  timestamp := n

def unitsEntry (n : Nat) : String × CostEstimateResponse × Int := (unitsKey n, unitsEstimate n, n + CACHE_TTL_MS)

/-- So many requests one after another, one each millisecond. -/
def filling : Nat → List (Environment × Command)
  | 0 => []
  | n + 1 =>
    filling n ++ [(claudeEnvironment, .estimateCost (unitsRequest n) n)] ++ [(claudeEnvironment, .settle 0 n)]

theorem unitsKey_injective : Function.Injective unitsKey := by
  intro n m h
  unfold unitsKey getCacheKey unitsRequest claudeEnvironment at h
  simp only [String.append_left_inj, String.append_right_inj] at h
  have hnum : ((n : Rat)).num = ((m : Rat)).num := Js.toString_injective h
  simpa using hnum

/-- The provider does not look at the units. -/
theorem estimateCost_units (coerced : ClaudeModel → ProviderRequest → Except EstimateError CostEstimate) (n : Nat)
    : claudeEstimateCost coerced (unitsRequest n).providerRequest
      = claudeEstimateCost coerced (unitsRequest 0).providerRequest := by
  unfold claudeEstimateCost
  have hread (key : String) (hkey : key ≠ "estimatedUnits") : Map.get (unitsRequest n).providerRequest.metadata key
      = Map.get (unitsRequest 0).providerRequest.metadata key := by
    unfold CostEstimateRequest.providerRequest unitsRequest
    simp only [Map.get_set, if_neg hkey]
  rw [hread "model" (by decide), hread "messages" (by decide), hread "maxTokens" (by decide)]
  rfl
theorem computeEstimate_units (n : Nat)
    : computeEstimate claudeEnvironment (unitsRequest n) n = .ok (unitsEstimate n) := by
  have hprovider : claudeEnvironment.providers (unitsRequest n).provider
      = some (claudeEstimateCost fun _ _ => .error .ethRate) := rfl
  have hestimate : claudeEstimateCost (fun _ _ => .error .ethRate) (unitsRequest 0).providerRequest
      = .ok ⟨32 / 625 * (7 / 10), 32 / 625 * (3 / 2), 32 / 625, 4 / 5⟩ := by decide +kernel
  have hpricing : claudeEnvironment.getPricing (unitsRequest n).provider (unitsRequest n).endpoint
      = .ok (ClaudeProvider.getPricingConfig DEFAULT_CLAUDE_MODEL) := rfl
  have hrate : claudeEnvironment.getEthUsdRate = .ok 2000 := rfl
  have hwei : usdToWei 2000 (32 / 625) = .ok 25600000000000 := by decide +kernel
  have hmargin : ((toDouble (1 / 5)).bind fun margin => toDouble (32 / 625 * margin))
      = some (5902958103587057 / 576460752303423488) := by decide +kernel
  unfold computeEstimate
  simp only [hprovider, estimateCost_units, hestimate, hpricing, hrate, hwei, hmargin]
  rfl
theorem filling_clock (n : Nat)
    : ((filling n).map (·.2.now)).Pairwise (· ≤ ·) ∧ ∀ entry ∈ filling n, entry.2.now < n := by
  induction n with
  | zero => exact ⟨List.Pairwise.nil, fun _ h => absurd h List.not_mem_nil⟩
  | succ n ih =>
    obtain ⟨hordered, hearlier⟩ := ih
    constructor
    . simp only [filling, List.append_assoc, List.map_append, List.pairwise_append]
      refine ⟨hordered, by simp [Command.now], ?_⟩
      intro time htime later hlater
      obtain ⟨entry, hentry, rfl⟩ := List.mem_map.mp htime
      have hlt := hearlier entry hentry
      simp only [List.singleton_append, List.map_cons, List.map_nil, List.mem_cons, List.not_mem_nil, or_false,
        Command.now, or_self] at hlater
      omega
    . intro entry hentry
      simp only [filling, List.append_assoc, List.mem_append, List.mem_singleton] at hentry
      rcases hentry with hentry | rfl | rfl
      . have hlt := hearlier entry hentry
        omega
      . simp [Command.now]
      . simp [Command.now]

/-- A request with a new key is computed and stored. -/
theorem runAll_units {steps : List (Environment × Command)} {n : Nat} {cache : Cache}
    (h : runAll steps = ⟨cache, []⟩) (hkey : unitsKey n ∉ cache.map Prod.fst)
    : runAll (steps ++ [(claudeEnvironment, .estimateCost (unitsRequest n) n)]) = ⟨cache, [unitsRequest n]⟩
      ∧ runAll (steps ++ [(claudeEnvironment, .estimateCost (unitsRequest n) n)] ++ [(claudeEnvironment, .settle 0 n)])
        = ⟨evict n cache ++ [unitsEntry n], []⟩ := by
  have hasked : runAll (steps ++ [(claudeEnvironment, .estimateCost (unitsRequest n) n)])
      = ⟨cache, [unitsRequest n]⟩ := by
    have hmissed : Map.get cache (getCacheKey claudeEnvironment (unitsRequest n)) = none := Map.get_eq_none hkey
    rw [runAll_concat, h]
    simp [step, hmissed]
  refine ⟨hasked, ?_⟩
  have hkept : Map.delete cache (getCacheKey claudeEnvironment (unitsRequest n)) = cache := by
    apply List.filter_eq_self.mpr
    intro entry hentry
    have hne : entry.1 ≠ unitsKey n := fun heq => hkey (heq ▸ List.mem_map_of_mem hentry)
    exact decide_eq_true hne
  rw [runAll_concat, hasked]
  simp only [step, List.getElem?_cons_zero, computeEstimate_units, List.eraseIdx_cons_zero, cacheEstimate_eq, hkept]
  rfl

theorem unitsKey_fresh (n : Nat) : unitsKey n ∉ ((List.range n).map unitsEntry).map Prod.fst := by
  intro hmem
  rw [List.map_map] at hmem
  obtain ⟨m, hm, heq⟩ := List.mem_map.mp hmem
  exact absurd (List.mem_range.mp hm) (unitsKey_injective heq ▸ Nat.lt_irrefl n)

/-- Nothing is evicted as long as there is room. -/
theorem runAll_filling {n : Nat} (h : n ≤ MAX_CACHE_ENTRIES)
    : runAll (filling n) = ⟨(List.range n).map unitsEntry, []⟩ := by
  induction n with
  | zero => rfl
  | succ n ih =>
    rw [filling, (runAll_units (ih (Nat.le_of_succ_le h)) (unitsKey_fresh n)).2, List.range_succ, List.map_append]
    have hkept : evict n ((List.range n).map unitsEntry) = (List.range n).map unitsEntry := by
      cases n with
      | zero => rfl
      | succ m =>
        rw [List.range_succ_eq_map, List.map_cons]
        apply if_pos
        unfold MAX_CACHE_ENTRIES at h ⊢
        simp only [List.length_map, List.length_range, CACHE_TTL_MS]
        omega
    rw [hkept]
    rfl

/-- A full cache gives up its first entry. -/
theorem not_mem_evict_units {n : Nat} (hfull : MAX_CACHE_ENTRIES ≤ n)
    : unitsEntry 0 ∉ evict n ((List.range n).map unitsEntry) := by
  intro hmem
  cases n with
  | zero => exact absurd hfull (by decide)
  | succ m =>
    rw [List.range_succ_eq_map, List.map_cons] at hmem
    unfold unitsEntry evict at hmem
    rw [if_neg (by simp only [List.length_map, List.length_range]; omega)] at hmem
    obtain ⟨k, hk, heq⟩ := List.mem_map.mp (mem_evict hmem)
    obtain ⟨j, -, rfl⟩ := List.mem_map.mp hk
    exact absurd (unitsKey_injective (congrArg Prod.fst heq)) (Nat.succ_ne_zero j)

/-- One request more than the cache holds, all within a second: the first estimate goes, though it is not expired. -/
theorem runAll_evicts_full
    : (runAll (filling MAX_CACHE_ENTRIES)).estimateCache.length = MAX_CACHE_ENTRIES
      ∧ Bounded (runAll (filling (MAX_CACHE_ENTRIES + 1))).estimateCache
      ∧ Inserts (runAll (filling MAX_CACHE_ENTRIES)).estimateCache MAX_CACHE_ENTRIES (unitsKey MAX_CACHE_ENTRIES)
        (unitsEstimate MAX_CACHE_ENTRIES) (runAll (filling (MAX_CACHE_ENTRIES + 1))).estimateCache
      ∧ unitsEntry 0 ∈ (runAll (filling MAX_CACHE_ENTRIES)).estimateCache
      ∧ unitsEntry 0 ∉ (runAll (filling (MAX_CACHE_ENTRIES + 1))).estimateCache := by
  obtain ⟨n, hn⟩ : ∃ n, n = MAX_CACHE_ENTRIES := ⟨_, rfl⟩
  rw [← hn]
  obtain ⟨hbounded, hsteps⟩ := runAll_evicts (filling (n + 1)) (filling_clock _).1
  have hfilled := runAll_filling (Nat.le_of_eq hn)
  obtain ⟨hasked, hsettled⟩ := runAll_units hfilled (unitsKey_fresh n)
  have hinserts := hsteps _ claudeEnvironment (.settle 0 n) [] rfl
  have hinsertion : insertion claudeEnvironment ⟨(List.range n).map unitsEntry, [unitsRequest n]⟩ (.settle 0 n)
      = some (unitsKey n, unitsEstimate n) := by
    simp [insertion, computeEstimate_units, Except.toOption, unitsKey]
  rw [hasked, hinsertion] at hinserts
  have hfirst : unitsEntry 0 ∈ (List.range n).map unitsEntry :=
    List.mem_map_of_mem (List.mem_range.mpr (hn ▸ by decide))
  rw [hfilled]
  refine ⟨by simp, hbounded, hinserts, hfirst, fun hmem => ?_⟩
  rw [filling, hsettled] at hmem
  rcases List.mem_append.mp hmem with hmem | hmem
  . exact not_mem_evict_units (Nat.le_of_eq hn.symm) hmem
  . have hzero : 0 = n := unitsKey_injective (congrArg Prod.fst (List.mem_singleton.mp hmem))
    exact absurd (hzero.trans hn) (by decide)

end Example

end CostEstimationService

end Pricing
end Longjing
