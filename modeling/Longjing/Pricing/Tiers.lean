import Longjing.Pricing.Oracle
import Mathlib.Tactic.Linarith
import Mathlib.Tactic.Ring

/-!
This module contains the tariff that a list of tiers stands for, and when the loop over the tiers charges it.
-/

namespace Longjing
namespace Pricing

open Js

namespace PricingTier

def contains (x : Rat) (tier : PricingTier) : Bool := tier.lower ≤ x && tier.upper.all (x < ·)

/-- How much of the first `u` units is in the interval of the tier. -/
def overlap (u : Rat) (tier : PricingTier) : Rat :=
  max 0 ((tier.upper.elim u (min u)) - max 0 tier.lower)

end PricingTier

namespace Oracle

/-- What the loop takes from one tier. -/
def unitsInTier (tier : PricingTier) (remainingUnits : Rat) : Rat :=
  match tier.upper.filter (· ≠ 0) with
  | some upper => min remainingUnits (upper - tier.lower)
  | none => remainingUnits

/-- What the loop takes from each tier. -/
def tierUnits : List PricingTier → Rat → List Rat
  | [], _ => []
  | tier :: tiers, remainingUnits =>
    if remainingUnits ≤ 0 then
      0 :: tierUnits tiers remainingUnits
    else
      unitsInTier tier remainingUnits :: tierUnits tiers (remainingUnits - unitsInTier tier remainingUnits)

/-- The tariff for `u` units: each is charged once, by the tier it lies in. -/
structure Tariff (tiers : List PricingTier) (u cost : Rat) : Prop where
  once : ∀ x, 0 ≤ x → x < u → tiers.countP (·.contains x) = 1
  units : tierUnits tiers u = tiers.map (·.overlap u)
  integral : cost = (tiers.map fun tier => tier.overlap u * tier.rate).sum

/-- The tiers follow each other from `start` on, up to one without an end. Empty ones do no harm, as long as
the loop sees that they are. -/
def Contiguous (start : Rat) : List PricingTier → Prop
  | [] => False
  | tier :: tiers =>
    match tier.upper with
    | none => max 0 tier.lower = start ∧ ∀ t ∈ tiers, t.upper.any (· ≤ max 0 t.lower) = true
    | some upper =>
      upper ≠ 0
        ∧ (upper = tier.lower ∧ Contiguous start tiers
          ∨ tier.lower = start ∧ start < upper ∧ Contiguous upper tiers)

theorem tieredCost_cons (tier : PricingTier) (tiers : List PricingTier) (cost remainingUnits : Rat)
    : tieredCost (tier :: tiers) cost remainingUnits
      = if remainingUnits ≤ 0 then
          cost
        else
          tieredCost tiers (cost + unitsInTier tier remainingUnits * tier.rate)
            (remainingUnits - unitsInTier tier remainingUnits) := rfl

theorem tieredCost_eq_units (tiers : List PricingTier) (cost remainingUnits : Rat)
    : tieredCost tiers cost remainingUnits
      = cost + (List.zipWith (fun tier units => units * tier.rate) tiers (tierUnits tiers remainingUnits)).sum := by
  induction tiers generalizing cost remainingUnits with
  | nil => simp [tieredCost, tierUnits]
  | cons tier tiers ih =>
    rw [tieredCost_cons]
    unfold tierUnits
    split
    next hdone =>
      have hrest := ih cost remainingUnits
      have hstop (tiers : List PricingTier) : tieredCost tiers cost remainingUnits = cost := by
        cases tiers with
        | nil => rfl
        | cons tier tiers => rw [tieredCost_cons, if_pos hdone]
      rw [hstop] at hrest
      simpa using hrest
    next => rw [ih, List.zipWith_cons_cons, List.sum_cons, add_assoc]

theorem tierUnits_of_nonpos {tiers : List PricingTier} {remainingUnits : Rat} (h : remainingUnits ≤ 0)
    : tierUnits tiers remainingUnits = tiers.map fun _ => 0 := by
  induction tiers with
  | nil => rfl
  | cons tier tiers ih =>
    unfold tierUnits
    rw [if_pos h, ih, List.map_cons]

section Overlap

variable {u v lower rate : Rat}

theorem overlap_unbounded : PricingTier.overlap u ⟨lower, none, rate⟩ = max 0 (u - max 0 lower) := rfl

theorem overlap_bounded : PricingTier.overlap u ⟨lower, some v, rate⟩ = max 0 (min u v - max 0 lower) := rfl

/-- Before the tier begins, or if it is empty. -/
theorem overlap_eq_zero {tier : PricingTier}
    (h : u ≤ max 0 tier.lower ∨ tier.upper.any (· ≤ max 0 tier.lower) = true) : tier.overlap u = 0 := by
  obtain ⟨lower, upper, rate⟩ := tier
  cases upper with
  | none =>
    rw [overlap_unbounded, max_eq_left]
    simp only [Option.any_none, Bool.false_eq_true, or_false] at h
    linarith
  | some v =>
    simp only [Option.any_some, decide_eq_true_eq] at h
    rw [overlap_bounded, max_eq_left]
    rcases h with h | h
    . linarith [min_le_left u v]
    . linarith [min_le_right u v]

theorem contains_unbounded {x : Rat} : PricingTier.contains x ⟨lower, none, rate⟩ = true ↔ lower ≤ x := by
  simp [PricingTier.contains]

theorem contains_bounded {x : Rat}
    : PricingTier.contains x ⟨lower, some v, rate⟩ = true ↔ lower ≤ x ∧ x < v := by
  simp [PricingTier.contains]

theorem unitsInTier_unbounded : unitsInTier ⟨lower, none, rate⟩ u = u := rfl

theorem unitsInTier_bounded (h : v ≠ 0) : unitsInTier ⟨lower, some v, rate⟩ u = min u (v - lower) := by
  simp [unitsInTier, Option.filter_some, h]

theorem unitsInTier_zero : unitsInTier ⟨lower, some 0, rate⟩ u = u := by
  simp [unitsInTier, Option.filter_some]

end Overlap

theorem Contiguous.overlap_eq_zero {start u : Rat} {tiers : List PricingTier} (h : Contiguous start tiers)
    (hu : u ≤ start) : ∀ tier ∈ tiers, tier.overlap u = 0 := by
  induction tiers generalizing start with
  | nil => simp
  | cons tier tiers ih =>
    obtain ⟨lower, upper, rate⟩ := tier
    rw [List.forall_mem_cons]
    cases upper with
    | none =>
      obtain ⟨hlower, hempty⟩ := h
      exact ⟨Oracle.overlap_eq_zero (Or.inl (hlower ▸ hu)), fun t ht => Oracle.overlap_eq_zero (Or.inr (hempty t ht))⟩
    | some upper =>
      obtain ⟨-, ⟨hskip, hrest⟩ | ⟨hlower, hlt, hrest⟩⟩ := h
      . exact ⟨Oracle.overlap_eq_zero (Or.inr (by simp [hskip])), ih hrest hu⟩
      . refine ⟨Oracle.overlap_eq_zero (Or.inl ?_), ih hrest (by linarith)⟩
        exact hu.trans (hlower ▸ le_max_right _ _)

/-- The loop takes from each tier what lies in it. -/
theorem Contiguous.units {start : Rat} {tiers : List PricingTier} (h : Contiguous start tiers)
    (hstart : 0 ≤ start) (u : Rat) : tierUnits tiers (u - start) = tiers.map (·.overlap u) := by
  have hbefore {start : Rat} {tiers : List PricingTier} (h : Contiguous start tiers) (hu : u ≤ start)
      {remainingUnits : Rat} (hdone : remainingUnits ≤ 0)
      : tierUnits tiers remainingUnits = tiers.map (·.overlap u) := by
    rw [tierUnits_of_nonpos hdone]
    exact List.map_congr_left fun tier htier => (h.overlap_eq_zero hu tier htier).symm
  induction tiers generalizing start with
  | nil => rfl
  | cons tier tiers ih =>
    rcases le_or_gt u start with hu | hu
    . exact hbefore h hu (by linarith)
    obtain ⟨lower, upper, rate⟩ := tier
    unfold tierUnits
    rw [if_neg (by linarith), List.map_cons]
    cases upper with
    | none =>
      obtain ⟨hlower, hempty⟩ := h
      simp only at hlower
      rw [unitsInTier_unbounded, overlap_unbounded, hlower, max_eq_right (by linarith), sub_self,
        tierUnits_of_nonpos le_rfl]
      congr 1
      exact List.map_congr_left fun t ht => (Oracle.overlap_eq_zero (Or.inr (hempty t ht))).symm
    | some upper =>
      obtain ⟨hne, ⟨hskip, hrest⟩ | ⟨hlower, hlt, hrest⟩⟩ := h
      . simp only at hskip
        rw [unitsInTier_bounded hne, Oracle.overlap_eq_zero (Or.inr (by simp [hskip])), hskip, sub_self,
          min_eq_right (by linarith), sub_zero, ih hrest hstart]
      . simp only at hlower
        rw [unitsInTier_bounded hne, overlap_bounded, hlower, max_eq_right hstart]
        rcases le_or_gt u upper with hup | hup
        . rw [min_eq_left (by linarith), min_eq_left hup, max_eq_right (by linarith), sub_self,
            hbefore hrest hup le_rfl]
        . rw [min_eq_right (by linarith), min_eq_right hup.le, max_eq_right (by linarith),
            show u - start - (upper - start) = u - upper by ring, ih hrest (by linarith)]

/-- Every point from `start` on lies in one tier, and none before it in any. -/
theorem Contiguous.once {start : Rat} {tiers : List PricingTier} (h : Contiguous start tiers) (hstart : 0 ≤ start)
    {x : Rat} (hx : 0 ≤ x) : tiers.countP (·.contains x) = if start ≤ x then 1 else 0 := by
  induction tiers generalizing start with
  | nil => exact h.elim
  | cons tier tiers ih =>
    obtain ⟨lower, upper, rate⟩ := tier
    rw [List.countP_cons]
    cases upper with
    | none =>
      obtain ⟨hlower, hempty⟩ := h
      have hnone : tiers.countP (·.contains x) = 0 := by
        rw [List.countP_eq_zero]
        intro t ht hcontains
        have hupper := hempty t ht
        obtain ⟨lower', upper', rate'⟩ := t
        cases upper' with
        | none => simp at hupper
        | some v =>
          simp only [Option.any_some, decide_eq_true_eq] at hupper
          obtain ⟨hle, hlt⟩ := contains_bounded.mp hcontains
          exact absurd (hupper.trans (max_le hx hle)) (not_le.mpr hlt)
      have hiff : lower ≤ x ↔ start ≤ x := by
        rw [← hlower, max_le_iff]
        exact ⟨fun h => ⟨hx, h⟩, fun h => h.2⟩
      rw [hnone, Nat.zero_add]
      simp only [contains_unbounded, hiff]
    | some upper =>
      obtain ⟨hne, ⟨hskip, hrest⟩ | ⟨hlower, hlt, hrest⟩⟩ := h
      . simp only at hskip
        have hfalse : ¬ (lower ≤ x ∧ x < upper) := fun ⟨hle, hlt⟩ => by linarith
        simp only [contains_bounded, if_neg hfalse, Nat.add_zero]
        exact ih hrest hstart
      . simp only at hlower
        rw [ih hrest (by linarith)]
        simp only [contains_bounded, hlower]
        rcases lt_or_ge x upper with hup | hup
        . rw [if_neg (not_le.mpr hup), Nat.zero_add]
          simp only [hup, and_true]
        . rw [if_pos hup, if_neg (fun h => absurd h.2 (not_lt.mpr hup)), if_pos (by linarith)]

/-- A tier from which the loop always takes what lies in it begins where the loop is. -/
theorem lower_eq_of_units {start lower v rate : Rat} (hlt : lower < v)
    (h : ∀ u, start < u → min (u - start) (v - lower) = PricingTier.overlap u ⟨lower, some v, rate⟩)
    : lower = start ∧ start < v := by
  simp only [overlap_bounded] at h
  have hlower : lower = max 0 lower := by
    -- far beyond the tier the loop has taken all of it
    have hfar := h (max (start + (v - lower)) v + 1)
      (by linarith [le_max_left (start + (v - lower)) v])
    rw [min_eq_right (by linarith [le_max_left (start + (v - lower)) v]),
      min_eq_right (by linarith [le_max_right (start + (v - lower)) v])] at hfar
    rcases max_choice 0 (v - max 0 lower) with hzero | hall
    . linarith
    . linarith
  rw [← hlower] at h
  have hle : lower ≤ start := by
    have hend := h (start + (v - lower)) (by linarith)
    rw [add_sub_cancel_left, min_self] at hend
    rcases max_choice 0 (min (start + (v - lower)) v - lower) with hzero | hall
    . linarith
    . linarith [min_le_left (start + (v - lower)) v]
  have hmiddle := h (start + (v - lower) / 2) (by linarith)
  rw [add_sub_cancel_left, min_eq_left (by linarith)] at hmiddle
  rcases max_choice 0 (min (start + (v - lower) / 2) v - lower) with hzero | hall
  . linarith
  . rw [hall] at hmiddle
    rcases le_total (start + (v - lower) / 2) v with hv | hv
    . rw [min_eq_left hv] at hmiddle
      have heq : lower = start := by linarith
      exact ⟨heq, heq ▸ hlt⟩
    . rw [min_eq_right hv] at hmiddle
      linarith

theorem empty_of_overlap {start : Rat} {tier : PricingTier} (h : ∀ u, start < u → tier.overlap u = 0)
    : tier.upper.any (· ≤ max 0 tier.lower) = true := by
  obtain ⟨lower, upper, rate⟩ := tier
  cases upper with
  | none =>
    have hfar := h (max start (max 0 lower) + 1) (by linarith [le_max_left start (max 0 lower)])
    rw [overlap_unbounded] at hfar
    linarith [le_max_right 0 (max start (max 0 lower) + 1 - max 0 lower), le_max_right start (max 0 lower)]
  | some v =>
    have hfar := h (max (start + 1) v) (by linarith [le_max_left (start + 1) v])
    rw [overlap_bounded, min_eq_right (le_max_right _ _)] at hfar
    have hle := le_max_right 0 (v - max 0 lower)
    simp only [Option.any_some, decide_eq_true_eq]
    linarith

theorem contiguous_of_units {start : Rat} {tiers : List PricingTier} (hstart : 0 ≤ start)
    (hunits : ∀ u, start < u → tierUnits tiers (u - start) = tiers.map (·.overlap u))
    (hcovered : ∀ x, start ≤ x → ∃ tier ∈ tiers, tier.contains x = true) : Contiguous start tiers := by
  induction tiers generalizing start with
  | nil =>
    obtain ⟨tier, hmem, -⟩ := hcovered start le_rfl
    exact absurd hmem List.not_mem_nil
  -- the head takes its own units, and what is left is taken by the tail from where the head ends
  | cons tier tiers ih =>
    have hcons (u : Rat) (hu : start < u)
        : unitsInTier tier (u - start) = tier.overlap u
          ∧ tierUnits tiers (u - start - unitsInTier tier (u - start)) = tiers.map (·.overlap u) := by
      have htaken := hunits u hu
      unfold tierUnits at htaken
      rw [if_neg (by linarith), List.map_cons, List.cons.injEq] at htaken
      exact htaken
    have hothers {from' : Rat} (hle : start ≤ from') (hhead : ∀ x, from' ≤ x → tier.contains x ≠ true)
        : ∀ x, from' ≤ x → ∃ tier ∈ tiers, tier.contains x = true := by
      intro x hx
      obtain ⟨t, ht, hcontains⟩ := hcovered x (hle.trans hx)
      rcases List.mem_cons.mp ht with rfl | ht
      . exact absurd hcontains (hhead x hx)
      . exact ⟨t, ht, hcontains⟩
    obtain ⟨lower, upper, rate⟩ := tier
    cases upper with
    | none =>
      have hlower : max 0 lower = start := by
        have hnext := (hcons (start + 1) (by linarith)).1
        rw [unitsInTier_unbounded, overlap_unbounded] at hnext
        rcases max_choice 0 (start + 1 - max 0 lower) with hzero | hall
        . linarith
        . linarith
      refine ⟨hlower, fun t ht => empty_of_overlap fun u (hu : start < u) => ?_⟩
      have hrest := (hcons u hu).2
      rw [unitsInTier_unbounded, sub_self, tierUnits_of_nonpos le_rfl] at hrest
      exact (List.map_inj_left.mp hrest t ht).symm
    | some v =>
      have hne : v ≠ 0 := by
        rintro rfl
        have hnext := (hcons (start + 1) (by linarith)).1
        rw [unitsInTier_zero, overlap_bounded, max_eq_left] at hnext
        . linarith
        . linarith [min_le_right (start + 1) 0, le_max_left 0 lower]
      refine ⟨hne, ?_⟩
      rcases lt_trichotomy v lower with hneg | hskip | hpos
      . -- the loop gives units back
        have hnext := (hcons (start + 1) (by linarith)).1
        rw [unitsInTier_bounded hne, overlap_bounded] at hnext
        linarith [min_le_right (start + 1 - start) (v - lower), le_max_left 0 (min (start + 1) v - max 0 lower)]
      -- an empty tier takes nothing, so the tail begins where it did
      . refine Or.inl ⟨hskip, ih hstart (fun u hu => ?_) (hothers le_rfl fun x _ hcontains => ?_)⟩
        . have hrest := (hcons u hu).2
          rwa [unitsInTier_bounded hne, hskip, sub_self, min_eq_right (by linarith), sub_zero] at hrest
        . obtain ⟨hle, hlt⟩ := contains_bounded.mp hcontains
          linarith
      . obtain ⟨rfl, hlt⟩ := lower_eq_of_units hpos fun u hu => by
          rw [← (hcons u hu).1, unitsInTier_bounded hne]
        refine Or.inr ⟨rfl, hlt, ih (by linarith) (fun u hu => ?_) (hothers hlt.le fun x hx hcontains => ?_)⟩
        . have hrest := (hcons u (by linarith)).2
          rwa [unitsInTier_bounded hne, min_eq_right (by linarith),
            show u - lower - (v - lower) = u - v by ring] at hrest
        . exact absurd (contains_bounded.mp hcontains).2 (not_lt.mpr hx)

/-- The loop charges the tariff of the tiers, whatever the use, exactly if they follow each other from 0. -/
theorem tariff_iff {tiers : List PricingTier}
    : (∀ u, 0 ≤ u → Tariff tiers u (tieredCost tiers 0 u)) ↔ Contiguous 0 tiers := by
  constructor
  . intro h
    refine contiguous_of_units le_rfl (fun u hu => ?_) fun x hx => ?_
    . rw [sub_zero]
      exact (h u hu.le).units
    . have honce := (h (x + 1) (by linarith)).once x hx (by linarith)
      exact List.countP_pos_iff.mp (honce ▸ Nat.one_pos)
  . intro h u hu
    have hunits := h.units le_rfl u
    rw [sub_zero] at hunits
    refine ⟨fun x hx _ => ?_, hunits, ?_⟩
    . rw [h.once le_rfl hx, if_pos hx]
    . rw [tieredCost_eq_units, hunits, zero_add, List.zipWith_map_right, List.zipWith_self]

section Charge

variable {o : Oracle} {db : Sorter} {now : TimeValue} {p : String} {e : Option String} {model : PricingModel}

/-- A use is charged, and by the tariff of the model. -/
def ChargedByTariff (db : Sorter) (o : Oracle) (now : TimeValue) (p : String) (e : Option String) (model : PricingModel)
    (usage : UsageMetrics) : Prop :=
  ∃ tiers cost, model.rates.head?.bind PricingRate.tiers = some tiers
    ∧ (o.calculateCostUSD db now usage p e).2 = .ok cost ∧ Tariff tiers usage.units cost

theorem calculateCostUSD_tiered (htype : model.pricingType = .tiered)
    (hlookup : (o.getPricing db now p e).2 = .ok model) (usage : UsageMetrics)
    : (o.calculateCostUSD db now usage p e).2 = calculateTieredCost usage model := by
  unfold calculateCostUSD
  generalize o.getPricing db now p e = answer at hlookup
  obtain ⟨o', result⟩ := answer
  subst hlookup
  simp [calculateCost, htype]

/-- Of all models, and so of those that an update accepts, the ones whose tiers follow each other are charged
by their tariff. -/
theorem calculateCostUSD_tariff_iff (htype : model.pricingType = .tiered)
    (hlookup : (o.getPricing db now p e).2 = .ok model)
    : (∀ usage : UsageMetrics, 0 ≤ usage.units → ChargedByTariff db o now p e model usage)
      ↔ ∃ tiers, model.rates.head?.bind PricingRate.tiers = some tiers ∧ Contiguous 0 tiers := by
  unfold ChargedByTariff
  simp only [calculateCostUSD_tiered htype hlookup]
  constructor
  . intro h
    obtain ⟨tiers, -, htiers, -, -⟩ := h ⟨0, .tokens, 0, none⟩ le_rfl
    refine ⟨tiers, htiers, tariff_iff.mp fun u hu => ?_⟩
    obtain ⟨tiers', cost, htiers', hcost, htariff⟩ := h ⟨u, .tokens, 0, none⟩ hu
    rw [htiers, Option.some.injEq] at htiers'
    subst htiers'
    unfold calculateTieredCost at hcost
    rw [htiers] at hcost
    have hcost : tieredCost tiers 0 u = cost := Except.ok.inj hcost
    rw [hcost]
    exact htariff
  . rintro ⟨tiers, htiers, hcontiguous⟩ usage husage
    refine ⟨tiers, _, htiers, ?_, tariff_iff.mpr hcontiguous usage.units husage⟩
    unfold calculateTieredCost
    rw [htiers]

def tieredRow (type : PricingType) (tiers : Option (List PricingTier)) : PricingModelRow :=
  ⟨"claude", none, .tiered, "USD", [⟨type, 1, none, tiers⟩], .epoch, none⟩

def tieredModel (type : PricingType) (tiers : Option (List PricingTier)) : PricingModel :=
  rowToPricingModel (tieredRow type tiers)

def tieredOracle (row : PricingModelRow) : Oracle := ⟨⟨[row], []⟩, []⟩

def testTiers : List PricingTier := [⟨0, some 1000, 1 / 100⟩, ⟨1000, some 5000, 1 / 125⟩, ⟨5000, none, 1 / 200⟩]

theorem calculateCostUSD_tariff_testTiers
    : validatePricingModel .epoch (tieredModel .tiered (some testTiers)) = .ok ()
      ∧ ∀ usage : UsageMetrics, 0 ≤ usage.units →
        ChargedByTariff .table (tieredOracle (tieredRow .tiered (some testTiers))) .epoch "claude" none
          (tieredModel .tiered (some testTiers)) usage := by
  refine ⟨by decide +kernel, (calculateCostUSD_tariff_iff rfl (by decide +kernel)).mpr ⟨_, rfl, ?_⟩⟩
  refine ⟨by decide, Or.inr ⟨rfl, by decide, by decide, Or.inr ⟨rfl, by decide, ?_, ?_⟩⟩⟩
  . decide
  . simp

/-- A first tier that ends at 0 charges every unit, and a tiered model without tiers is only found out
when it is charged. -/
theorem tiers_not_validated
    : (validatePricingModel .epoch (tieredModel .tiered (some [⟨0, some 0, 1⟩, ⟨0, none, 2⟩])) = .ok ()
        ∧ ((tieredOracle (tieredRow .tiered (some [⟨0, some 0, 1⟩, ⟨0, none, 2⟩]))).calculateCostUSD .table .epoch
            ⟨10, .tokens, 0, none⟩ "claude" none).2 = .ok 10
        ∧ ¬ Tariff [⟨0, some 0, 1⟩, ⟨0, none, 2⟩] 10 10)
      ∧ validatePricingModel .epoch (tieredModel .perUnit none) = .ok ()
      ∧ ((tieredOracle (tieredRow .perUnit none)).calculateCostUSD .table .epoch ⟨10, .tokens, 0, none⟩ "claude" none).2
        = .error (.error "Tiered pricing requires tiers configuration") := by
  refine ⟨⟨by decide +kernel, by decide +kernel, fun h => ?_⟩, by decide +kernel, by decide +kernel⟩
  exact absurd h.integral (by decide +kernel)

end Charge

end Oracle

end Pricing
end Longjing
