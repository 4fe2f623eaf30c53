import Longjing.Pricing.Coherence

/-!
This module contains what a price update does to the lookups made right after it.
-/

namespace Longjing
namespace Pricing

open Js Oracle

/-- A table in which a given row comes first of those that tie. -/
def Sorter.preferring (row : PricingModelRow) : Sorter where
  latest := fun rows =>
    if row ∈ rows ∧ ∀ m ∈ rows, m.effective_from.toISOString ≤ row.effective_from.toISOString then
      some row
    else
      Sorter.table.latest rows
  latest_eq_none := by
    intro rows
    split
    next h =>
      refine ⟨(fun hnone => nomatch hnone), fun hempty => ?_⟩
      rw [hempty] at h
      exact absurd h.1 List.not_mem_nil
    next => exact Sorter.table.latest_eq_none rows
  mem_of_latest := by
    intro rows m h
    split at h
    next hrow => exact Option.some.inj h ▸ hrow.1
    next => exact Sorter.table.mem_of_latest rows m h
  le_latest := by
    intro rows m h
    split at h
    next hrow => exact Option.some.inj h ▸ hrow.2
    next => exact Sorter.table.le_latest rows m h

theorem Sorter.preferring_latest {row : PricingModelRow} {rows : List PricingModelRow} (hmem : row ∈ rows)
    (hmax : ∀ m ∈ rows, m.effective_from.toISOString ≤ row.effective_from.toISOString)
    : (Sorter.preferring row).latest rows = some row := by
  unfold Sorter.preferring
  exact if_pos ⟨hmem, hmax⟩

/-- In force by its dates, and not by their text. -/
def PricingModel.inForce (model : PricingModel) (now : TimeValue) : Bool :=
  model.effectiveFrom.any (·.ms ≤ now.ms) && model.effectiveUntil.all (·.any (now.ms < ·.ms))

namespace Repository

/-- No lookup that had an answer is left without one. -/
def NoGap (db : Sorter) (r r' : Repository) (now : TimeValue) : Prop :=
  ∀ p e, r.getPricing db now p e ≠ none → r'.getPricing db now p e ≠ none

/-- The rows in force where an update inserts its own, and that it leaves as they are. -/
def kept (r : Repository) (now : TimeValue) (model : PricingModel) : List PricingModelRow :=
  (r.activeRows now model.providerId (truthy model.endpoint)).filter (·.effective_until.isSome)

/-- What an update finds that leaves no gap. -/
structure Ready (r : Repository) (now : TimeValue) (model : PricingModel) (row : PricingModelRow) : Prop where
  -- a model in force is stored where the lookup reads it, is in force by the text of its dates, and the latest
  latest : model.inForce now = true →
    row.isActive now = true ∧ truthy model.endpoint = model.endpoint
      ∧ ∀ m ∈ r.kept now model, m.effective_from.toISOString < row.effective_from.toISOString ∨ m = row
  -- a model that is not in force replaces nothing that is needed
  covered : model.inForce now = false →
    r.activeRows now model.providerId (truthy model.endpoint) = [] ∧ r.activeRows now model.providerId none = []
      ∨ r.kept now model ≠ []
      ∨ truthy model.endpoint ≠ none ∧ r.activeRows now model.providerId none ≠ []
  -- and if the text of its dates puts it in force, a later row hides it
  hidden : model.inForce now = false → row.isActive now = true → truthy model.endpoint = model.endpoint →
    ∃ m ∈ r.kept now model, row.effective_from.toISOString < m.effective_from.toISOString

end Repository

/-- What the lookups see of an update. -/
structure Seamless (db : Sorter) (o o' : Oracle) (now : TimeValue) (model : PricingModel) : Prop where
  noGap : o.repository.NoGap db o'.repository now
  answer : o'.repository.getPricing db now model.providerId model.endpoint = some model ↔ model.inForce now = true

section Update

variable {db : Sorter} {r : Repository} {now : TimeValue} {model : PricingModel} {row : PricingModelRow}

theorem mem_activeRows {p : String} {endpoint : Option String} {m : PricingModelRow}
    : m ∈ r.activeRows now p endpoint
      ↔ m ∈ r.models ∧ m.provider_id = p ∧ m.endpoint = endpoint ∧ m.isActive now = true := by
  unfold Repository.activeRows
  simp [and_assoc]

theorem rowToPricingModel_injective {m m' : PricingModelRow} (h : rowToPricingModel m = rowToPricingModel m')
    : m = m' :=
  Option.some.inj ((PricingModel.toRow_eq_some.mpr h).symm.trans (PricingModel.toRow_eq_some.mpr rfl))

theorem getPricing_of_ne_nil {p : String} {e : Option String} (h : r.activeRows now p (truthy e) ≠ [])
    : r.getPricing db now p e = (db.latest (r.activeRows now p (truthy e))).map rowToPricingModel := by
  unfold Repository.getPricing
  cases hte : truthy e with
  | none => rfl
  | some e' =>
    cases hlatest : db.latest (r.activeRows now p (some e')) with
    | none => exact absurd ((db.latest_eq_none _).mp hlatest) (hte ▸ h)
    | some m => simp [hlatest]

theorem activeRows_upsertPricing_other (hrow : model.toRow = some row) {p : String} {endpoint : Option String}
    (hendpoint : truthy endpoint = endpoint) (h : ¬ (p = model.providerId ∧ endpoint = truthy model.endpoint))
    : (r.upsertPricing db now model).1.activeRows now p endpoint = r.activeRows now p endpoint := by
  rw [upsertPricing_eq_ok hrow]
  refine (Repository.activeRows_concat ?_).trans (Repository.activeRows_closeRows_other h)
  rintro ⟨hp, he⟩
  have hfields := PricingModel.toRow_eq_some.mp hrow
  subst hfields
  exact h ⟨hp, by rw [← hendpoint, he]; rfl⟩

/-- Only the lookup of the endpoint itself can lose its answer. -/
theorem noGap_iff (hrow : model.toRow = some row)
    : r.NoGap db (r.upsertPricing db now model).1 now
      ↔ (r.getPricing db now model.providerId model.endpoint ≠ none
          → (r.upsertPricing db now model).1.getPricing db now model.providerId model.endpoint ≠ none) := by
  refine ⟨fun h => h _ _, fun h p e hbefore => ?_⟩
  by_cases hsame : p = model.providerId ∧ truthy e = truthy model.endpoint
  . obtain ⟨rfl, he⟩ := hsame
    rw [@Repository.getPricing_congr db r now model.providerId e model.endpoint he] at hbefore
    rw [@Repository.getPricing_congr db _ now model.providerId e model.endpoint he]
    exact h hbefore
  have hown : (r.upsertPricing db now model).1.activeRows now p (truthy e) = r.activeRows now p (truthy e) :=
    activeRows_upsertPricing_other hrow (truthy_truthy e) hsame
  rw [Ne, getPricing_eq_none] at hbefore ⊢
  rw [hown]
  by_cases hlevel : p = model.providerId ∧ none = truthy model.endpoint
  . -- the update is of the price this endpoint falls back on
    obtain ⟨rfl, hlevel⟩ := hlevel
    rw [Ne, Ne, getPricing_eq_none, getPricing_eq_none, ← hlevel, and_self, and_self] at h
    exact fun hempty => hbefore ⟨hempty.1, not_not.mp fun hgeneral => h hgeneral hempty.2⟩
  . rwa [activeRows_upsertPricing_other hrow rfl hlevel]

theorem noGap_iff_kept (hrow : model.toRow = some row)
    : r.NoGap db (r.upsertPricing db now model).1 now
      ↔ (r.activeRows now model.providerId (truthy model.endpoint) = []
            ∧ r.activeRows now model.providerId none = [])
          ∨ r.kept now model ≠ []
          ∨ (row.isActive now = true ∧ truthy model.endpoint = model.endpoint)
          ∨ (truthy model.endpoint ≠ none ∧ r.activeRows now model.providerId none ≠ []) := by
  have hown : (r.upsertPricing db now model).1.activeRows now model.providerId (truthy model.endpoint) = []
      ↔ r.kept now model = [] ∧ ¬ (row.isActive now = true ∧ truthy model.endpoint = model.endpoint) := by
    rw [activeRows_upsertPricing_own hrow, List.append_eq_nil_iff]
    simp [Repository.kept]
  rw [noGap_iff hrow, Ne, Ne, getPricing_eq_none, getPricing_eq_none, hown]
  by_cases hlevel : truthy model.endpoint = none
  . rw [hlevel] at hown ⊢
    rw [hown]
    tauto
  . rw [activeRows_upsertPricing_other hrow rfl fun h => hlevel h.2.symm]
    tauto

/-- Where the lookup of the model's endpoint finds the new row. -/
theorem mem_of_getPricing (hrow : model.toRow = some row)
    (h : (r.upsertPricing db now model).1.getPricing db now model.providerId model.endpoint = some model)
    : truthy model.endpoint = model.endpoint ∧ row.isActive now = true
      ∧ db.latest (r.kept now model ++ [row]) = some row := by
  have hmodel := PricingModel.toRow_eq_some.mp hrow
  have hfound (m : PricingModelRow) (hm : rowToPricingModel m = model) : m = row :=
    rowToPricingModel_injective (hm.trans hmodel.symm)
  have hendpoint : row.endpoint = model.endpoint := by
    rw [← hmodel]
    rfl
  -- the lookup answers a row that is active, and of the endpoint it looked under
  obtain ⟨m, hm, hlatest⟩ : ∃ m, rowToPricingModel m = model
      ∧ (m ∈ (r.upsertPricing db now model).1.activeRows now model.providerId (truthy model.endpoint)
        ∨ m ∈ (r.upsertPricing db now model).1.activeRows now model.providerId none) := by
    unfold Repository.getPricing at h
    cases hte : truthy model.endpoint with
    | none =>
      simp only [hte, Option.map_eq_some_iff] at h
      obtain ⟨m, hlatest, hm⟩ := h
      exact ⟨m, hm, .inl (db.mem_of_latest _ _ hlatest)⟩
    | some e =>
      simp only [hte] at h
      split at h
      next m hlatest => exact ⟨m, Option.some.inj h, .inl (db.mem_of_latest _ _ hlatest)⟩
      next =>
        obtain ⟨m, hlatest, hm⟩ := Option.map_eq_some_iff.mp h
        exact ⟨m, hm, .inr (db.mem_of_latest _ _ hlatest)⟩
  obtain rfl := hfound m hm
  have htruthy : truthy model.endpoint = model.endpoint := by
    rcases hlatest with hmem | hmem
    . rw [← hendpoint, (mem_activeRows.mp hmem).2.2.1, truthy_truthy]
    . rw [← hendpoint, (mem_activeRows.mp hmem).2.2.1]
      rfl
  have hactive : m.isActive now = true := by
    rcases hlatest with hmem | hmem
    . exact (mem_activeRows.mp hmem).2.2.2
    . exact (mem_activeRows.mp hmem).2.2.2
  have hown := @activeRows_upsertPricing_own db r now model m hrow
  rw [if_pos ⟨hactive, htruthy⟩] at hown
  rw [getPricing_of_ne_nil (by rw [hown]; simp), hown, Option.map_eq_some_iff] at h
  obtain ⟨m', hlatest', hm'⟩ := h
  obtain rfl := hfound m' hm'
  exact ⟨htruthy, hactive, hlatest'⟩

theorem getPricing_upsertPricing (hrow : model.toRow = some row) (hactive : row.isActive now = true)
    (hendpoint : truthy model.endpoint = model.endpoint)
    : (r.upsertPricing db now model).1.getPricing db now model.providerId model.endpoint
      = (db.latest (r.kept now model ++ [row])).map rowToPricingModel := by
  have hown := @activeRows_upsertPricing_own db r now model row hrow
  rw [if_pos ⟨hactive, hendpoint⟩] at hown
  rw [getPricing_of_ne_nil (by rw [hown]; simp), hown]
  rfl

/-- The model is answered in whatever order rows that tie come. -/
theorem answered_iff (hrow : model.toRow = some row)
    : (∀ db, (r.upsertPricing db now model).1.getPricing db now model.providerId model.endpoint = some model)
      ↔ row.isActive now = true ∧ truthy model.endpoint = model.endpoint
        ∧ ∀ m ∈ r.kept now model, m.effective_from.toISOString < row.effective_from.toISOString ∨ m = row := by
  constructor
  . intro h
    obtain ⟨hendpoint, hactive, -⟩ := mem_of_getPricing hrow (h Sorter.table)
    refine ⟨hactive, hendpoint, fun m hm => ?_⟩
    -- the table that prefers this row answers it, unless the model is later
    obtain ⟨-, -, hlatest⟩ := mem_of_getPricing hrow (h (Sorter.preferring m))
    have hmax := (Sorter.preferring m).le_latest _ _ hlatest
    rcases lt_or_eq_of_le (hmax m (List.mem_append_left _ hm)) with hlt | heq
    . exact Or.inl hlt
    . have hfirst := Sorter.preferring_latest (List.mem_append_left [row] hm) fun m' hm' => heq ▸ hmax m' hm'
      exact Or.inr (Option.some.inj (hfirst.symm.trans hlatest))
  . rintro ⟨hactive, hendpoint, hbefore⟩ db
    rw [getPricing_upsertPricing hrow hactive hendpoint]
    cases hlatest : db.latest (r.kept now model ++ [row]) with
    | none => simp [db.latest_eq_none] at hlatest
    | some m =>
      have hle := db.le_latest _ _ hlatest row (by simp)
      rcases List.mem_append.mp (db.mem_of_latest _ _ hlatest) with hm | hm
      . rcases hbefore m hm with hlt | rfl
        . exact absurd hle (not_le_of_gt hlt)
        . exact congrArg some (PricingModel.toRow_eq_some.mp hrow)
      . rw [List.mem_singleton.mp hm]
        exact congrArg some (PricingModel.toRow_eq_some.mp hrow)

/-- The model is never answered. -/
theorem never_answered_iff (hrow : model.toRow = some row)
    : (∀ db, (r.upsertPricing db now model).1.getPricing db now model.providerId model.endpoint ≠ some model)
      ↔ (row.isActive now = true → truthy model.endpoint = model.endpoint →
          ∃ m ∈ r.kept now model, row.effective_from.toISOString < m.effective_from.toISOString) := by
  constructor
  . intro h hactive hendpoint
    by_contra hnone
    push Not at hnone
    -- without a later row the table that prefers the new one answers it
    refine h (Sorter.preferring row) ?_
    rw [getPricing_upsertPricing hrow hactive hendpoint]
    have hfirst : (Sorter.preferring row).latest (r.kept now model ++ [row]) = some row := by
      refine Sorter.preferring_latest (by simp) fun m hm => ?_
      rcases List.mem_append.mp hm with hm | hm
      . exact hnone m hm
      . rw [List.mem_singleton.mp hm]
    rw [hfirst]
    exact congrArg some (PricingModel.toRow_eq_some.mp hrow)
  . intro h db hanswer
    obtain ⟨hendpoint, hactive, hlatest⟩ := mem_of_getPricing hrow hanswer
    obtain ⟨m, hm, hlt⟩ := h hactive hendpoint
    exact absurd (db.le_latest _ _ hlatest m (List.mem_append_left _ hm)) (not_le_of_gt hlt)

end Update

section Seamless

variable {o : Oracle} {now : TimeValue} {model : PricingModel} {row : PricingModelRow} {changedBy reason : String}

/-- An update that is accepted leaves no gap, in whatever order rows that tie come, exactly when it finds what it
takes for granted. -/
theorem updatePricing_seamless_iff (hvalid : validatePricingModel now model = .ok ()) (hrow : model.toRow = some row)
    : (∀ db, Seamless db o (o.updatePricing db now model changedBy reason).1 now model)
      ↔ o.repository.Ready now model row := by
  -- an update changes the tables by `upsertPricing` and by nothing else
  have hlookup (db : Sorter) (p : String) (e : Option String)
      : (o.updatePricing db now model changedBy reason).1.repository.getPricing db now p e
        = (o.repository.upsertPricing db now model).1.getPricing db now p e := by
    obtain ⟨history, hupdate⟩ := @updatePricing_eq_ok db now model row o changedBy reason hvalid hrow
    rw [hupdate, upsertPricing_eq_ok hrow]
    rfl
  have hseamless (db : Sorter) : Seamless db o (o.updatePricing db now model changedBy reason).1 now model
      ↔ o.repository.NoGap db (o.repository.upsertPricing db now model).1 now
        ∧ ((o.repository.upsertPricing db now model).1.getPricing db now model.providerId model.endpoint = some model
          ↔ model.inForce now = true) := by
    constructor
    . rintro ⟨hgap, hanswer⟩
      rw [hlookup] at hanswer
      exact ⟨fun p e hbefore => hlookup db p e ▸ hgap p e hbefore, hanswer⟩
    . rintro ⟨hgap, hanswer⟩
      exact ⟨fun p e hbefore => (hlookup db p e).symm ▸ hgap p e hbefore, by rw [hlookup]; exact hanswer⟩
  simp only [hseamless, noGap_iff_kept hrow, forall_and]
  cases hforce : model.inForce now with
  | false =>
    simp only [Bool.false_eq_true, iff_false]
    rw [never_answered_iff hrow]
    constructor
    . rintro ⟨hgap, hhidden⟩
      refine ⟨fun h => by rw [hforce] at h; contradiction, fun _ => ?_, fun _ => hhidden⟩
      rcases hgap Sorter.table with hempty | hkept | ⟨hactive, hendpoint⟩ | hgeneral
      . exact .inl hempty
      . exact .inr (.inl hkept)
      . obtain ⟨m, hm, -⟩ := hhidden hactive hendpoint
        exact .inr (.inl (List.ne_nil_of_mem hm))
      . exact .inr (.inr hgeneral)
    . intro hready
      refine ⟨fun _ => ?_, hready.hidden hforce⟩
      rcases hready.covered hforce with hempty | hkept | hgeneral
      . exact .inl hempty
      . exact .inr (.inl hkept)
      . exact .inr (.inr (.inr hgeneral))
  | true =>
    simp only [iff_true]
    rw [answered_iff hrow]
    constructor
    . rintro ⟨-, h⟩
      exact ⟨fun _ => h, fun h => by rw [hforce] at h; contradiction, fun h => by rw [hforce] at h; contradiction⟩
    . intro hready
      have hlatest := hready.latest hforce
      exact ⟨fun _ => Or.inr (Or.inr (Or.inl ⟨hlatest.1, hlatest.2.1⟩)), hlatest⟩

/-- The provider's price is replaced by one in force from now on. -/
theorem updatePricing_seamless_example
    : exampleSession.oracle.repository.Ready .epoch (exampleModel none 2) (exampleRow none 2)
      ∧ ∀ db, Seamless db exampleSession.oracle
        (exampleSession.oracle.updatePricing db .epoch (exampleModel none 2) "admin" "reduction").1 .epoch
        (exampleModel none 2) := by
  have hvalid : validatePricingModel .epoch (exampleModel none 2) = .ok () := by decide +kernel
  have hrow : (exampleModel none 2).toRow = some (exampleRow none 2) := PricingModel.toRow_eq_some.mpr rfl
  have hforce : (exampleModel none 2).inForce .epoch = true := by decide +kernel
  have hactive : (exampleRow none 2).isActive .epoch = true := by decide +kernel
  have hready : exampleSession.oracle.repository.Ready .epoch (exampleModel none 2) (exampleRow none 2) := by
    refine ⟨fun _ => ⟨hactive, rfl, ?_⟩, fun h => ?_, fun h => ?_⟩
    . have hkept : exampleSession.oracle.repository.kept .epoch (exampleModel none 2) = [] := by decide +kernel
      simp [hkept]
    . rw [hforce] at h
      contradiction
    . rw [hforce] at h
      contradiction
  exact ⟨hready, (updatePricing_seamless_iff hvalid hrow).mpr hready⟩

end Seamless

section Example

/-- The price of next week's campaign, for one day. -/
def futureModel : PricingModel :=
  { exampleModel none 2 with
    effectiveFrom := some ⟨604800000, by decide⟩
    effectiveUntil := some (some ⟨691200000, by decide⟩) }

/-- A second after its first price, the provider is left without any until the campaign. -/
theorem gap_before_future_price
    : let start : Oracle := ⟨⟨[], []⟩, []⟩
      let o := (start.updatePricing .table .epoch (exampleModel none 1) "admin" "start").1
      let later := TimeValue.epoch.add 1000
      let o' := (o.updatePricing .table later futureModel "admin" "campaign").1
      (o.updatePricing .table later futureModel "admin" "campaign").2 = .ok ()
        ∧ o.repository.getPricing .table later "claude" none = some (exampleModel none 1)
        ∧ o'.repository.getPricing .table later "claude" none = none
        ∧ ¬ Seamless .table o o' later futureModel := by
  intro start o later o'
  refine ⟨by decide +kernel, by decide +kernel, by decide +kernel, fun h => ?_⟩
  exact h.noGap "claude" none (by decide +kernel) (by decide +kernel)

end Example

end Pricing
end Longjing
