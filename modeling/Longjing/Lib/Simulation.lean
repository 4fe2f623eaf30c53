import Mathlib.Data.List.Forall2

/-!
Simulation between two machines whose runs are folds of a step function.
-/

namespace Longjing

/-- Whatever step the first machine takes, the second one takes some steps, maybe none, that keep the two
states related. -/
def Simulates {σ α τ β : Type} (step : σ → α → σ) (step' : τ → β → τ) (R : σ → τ → Prop) : Prop :=
  ∀ s t, R s t → ∀ a, ∃ bs : List β, R (step s a) (bs.foldl step' t)

theorem Simulates.run {σ α τ β : Type} {step : σ → α → σ} {step' : τ → β → τ} {R : σ → τ → Prop}
    (h : Simulates step step' R) {s : σ} {t : τ} (hst : R s t) (as : List α)
    : ∃ bs : List β, R (as.foldl step s) (bs.foldl step' t) := by
  induction as generalizing s t with
  | nil => exact ⟨[], hst⟩
  | cons a as ih =>
    obtain ⟨bs, hstep⟩ := h s t hst a
    obtain ⟨bs', hrun⟩ := ih hstep
    refine ⟨bs ++ bs', ?_⟩
    rw [List.foldl_append]
    exact hrun

theorem forall₂_getElem?_some {α β : Type} {R : α → β → Prop} {l : List α} {l' : List β}
    (h : List.Forall₂ R l l') {i : Nat} {a : α} (hi : l[i]? = some a)
    : ∃ b, l'[i]? = some b ∧ R a b := by
  induction h generalizing i with
  | nil => simp at hi
  | cons hab _ ih =>
    cases i with
    | zero => exact ⟨_, rfl, by simpa [← Option.some.inj hi] using hab⟩
    | succ i => exact ih (by simpa using hi)

theorem forall₂_set {α β : Type} {R : α → β → Prop} {l : List α} {l' : List β}
    (h : List.Forall₂ R l l') {a : α} {b : β} (hab : R a b) (i : Nat)
    : List.Forall₂ R (l.set i a) (l'.set i b) := by
  induction h generalizing i with
  | nil => exact .nil
  | cons hhead htail ih =>
    cases i with
    | zero => exact .cons hab htail
    | succ i => exact .cons hhead (ih i)

end Longjing
