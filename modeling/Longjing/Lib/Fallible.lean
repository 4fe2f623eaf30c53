import Mathlib.Data.List.Basic
import Mathlib.Data.Option.Basic
import Mathlib.Tactic.Common

/-!
Computations in `Except` and `Option`: what it says that a sequence of steps returns, or fails.
-/

namespace Fallible

variable {ε α β : Type}

theorem bind_eq_ok {x : Except ε α} {f : α → Except ε β} {r : β}
    : (x >>= f) = .ok r ↔ ∃ a, x = .ok a ∧ f a = .ok r := by
  cases x with
  | error e =>
    constructor
    . intro h
      cases h
    . rintro ⟨a, h, -⟩
      cases h
  | ok a =>
    constructor
    . intro h
      exact ⟨a, rfl, h⟩
    . rintro ⟨b, h, hb⟩
      cases h
      exact hb

theorem bind_eq_error {x : Except ε α} {f : α → Except ε β} {e : ε}
    : (x >>= f) = .error e ↔ x = .error e ∨ ∃ a, x = .ok a ∧ f a = .error e := by
  cases x with
  | error e' =>
    constructor
    . intro h
      exact Or.inl (Except.error.inj h ▸ rfl)
    . rintro (h | ⟨a, h, -⟩)
      . exact congrArg Except.error (Except.error.inj h)
      . cases h
  | ok a =>
    constructor
    . intro h
      exact Or.inr ⟨a, rfl, h⟩
    . rintro (h | ⟨b, h, hb⟩)
      . cases h
      . cases h
        exact hb

@[simp]
theorem pure_eq_ok {a r : α} : (pure a : Except ε α) = .ok r ↔ r = a := by
  constructor
  . intro h
    cases h
    rfl
  . rintro rfl
    rfl

@[simp]
theorem pure_ne_error {a : α} {e : ε} : (pure a : Except ε α) ≠ .error e := by
  intro h
  cases h

theorem mapM_eq_some {f : α → Option β} {xs : List α} {ys : List β}
    : xs.mapM f = some ys ↔ xs.map f = ys.map some := by
  induction xs generalizing ys with
  | nil => cases ys <;> simp
  | cons x xs ih =>
    rw [List.mapM_cons]
    cases hx : f x with
    | none => cases ys <;> simp [hx]
    | some y =>
      cases hxs : xs.mapM f with
      | none =>
        have hne (ys : List β) : xs.map f ≠ ys.map some := fun h => by simp [ih.mpr h] at hxs
        cases ys <;> simp [hx, hne]
      | some ys' =>
        have hmap := ih.mp hxs
        have hinj := List.map_injective_iff.mpr (Option.some_injective β)
        cases ys <;> simp [hx, hmap, hinj.eq_iff]

theorem exists_of_mapM_map {γ : Type} {f : α → Option β} {g : β → γ} {xs : List α} {zs : List γ}
    (h : xs.mapM (fun x => (f x).map g) = some zs)
    : ∃ ys : List β, xs.map f = ys.map some ∧ zs = ys.map g := by
  induction xs generalizing zs with
  | nil =>
    cases h
    exact ⟨[], rfl, rfl⟩
  | cons x xs ih =>
    rw [List.mapM_cons] at h
    obtain ⟨z, hz, h⟩ := Option.bind_eq_some_iff.mp h
    obtain ⟨zs, hzs, h⟩ := Option.bind_eq_some_iff.mp h
    obtain ⟨y, hy, rfl⟩ := Option.map_eq_some_iff.mp hz
    obtain ⟨ys, hys, rfl⟩ := ih hzs
    cases h
    exact ⟨y :: ys, by simp [hy, hys], rfl⟩

theorem exists_of_mem_mapM {f : α → Option β} {xs : List α} {ys : List β} (h : xs.mapM f = some ys) {y : β}
    (hy : y ∈ ys) : ∃ x ∈ xs, f x = some y := by
  have hmem : some y ∈ ys.map some := List.mem_map_of_mem hy
  rw [← mapM_eq_some.mp h] at hmem
  exact List.mem_map.mp hmem

theorem mapM_injective {f : α → Option β} {xs xs' : List α} {ys : List β}
    (hf : ∀ x x' y, f x = some y → f x' = some y → x = x') (h : xs.mapM f = some ys)
    (h' : xs'.mapM f = some ys) : xs = xs' := by
  rw [mapM_eq_some] at h h'
  induction ys generalizing xs xs' with
  | nil =>
    simp only [List.map_nil, List.map_eq_nil_iff] at h h'
    rw [h, h']
  | cons y ys ih =>
    obtain ⟨x, xs, rfl, hx, hxs⟩ := List.map_eq_cons_iff.mp h
    obtain ⟨x', xs', rfl, hx', hxs'⟩ := List.map_eq_cons_iff.mp h'
    rw [hf x x' y hx hx', ih hxs hxs']

end Fallible
