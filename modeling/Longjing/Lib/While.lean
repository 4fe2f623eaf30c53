import Mathlib.Logic.Relation
import Mathlib.Tactic.Common

/-!
Loops whose body may itself not end, cut off after a number of iterations: the rule of total correctness, and
that a result does not depend on where the loop is cut off.
-/

namespace While

variable {σ : Type}

/-- `while cond do body`, or `none` if it has not ended after so many iterations. -/
def loop (cond : σ → Bool) (body : σ → Option σ) (fuel : Nat) (s : σ) : Option σ :=
  if cond s then
    match fuel with
    | 0 => none
    | fuel + 1 => (body s).bind (loop cond body fuel)
  else
    some s

/-- The later states in which the condition is tested. -/
def Reaches (cond : σ → Bool) (body : σ → Option σ) : σ → σ → Prop :=
  Relation.ReflTransGen fun s s' => cond s = true ∧ body s = some s'

variable {cond : σ → Bool} {body body' : σ → Option σ} {fuel fuel' : Nat} {s s' : σ}

theorem loop_of_false (h : cond s = false) : loop cond body fuel s = some s := by
  unfold loop
  rw [if_neg (by rw [h]; exact Bool.false_ne_true)]

theorem loop_succ (h : cond s = true) (hbody : body s = some s')
    : loop cond body (fuel + 1) s = loop cond body fuel s' := by
  conv => lhs; unfold loop
  rw [if_pos h, hbody]
  rfl

theorem Reaches.invariant {Inv : σ → Prop} (h : Reaches cond body s s')
    (hbody : ∀ s s', Inv s → cond s = true → body s = some s' → Inv s') (hs : Inv s) : Inv s' := by
  induction h with
  | refl => exact hs
  | tail _ hstep ih => exact hbody _ _ ih hstep.1 hstep.2

/-- A body that keeps an invariant and decreases a variant: as many iterations as the variant counts are
enough. -/
theorem loop_total {Inv : σ → Prop} (variant : σ → Nat)
    (hbody : ∀ s, Inv s → cond s = true → ∃ s', body s = some s' ∧ Inv s' ∧ variant s' < variant s)
    (hs : Inv s) (hfuel : variant s ≤ fuel)
    : ∃ s', loop cond body fuel s = some s' ∧ Inv s' ∧ cond s' = false := by
  induction fuel generalizing s with
  | zero =>
    cases hcond : cond s with
    | true =>
      obtain ⟨s', -, -, hlt⟩ := hbody s hs hcond
      omega
    | false => exact ⟨s, loop_of_false hcond, hs, hcond⟩
  | succ fuel ih =>
    cases hcond : cond s with
    | true =>
      obtain ⟨s', hs', hinv, hlt⟩ := hbody s hs hcond
      rw [loop_succ hcond hs']
      exact ih hinv (by omega)
    | false => exact ⟨s, loop_of_false hcond, hs, hcond⟩

/-- A result stays the result with more iterations, of the loop and of what its body runs. -/
theorem loop_mono (hbody : ∀ s s', body s = some s' → body' s = some s') (hle : fuel ≤ fuel')
    (h : loop cond body fuel s = some s') : loop cond body' fuel' s = some s' := by
  induction fuel generalizing fuel' s with
  | zero =>
    cases hcond : cond s with
    | true => simp [loop, hcond] at h
    | false =>
      rw [loop_of_false hcond] at h
      rw [loop_of_false hcond, h]
  | succ fuel ih =>
    cases hcond : cond s with
    | true =>
      unfold loop at h
      rw [if_pos hcond, Option.bind_eq_some_iff] at h
      obtain ⟨next, hnext, hrest⟩ := h
      obtain ⟨more, rfl⟩ := Nat.exists_eq_add_of_le' hle
      rw [← Nat.add_assoc, loop_succ hcond (hbody s next hnext)]
      exact ih (Nat.le_add_left fuel more) hrest
    | false =>
      rw [loop_of_false hcond] at h
      rw [loop_of_false hcond, h]

end While
