import Mathlib.Algebra.Group.Basic
import Mathlib.Algebra.Group.Nat.Even
import Mathlib.Tactic.Ring

/-!
This module contains the right-to-left binary ladder (square and multiply, double and add) over an
arbitrary operation, together with the proof that it computes a power whenever the operation maps
to a monoid's multiplication.
-/

namespace Longjing

variable {α : Type}

/--
The ladder: consume the bits of `e` from the least significant one, folding `base` into `result`
for every set bit and squaring `base` at every step.
-/
def binPow.go (op : α → α → α) (fuel : Nat) (result base : α) (e : Nat) : α :=
  match fuel with
  | 0 => result
  | fuel + 1 =>
    if e = 0 then
      result
    else
      let result := if e % 2 = 1 then op result base else result
      go op fuel result (op base base) (e / 2)

/--
`base` raised to `e` under `op`, starting from `one`.
-/
def binPow (op : α → α → α) (one base : α) (e : Nat) : α :=
  binPow.go op (Nat.log2 e + 1) one base e

/--
What every result of `op` satisfies, the ladder's result does, whatever the base is.
-/
theorem binPow_result (op : α → α → α) (P : α → Prop) (hop : ∀ x y, P (op x y)) (one base : α) (e : Nat)
    (hone : P one) : P (binPow op one base e) := by
  have hgo (fuel : Nat) (result base : α) (e : Nat) (hresult : P result)
      : P (binPow.go op fuel result base e) := by
    induction fuel generalizing result base e with
    | zero => exact hresult
    | succ fuel ih =>
      unfold binPow.go
      split
      . exact hresult
      . dsimp
        apply ih
        split
        . exact hop _ _
        . exact hresult
  exact hgo _ _ _ _ hone

section Monoid

variable {M : Type} [Monoid M] (op : α → α → α) (f : α → M) (P : α → Prop)

theorem binPow.go_pred (hop : ∀ x y, P x → P y → P (op x y)) (fuel : Nat) (result base : α)
    (e : Nat) (hresult : P result) (hbase : P base) : P (go op fuel result base e) := by
  induction fuel generalizing result base e with
  | zero => exact hresult
  | succ fuel ih =>
    unfold go
    split
    . exact hresult
    . dsimp
      apply ih
      . split
        . exact hop _ _ hresult hbase
        . exact hresult
      . exact hop _ _ hbase hbase

theorem binPow.go_map (hop : ∀ x y, P x → P y → P (op x y))
    (hf : ∀ x y, P x → P y → f (op x y) = f x * f y) (fuel : Nat) (result base : α) (e : Nat)
    (hresult : P result) (hbase : P base) (he : e < 2 ^ fuel)
    : f (go op fuel result base e) = f result * f base ^ e := by
  induction fuel generalizing result base e with
  | zero =>
    have : e = 0 := by simpa using he
    simp [go, this]
  | succ fuel ih =>
    unfold go
    split
    . next hzero => simp [hzero]
    . dsimp
      have hhalf : e / 2 < 2 ^ fuel := by
        rw [Nat.pow_succ] at he
        omega
      have hsq : f base ^ (e / 2 + e / 2) = (f base * f base) ^ (e / 2) := by
        rw [← pow_two, ← pow_mul]
        congr 1
        omega
      split
      . next hodd =>
        rw [ih _ _ _ (hop _ _ hresult hbase) (hop _ _ hbase hbase) hhalf]
        rw [hf _ _ hresult hbase, hf _ _ hbase hbase, ← hsq, mul_assoc, ← pow_succ']
        congr 2
        omega
      . next heven =>
        rw [ih _ _ _ hresult (hop _ _ hbase hbase) hhalf]
        rw [hf _ _ hbase hbase, ← hsq]
        congr 2
        omega

theorem binPow_pred (hop : ∀ x y, P x → P y → P (op x y)) (one base : α) (e : Nat) (hone : P one)
    (hbase : P base) : P (binPow op one base e) := by
  unfold binPow
  exact binPow.go_pred op P hop _ _ _ _ hone hbase

/--
If `f` turns `op` into multiplication on the elements satisfying `P`, the ladder is exponentiation.
-/
theorem binPow_map (hop : ∀ x y, P x → P y → P (op x y))
    (hf : ∀ x y, P x → P y → f (op x y) = f x * f y) (one base : α) (e : Nat)
    (hone : P one) (hbase : P base) : f (binPow op one base e) = f one * f base ^ e := by
  unfold binPow
  apply binPow.go_map op f P hop hf _ _ _ _ hone hbase
  exact Nat.lt_log2_self

variable (R : α → M → Prop)

theorem binPow.go_rel (hop : ∀ x y a b, R x a → R y b → R (op x y) (a * b)) (fuel : Nat)
    (result base : α) (a b : M) (e : Nat) (hresult : R result a) (hbase : R base b)
    (he : e < 2 ^ fuel) : R (go op fuel result base e) (a * b ^ e) := by
  induction fuel generalizing result base a b e with
  | zero =>
    have : e = 0 := by simpa using he
    simpa [go, this] using hresult
  | succ fuel ih =>
    unfold go
    split
    . next hzero => simpa [hzero] using hresult
    . dsimp
      have hhalf : e / 2 < 2 ^ fuel := by
        rw [Nat.pow_succ] at he
        omega
      have hsq : (b * b) ^ (e / 2) = b ^ (e / 2 + e / 2) := by
        rw [← pow_two, ← pow_mul]
        congr 1
        omega
      split
      . next hodd =>
        have h := ih _ _ _ _ _ (hop _ _ _ _ hresult hbase) (hop _ _ _ _ hbase hbase) hhalf
        rw [hsq, mul_assoc, ← pow_succ', show e / 2 + e / 2 + 1 = e by omega] at h
        exact h
      . next heven =>
        have h := ih _ _ _ _ _ hresult (hop _ _ _ _ hbase hbase) hhalf
        rw [hsq, show e / 2 + e / 2 = e by omega] at h
        exact h

theorem binPow_rel (hop : ∀ x y a b, R x a → R y b → R (op x y) (a * b)) (one base : α) (b : M)
    (e : Nat) (hone : R one 1) (hbase : R base b) : R (binPow op one base e) (b ^ e) := by
  unfold binPow
  have h := binPow.go_rel op R hop (Nat.log2 e + 1) one base 1 b e hone hbase Nat.lt_log2_self
  rwa [one_mul] at h

end Monoid

end Longjing
