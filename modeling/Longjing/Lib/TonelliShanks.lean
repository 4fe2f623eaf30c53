import Mathlib.Algebra.Ring.Basic
import Mathlib.Tactic.Ring

/-!
The square root of Tonelli and Shanks: what one round preserves, in a commutative ring without zero divisors.
-/

namespace TonelliShanks

variable {K : Type} [CommRing K]

/--
`r` is a square root of `a` up to the factor `t`, whose order is a power of two below that of `c`.
-/
structure Round (a : K) (m : Nat) (c t r : K) : Prop where
  pos : 0 < m
  square : r * r = a * t
  order_c : c ^ 2 ^ (m - 1) = -1
  order_t : t ^ 2 ^ (m - 1) = 1

/-- `t` becomes 1 after `i` squarings, and not before. -/
structure Squarings (t : K) (i : Nat) : Prop where
  pow : t ^ 2 ^ i = 1
  least : ∀ j < i, t ^ 2 ^ j ≠ 1

theorem Round.init {a z : K} {q s : Nat} (hq : q % 2 = 1) (hs : 0 < s) (ha : a ^ (q * 2 ^ (s - 1)) = 1)
    (hz : z ^ (q * 2 ^ (s - 1)) = -1) : Round a s (z ^ q) (a ^ q) (a ^ ((q + 1) / 2)) where
  pos := hs
  square := by
    have hsum : (q + 1) / 2 + (q + 1) / 2 = q + 1 := by omega
    rw [← pow_add, hsum, pow_succ']
  order_c := by rw [← pow_mul, hz]
  order_t := by rw [← pow_mul, ha]

theorem Squarings.pos {t : K} {i : Nat} (h : Squarings t i) (ht : t ≠ 1) : 0 < i := by
  apply Nat.pos_of_ne_zero
  rintro rfl
  exact ht (by simpa using h.pow)

theorem Round.lt {a c t r : K} {m i : Nat} (h : Round a m c t r) (hi : Squarings t i) : i < m := by
  by_contra hge
  have hpos := h.pos
  exact hi.least (m - 1) (by omega) h.order_t

variable [NoZeroDivisors K]

/-- One squaring before it becomes 1, it is -1. -/
theorem Squarings.pow_pred {t : K} {i : Nat} (h : Squarings t i) (hi : 0 < i) : t ^ 2 ^ (i - 1) = -1 := by
  have hsquare : t ^ 2 ^ (i - 1) * t ^ 2 ^ (i - 1) = 1 := by
    rw [← pow_add, ← two_mul, ← pow_succ', Nat.sub_add_cancel hi]
    exact h.pow
  rcases mul_self_eq_one_iff.mp hsquare with hone | hneg
  . exact absurd hone (h.least (i - 1) (Nat.sub_lt hi Nat.one_pos))
  . exact hneg

/-- A round keeps the invariant, and its order goes down. -/
theorem Round.next {a c t r b : K} {m i : Nat} (h : Round a m c t r) (ht : t ≠ 1) (hi : Squarings t i)
    (hb : b = c ^ 2 ^ (m - i - 1)) : Round a i (b * b) (t * (b * b)) (r * b) := by
  have hlt := h.lt hi
  have hpos := hi.pos ht
  have hc : (b * b) ^ 2 ^ (i - 1) = -1 := by
    have hexp : (2 ^ (m - i - 1) + 2 ^ (m - i - 1)) * 2 ^ (i - 1) = 2 ^ (m - 1) := by
      rw [← two_mul, ← pow_succ', ← pow_add]
      congr 1
      omega
    rw [hb, ← pow_add, ← pow_mul, hexp]
    exact h.order_c
  refine ⟨hpos, ?_, hc, ?_⟩
  . calc r * b * (r * b) = r * r * (b * b) := by ring
      _ = a * (t * (b * b)) := by rw [h.square, mul_assoc]
  . rw [mul_pow, hi.pow_pred hpos, hc, neg_mul_neg, one_mul]

end TonelliShanks
