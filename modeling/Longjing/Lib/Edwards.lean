import Mathlib.Algebra.Field.Basic
import Mathlib.Algebra.Group.Even
import Mathlib.SetTheory.Cardinal.Finite
import Mathlib.Tactic.FieldSimp
import Mathlib.Tactic.LinearCombination
import Mathlib.Tactic.Ring

/-!
Complete twisted Edwards curves `a x² + y² = 1 + d x² y²`, with `a` a square and `d` none: the
addition law has no exceptions and makes the points an abelian group.
-/

namespace Edwards

variable {K : Type} [Field K]

structure Curve (K : Type) [Field K] where
  a : K
  d : K
  isSquare_a : IsSquare a
  not_isSquare_d : ¬IsSquare d
  two_ne_zero : (2 : K) ≠ 0

variable (E : Curve K)

def OnCurve (p : K × K) : Prop :=
  E.a * p.1 ^ 2 + p.2 ^ 2 = 1 + E.d * p.1 ^ 2 * p.2 ^ 2

/--
The denominators are `1 + k` and `1 - k`.
-/
def k (p q : K × K) : K :=
  E.d * p.1 * q.1 * p.2 * q.2

def numX (p q : K × K) : K :=
  p.1 * q.2 + p.2 * q.1

def numY (p q : K × K) : K :=
  p.2 * q.2 - E.a * p.1 * q.1

def add (p q : K × K) : K × K :=
  (numX p q / (1 + k E p q), numY E p q / (1 - k E p q))

variable {E} {p q r : K × K}

theorem k_sq_ne_one (hp : OnCurve E p) (hq : OnCurve E q) : k E p q ^ 2 ≠ 1 := by
  obtain ⟨x, y⟩ := p
  obtain ⟨u, v⟩ := q
  simp only [OnCurve, k] at *
  intro hk
  obtain ⟨α, hα⟩ := E.isSquare_a
  -- Both `(α x + k y)²` and `(α x - k y)²` are `d` times a square.
  have hplus : (α * x + E.d * x * u * y * v * y) ^ 2 = E.d * (x * y * (α * u + v)) ^ 2 := by
    rw [hα] at hp hq
    linear_combination hp - E.d * x ^ 2 * y ^ 2 * hq + (y ^ 2 - 1) * hk
  have hminus : (α * x - E.d * x * u * y * v * y) ^ 2 = E.d * (x * y * (α * u - v)) ^ 2 := by
    rw [hα] at hp hq
    linear_combination hp - E.d * x ^ 2 * y ^ 2 * hq + (y ^ 2 - 1) * hk
  have hzero : ∀ s t : K, s ^ 2 = E.d * t ^ 2 → t = 0 := by
    intro s t hst
    by_contra ht
    apply E.not_isSquare_d
    refine ⟨s / t, ?_⟩
    field_simp
    linear_combination -hst
  have hx : x ≠ 0 := by
    rintro rfl
    simp at hk
  have hy : y ≠ 0 := by
    rintro rfl
    simp at hk
  have hv : v ≠ 0 := by
    rintro rfl
    simp at hk
  have h1 := hzero _ _ hplus
  have h2 := hzero _ _ hminus
  have hsum : α * u + v = 0 := by
    simpa [hx, hy] using h1
  have hdiff : α * u - v = 0 := by
    simpa [hx, hy] using h2
  have : (2 : K) * v = 0 := by
    linear_combination hsum - hdiff
  simp [E.two_ne_zero, hv] at this

theorem one_add_k_ne_zero (hp : OnCurve E p) (hq : OnCurve E q) : 1 + k E p q ≠ 0 := by
  intro h
  apply k_sq_ne_one hp hq
  linear_combination (k E p q - 1) * h

theorem one_sub_k_ne_zero (hp : OnCurve E p) (hq : OnCurve E q) : 1 - k E p q ≠ 0 := by
  intro h
  apply k_sq_ne_one hp hq
  linear_combination (-k E p q - 1) * h

theorem add_fst_mul (hp : OnCurve E p) (hq : OnCurve E q)
    : (add E p q).1 * (1 + k E p q) = numX p q :=
  div_mul_cancel₀ _ (one_add_k_ne_zero hp hq)

theorem add_snd_mul (hp : OnCurve E p) (hq : OnCurve E q)
    : (add E p q).2 * (1 - k E p q) = numY E p q :=
  div_mul_cancel₀ _ (one_sub_k_ne_zero hp hq)

/-!
The polynomial identities behind closure and associativity: the two sides differ by a combination
of the curve equations.
-/

theorem closure_num (hp : OnCurve E p) (hq : OnCurve E q)
    : E.a * (numX p q * (1 - k E p q)) ^ 2 + (numY E p q * (1 + k E p q)) ^ 2
        = ((1 + k E p q) * (1 - k E p q)) ^ 2 + E.d * (numX p q * numY E p q) ^ 2 := by
  simp only [OnCurve, numX, numY, k] at *
  grind

theorem assoc_num_fst (hp : OnCurve E p) (hq : OnCurve E q) (hr : OnCurve E r)
    : (numX p q * (1 - k E p q) * r.2 + numY E p q * (1 + k E p q) * r.1)
          * ((1 + k E q r) * (1 - k E q r) + E.d * p.1 * numX q r * p.2 * numY E q r)
        = (p.1 * (numY E q r * (1 + k E q r)) + p.2 * (numX q r * (1 - k E q r)))
          * ((1 + k E p q) * (1 - k E p q) + E.d * numX p q * r.1 * numY E p q * r.2) := by
  simp only [OnCurve, numX, numY, k] at *
  grind

theorem assoc_num_snd (hp : OnCurve E p) (hq : OnCurve E q) (hr : OnCurve E r)
    : (numY E p q * (1 + k E p q) * r.2 - E.a * (numX p q * (1 - k E p q)) * r.1)
          * ((1 + k E q r) * (1 - k E q r) - E.d * p.1 * numX q r * p.2 * numY E q r)
        = (p.2 * (numY E q r * (1 + k E q r)) - E.a * p.1 * (numX q r * (1 - k E q r)))
          * ((1 + k E p q) * (1 - k E p q) - E.d * numX p q * r.1 * numY E p q * r.2) := by
  simp only [OnCurve, numX, numY, k] at *
  grind

theorem onCurve_add (hp : OnCurve E p) (hq : OnCurve E q) : OnCurve E (add E p q) := by
  have h1 := one_add_k_ne_zero hp hq
  have h2 := one_sub_k_ne_zero hp hq
  have hnum := closure_num hp hq
  rw [← add_fst_mul hp hq, ← add_snd_mul hp hq] at hnum
  have hden : ((1 + k E p q) * (1 - k E p q)) ^ 2 ≠ 0 := pow_ne_zero _ (mul_ne_zero h1 h2)
  apply mul_left_cancel₀ hden
  linear_combination hnum

theorem onCurve_zero : OnCurve E (0, 1) := by
  simp [OnCurve]

theorem onCurve_neg (hp : OnCurve E p) : OnCurve E (-p.1, p.2) := by
  simpa [OnCurve] using hp

theorem add_comm (p q : K × K) : add E p q = add E q p := by
  simp only [add, numX, numY, k, Prod.mk.injEq]
  constructor <;> congr 1 <;> ring

theorem zero_add (p : K × K) : add E (0, 1) p = p := by
  simp [add, numX, numY, k]

theorem neg_add (hp : OnCurve E p) : add E (-p.1, p.2) p = (0, 1) := by
  have h := one_sub_k_ne_zero (onCurve_neg hp) hp
  simp only [OnCurve, add, numX, numY, k, Prod.mk.injEq] at *
  constructor
  . simp [mul_comm]
  . rw [div_eq_one_iff_eq h]
    linear_combination hp

theorem add_assoc (hp : OnCurve E p) (hq : OnCurve E q) (hr : OnCurve E r)
    : add E (add E p q) r = add E p (add E q r) := by
  have hpq := onCurve_add hp hq
  have hqr := onCurve_add hq hr
  have hden : (1 + k E p q) * (1 - k E p q) * ((1 + k E q r) * (1 - k E q r)) ≠ 0 :=
    mul_ne_zero (mul_ne_zero (one_add_k_ne_zero hp hq) (one_sub_k_ne_zero hp hq))
      (mul_ne_zero (one_add_k_ne_zero hq hr) (one_sub_k_ne_zero hq hr))
  apply Prod.ext
  . have hnum := assoc_num_fst hp hq hr
    rw [← add_fst_mul hp hq, ← add_snd_mul hp hq, ← add_fst_mul hq hr, ← add_snd_mul hq hr] at hnum
    show numX (add E p q) r / (1 + k E (add E p q) r)
      = numX p (add E q r) / (1 + k E p (add E q r))
    rw [div_eq_div_iff (one_add_k_ne_zero hpq hr) (one_add_k_ne_zero hp hqr)]
    apply mul_left_cancel₀ hden
    simp only [numX, k] at hnum ⊢
    linear_combination hnum
  . have hnum := assoc_num_snd hp hq hr
    rw [← add_fst_mul hp hq, ← add_snd_mul hp hq, ← add_fst_mul hq hr, ← add_snd_mul hq hr] at hnum
    show numY E (add E p q) r / (1 - k E (add E p q) r)
      = numY E p (add E q r) / (1 - k E p (add E q r))
    rw [div_eq_div_iff (one_sub_k_ne_zero hpq hr) (one_sub_k_ne_zero hp hqr)]
    apply mul_left_cancel₀ hden
    simp only [numY, k] at hnum ⊢
    linear_combination hnum

variable (E) in
def Point : Type :=
  { p : K × K // OnCurve E p }

namespace Point

theorem ext {P Q : Point E} (h : P.val = Q.val) : P = Q :=
  Subtype.ext h

instance : Add (Point E) := ⟨fun P Q => ⟨add E P.val Q.val, onCurve_add P.property Q.property⟩⟩

instance : Zero (Point E) := ⟨⟨(0, 1), onCurve_zero⟩⟩

instance : Neg (Point E) := ⟨fun P => ⟨(-P.val.1, P.val.2), onCurve_neg P.property⟩⟩

@[simp]
theorem val_add (P Q : Point E) : (P + Q).val = add E P.val Q.val := rfl

@[simp]
theorem val_zero : (0 : Point E).val = (0, 1) := rfl

instance : AddCommGroup (Point E) where
  add_assoc P Q R := ext (Edwards.add_assoc P.property Q.property R.property)
  zero_add P := ext (Edwards.zero_add P.val)
  add_zero P := ext ((Edwards.add_comm P.val (0, 1)).trans (Edwards.zero_add P.val))
  add_comm P Q := ext (Edwards.add_comm P.val Q.val)
  neg_add_cancel P := ext (Edwards.neg_add P.property)
  nsmul := nsmulRec
  zsmul := zsmulRec

end Point

/-! The points over one abscissa. -/

theorem one_sub_d_mul_sq_ne_zero (x : K) : 1 - E.d * x ^ 2 ≠ 0 := by
  intro h
  have hx : x ≠ 0 := by
    rintro rfl
    simp at h
  apply E.not_isSquare_d
  refine ⟨1 / x, ?_⟩
  field_simp
  linear_combination -h

theorem onCurve_iff_sq {x y : K} : OnCurve E (x, y) ↔ y ^ 2 = (1 - E.a * x ^ 2) / (1 - E.d * x ^ 2) := by
  rw [eq_div_iff (one_sub_d_mul_sq_ne_zero x), OnCurve]
  constructor
  . intro h
    linear_combination h
  . intro h
    linear_combination h

theorem eq_or_eq_neg_of_fst_eq (hp : OnCurve E p) (hq : OnCurve E q) (hfst : p.1 = q.1)
    : p.2 = q.2 ∨ p.2 = -q.2 := by
  obtain ⟨x, y⟩ := p
  obtain ⟨x', y'⟩ := q
  obtain rfl : x = x' := hfst
  exact sq_eq_sq_iff_eq_or_eq_neg.mp ((onCurve_iff_sq.mp hp).trans (onCurve_iff_sq.mp hq).symm)

section Finite

variable [Finite K]

instance : Finite (Point E) := inferInstanceAs (Finite { p : K × K // OnCurve E p })

theorem Point.card_le : Nat.card (Point E) ≤ Nat.card K * 2 := by
  classical
  -- one ordinate over each abscissa that has any
  let chosen (x : K) : K := if h : ∃ y, OnCurve E (x, y) then h.choose else 0
  have hchosen (P : Point E) : OnCurve E (P.val.1, chosen P.val.1) := by
    have h : ∃ y, OnCurve E (P.val.1, y) := ⟨P.val.2, P.property⟩
    simp only [chosen, dif_pos h]
    exact h.choose_spec
  let code (P : Point E) : K × Bool := (P.val.1, decide (P.val.2 = chosen P.val.1))
  have hcode : Function.Injective code := by
    intro P Q h
    obtain ⟨hfst, hsnd⟩ := Prod.mk.inj h
    apply Point.ext
    apply Prod.ext hfst
    rw [decide_eq_decide, ← hfst] at hsnd
    by_cases hP : P.val.2 = chosen P.val.1
    . rw [hP, hsnd.mp hP]
    . have hQ : Q.val.2 ≠ chosen P.val.1 := fun hQ => hP (hsnd.mpr hQ)
      have hnegP := (eq_or_eq_neg_of_fst_eq P.property (hchosen P) rfl).resolve_left hP
      have hnegQ := (eq_or_eq_neg_of_fst_eq Q.property (hchosen P) hfst.symm).resolve_left hQ
      exact hnegP.trans hnegQ.symm
  have hle := Nat.card_le_card_of_injective code hcode
  rwa [Nat.card_prod, Nat.card_eq_fintype_card (α := Bool), Fintype.card_bool] at hle

end Finite

/-! Projective coordinates `(X : Y : Z)`, whose addition needs no inverse. -/

variable (E) in
def projAdd (p q : K × K × K) : K × K × K :=
  let (x₁, y₁, z₁) := p
  let (x₂, y₂, z₂) := q
  let a := z₁ * z₂
  let b := a * a
  let c := x₁ * x₂
  let d := y₁ * y₂
  let e := E.d * c * d
  let f := b - e
  let g := b + e
  (a * f * (x₁ * y₂ + y₁ * x₂), a * g * (d - E.a * c), f * g)

/-- The projective coordinates stand for the point. -/
structure Represents (p : K × K × K) (P : Point E) : Prop where
  z_ne_zero : p.2.2 ≠ 0
  val_eq : P.val = (p.1 / p.2.2, p.2.1 / p.2.2)

theorem Represents.projAdd {p q : K × K × K} {P Q : Point E} (hp : Represents p P)
    (hq : Represents q Q) : Represents (projAdd E p q) (P + Q) := by
  obtain ⟨x₁, y₁, z₁⟩ := p
  obtain ⟨x₂, y₂, z₂⟩ := q
  obtain ⟨⟨u₁, v₁⟩, hP⟩ := P
  obtain ⟨⟨u₂, v₂⟩, hQ⟩ := Q
  obtain ⟨hz₁, hval₁⟩ := hp
  obtain ⟨hz₂, hval₂⟩ := hq
  simp only [Prod.mk.injEq] at hz₁ hz₂ hval₁ hval₂
  obtain ⟨rfl, rfl⟩ := hval₁
  obtain ⟨rfl, rfl⟩ := hval₂
  have hadd := one_add_k_ne_zero hP hQ
  have hsub := one_sub_k_ne_zero hP hQ
  simp only [k] at hadd hsub
  have hb : z₁ * z₂ * (z₁ * z₂) ≠ 0 := by simp [hz₁, hz₂]
  have hg : z₁ * z₂ * (z₁ * z₂) + E.d * (x₁ * x₂) * (y₁ * y₂) ≠ 0 := by
    intro h
    apply hadd
    field_simp
    linear_combination h
  have hf : z₁ * z₂ * (z₁ * z₂) - E.d * (x₁ * x₂) * (y₁ * y₂) ≠ 0 := by
    intro h
    apply hsub
    field_simp
    linear_combination h
  have hadd' : 1 + E.d * (x₁ / z₁) * (x₂ / z₂) * (y₁ / z₁) * (y₂ / z₂)
      = (z₁ * z₂ * (z₁ * z₂) + E.d * (x₁ * x₂) * (y₁ * y₂)) / (z₁ * z₂ * (z₁ * z₂)) := by
    field_simp
  have hsub' : 1 - E.d * (x₁ / z₁) * (x₂ / z₂) * (y₁ / z₁) * (y₂ / z₂)
      = (z₁ * z₂ * (z₁ * z₂) - E.d * (x₁ * x₂) * (y₁ * y₂)) / (z₁ * z₂ * (z₁ * z₂)) := by
    field_simp
  constructor
  . simp only [Edwards.projAdd]
    exact mul_ne_zero hf hg
  . show add E (x₁ / z₁, y₁ / z₁) (x₂ / z₂, y₂ / z₂) = _
    simp only [Edwards.projAdd, add, numX, numY, k, hadd', hsub', Prod.mk.injEq]
    generalize z₁ * z₂ * (z₁ * z₂) + E.d * (x₁ * x₂) * (y₁ * y₂) = g at hg ⊢
    generalize z₁ * z₂ * (z₁ * z₂) - E.d * (x₁ * x₂) * (y₁ * y₂) = f at hf ⊢
    constructor
    . field_simp
    . field_simp

theorem Represents.zero : Represents (0, 1, 1) (0 : Point E) :=
  ⟨one_ne_zero, by simp⟩

theorem Represents.eq_zero {y : K} {p : K × K × K} {P : Point E} (h : Represents p P)
    (hp : p = (0, y, y)) : P = 0 := by
  subst hp
  apply Point.ext
  rw [h.val_eq]
  simp [div_self h.z_ne_zero]

end Edwards
