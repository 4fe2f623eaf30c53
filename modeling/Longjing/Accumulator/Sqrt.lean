import Longjing.Accumulator.Group
import Longjing.Lib.TonelliShanks
import Longjing.Lib.While

/-!
The square root of `accumulator.ts`. Its loops are cut off after `fuel` iterations each.
-/

namespace Longjing
namespace Accumulator

/-- `x << n` of bigints, which shifts right when `n` is negative. -/
def shiftLeft (x n : Int) : Int := if 0 ≤ n then x * 2 ^ n.toNat else x / 2 ^ (-n).toNat

/-- Euler's criterion as the code tests it. -/
def isResidue (x : Int) : Bool := pow x ((FIELD_MODULUS - 1) / 2) = 1

/-- The loop that takes the factors 2 out of `FIELD_MODULUS - 1`: the odd part `q`, and their number `s`. -/
def twoPart (fuel : Nat) : Option (Int × Int) :=
  While.loop (fun (q, _) => q % 2 = 0) (fun (q, s) => some (q / 2, s + 1)) fuel (FIELD_MODULUS - 1, 0)

def nonResidue (fuel : Nat) : Option Int :=
  While.loop isResidue (fun z => some (z + 1)) fuel 2

structure Tonelli where
  m : Int
  c : Int
  t : Int
  r : Int
deriving DecidableEq, Repr

/-- The inner loop: `t2`, and the number `i` of squarings. -/
def squarings (fuel : Nat) (t : Int) : Option (Int × Int) :=
  While.loop (fun (t2, _) => t2 ≠ 1) (fun (t2, i) => some ((t2 * t2).tmod FIELD_MODULUS, i + 1)) fuel (t, 0)

namespace Tonelli

def init (fuel : Nat) (n : Int) : Option Tonelli := do
  let (q, s) ← twoPart fuel
  let z ← nonResidue fuel
  return { m := s, c := pow z q, t := pow n q, r := pow n ((q + 1) / 2) }

def next (fuel : Nat) (s : Tonelli) : Option Tonelli := do
  let (_, i) ← squarings fuel s.t
  let b := pow s.c (shiftLeft 1 (s.m - i - 1))
  let c := (b * b).tmod FIELD_MODULUS
  return { m := i, c := c, t := (s.t * c).tmod FIELD_MODULUS, r := (s.r * b).tmod FIELD_MODULUS }

end Tonelli

/-- Tonelli-Shanks. The inner `none` is the answer that `x` is not a square. -/
def sqrt (fuel : Nat) (x : Int) : Option (Option Int) :=
  let n := mod x
  if n = 0 then
    some (some 0)
  else if isResidue n = false then
    some none
  else do
    let s ← Tonelli.init fuel n
    let s ← While.loop (·.t ≠ 1) (Tonelli.next fuel) fuel s
    return some s.r

/-- The states in which `sqrt x` tests its outer loop. -/
def Visits (fuel : Nat) (x : Int) (s : Tonelli) : Prop :=
  mod x ≠ 0 ∧ isResidue (mod x) = true
    ∧ ∃ first, Tonelli.init fuel (mod x) = some first ∧ While.Reaches (·.t ≠ 1) (Tonelli.next fuel) first s

/-- The number of factors 2 of `FIELD_MODULUS - 1`: enough iterations for every loop. -/
def ROUNDS : Nat := 28

def ODD_PART : Nat := 81540058820840996586704275553141814055101440848469862132140264610111

theorem twoPart_eq (extra : Nat) : twoPart (ROUNDS + extra) = some ((ODD_PART : Int), (ROUNDS : Int)) := by
  have h : twoPart ROUNDS = some ((ODD_PART : Int), (ROUNDS : Int)) := by decide +kernel
  exact While.loop_mono (fun _ _ h => h) (Nat.le_add_right _ _) h

theorem nonResidue_eq (extra : Nat) : nonResidue (ROUNDS + extra) = some 5 := by
  have h : nonResidue 3 = some 5 := by decide +kernel
  exact While.loop_mono (fun _ _ h => h) (Nat.le_add_right_of_le (by decide)) h

def InField (x : Int) : Prop := 0 ≤ x ∧ x < FIELD_MODULUS

theorem InField.mul {x y : Int} (hx : InField x) (hy : InField y) : InField ((x * y).tmod FIELD_MODULUS) :=
  ⟨Int.tmod_nonneg _ (Int.mul_nonneg hx.1 hy.1), Int.tmod_lt_of_pos _ (by decide)⟩

theorem InField.cast_eq_one {x : Int} (hx : InField x) : (x : F) = 1 ↔ x = 1 := by
  constructor
  . intro h
    rw [← eq_val_cast hx.1 hx.2, h, ZMod.val_one]
    rfl
  . rintro rfl
    exact Int.cast_one

theorem pow_inField (base exp : Int) : InField (pow base exp) :=
  binPow_pred _ InField (fun _ _ hx hy => hx.mul hy) 1 (mod base) exp.toNat (by unfold InField; decide)
    ⟨mod_nonneg base, mod_lt base⟩

theorem half_toNat : (((FIELD_MODULUS : Int) - 1) / 2).toNat = FIELD_MODULUS / 2 := by
  decide +kernel

theorem isResidue_iff {x : Int} (hx : (x : F) ≠ 0) : isResidue x = true ↔ IsSquare (x : F) := by
  unfold isResidue
  rw [decide_eq_true_iff, ← (pow_inField _ _).cast_eq_one, cast_pow, half_toNat, ZMod.euler_criterion _ hx]

theorem shiftLeft_one_toNat (n : Nat) : (shiftLeft 1 n).toNat = 2 ^ n := by
  unfold shiftLeft
  rw [if_pos (Int.natCast_nonneg n), Int.toNat_natCast, one_mul]
  exact_mod_cast Int.toNat_natCast (2 ^ n)

/-- The inner loop ends, since `t` has an order that is a power of two. -/
theorem squarings_spec {t : Int} (ht : InField t) {k fuel : Nat} (horder : (t : F) ^ 2 ^ k = 1) (hfuel : k ≤ fuel)
    : ∃ i : Nat, squarings fuel t = some (1, (i : Int)) ∧ TonelliShanks.Squarings (t : F) i := by
  let Inv (s : Int × Int) : Prop :=
    InField s.1 ∧ ∃ i : Nat, s.2 = i ∧ i ≤ k ∧ (s.1 : F) = (t : F) ^ 2 ^ i ∧ ∀ j < i, (t : F) ^ 2 ^ j ≠ 1
  have hbody : ∀ s : Int × Int, Inv s → decide (s.1 ≠ 1) = true →
      ∃ s', some ((s.1 * s.1).tmod FIELD_MODULUS, s.2 + 1) = some s' ∧ Inv s'
        ∧ k - s'.2.toNat < k - s.2.toNat := by
    rintro ⟨t2, _⟩ ⟨ht2, i, rfl, hi, hpow, hleast⟩ hcond
    have hne : (t : F) ^ 2 ^ i ≠ 1 := by
      rw [← hpow, ne_eq, ht2.cast_eq_one]
      exact of_decide_eq_true hcond
    have hlt : i < k := by
      apply Nat.lt_of_le_of_ne hi
      rintro rfl
      exact hne horder
    refine ⟨_, rfl, ⟨ht2.mul ht2, i + 1, rfl, hlt, ?_, ?_⟩, ?_⟩
    . rw [cast_tmod, Int.cast_mul, hpow, ← pow_add, ← two_mul, ← pow_succ']
    . intro j hj
      rcases Nat.lt_succ_iff_lt_or_eq.mp hj with hj | rfl
      . exact hleast j hj
      . exact hne
    . simp only [Int.toNat_natCast, Int.toNat_natCast_add_one]
      omega
  have hinit : Inv (t, 0) := ⟨ht, 0, rfl, Nat.zero_le _, by simp, by simp⟩
  obtain ⟨⟨t2, _⟩, hloop, ⟨ht2, i, rfl, -, hpow, hleast⟩, hcond⟩ :=
    While.loop_total (fun s : Int × Int => k - s.2.toNat) hbody hinit (by simpa using hfuel)
  have hone : t2 = 1 := by simpa using hcond
  subst hone
  exact ⟨i, hloop, by rw [← hpow, Int.cast_one], hleast⟩

namespace Tonelli

/-- What the outer loop keeps, for a root of `a`. -/
structure Good (a : F) (s : Tonelli) : Prop where
  m_nonneg : 0 ≤ s.m
  m_le : s.m ≤ ROUNDS
  t_inField : InField s.t
  r_inField : InField s.r
  round : TonelliShanks.Round a s.m.toNat (s.c : F) (s.t : F) (s.r : F)

theorem five_ne_zero : ((5 : Int) : F) ≠ 0 := by
  have h : (((5 : Nat)) : F) ≠ ((0 : Nat) : F) := by
    rw [ne_eq, ZMod.natCast_eq_natCast_iff']
    decide +kernel
  push_cast at h ⊢
  exact h

theorem five_pow_half : ((5 : Int) : F) ^ (FIELD_MODULUS / 2) = -1 := by
  rcases ZMod.pow_div_two_eq_neg_one_or_one FIELD_MODULUS five_ne_zero with hone | hneg
  . have hresidue := (isResidue_iff five_ne_zero).mpr ((ZMod.euler_criterion _ five_ne_zero).mpr hone)
    exact absurd hresidue (by decide +kernel)
  . exact hneg

theorem init_good (extra : Nat) {n : Int} (hn : (n : F) ≠ 0) (hsquare : IsSquare (n : F))
    : ∃ s, init (ROUNDS + extra) n = some s ∧ Good (n : F) s := by
  have hexp : ODD_PART * 2 ^ (ROUNDS - 1) = FIELD_MODULUS / 2 := by decide +kernel
  have hhalf : (((ODD_PART : Int) + 1) / 2).toNat = (ODD_PART + 1) / 2 := by decide +kernel
  have hround (c t r : F) (hc : c = ((5 : Int) : F) ^ ODD_PART) (ht : t = (n : F) ^ ODD_PART)
      (hr : r = (n : F) ^ ((ODD_PART + 1) / 2)) : TonelliShanks.Round (n : F) ROUNDS c t r := by
    have hodd : ODD_PART % 2 = 1 := by decide +kernel
    rw [hc, ht, hr]
    apply TonelliShanks.Round.init hodd (by decide : 0 < ROUNDS)
    . rw [hexp]
      exact (ZMod.euler_criterion _ hn).mp hsquare
    . rw [hexp]
      exact five_pow_half
  refine ⟨⟨ROUNDS, pow 5 ODD_PART, pow n ODD_PART, pow n ((ODD_PART + 1) / 2)⟩, ?_, ?_⟩
  . rw [init, twoPart_eq, nonResidue_eq]
    rfl
  constructor
  . exact Int.natCast_nonneg _
  . exact Int.le_refl _
  . dsimp only
    exact pow_inField n _
  . dsimp only
    exact pow_inField n _
  . dsimp only
    exact hround _ _ _ (cast_pow 5 ODD_PART) (cast_pow n ODD_PART) ((cast_pow n _).trans (by rw [hhalf]))

/-- The body of the outer loop runs to its end, on a shift that is not negative. -/
theorem Good.next {a : F} {s : Tonelli} (h : Good a s) (ht : s.t ≠ 1) (extra : Nat)
    : ∃ i : Nat, squarings (ROUNDS + extra) s.t = some (1, (i : Int)) ∧ (i : Int) < s.m
        ∧ ∃ s', Tonelli.next (ROUNDS + extra) s = some s' ∧ s'.m = i ∧ Good a s' := by
  obtain ⟨m, hm⟩ := Int.eq_ofNat_of_zero_le h.m_nonneg
  have hround := h.round
  rw [hm, Int.toNat_natCast] at hround
  have hle : m ≤ ROUNDS := by
    have := h.m_le
    omega
  have hfuel : m - 1 ≤ ROUNDS + extra := by omega
  obtain ⟨i, hloop, hi⟩ := squarings_spec h.t_inField hround.order_t hfuel
  have hlt : i < m := hround.lt hi
  have hshift : s.m - i - 1 = ((m - i - 1 : Nat) : Int) := by omega
  have hb : ((pow s.c (shiftLeft 1 (s.m - i - 1)) : Int) : F) = (s.c : F) ^ 2 ^ (m - i - 1) := by
    rw [hshift, cast_pow, shiftLeft_one_toNat]
  have ht' : (s.t : F) ≠ 1 := by
    rw [ne_eq, h.t_inField.cast_eq_one]
    exact ht
  let b := pow s.c (shiftLeft 1 (s.m - i - 1))
  let c := (b * b).tmod FIELD_MODULUS
  refine ⟨i, hloop, by omega, ⟨i, c, (s.t * c).tmod FIELD_MODULUS, (s.r * b).tmod FIELD_MODULUS⟩, ?_, rfl,
    Int.natCast_nonneg _, ?_, ?_, ?_, ?_⟩
  . rw [Tonelli.next, hloop]
    rfl
  . have := h.m_le
    simp only
    omega
  . exact h.t_inField.mul ((pow_inField _ _).mul (pow_inField _ _))
  . exact h.r_inField.mul (pow_inField _ _)
  . have hc : (c : F) = (b : F) * b := by rw [cast_tmod, Int.cast_mul]
    simp only [Int.toNat_natCast, cast_tmod, Int.cast_mul, hc]
    exact hround.next ht' hi hb

theorem Good.reaches {a : F} {s s' : Tonelli} (h : Good a s) {extra : Nat}
    (hreaches : While.Reaches (·.t ≠ 1) (Tonelli.next (ROUNDS + extra)) s s') : Good a s' := by
  apply hreaches.invariant _ h
  intro s s' hgood hcond hnext
  obtain ⟨_, -, -, _, hsome, -, hgood'⟩ := hgood.next (of_decide_eq_true hcond) extra
  rw [hsome, Option.some.injEq] at hnext
  exact hnext ▸ hgood'

theorem Good.loop {a : F} {s : Tonelli} (h : Good a s) (extra : Nat)
    : ∃ s', While.loop (·.t ≠ 1) (Tonelli.next (ROUNDS + extra)) (ROUNDS + extra) s = some s'
        ∧ InField s'.r ∧ (s'.r : F) * s'.r = a := by
  have hbody : ∀ s : Tonelli, Good a s → decide (s.t ≠ 1) = true →
      ∃ s', Tonelli.next (ROUNDS + extra) s = some s' ∧ Good a s' ∧ s'.m.toNat < s.m.toNat := by
    intro s hgood hcond
    obtain ⟨i, -, hlt, s', hnext, hm, hgood'⟩ := hgood.next (of_decide_eq_true hcond) extra
    exact ⟨s', hnext, hgood', by omega⟩
  have hfuel : s.m.toNat ≤ ROUNDS + extra := by
    have := h.m_le
    omega
  obtain ⟨s', hloop, hgood, hcond⟩ := While.loop_total (fun s : Tonelli => s.m.toNat) hbody h hfuel
  have hone : s'.t = 1 := by simpa using hcond
  refine ⟨s', hloop, hgood.r_inField, ?_⟩
  rw [hgood.round.square, hone, Int.cast_one, mul_one]

end Tonelli

theorem modEq_iff_cast (x y : Int) : x ≡ y [ZMOD FIELD_MODULUS] ↔ (x : F) = y :=
  (ZMod.intCast_eq_intCast_iff x y FIELD_MODULUS).symm

theorem isSquare_cast_iff (x : Int) : IsSquare (x : F) ↔ ∃ y : Int, y ^ 2 ≡ x [ZMOD FIELD_MODULUS] := by
  constructor
  . rintro ⟨r, hr⟩
    refine ⟨r.val, ?_⟩
    rw [modEq_iff_cast, hr, Int.cast_pow, Int.cast_natCast, F.cast_val, sq]
  . rintro ⟨y, hy⟩
    rw [modEq_iff_cast, Int.cast_pow] at hy
    exact ⟨y, by rw [← hy, sq]⟩

theorem Tonelli.init_mono {fuel fuel' : Nat} (hle : fuel ≤ fuel') {n : Int} {s : Tonelli}
    (h : init fuel n = some s) : init fuel' n = some s := by
  unfold init at h ⊢
  simp only [Option.bind_eq_bind, Option.bind_eq_some_iff] at h ⊢
  obtain ⟨part, hpart, z, hz, hs⟩ := h
  exact ⟨part, While.loop_mono (fun _ _ h => h) hle hpart, z, While.loop_mono (fun _ _ h => h) hle hz, hs⟩

theorem Tonelli.next_mono {fuel fuel' : Nat} (hle : fuel ≤ fuel') {s s' : Tonelli} (h : next fuel s = some s')
    : next fuel' s = some s' := by
  unfold next at h ⊢
  simp only [Option.bind_eq_bind, Option.bind_eq_some_iff] at h ⊢
  obtain ⟨t2, ht2, hs⟩ := h
  exact ⟨t2, While.loop_mono (fun _ _ h => h) hle ht2, hs⟩

/-- A result does not depend on where the loops are cut off. -/
theorem sqrt_mono {fuel fuel' : Nat} (hle : fuel ≤ fuel') {x : Int} {result : Option Int}
    (h : sqrt fuel x = some result) : sqrt fuel' x = some result := by
  unfold sqrt at h ⊢
  by_cases hzero : mod x = 0
  . simp only [if_pos hzero] at h ⊢
    exact h
  . by_cases hnot : isResidue (mod x) = false
    . simp only [if_neg hzero, if_pos hnot] at h ⊢
      exact h
    . simp only [if_neg hzero, if_neg hnot, Option.bind_eq_bind, Option.bind_eq_some_iff] at h ⊢
      obtain ⟨first, hfirst, last, hlast, hresult⟩ := h
      exact ⟨first, Tonelli.init_mono hle hfirst, last,
        While.loop_mono (fun _ _ h => Tonelli.next_mono hle h) hle hlast, hresult⟩

/-- A reduced square root of `x`, or none if `x` has none. -/
structure SquareRoot (x : Int) (result : Option Int) : Prop where
  root : ∀ r, result = some r → 0 ≤ r ∧ r < FIELD_MODULUS ∧ r ^ 2 ≡ x [ZMOD FIELD_MODULUS]
  none_iff : result = none ↔ ¬ ∃ y : Int, y ^ 2 ≡ x [ZMOD FIELD_MODULUS]

theorem cast_mod_ne_zero {x : Int} (h : mod x ≠ 0) : ((mod x : Int) : F) ≠ 0 := by
  intro hx
  apply h
  rw [← eq_val_cast (mod_nonneg x) (mod_lt x), hx, ZMod.val_zero]
  rfl

theorem sqrt_spec (x : Int) (extra : Nat)
    : ∃ result, sqrt (ROUNDS + extra) x = some result ∧ SquareRoot x result := by
  have hcast : ((mod x : Int) : F) = x := cast_mod x
  unfold sqrt
  simp only
  split
  next hzero =>
    have hx : (x : F) = 0 := by rw [← hcast, hzero, Int.cast_zero]
    refine ⟨some 0, rfl, ?_, ?_⟩
    . rintro r ⟨rfl⟩
      refine ⟨Int.le_refl _, by decide, ?_⟩
      rw [modEq_iff_cast, hx]
      simp
    . rw [← isSquare_cast_iff, hx]
      simp
  next hne =>
    have hx := cast_mod_ne_zero hne
    split
    next hnot =>
      refine ⟨none, rfl, by simp, ?_⟩
      rw [← isSquare_cast_iff, ← hcast, ← isResidue_iff hx, hnot]
      simp
    next hresidue =>
      have hsquare := (isResidue_iff hx).mp (by simpa using hresidue)
      obtain ⟨first, hfirst, hgood⟩ := Tonelli.init_good extra hx hsquare
      obtain ⟨last, hlast, ⟨hnonneg, hlt⟩, hroot⟩ := hgood.loop extra
      refine ⟨some last.r, ?_, ?_, ?_⟩
      . rw [hfirst, Option.bind_eq_bind, Option.bind_some, hlast]
        rfl
      . rintro r ⟨rfl⟩
        refine ⟨hnonneg, hlt, ?_⟩
        rw [modEq_iff_cast, Int.cast_pow, sq, hroot, hcast]
      . rw [← isSquare_cast_iff, ← hcast]
        simp [hsquare]

theorem sqrt_eq_some {fuel : Nat} {x : Int} {result : Option Int} (h : sqrt fuel x = some result)
    : SquareRoot x result := by
  obtain ⟨result', hresult', hspec⟩ := sqrt_spec x fuel
  rw [sqrt_mono (Nat.le_add_left fuel ROUNDS) h, Option.some.injEq] at hresult'
  exact hresult' ▸ hspec

/--
With `ROUNDS` iterations or more for each loop, `sqrt` returns: a reduced root when there is one, and nothing
otherwise. In every round the inner loop ends, and leaves a shift that is not negative.
-/
theorem sqrt_correct (x : Int) (extra : Nat)
    : (∃ result, sqrt (ROUNDS + extra) x = some result ∧ SquareRoot x result)
      ∧ ∀ s, Visits (ROUNDS + extra) x s → s.t ≠ 1 →
          ∃ i, squarings (ROUNDS + extra) s.t = some (1, i) ∧ 0 ≤ s.m - i - 1 := by
  refine ⟨sqrt_spec x extra, ?_⟩
  rintro s ⟨hne, hresidue, first, hfirst, hreaches⟩ ht
  have hx := cast_mod_ne_zero hne
  obtain ⟨first', hfirst', hgood⟩ := Tonelli.init_good extra hx ((isResidue_iff hx).mp hresidue)
  rw [hfirst', Option.some.injEq] at hfirst
  obtain ⟨i, hloop, hlt, -⟩ := ((hfirst ▸ hgood).reaches hreaches).next ht extra
  exact ⟨i, hloop, by omega⟩

end Accumulator
end Longjing
