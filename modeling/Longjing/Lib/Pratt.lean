import Longjing.Lib.BinPow
import Mathlib.NumberTheory.LucasPrimality

/-!
This module contains modular exponentiation by the binary ladder and a primality test for numbers
whose predecessor has a known factorisation, small enough for the kernel to run at 254 bits.
-/

namespace Longjing

/--
`base ^ e` modulo `m`, reducing after every multiplication.
-/
def powMod (m base e : Nat) : Nat :=
  binPow (fun x y => x * y % m) 1 (base % m) e

theorem cast_powMod (m base e : Nat) : ((powMod m base e : Nat) : ZMod m) = (base : ZMod m) ^ e := by
  unfold powMod
  rw [binPow_map (fun x y => x * y % m) (fun n : Nat => (n : ZMod m)) (fun _ => True)]
  . simp
  . intros
    trivial
  . intros
    simp
  . trivial
  . trivial

theorem powMod_lt {m : Nat} (hm : 1 < m) (base e : Nat) : powMod m base e < m := by
  unfold powMod
  apply binPow_pred (fun x y => x * y % m) (fun n => n < m)
  . intros
    apply Nat.mod_lt
    omega
  . exact hm
  . apply Nat.mod_lt
    omega

theorem powMod_eq_one_iff {m : Nat} (hm : 1 < m) (base e : Nat)
    : powMod m base e = 1 ↔ (base : ZMod m) ^ e = 1 := by
  rw [← cast_powMod]
  constructor
  . intro h
    simp [h]
  . intro h
    have hval : ((powMod m base e : Nat) : ZMod m) = ((1 : Nat) : ZMod m) := by simpa using h
    rw [ZMod.natCast_eq_natCast_iff', Nat.mod_eq_of_lt (powMod_lt hm base e),
      Nat.mod_eq_of_lt hm] at hval
    exact hval

/--
Lucas' test: `base` has order `p - 1` modulo `p`, where `factors` lists the prime powers of `p - 1`.
-/
def prattCheck (p base : Nat) (factors : List (Nat × Nat)) : Bool :=
  1 < p
    && (factors.map (fun f => f.1 ^ f.2)).prod == p - 1
    && powMod p base (p - 1) == 1
    && factors.all (fun f => powMod p base ((p - 1) / f.1) != 1)

theorem prime_of_prattCheck {p : Nat} (base : Nat) (factors : List (Nat × Nat))
    (hprime : ∀ f ∈ factors, f.1.Prime) (hcheck : prattCheck p base factors = true) : p.Prime := by
  simp only [prattCheck, Bool.and_eq_true, decide_eq_true_eq, beq_iff_eq, List.all_eq_true,
    bne_iff_ne, ne_eq] at hcheck
  obtain ⟨⟨⟨hp, hprod⟩, hfermat⟩, horder⟩ := hcheck
  apply lucas_primality p (base : ZMod p)
  . rw [← powMod_eq_one_iff hp]
    exact hfermat
  . intro q hq hdvd
    rw [← hprod] at hdvd
    obtain ⟨power, hpower, hqpower⟩ := (Prime.dvd_prod_iff hq.prime).mp hdvd
    obtain ⟨f, hf, rfl⟩ := List.mem_map.mp hpower
    have hqf : q = f.1 := by
      rw [← Nat.prime_dvd_prime_iff_eq hq (hprime f hf)]
      exact hq.dvd_of_dvd_pow hqpower
    rw [ne_eq, ← powMod_eq_one_iff hp, hqf]
    exact horder f hf

/--
Lucas' test for one number after another, each with its base and the factors of its predecessor, which are
known or stand before it.
-/
def prattChain (known : List Nat) : List (Nat × Nat × List (Nat × Nat)) → Bool
  | [] => true
  | (p, base, factors) :: chain =>
    prattCheck p base factors
      && factors.all (fun f => known.contains f.1)
      && prattChain (p :: known) chain

theorem prime_of_prattChain {known : List Nat} {chain : List (Nat × Nat × List (Nat × Nat))}
    (hknown : ∀ p ∈ known, p.Prime) (hchain : prattChain known chain = true)
    : ∀ p ∈ chain.map Prod.fst, p.Prime := by
  induction chain generalizing known with
  | nil => simp
  | cons entry chain ih =>
    obtain ⟨p, base, factors⟩ := entry
    simp only [prattChain, Bool.and_eq_true, List.all_eq_true, List.contains_iff_mem] at hchain
    obtain ⟨⟨hcheck, hfactors⟩, hrest⟩ := hchain
    have hp := prime_of_prattCheck base factors (fun f hf => hknown f.1 (hfactors f hf)) hcheck
    intro p' hp'
    rcases List.mem_cons.mp hp' with rfl | hlater
    . exact hp
    . exact ih (List.forall_mem_cons.mpr ⟨hp, hknown⟩) hrest p' hlater

end Longjing
