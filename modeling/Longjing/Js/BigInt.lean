import Mathlib.Algebra.Group.Nat.Defs
import Mathlib.Data.List.Basic
import Mathlib.Tactic.Common

/-!
This module contains what the TypeScript sources use of JavaScript's `BigInt`: reading a string and
writing a number in decimal.
-/

namespace Longjing
namespace Js

/-- The white space and line terminators that `trim` and `BigInt` drop. -/
def isSpace (c : Char) : Bool :=
  c.val ∈ [0x09, 0x0a, 0x0b, 0x0c, 0x0d, 0x20, 0xa0, 0x1680, 0x2028, 0x2029, 0x202f, 0x205f, 0x3000, 0xfeff]
    || 0x2000 ≤ c.val && c.val ≤ 0x200a

def trim (cs : List Char) : List Char :=
  ((cs.dropWhile isSpace).reverse.dropWhile isSpace).reverse

def hexDigit? (c : Char) : Option Nat :=
  if '0' ≤ c ∧ c ≤ '9' then some (c.toNat - '0'.toNat)
  else if 'a' ≤ c ∧ c ≤ 'f' then some (c.toNat - 'a'.toNat + 10)
  else if 'A' ≤ c ∧ c ≤ 'F' then some (c.toNat - 'A'.toNat + 10)
  else none

def digit? (base : Nat) (c : Char) : Option Nat :=
  (hexDigit? c).filter (· < base)

def readDigits (base : Nat) (acc : Nat) : List Char → Option Nat
  | [] => some acc
  | c :: cs =>
    match digit? base c with
    | some d => readDigits base (base * acc + d) cs
    | none => none

def digits (base : Nat) : List Char → Option Nat
  | [] => none
  | cs => readDigits base 0 cs

/-- `BigInt(string)`, `none` when it throws. -/
def BigInt (s : String) : Option Int :=
  match trim s.toList with
  | [] => some 0
  | '0' :: 'x' :: cs => (digits 16 cs).map Int.ofNat
  | '0' :: 'X' :: cs => (digits 16 cs).map Int.ofNat
  | '0' :: 'o' :: cs => (digits 8 cs).map Int.ofNat
  | '0' :: 'O' :: cs => (digits 8 cs).map Int.ofNat
  | '0' :: 'b' :: cs => (digits 2 cs).map Int.ofNat
  | '0' :: 'B' :: cs => (digits 2 cs).map Int.ofNat
  | '-' :: cs => (digits 10 cs).map (fun n => -(n : Int))
  | '+' :: cs => (digits 10 cs).map Int.ofNat
  | cs => (digits 10 cs).map Int.ofNat

theorem trim_eq_self {cs : List Char} (h : ∀ c ∈ cs, isSpace c = false) : trim cs = cs := by
  have hdrop (l : List Char) (hl : ∀ c ∈ l, isSpace c = false) : l.dropWhile isSpace = l := by
    cases l with
    | nil => rfl
    | cons c l => simp [hl c List.mem_cons_self]
  unfold trim
  rw [hdrop cs h, hdrop cs.reverse (by simpa using h), List.reverse_reverse]

theorem isDigit_iff {c : Char} : c.isDigit = true ↔ '0' ≤ c ∧ c ≤ '9' := by
  simp [Char.isDigit, Char.le_def]

theorem not_isSpace_of_isDigit {c : Char} (h : c.isDigit = true) : isSpace c = false := by
  have hval : 48 ≤ c.val.toNat ∧ c.val.toNat ≤ 57 := by
    simpa [Char.isDigit, UInt32.le_iff_toNat_le] using h
  unfold isSpace
  simp only [Bool.or_eq_false_iff, decide_eq_false_iff_not, List.mem_cons, List.not_mem_nil, or_false,
    Bool.and_eq_false_iff, UInt32.le_iff_toNat_le, ← UInt32.toNat_inj, UInt32.reduceToNat]
  omega

theorem digit?_ten {c : Char} (h : c.isDigit = true) : digit? 10 c = some (c.toNat - '0'.toNat) := by
  have hval : 48 ≤ c.toNat ∧ c.toNat ≤ 57 := by
    simpa [Char.isDigit, UInt32.le_iff_toNat_le] using h
  unfold digit? hexDigit?
  rw [if_pos (isDigit_iff.mp h), Option.filter_some]
  simp
  omega

theorem readDigits_ten {cs : List Char} (acc : Nat) (h : ∀ c ∈ cs, c.isDigit = true)
    : readDigits 10 acc cs = some (Nat.ofDigitChars 10 cs acc) := by
  induction cs generalizing acc with
  | nil => rfl
  | cons c cs ih =>
    simp only [readDigits, digit?_ten (h c List.mem_cons_self), Nat.ofDigitChars_cons]
    exact ih _ (fun c hc => h c (List.mem_cons_of_mem _ hc))

theorem isDigit_of_mem_repr {n : Nat} {c : Char} (hc : c ∈ n.repr.toList) : c.isDigit = true := by
  rw [Nat.toList_repr] at hc
  exact Nat.isDigit_of_mem_toDigits (by decide) (by decide) hc

theorem length_repr_le {n k : Nat} (hk : 0 < k) (h : n < 10 ^ k) : n.repr.toList.length ≤ k := by
  rw [Nat.toList_repr]
  exact (Nat.length_toDigits_le_iff (by decide) hk).mpr h

theorem toList_repr_ne_nil (n : Nat) : n.repr.toList ≠ [] := by
  rw [Nat.toList_repr]
  exact Nat.toDigits_ne_nil

theorem digits_ten {cs : List Char} (hne : cs ≠ []) (h : ∀ c ∈ cs, c.isDigit = true)
    : digits 10 cs = some (Nat.ofDigitChars 10 cs 0) := by
  unfold digits
  split
  next => contradiction
  next => exact readDigits_ten 0 h

theorem BigInt_of_isDigit {s : String} (hne : s.toList ≠ []) (h : ∀ c ∈ s.toList, c.isDigit = true)
    : BigInt s = some (Int.ofNat (Nat.ofDigitChars 10 s.toList 0)) := by
  have htrim := trim_eq_self fun c hc => not_isSpace_of_isDigit (h c hc)
  have hnot {c : Char} (hc : c.isDigit = false) : c ∉ s.toList := by
    intro hmem
    rw [h c hmem] at hc
    contradiction
  unfold BigInt
  rw [htrim]
  split
  next heq => contradiction
  next heq => exact absurd (by simp [heq]) (hnot (c := 'x') rfl)
  next heq => exact absurd (by simp [heq]) (hnot (c := 'X') rfl)
  next heq => exact absurd (by simp [heq]) (hnot (c := 'o') rfl)
  next heq => exact absurd (by simp [heq]) (hnot (c := 'O') rfl)
  next heq => exact absurd (by simp [heq]) (hnot (c := 'b') rfl)
  next heq => exact absurd (by simp [heq]) (hnot (c := 'B') rfl)
  next heq => exact absurd (by simp [heq]) (hnot (c := '-') rfl)
  next heq => exact absurd (by simp [heq]) (hnot (c := '+') rfl)
  next => simp [digits_ten hne h]

theorem BigInt_neg {cs : List Char} (hne : cs ≠ []) (h : ∀ c ∈ cs, c.isDigit = true)
    : BigInt (String.ofList ('-' :: cs)) = some (-Int.ofNat (Nat.ofDigitChars 10 cs 0)) := by
  have htrim : trim ('-' :: cs) = '-' :: cs := by
    apply trim_eq_self
    intro c hc
    rcases List.mem_cons.mp hc with rfl | hc
    . decide
    . exact not_isSpace_of_isDigit (h c hc)
  unfold BigInt
  rw [String.toList_ofList, htrim]
  simp [digits_ten hne h]

theorem BigInt_repr (n : Nat) : BigInt n.repr = some (n : Int) := by
  rw [BigInt_of_isDigit (toList_repr_ne_nil n) fun _ => isDigit_of_mem_repr, Nat.toList_repr,
    Nat.ofDigitChars_ten_toDigits]
  rfl

/-- `BigInt(n.toString())` is `n`. -/
@[simp]
theorem BigInt_intRepr (n : Int) : BigInt n.repr = some n := by
  rw [Int.repr_eq_if]
  split
  next hpos =>
    rw [BigInt_repr, Option.some.injEq]
    omega
  next hneg =>
    have hrepr : "-" ++ (-n).toNat.repr = String.ofList ('-' :: (-n).toNat.repr.toList) := by
      rw [← String.toList_inj]
      simp
    rw [hrepr, BigInt_neg (toList_repr_ne_nil _) fun _ => isDigit_of_mem_repr,
      Nat.toList_repr, Nat.ofDigitChars_ten_toDigits, Option.some.injEq, Int.ofNat_eq_natCast]
    omega

theorem toString_injective {m n : Int} (h : toString m = toString n) : m = n := by
  have hread := congrArg BigInt h
  rwa [Int.toString_eq_repr, Int.toString_eq_repr, BigInt_intRepr, BigInt_intRepr,
    Option.some.injEq] at hread

theorem repr_injective {m n : Nat} (h : m.repr = n.repr) : m = n := by
  have hread := congrArg BigInt h
  rwa [BigInt_repr, BigInt_repr, Option.some.injEq, Int.natCast_inj] at hread

end Js
end Longjing
