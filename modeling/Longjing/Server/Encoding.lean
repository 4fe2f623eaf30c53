import Longjing.Field.Basic
import Longjing.Js.BigInt

/-!
This module contains how the server reads field elements: the shape the request DTO accepts
(`field-element.ts`), `parseFieldElement` (`payload-signal.util.ts`) and the reading of the public
signals (`proof-verifier.service.ts`).
-/

namespace Longjing
namespace Server

open Js

def isHexDigit (c : Char) : Bool := (hexDigit? c).isSome

/-- `(?:0x)?[0-9a-fA-F]{1,64}` -/
def isHexElement (cs : List Char) : Bool :=
  let body := if ['0', 'x'].isPrefixOf cs then cs.drop 2 else cs
  1 ≤ body.length && body.length ≤ 64 && body.all isHexDigit

/-- `-?\d{1,78}` -/
def isDecimalElement (cs : List Char) : Bool :=
  let body := if ['-'].isPrefixOf cs then cs.drop 1 else cs
  1 ≤ body.length && body.length ≤ 78 && body.all Char.isDigit

/-- `IsFieldElement`: `FIELD_ELEMENT_PATTERN`, not empty and at most 80 characters. -/
def isFieldElement (value : String) : Bool :=
  (isHexElement value.toList || isDecimalElement value.toList)
    && value.toList.length ≠ 0 && value.toList.length ≤ 80

/-- `parseFieldElement`, `none` when it throws. -/
def parseFieldElement (value : String) : Option Int :=
  let str := trim value.toList
  if ['0', 'x'].isPrefixOf str || (str ≠ [] && str.all Char.isDigit) then
    BigInt (String.ofList str)
  else
    BigInt (String.ofList ('0' :: 'x' :: str))

def isDecimal (cs : List Char) : Bool :=
  let body := if ['-'].isPrefixOf cs then cs.drop 1 else cs
  body ≠ [] && body.all Char.isDigit

/-- `toBigInt` of `verifyAgainstChainAndCircuit`, `none` when it throws. -/
def toBigInt (value : String) : Option Int :=
  if value = "" then
    some 0
  else
    let str := trim value.toList
    if ['0', 'x'].isPrefixOf str || ['-', '0', 'x'].isPrefixOf str then
      BigInt (String.ofList str)
    else if isDecimal str then
      (BigInt (String.ofList str)).map fun num => if num < 0 then FIELD_MODULUS + num else num
    else
      BigInt (String.ofList ('0' :: 'x' :: str))

/-- A negative decimal, the one shape of the DTO that `parseFieldElement` does not read. -/
def isNegative (value : String) : Bool := ['-'].isPrefixOf value.toList

theorem isSpace_of_isHexDigit {c : Char} (h : isHexDigit c = true) : isSpace c = false := by
  have hval : (48 ≤ c.val.toNat ∧ c.val.toNat ≤ 57) ∨ (97 ≤ c.val.toNat ∧ c.val.toNat ≤ 102)
      ∨ (65 ≤ c.val.toNat ∧ c.val.toNat ≤ 70) := by
    unfold isHexDigit hexDigit? at h
    simp only [Char.le_def, UInt32.le_iff_toNat_le] at h
    split at h
    next hc => exact Or.inl hc
    next =>
      split at h
      next hc => exact Or.inr (Or.inl hc)
      next =>
        split at h
        next hc => exact Or.inr (Or.inr hc)
        next => simp at h
  unfold isSpace
  simp only [Bool.or_eq_false_iff, decide_eq_false_iff_not, List.mem_cons, List.not_mem_nil, or_false,
    Bool.and_eq_false_iff, UInt32.le_iff_toNat_le, ← UInt32.toNat_inj, UInt32.reduceToNat]
  omega

theorem isHexDigit_of_isDigit {c : Char} (h : c.isDigit = true) : isHexDigit c = true := by
  unfold isHexDigit hexDigit?
  rw [if_pos (isDigit_iff.mp h)]
  rfl

theorem hexDigit?_lt {c : Char} {d : Nat} (h : hexDigit? c = some d) : d < 16 := by
  unfold hexDigit? at h
  simp only [Char.le_def, UInt32.le_iff_toNat_le] at h
  have h0 : ('0' : Char).toNat = 48 := rfl
  have ha : ('a' : Char).toNat = 97 := rfl
  have hA : ('A' : Char).toNat = 65 := rfl
  have hv : c.toNat = c.val.toNat := rfl
  have h9 : ('9' : Char).val.toNat = 57 := rfl
  have hf : ('f' : Char).val.toNat = 102 := rfl
  have hF : ('F' : Char).val.toNat = 70 := rfl
  split at h
  next hc =>
    simp only [Option.some.injEq] at h
    omega
  next =>
    split at h
    next hc =>
      simp only [Option.some.injEq] at h
      omega
    next =>
      split at h
      next hc =>
        simp only [Option.some.injEq] at h
        omega
      next => simp at h

theorem digits_hex {cs : List Char} (hne : cs ≠ []) (h : ∀ c ∈ cs, isHexDigit c = true)
    : ∃ n, digits 16 cs = some n := by
  have hread (acc : Nat) (l : List Char) (hl : ∀ c ∈ l, isHexDigit c = true)
      : ∃ n, readDigits 16 acc l = some n := by
    induction l generalizing acc with
    | nil => exact ⟨acc, rfl⟩
    | cons c l ih =>
      obtain ⟨d, hd⟩ := Option.isSome_iff_exists.mp (hl c List.mem_cons_self)
      have hdigit : digit? 16 c = some d := by
        unfold digit?
        rw [hd, Option.filter_some, if_pos (by simpa using hexDigit?_lt hd)]
      simp only [readDigits, hdigit]
      exact ih _ (fun c hc => hl c (List.mem_cons_of_mem _ hc))
  unfold digits
  split
  next => contradiction
  next => exact hread 0 cs h

theorem BigInt_hex {cs : List Char} (hne : cs ≠ []) (h : ∀ c ∈ cs, isHexDigit c = true)
    : ∃ n : Nat, BigInt (String.ofList ('0' :: 'x' :: cs)) = some (n : Int) := by
  have htrim : trim ('0' :: 'x' :: cs) = '0' :: 'x' :: cs := by
    apply trim_eq_self
    intro c hc
    rcases List.mem_cons.mp hc with rfl | hc
    . decide
    . rcases List.mem_cons.mp hc with rfl | hc
      . decide
      . exact isSpace_of_isHexDigit (h c hc)
  obtain ⟨n, hn⟩ := digits_hex hne h
  refine ⟨n, ?_⟩
  unfold BigInt
  rw [String.toList_ofList, htrim]
  simp [hn]

/-- The three shapes of a field element. -/
inductive Shape : List Char → Prop where
  | prefixed (body : List Char) : body ≠ [] → (∀ c ∈ body, isHexDigit c = true) → Shape ('0' :: 'x' :: body)
  | bare (body : List Char) : body ≠ [] → (∀ c ∈ body, isHexDigit c = true) → Shape body
  | negative (body : List Char) : body ≠ [] → (∀ c ∈ body, c.isDigit = true) → Shape ('-' :: body)

theorem shape_of_isFieldElement {value : String} (h : isFieldElement value = true)
    : Shape value.toList := by
  unfold isFieldElement at h
  simp only [Bool.and_eq_true, Bool.or_eq_true] at h
  obtain ⟨⟨hhex | hdec, -⟩, -⟩ := h
  . unfold isHexElement at hhex
    simp only [Bool.and_eq_true, decide_eq_true_eq, List.all_eq_true] at hhex
    obtain ⟨⟨hlen, -⟩, hall⟩ := hhex
    split at hlen
    next hpre =>
      simp only [hpre, if_true] at hall
      obtain ⟨body, hbody⟩ := List.isPrefixOf_iff_prefix.mp hpre
      rw [← hbody] at hall hlen ⊢
      exact Shape.prefixed body (by rintro rfl; simp at hlen) (by simpa using hall)
    next hpre =>
      simp only [hpre] at hall
      exact Shape.bare _ (by intro hnil; simp [hnil] at hlen) hall
  . unfold isDecimalElement at hdec
    simp only [Bool.and_eq_true, decide_eq_true_eq, List.all_eq_true] at hdec
    obtain ⟨⟨hlen, -⟩, hall⟩ := hdec
    split at hlen
    next hpre =>
      simp only [hpre, if_true] at hall
      obtain ⟨body, hbody⟩ := List.isPrefixOf_iff_prefix.mp hpre
      rw [← hbody] at hall hlen ⊢
      exact Shape.negative body (by rintro rfl; simp at hlen) (by simpa using hall)
    next hpre =>
      simp only [hpre] at hall
      exact Shape.bare _ (by intro hnil; simp [hnil] at hlen)
        (fun c hc => isHexDigit_of_isDigit (hall c hc))

theorem ofList_of_toList {value : String} {cs : List Char} (h : value.toList = cs)
    : String.ofList cs = value := by
  rw [← h, String.ofList_toList]

/-- A field element that is not negative is read as one number everywhere. -/
theorem parse_of_not_negative {value : String} (h : isFieldElement value = true)
    (hneg : isNegative value = false)
    : ∃ n : Nat, parseFieldElement value = some (n : Int) ∧ toBigInt value = some (n : Int) := by
  have hempty {cs : List Char} (hcs : cs ≠ []) (heq : value.toList = cs) : value ≠ "" := by
    rintro rfl
    exact hcs heq.symm
  have hshape := shape_of_isFieldElement h
  generalize heq : value.toList = cs at hshape
  cases hshape with
  | prefixed body hne hhex =>
    obtain ⟨n, hn⟩ := BigInt_hex hne hhex
    have htrim : trim ('0' :: 'x' :: body) = '0' :: 'x' :: body := by
      apply trim_eq_self
      intro c hc
      simp only [List.mem_cons] at hc
      rcases hc with rfl | rfl | hc
      . decide
      . decide
      . exact isSpace_of_isHexDigit (hhex c hc)
    refine ⟨n, ?_, ?_⟩
    . unfold parseFieldElement
      rw [heq, htrim]
      exact hn
    . unfold toBigInt
      rw [if_neg (hempty (List.cons_ne_nil _ _) heq), heq, htrim]
      exact hn
  | bare body hne hhex =>
    have htrim : trim cs = cs := trim_eq_self fun c hc => isSpace_of_isHexDigit (hhex c hc)
    have hx : 'x' ∉ cs := fun hx => by simpa [isHexDigit, hexDigit?] using hhex 'x' hx
    have hdash : '-' ∉ cs := fun hx => by simpa [isHexDigit, hexDigit?] using hhex '-' hx
    have hpre : ['0', 'x'].isPrefixOf cs = false := by
      rw [Bool.eq_false_iff]
      intro hpre
      obtain ⟨rest, rfl⟩ := List.isPrefixOf_iff_prefix.mp hpre
      exact hx (by simp)
    have hpre' : ['-', '0', 'x'].isPrefixOf cs = false := by
      rw [Bool.eq_false_iff]
      intro hpre
      obtain ⟨rest, rfl⟩ := List.isPrefixOf_iff_prefix.mp hpre
      exact hdash (by simp)
    have hpre'' : ['-'].isPrefixOf cs = false := by
      rw [Bool.eq_false_iff]
      intro hpre
      obtain ⟨rest, rfl⟩ := List.isPrefixOf_iff_prefix.mp hpre
      exact hdash (by simp)
    -- digits are decimal for both readers, and a letter makes both put 0x in front
    by_cases hdec : cs.all Char.isDigit = true
    . have hdigit : ∀ c ∈ value.toList, c.isDigit = true := by
        rw [heq]
        simpa using hdec
      have hn := BigInt_of_isDigit (s := value) (by rw [heq]; exact hne) hdigit
      rw [← ofList_of_toList heq, String.toList_ofList] at hn
      refine ⟨Nat.ofDigitChars 10 cs 0, ?_, ?_⟩
      . unfold parseFieldElement
        rw [heq, htrim]
        simp only [hpre, hdec, hne, Bool.false_or, ne_eq, not_false_eq_true, decide_true,
          Bool.and_self, if_true]
        exact hn
      . unfold toBigInt
        rw [if_neg (hempty hne heq), heq, htrim]
        simp only [hpre, hpre', isDecimal, hpre'', hdec, hne, hn, Bool.or_self, ne_eq,
          not_false_eq_true, decide_true, Bool.and_self, if_true, Option.map_some, Bool.false_eq_true,
          if_false]
        simp
    . obtain ⟨n, hn⟩ := BigInt_hex hne hhex
      refine ⟨n, ?_, ?_⟩
      . unfold parseFieldElement
        rw [heq, htrim]
        simp only [hpre, hdec, Bool.and_false, Bool.or_self, Bool.false_eq_true, if_false]
        exact hn
      . unfold toBigInt
        rw [if_neg (hempty hne heq), heq, htrim]
        simp only [hpre, hpre', isDecimal, hpre'', hdec, Bool.and_false, Bool.or_self,
          Bool.false_eq_true, if_false]
        exact hn
  | negative body hne hdigit =>
    unfold isNegative at hneg
    rw [heq] at hneg
    simp at hneg

theorem parseFieldElement_repr (n : Nat) : parseFieldElement n.repr = some (n : Int) := by
  have hdigit : ∀ c ∈ n.repr.toList, c.isDigit = true := fun c hc => isDigit_of_mem_repr hc
  have htrim : trim n.repr.toList = n.repr.toList :=
    trim_eq_self fun c hc => not_isSpace_of_isDigit (hdigit c hc)
  unfold parseFieldElement
  rw [htrim]
  have hdecimal : (n.repr.toList ≠ [] && n.repr.toList.all Char.isDigit) = true := by
    simp only [ne_eq, toList_repr_ne_nil, not_false_eq_true, decide_true, Bool.true_and, List.all_eq_true]
    exact hdigit
  simp only [hdecimal, Bool.or_true, if_true, String.ofList_toList]
  exact BigInt_repr n

/-- A negative decimal passes the DTO and the proof verifier, and `parseFieldElement` throws. -/
theorem parse_of_negative {value : String} (h : isFieldElement value = true)
    (hneg : isNegative value = true) : parseFieldElement value = none := by
  have hshape := shape_of_isFieldElement h
  unfold isNegative at hneg
  generalize heq : value.toList = cs at *
  cases hshape with
  | prefixed body hne hhex => simp at hneg
  | bare body hne hhex =>
    obtain ⟨rest, rfl⟩ := List.isPrefixOf_iff_prefix.mp hneg
    have := hhex '-' (by simp)
    simp [isHexDigit, hexDigit?] at this
  | negative body hne hdigit =>
    have hspace : ∀ c ∈ '-' :: body, isSpace c = false := by
      intro c hc
      rcases List.mem_cons.mp hc with rfl | hc
      . decide
      . exact not_isSpace_of_isDigit (hdigit c hc)
    have htrim' : trim ('0' :: 'x' :: '-' :: body) = '0' :: 'x' :: '-' :: body := by
      apply trim_eq_self
      intro c hc
      simp only [List.mem_cons] at hc hspace
      rcases hc with rfl | rfl | hc
      . decide
      . decide
      . exact hspace c hc
    have hdash : digit? 16 '-' = none := by decide
    unfold parseFieldElement
    rw [heq, trim_eq_self hspace]
    simp [BigInt, htrim', digits, readDigits, hdash]

end Server
end Longjing
