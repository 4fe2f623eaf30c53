import Longjing.Server.Encoding

/-!
The three readers of a request field: `parseFieldElement`, the verifier's `toBigInt` and the `BigInt` of
`BlockchainService.isKnownRoot`. They agree on 0x hex and on digits, and nowhere else.
-/

namespace Longjing
namespace Server

open Js

/-- `/^(?:(?:0x)?[0-9a-fA-F]{1,64}|-?\d{1,78})$/` -/
def FIELD_ELEMENT_PATTERN (value : String) : Bool :=
  isHexElement value.toList || isDecimalElement value.toList

/-- All three readers succeed and denote one field element. -/
def OneValue (value : String) : Prop :=
  ∃ stored verified asked, parseFieldElement value = some stored ∧ toBigInt value = some verified
    ∧ BigInt value = some asked ∧ (stored : F) = verified ∧ (verified : F) = asked

/-- 0x hex, or digits only. -/
def isPlain (value : String) : Bool :=
  ['0', 'x'].isPrefixOf value.toList || value.toList.all Char.isDigit

theorem isFieldElement_of_pattern {value : String} (h : FIELD_ELEMENT_PATTERN value = true)
    : isFieldElement value = true := by
  unfold isFieldElement
  unfold FIELD_ELEMENT_PATTERN at h
  rw [h, Bool.true_and, Bool.and_eq_true, decide_eq_true_eq, decide_eq_true_eq]
  have hbody (n : Nat) (c : Bool) (cs : List Char) : (if c then cs.drop n else cs).length ≤ cs.length
      ∧ cs.length ≤ (if c then cs.drop n else cs).length + n := by
    cases c <;> simp
    omega
  rw [Bool.or_eq_true] at h
  rcases h with h | h
  . unfold isHexElement at h
    simp only [Bool.and_eq_true, decide_eq_true_eq] at h
    have := hbody 2 (['0', 'x'].isPrefixOf value.toList) value.toList
    omega
  . unfold isDecimalElement at h
    simp only [Bool.and_eq_true, decide_eq_true_eq] at h
    have := hbody 1 (['-'].isPrefixOf value.toList) value.toList
    omega

theorem readers_of_plain {value : String} (h : isFieldElement value = true) (hplain : isPlain value = true)
    : ∃ n : Nat, parseFieldElement value = some (n : Int) ∧ toBigInt value = some (n : Int)
        ∧ BigInt value = some (n : Int) := by
  have hneg : isNegative value = false := by
    unfold isPlain at hplain
    unfold isNegative
    generalize value.toList = cs at hplain
    cases cs with
    | nil => rfl
    | cons c cs =>
      rw [Bool.eq_false_iff]
      intro hdash
      have hc : '-' = c := by simpa using hdash
      rw [← hc] at hplain
      simp at hplain
  obtain ⟨n, hparse, hbig⟩ := parse_of_not_negative h hneg
  refine ⟨n, hparse, hbig, ?_⟩
  have hspace : ∀ c ∈ value.toList, isSpace c = false := by
    have hshape := shape_of_isFieldElement h
    generalize value.toList = cs at hshape
    intro c hc
    cases hshape with
    | prefixed body _ hhex =>
      simp only [List.mem_cons] at hc
      rcases hc with rfl | rfl | hc
      . decide
      . decide
      . exact isSpace_of_isHexDigit (hhex c hc)
    | bare body _ hhex => exact isSpace_of_isHexDigit (hhex c hc)
    | negative body _ hdigit =>
      rcases List.mem_cons.mp hc with rfl | hc
      . decide
      . exact not_isSpace_of_isDigit (hdigit c hc)
  have hne : value.toList ≠ [] := by
    intro hnil
    simp [isFieldElement, hnil] at h
  unfold parseFieldElement at hparse
  simp only [trim_eq_self hspace, String.ofList_toList] at hparse
  unfold isPlain at hplain
  rw [if_pos (by simpa [hne] using hplain)] at hparse
  exact hparse

section Decimal

variable {n : Nat}

theorem pattern_repr (h : n < 10 ^ 78) : FIELD_ELEMENT_PATTERN n.repr = true := by
  unfold FIELD_ELEMENT_PATTERN isDecimalElement
  have hdigit : ∀ c ∈ n.repr.toList, c.isDigit = true := fun _ => isDigit_of_mem_repr
  have hdash : ['-'].isPrefixOf n.repr.toList = false := by
    rw [Bool.eq_false_iff]
    intro hpre
    obtain ⟨rest, hrest⟩ := List.isPrefixOf_iff_prefix.mp hpre
    have := hdigit '-' (by simp [← hrest])
    revert this
    decide
  have hpos : 1 ≤ n.repr.toList.length := List.length_pos_iff.mpr (toList_repr_ne_nil n)
  have hle : n.repr.toList.length ≤ 78 := length_repr_le (by decide) h
  simp only [hdash, Bool.false_eq_true, if_false, hpos, hle, decide_true, Bool.true_and]
  rw [Bool.or_eq_true, List.all_eq_true]
  exact Or.inr hdigit

theorem isFieldElement_repr (h : n < 10 ^ 78) : isFieldElement n.repr = true :=
  isFieldElement_of_pattern (pattern_repr h)

theorem readers_repr (h : n < 10 ^ 78)
    : parseFieldElement n.repr = some (n : Int) ∧ toBigInt n.repr = some (n : Int) := by
  have hplain : isPlain n.repr = true := by
    unfold isPlain
    rw [Bool.or_eq_true, List.all_eq_true]
    exact Or.inr fun _ => isDigit_of_mem_repr
  obtain ⟨m, hparse, hbig, hread⟩ := readers_of_plain (isFieldElement_repr h) hplain
  rw [BigInt_repr, Option.some.injEq] at hread
  rw [hparse, hbig, hread]
  exact ⟨rfl, rfl⟩

theorem val_lt_decimal (a : F) : a.val < 10 ^ 78 :=
  Nat.lt_trans a.val_lt (by decide +kernel)

end Decimal

/-- The digits of a binary literal are worth more as hex. -/
theorem readDigits_lt {cs : List Char} {acc acc' m n : Nat} (hacc : acc < acc')
    (hm : readDigits 2 acc cs = some m) (hn : readDigits 16 acc' cs = some n) : m < n := by
  induction cs generalizing acc acc' with
  | nil =>
    simp only [readDigits, Option.some.injEq] at hm hn
    omega
  | cons c cs ih =>
    unfold readDigits at hm hn
    cases hd : hexDigit? c with
    | none => simp [digit?, hd] at hm
    | some d =>
      have hbin : d < 2 := by
        by_contra hge
        simp [digit?, hd, Option.filter, hge] at hm
      simp only [digit?, hd, Option.filter_some, hbin, decide_true, if_true] at hm
      simp only [digit?, hd, Option.filter_some, show d < 16 by omega, decide_true, if_true] at hn
      exact ih (by omega) hm hn

theorem readDigits_hex_lt {cs : List Char} {acc n : Nat} (hn : readDigits 16 acc cs = some n)
    : n < (acc + 1) * 16 ^ cs.length := by
  induction cs generalizing acc with
  | nil =>
    simp only [readDigits, Option.some.injEq] at hn
    simp [hn]
  | cons c cs ih =>
    unfold readDigits at hn
    cases hd : hexDigit? c with
    | none => simp [digit?, hd] at hn
    | some d =>
      have hlt := hexDigit?_lt hd
      simp only [digit?, hd, Option.filter_some, hlt, decide_true, if_true] at hn
      calc n < (16 * acc + d + 1) * 16 ^ cs.length := ih hn
        _ ≤ (acc + 1) * 16 * 16 ^ cs.length := Nat.mul_le_mul_right _ (by omega)
        _ = (acc + 1) * 16 ^ (c :: cs).length := by rw [List.length_cons, pow_succ, mul_assoc, mul_comm 16]

theorem readDigits_eq_none {cs : List Char} {acc : Nat} (h : cs.all Char.isDigit = false)
    : readDigits 10 acc cs = none := by
  induction cs generalizing acc with
  | nil => simp at h
  | cons c cs ih =>
    unfold readDigits
    cases hd : digit? 10 c with
    | none => rfl
    | some d =>
      have hc : c.isDigit = true := by
        rw [isDigit_iff]
        by_contra hc
        -- a letter is worth ten or more
        unfold digit? hexDigit? at hd
        rw [if_neg hc, Option.filter_eq_some_iff] at hd
        obtain ⟨hletter, hlt⟩ := hd
        rw [decide_eq_true_eq] at hlt
        split at hletter
        . simp only [Option.some.injEq] at hletter
          omega
        . split at hletter
          . simp only [Option.some.injEq] at hletter
            omega
          . contradiction
      rw [List.all_cons, hc, Bool.true_and] at h
      exact ih h

/-- Bare hex with a letter in it: `BigInt` throws, or reads the digits after `0b` in binary. -/
theorem BigInt_of_letter {value : String} {asked : Int} (hhex : ∀ c ∈ value.toList, isHexDigit c = true)
    (hletter : value.toList.all Char.isDigit = false) (h : BigInt value = some asked)
    : ∃ b rest m, value.toList = '0' :: b :: rest ∧ (b = 'b' ∨ b = 'B') ∧ digits 2 rest = some m
        ∧ asked = (m : Int) := by
  have hnot {c : Char} (hc : isHexDigit c = false) : c ∉ value.toList := by
    intro hmem
    rw [hhex c hmem] at hc
    contradiction
  unfold BigInt at h
  rw [trim_eq_self fun c hc => isSpace_of_isHexDigit (hhex c hc)] at h
  split at h
  next heq => simp [heq] at hletter
  next heq => exact absurd (by simp [heq]) (hnot (c := 'x') (by decide))
  next heq => exact absurd (by simp [heq]) (hnot (c := 'X') (by decide))
  next heq => exact absurd (by simp [heq]) (hnot (c := 'o') (by decide))
  next heq => exact absurd (by simp [heq]) (hnot (c := 'O') (by decide))
  next rest heq =>
    obtain ⟨m, hm, rfl⟩ := Option.map_eq_some_iff.mp h
    exact ⟨'b', rest, m, heq, Or.inl rfl, hm, rfl⟩
  next rest heq =>
    obtain ⟨m, hm, rfl⟩ := Option.map_eq_some_iff.mp h
    exact ⟨'B', rest, m, heq, Or.inr rfl, hm, rfl⟩
  next heq => exact absurd (by simp [heq]) (hnot (c := '-') (by decide))
  next heq => exact absurd (by simp [heq]) (hnot (c := '+') (by decide))
  next =>
    obtain ⟨m, hm, -⟩ := Option.map_eq_some_iff.mp h
    unfold digits at hm
    split at hm
    . contradiction
    . rw [readDigits_eq_none hletter] at hm
      contradiction

theorem parse_of_letter {value : String} (hhex : ∀ c ∈ value.toList, isHexDigit c = true)
    (hletter : value.toList.all Char.isDigit = false)
    : parseFieldElement value = BigInt (String.ofList ('0' :: 'x' :: value.toList)) := by
  have hpre : ['0', 'x'].isPrefixOf value.toList = false := by
    rw [Bool.eq_false_iff]
    intro hpre
    obtain ⟨rest, hrest⟩ := List.isPrefixOf_iff_prefix.mp hpre
    have := hhex 'x' (by simp [← hrest])
    revert this
    decide
  unfold parseFieldElement
  rw [trim_eq_self fun c hc => isSpace_of_isHexDigit (hhex c hc)]
  simp only [hpre, hletter, Bool.and_false, Bool.or_self, Bool.false_eq_true, if_false]

theorem not_oneValue_of_letter {value : String} (hhex : ∀ c ∈ value.toList, isHexDigit c = true)
    (hlength : value.toList.length ≤ 64) (hletter : value.toList.all Char.isDigit = false)
    : ¬ OneValue value := by
  rintro ⟨stored, verified, asked, hstored, -, hasked, heq, heq'⟩
  obtain ⟨b, rest, m, hvalue, hb, hm, rfl⟩ := BigInt_of_letter hhex hletter hasked
  rw [parse_of_letter hhex hletter, hvalue] at hstored
  have hspace : ∀ c ∈ '0' :: 'x' :: '0' :: b :: rest, isSpace c = false := by
    intro c hc
    rw [← hvalue] at hc
    simp only [List.mem_cons] at hc
    rcases hc with rfl | rfl | hc
    . decide
    . decide
    . exact isSpace_of_isHexDigit (hhex c hc)
  unfold BigInt at hstored
  rw [String.toList_ofList, trim_eq_self hspace] at hstored
  obtain ⟨n, hn, rfl⟩ := Option.map_eq_some_iff.mp hstored
  -- the digits after `0b` in base 16, after an eleven, and in base 2
  have hn : readDigits 16 11 rest = some n := by
    rcases hb with rfl | rfl <;> exact hn
  have hm : readDigits 2 0 rest = some m := by
    unfold digits at hm
    split at hm
    . contradiction
    . exact hm
  have hlt := readDigits_lt (by decide) hm hn
  have hbound : n < FIELD_MODULUS := by
    rw [hvalue, List.length_cons, List.length_cons] at hlength
    calc n < 12 * 16 ^ rest.length := readDigits_hex_lt hn
      _ ≤ 12 * 16 ^ 62 := Nat.mul_le_mul_left _ (Nat.pow_le_pow_right (by decide) (by omega))
      _ < FIELD_MODULUS := by decide
  have hcast := heq.trans heq'
  rw [Int.ofNat_eq_natCast, Int.cast_natCast, Int.cast_natCast] at hcast
  have := F.cast_inj hbound (Nat.lt_trans hlt hbound) hcast
  omega

/-- One value exactly for 0x hex and for strings of digits. -/
theorem oneValue_iff {value : String} (h : FIELD_ELEMENT_PATTERN value = true)
    : OneValue value ↔ isPlain value = true := by
  have hfield := isFieldElement_of_pattern h
  constructor
  . intro hone
    by_contra hplain
    unfold isPlain at hplain
    rw [Bool.or_eq_true, not_or, Bool.not_eq_true, Bool.not_eq_true] at hplain
    obtain ⟨hpre, hletter⟩ := hplain
    unfold FIELD_ELEMENT_PATTERN at h
    rw [Bool.or_eq_true] at h
    rcases h with hhex | hdec
    . simp only [isHexElement, hpre, Bool.false_eq_true, if_false, Bool.and_eq_true, decide_eq_true_eq,
        List.all_eq_true] at hhex
      exact not_oneValue_of_letter hhex.2 hhex.1.2 hletter hone
    . cases hneg : isNegative value with
      | true =>
        obtain ⟨_, _, _, hstored, -⟩ := hone
        rw [parse_of_negative hfield hneg] at hstored
        contradiction
      | false =>
        unfold isNegative at hneg
        simp [isDecimalElement, hneg] at hdec
        simp at hletter
        obtain ⟨c, hc, hnot⟩ := hletter
        rw [hdec.2 c hc] at hnot
        contradiction
  . intro hplain
    obtain ⟨n, hparse, hbig, hasked⟩ := readers_of_plain hfield hplain
    exact ⟨n, n, n, hparse, hbig, hasked, rfl, rfl⟩

theorem oneValue_seven : FIELD_ELEMENT_PATTERN "0x07" = true ∧ OneValue "0x07" :=
  ⟨by decide +kernel, (oneValue_iff (by decide +kernel)).mpr (by decide +kernel)⟩

/-- Bare hex is stored and verified as 0xb1 and asked about as 1; a negative is not read at all. -/
theorem readers_differ
    : (FIELD_ELEMENT_PATTERN "0b1" = true ∧ parseFieldElement "0b1" = some 177
        ∧ toBigInt "0b1" = some 177 ∧ BigInt "0b1" = some 1 ∧ ¬ OneValue "0b1")
      ∧ FIELD_ELEMENT_PATTERN "-5" = true ∧ toBigInt "-5" = some (FIELD_MODULUS - 5)
        ∧ parseFieldElement "-5" = none ∧ ¬ OneValue "-5" := by
  have hbare : parseFieldElement "0b1" = some 177 ∧ toBigInt "0b1" = some 177 ∧ BigInt "0b1" = some 1 := by
    decide +kernel
  have hnegative : toBigInt "-5" = some (FIELD_MODULUS - 5) ∧ parseFieldElement "-5" = none := by
    decide +kernel
  refine ⟨⟨by decide +kernel, hbare.1, hbare.2.1, hbare.2.2, ?_⟩, by decide +kernel, hnegative.1,
    hnegative.2, ?_⟩
  . rintro ⟨stored, verified, asked, -, hverified, hasked, -, heq⟩
    rw [hbare.2.1, Option.some.injEq] at hverified
    rw [hbare.2.2, Option.some.injEq] at hasked
    subst hverified hasked
    revert heq
    decide +kernel
  . rintro ⟨stored, verified, asked, hstored, -⟩
    rw [hnegative.2] at hstored
    contradiction

end Server
end Longjing
