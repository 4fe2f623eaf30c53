import Longjing.Attestation.EventLog
import Longjing.Lib.Fallible
import Longjing.Server.Encoding

/-!
This module contains `report-data.ts`: the 64 bytes of a quote that commit to the keys of the service.
-/

namespace Longjing
namespace Attestation

open Js Fallible
open Server (isHexDigit)

/-- What `verifyKeyBinding` throws. -/
inductive BindingError where
  -- "Nonce must be 32 bytes"
  | nonceLength
  -- "Refund signer coordinate must be at most 32 bytes of hex"
  | coordinate
  -- a length that four bytes do not hold
  | rangeError
  -- the quote is too short for the event log
  | quoteTooShort
  -- `BigInt` of a coordinate
  | syntaxError
deriving DecidableEq, Repr

def NONCE_LENGTH : Nat := 32

/-- "longjing-report-v1" -/
def REPORT_DATA_LABEL : Bytes :=
  [0x6c, 0x6f, 0x6e, 0x67, 0x6a, 0x69, 0x6e, 0x67, 0x2d, 0x72, 0x65, 0x70, 0x6f, 0x72, 0x74, 0x2d, 0x76, 0x31]

structure ReportDataInputs where
  mlkemPublicKey : Bytes
  identityPublicKey : Option Bytes
  refundSignerPublicKey : Option Bytes
  tlsCertificateDer : Option Bytes
deriving DecidableEq, Repr

def uint32BE (n : Nat) : Bytes :=
  [UInt8.ofNat (n / 2 ^ 24), UInt8.ofNat (n / 2 ^ 16), UInt8.ofNat (n / 2 ^ 8), UInt8.ofNat n]

def lengthPrefixed (bytes : Bytes) : Except BindingError Bytes :=
  if bytes.length < 2 ^ 32 then .ok (uint32BE bytes.length ++ bytes) else .error .rangeError

/-- A TypeScript coordinate of up to 64 hex digits, with or without `0x`, as 32 bytes. -/
def coordinate (value : String) : Except BindingError Bytes :=
  let hex := (stripHexPrefix value).toList
  if 1 ≤ hex.length ∧ hex.length ≤ 64 ∧ hex.all isHexDigit = true then
    .ok (fromHex (List.replicate (64 - hex.length) '0' ++ hex))
  else
    .error .coordinate

structure RefundSigner where
  x : String
  y : String
deriving DecidableEq, Repr

def encodeRefundSignerPublicKey (publicKey : RefundSigner) : Except BindingError Bytes := do
  let x ← coordinate publicKey.x
  let y ← coordinate publicKey.y
  return x ++ y

section Commitment

variable (sha256 : Bytes → Bytes)

/-- The hash of the certificate, empty without one. -/
def certificateHash (certificate : Option Bytes) : Bytes :=
  match certificate with
  | some der => sha256 der
  | none => []

def commitmentInput (inputs : ReportDataInputs) : Except BindingError Bytes := do
  let label ← lengthPrefixed REPORT_DATA_LABEL
  let ek ← lengthPrefixed inputs.mlkemPublicKey
  let identity ← lengthPrefixed (inputs.identityPublicKey.getD [])
  let refundSigner ← lengthPrefixed (inputs.refundSignerPublicKey.getD [])
  let certificate ← lengthPrefixed (certificateHash sha256 inputs.tlsCertificateDer)
  return label ++ (ek ++ (identity ++ (refundSigner ++ certificate)))

def buildReportData (inputs : ReportDataInputs) (nonce : Option Bytes) : Except BindingError Bytes :=
  if nonce.any (·.length ≠ NONCE_LENGTH) then
    .error .nonceLength
  else do
    let input ← commitmentInput sha256 inputs
    return sha256 input ++ nonce.getD (List.replicate NONCE_LENGTH 0)

def Collides (inputs : List Bytes) : Prop :=
  ∃ a ∈ inputs, ∃ b ∈ inputs, a ≠ b ∧ sha256 a = sha256 b

def hashedFor (inputs : ReportDataInputs) : List Bytes :=
  (commitmentInput sha256 inputs).toOption.toList ++ inputs.tlsCertificateDer.toList

end Commitment

/-- The same keys, where an empty one is none. -/
structure SameKeys (inputs inputs' : ReportDataInputs) : Prop where
  mlkemPublicKey : inputs.mlkemPublicKey = inputs'.mlkemPublicKey
  identityPublicKey : inputs.identityPublicKey.getD [] = inputs'.identityPublicKey.getD []
  refundSignerPublicKey : inputs.refundSignerPublicKey.getD [] = inputs'.refundSignerPublicKey.getD []
  tlsCertificateDer : inputs.tlsCertificateDer = inputs'.tlsCertificateDer

theorem uint32BE_injective {m n : Nat} (hm : m < 2 ^ 32) (hn : n < 2 ^ 32) (h : uint32BE m = uint32BE n)
    : m = n := by
  simp only [uint32BE, List.cons.injEq, ← UInt8.toNat_inj, UInt8.toNat_ofNat', and_true] at h
  omega

theorem lengthPrefixed_eq_ok {bytes encoded : Bytes} (h : lengthPrefixed bytes = .ok encoded)
    : bytes.length < 2 ^ 32 ∧ encoded = uint32BE bytes.length ++ bytes := by
  unfold lengthPrefixed at h
  split at h
  next hlt => exact ⟨hlt, (Except.ok.inj h).symm⟩
  next => contradiction

theorem lengthPrefixed_append {bytes bytes' encoded encoded' rest rest' : Bytes}
    (h : lengthPrefixed bytes = .ok encoded) (h' : lengthPrefixed bytes' = .ok encoded')
    (happend : encoded ++ rest = encoded' ++ rest') : bytes = bytes' ∧ rest = rest' := by
  obtain ⟨hlt, rfl⟩ := lengthPrefixed_eq_ok h
  obtain ⟨hlt', rfl⟩ := lengthPrefixed_eq_ok h'
  rw [List.append_assoc, List.append_assoc] at happend
  obtain ⟨hlength, hbytes⟩ := List.append_inj happend rfl
  exact List.append_inj hbytes (uint32BE_injective hlt hlt' hlength)

section Injective

variable {sha256 : Bytes → Bytes}

theorem commitmentInput_eq_ok {inputs : ReportDataInputs} {input : Bytes}
    (h : commitmentInput sha256 inputs = .ok input)
    : ∃ label ek identity refundSigner certificate,
        lengthPrefixed REPORT_DATA_LABEL = .ok label
          ∧ lengthPrefixed inputs.mlkemPublicKey = .ok ek
          ∧ lengthPrefixed (inputs.identityPublicKey.getD []) = .ok identity
          ∧ lengthPrefixed (inputs.refundSignerPublicKey.getD []) = .ok refundSigner
          ∧ lengthPrefixed (certificateHash sha256 inputs.tlsCertificateDer) = .ok certificate
          ∧ input = label ++ (ek ++ (identity ++ (refundSigner ++ certificate))) := by
  unfold commitmentInput at h
  simp only [bind_eq_ok, pure_eq_ok] at h
  obtain ⟨label, h1, ek, h2, identity, h3, refundSigner, h4, certificate, h5, h6⟩ := h
  exact ⟨label, ek, identity, refundSigner, certificate, h1, h2, h3, h4, h5, h6⟩

theorem buildReportData_eq_ok {inputs : ReportDataInputs} {nonce : Option Bytes} {data : Bytes}
    (h : buildReportData sha256 inputs nonce = .ok data)
    : nonce.any (·.length ≠ NONCE_LENGTH) = false
      ∧ ∃ input, commitmentInput sha256 inputs = .ok input
        ∧ data = sha256 input ++ nonce.getD (List.replicate NONCE_LENGTH 0) := by
  unfold buildReportData at h
  split at h
  next => contradiction
  next hnonce =>
    simp only [bind_eq_ok, pure_eq_ok] at h
    obtain ⟨input, hinput, hdata⟩ := h
    exact ⟨by simpa using hnonce, input, hinput, hdata⟩

theorem buildReportData_length (hlength : ∀ bytes, (sha256 bytes).length = 32) {inputs : ReportDataInputs}
    {nonce : Option Bytes} {data : Bytes} (h : buildReportData sha256 inputs nonce = .ok data)
    : data.length = 64 := by
  obtain ⟨hnonce, input, -, rfl⟩ := buildReportData_eq_ok h
  rw [List.length_append, hlength]
  cases nonce with
  | none => simp [NONCE_LENGTH]
  | some nonce =>
    have hnonce : nonce.length = 32 := not_not.mp (of_decide_eq_false hnonce)
    simp [hnonce]

theorem certificateHash_injective (hlength : ∀ bytes, (sha256 bytes).length = 32) {c c' : Option Bytes}
    (h : certificateHash sha256 c = certificateHash sha256 c')
    : c = c' ∨ ∃ der der', c = some der ∧ c' = some der' ∧ der ≠ der' ∧ sha256 der = sha256 der' := by
  cases c with
  | none =>
    cases c' with
    | none => exact Or.inl rfl
    | some der' =>
      have := congrArg List.length h
      simp [certificateHash, hlength] at this
  | some der =>
    cases c' with
    | none =>
      have := congrArg List.length h
      simp [certificateHash, hlength] at this
    | some der' =>
      by_cases hne : der = der'
      . exact Or.inl (by rw [hne])
      . exact Or.inr ⟨der, der', rfl, rfl, hne, h⟩

theorem commitmentInput_terms {inputs inputs' : ReportDataInputs} {input : Bytes}
    (h : commitmentInput sha256 inputs = .ok input) (h' : commitmentInput sha256 inputs' = .ok input)
    : inputs.mlkemPublicKey = inputs'.mlkemPublicKey
      ∧ inputs.identityPublicKey.getD [] = inputs'.identityPublicKey.getD []
      ∧ inputs.refundSignerPublicKey.getD [] = inputs'.refundSignerPublicKey.getD []
      ∧ certificateHash sha256 inputs.tlsCertificateDer = certificateHash sha256 inputs'.tlsCertificateDer := by
  obtain ⟨label, ek, identity, refundSigner, certificate, h1, h2, h3, h4, h5, rfl⟩ := commitmentInput_eq_ok h
  obtain ⟨label', ek', identity', refundSigner', certificate', h1', h2', h3', h4', h5', heq⟩ :=
    commitmentInput_eq_ok h'
  obtain ⟨-, heq⟩ := lengthPrefixed_append h1 h1' heq
  obtain ⟨hek, heq⟩ := lengthPrefixed_append h2 h2' heq
  obtain ⟨hidentity, heq⟩ := lengthPrefixed_append h3 h3' heq
  obtain ⟨hrefund, heq⟩ := lengthPrefixed_append h4 h4' heq
  rw [← List.append_nil certificate, ← List.append_nil certificate'] at heq
  obtain ⟨hcertificate, -⟩ := lengthPrefixed_append h5 h5' heq
  exact ⟨hek, hidentity, hrefund, hcertificate⟩

theorem commitmentInput_injective (hlength : ∀ bytes, (sha256 bytes).length = 32)
    {inputs inputs' : ReportDataInputs} {input : Bytes} (h : commitmentInput sha256 inputs = .ok input)
    (h' : commitmentInput sha256 inputs' = .ok input)
    : SameKeys inputs inputs' ∨ Collides sha256 (hashedFor sha256 inputs ++ hashedFor sha256 inputs') := by
  obtain ⟨hek, hidentity, hrefund, hcertificate⟩ := commitmentInput_terms h h'
  rcases certificateHash_injective hlength hcertificate with hder | ⟨der, der', hder, hder', hne, hhash⟩
  . exact Or.inl ⟨hek, hidentity, hrefund, hder⟩
  . refine Or.inr ⟨der, ?_, der', ?_, hne, hhash⟩
    . simp [hashedFor, hder]
    . simp [hashedFor, hder']

/-- Report data that is the same commits to the same keys and nonce. -/
theorem buildReportData_injective (hlength : ∀ bytes, (sha256 bytes).length = 32)
    {inputs inputs' : ReportDataInputs} {nonce nonce' : Option Bytes} {data : Bytes}
    (h : buildReportData sha256 inputs nonce = .ok data)
    (h' : buildReportData sha256 inputs' nonce' = .ok data)
    : SameKeys inputs inputs'
        ∧ nonce.getD (List.replicate NONCE_LENGTH 0) = nonce'.getD (List.replicate NONCE_LENGTH 0)
      ∨ Collides sha256 (hashedFor sha256 inputs ++ hashedFor sha256 inputs') := by
  obtain ⟨-, input, hinput, rfl⟩ := buildReportData_eq_ok h
  obtain ⟨-, input', hinput', heq⟩ := buildReportData_eq_ok h'
  obtain ⟨hhash, hnonce⟩ := List.append_inj heq (by rw [hlength, hlength])
  by_cases hne : input = input'
  . subst hne
    rcases commitmentInput_injective hlength hinput hinput' with hsame | hcollides
    . exact Or.inl ⟨hsame, hnonce⟩
    . exact Or.inr hcollides
  . refine Or.inr ⟨input, ?_, input', ?_, hne, hhash⟩
    . simp [hashedFor, hinput, Except.toOption]
    . simp [hashedFor, hinput', Except.toOption]

end Injective

section Coordinates

def bytesValue (bytes : Bytes) : Nat := bytes.foldl (fun acc byte => 256 * acc + byte.toNat) 0

theorem digit?_hex {c : Char} {d : Nat} (h : hexDigit? c = some d) : digit? 16 c = some d := by
  unfold digit?
  rw [h, Option.filter_some, if_pos (by simpa using Server.hexDigit?_lt h)]

theorem readDigits_fromHex (n acc : Nat) (cs : List Char) (hlength : cs.length = 2 * n)
    (h : ∀ c ∈ cs, isHexDigit c = true)
    : (fromHex cs).length = n
      ∧ readDigits 16 acc cs = some ((fromHex cs).foldl (fun acc byte => 256 * acc + byte.toNat) acc) := by
  induction n generalizing acc cs with
  | zero =>
    rw [Nat.mul_zero, List.length_eq_zero_iff] at hlength
    subst hlength
    exact ⟨rfl, rfl⟩
  | succ n ih =>
    match cs, hlength with
    | high :: low :: rest, hlength =>
      obtain ⟨hi, hhi⟩ := Option.isSome_iff_exists.mp (h high (by simp))
      obtain ⟨lo, hlo⟩ := Option.isSome_iff_exists.mp (h low (by simp))
      have hrest := ih (16 * (16 * acc + hi) + lo) rest (by simp at hlength; omega)
        (fun c hc => h c (by simp [hc]))
      have hilt := Server.hexDigit?_lt hhi
      have hlolt := Server.hexDigit?_lt hlo
      have hbyte : (UInt8.ofNat (16 * hi + lo)).toNat = 16 * hi + lo := by
        rw [UInt8.toNat_ofNat']
        omega
      have hacc : 256 * acc + (16 * hi + lo) = 16 * (16 * acc + hi) + lo := by omega
      refine ⟨by simp [fromHex, hhi, hlo, hrest.1], ?_⟩
      simp only [readDigits, digit?_hex hhi, digit?_hex hlo, fromHex, hhi, hlo, List.foldl_cons, hbyte, hacc]
      exact hrest.2

theorem readDigits_zeros (n : Nat) (cs : List Char)
    : readDigits 16 0 (List.replicate n '0' ++ cs) = readDigits 16 0 cs := by
  induction n with
  | zero => rfl
  | succ n ih =>
    have hzero : digit? 16 '0' = some 0 := by decide
    rw [List.replicate_succ, List.cons_append, readDigits, hzero]
    exact ih

theorem coordinate_eq_ok {value : String} {bytes : Bytes} (h : coordinate value = .ok bytes)
    : 1 ≤ (stripHexPrefix value).toList.length ∧ (stripHexPrefix value).toList.length ≤ 64
      ∧ (∀ c ∈ (stripHexPrefix value).toList, isHexDigit c = true)
      ∧ bytes.length = 32 ∧ readDigits 16 0 (stripHexPrefix value).toList = some (bytesValue bytes) := by
  unfold coordinate at h
  simp only at h
  split at h
  next hvalid =>
    obtain ⟨hmin, hmax, hall⟩ := hvalid
    rw [List.all_eq_true] at hall
    cases h
    have hpadded : ∀ c ∈ List.replicate (64 - (stripHexPrefix value).toList.length) '0'
        ++ (stripHexPrefix value).toList, isHexDigit c = true := by
      intro c hc
      rcases List.mem_append.mp hc with hc | hc
      . rw [List.eq_of_mem_replicate hc]
        decide
      . exact hall c hc
    have hlength : (List.replicate (64 - (stripHexPrefix value).toList.length) '0'
        ++ (stripHexPrefix value).toList).length = 2 * 32 := by
      rw [List.length_append, List.length_replicate]
      omega
    obtain ⟨hbytes, hvalue⟩ := readDigits_fromHex 32 0 _ hlength hpadded
    rw [readDigits_zeros] at hvalue
    exact ⟨hmin, hmax, hall, hbytes, hvalue⟩
  next => contradiction

theorem isHexDigit_of_mem_toHex {bytes : Bytes} {c : Char} (h : c ∈ toHex bytes) : isHexDigit c = true := by
  have hdigit (n : Nat) (hn : n < 16) : isHexDigit (hexChar n) = true := by
    unfold isHexDigit
    rw [hexDigit?_hexChar hn]
    rfl
  unfold toHex at h
  simp only [List.mem_flatMap, List.mem_cons, List.not_mem_nil, or_false] at h
  obtain ⟨byte, -, rfl | rfl⟩ := h
  . have := byte.toNat_lt
    exact hdigit _ (by omega)
  . exact hdigit _ (by omega)

theorem length_toHex (bytes : Bytes) : (toHex bytes).length = 2 * bytes.length := by
  induction bytes with
  | nil => rfl
  | cons byte rest ih =>
    have hcons : toHex (byte :: rest) = hexChar (byte.toNat / 16) :: hexChar (byte.toNat % 16) :: toHex rest := rfl
    rw [hcons, List.length_cons, List.length_cons, ih, List.length_cons]
    omega

theorem fromHex_toHex (bytes : Bytes) : fromHex (toHex bytes) = bytes := by
  have h := fromHex_toHex_append bytes 0
  rwa [List.replicate_zero, List.append_nil] at h

theorem stripHexPrefix_toHex (bytes : Bytes)
    : (stripHexPrefix (String.ofList (toHex bytes))).toList = toHex bytes := by
  unfold stripHexPrefix
  rw [String.toList_ofList]
  split
  next rest heq =>
    have hx : 'x' ∈ toHex bytes := by simp [heq]
    exact absurd rfl (mem_toHex hx).2.2
  next => rw [String.toList_ofList]

theorem stripHexPrefix_prefixed (cs : List Char)
    : (stripHexPrefix (String.ofList ('0' :: 'x' :: cs))).toList = cs := by
  unfold stripHexPrefix
  rw [String.toList_ofList]
  exact String.toList_ofList

def numberBytes : Nat → Nat → Bytes
  | 0, _ => []
  | length + 1, n => numberBytes length (n / 256) ++ [UInt8.ofNat n]

theorem length_numberBytes (length n : Nat) : (numberBytes length n).length = length := by
  induction length generalizing n with
  | zero => rfl
  | succ length ih => simp [numberBytes, ih]

theorem bytesValue_numberBytes (length n : Nat) (h : n < 256 ^ length)
    : bytesValue (numberBytes length n) = n := by
  induction length generalizing n with
  | zero =>
    have : n = 0 := by simpa using h
    rw [this]
    rfl
  | succ length ih =>
    have hdiv : n / 256 < 256 ^ length := by
      rw [Nat.div_lt_iff_lt_mul (by decide)]
      rwa [Nat.pow_succ] at h
    have hvalue := ih (n / 256) hdiv
    unfold bytesValue at hvalue ⊢
    rw [numberBytes, List.foldl_append, hvalue]
    simp only [List.foldl_cons, List.foldl_nil, UInt8.toNat_ofNat']
    omega

/-- `bytes32` as ethers reads it. -/
def hex32 (n : Nat) : String := String.ofList ('0' :: 'x' :: toHex (numberBytes 32 n))

theorem BigInt_hex32 {n : Nat} (h : n < 256 ^ 32) : BigInt (hex32 n) = some (n : Int) := by
  have hall (c : Char) (hc : c ∈ toHex (numberBytes 32 n)) : isHexDigit c = true := isHexDigit_of_mem_toHex hc
  have hlength : (toHex (numberBytes 32 n)).length = 2 * 32 := by
    rw [length_toHex, length_numberBytes]
  have hread := (readDigits_fromHex 32 0 _ hlength hall).2
  rw [fromHex_toHex] at hread
  have hvalue := bytesValue_numberBytes 32 n h
  unfold bytesValue at hvalue
  rw [hvalue] at hread
  have htrim : trim ('0' :: 'x' :: toHex (numberBytes 32 n)) = '0' :: 'x' :: toHex (numberBytes 32 n) := by
    apply trim_eq_self
    simp only [List.forall_mem_cons]
    exact ⟨by decide, by decide, fun c hc => Server.isSpace_of_isHexDigit (hall c hc)⟩
  have hdigits : digits 16 (toHex (numberBytes 32 n)) = some n := by
    unfold digits
    split
    next hnil =>
      rw [hnil] at hlength
      simp at hlength
    next => exact hread
  unfold BigInt hex32
  rw [String.toList_ofList, htrim]
  simp [hdigits]

theorem readDigits_lt_pow {base acc n : Nat} {cs : List Char} (hbase : base ≤ 16)
    (h : readDigits base acc cs = some n) : n < (acc + 1) * 16 ^ cs.length := by
  induction cs generalizing acc with
  | nil =>
    simp only [readDigits, Option.some.injEq] at h
    simp [h]
  | cons c cs ih =>
    simp only [readDigits] at h
    split at h
    next d hd =>
      have hlt : d < base := by
        unfold digit? at hd
        rw [Option.filter_eq_some_iff] at hd
        simpa using hd.2
      have hstep : base * acc + d + 1 ≤ (acc + 1) * 16 := by nlinarith
      calc n < (base * acc + d + 1) * 16 ^ cs.length := ih h
        _ ≤ (acc + 1) * 16 * 16 ^ cs.length := Nat.mul_le_mul_right _ hstep
        _ = (acc + 1) * 16 ^ (c :: cs).length := by rw [List.length_cons, pow_succ]; ring
    next => contradiction

theorem digits_lt_pow {base n : Nat} {cs : List Char} (hbase : base ≤ 16) (hlength : cs.length ≤ 64)
    (h : digits base cs = some n) : n < 256 ^ 32 := by
  unfold digits at h
  split at h
  next => contradiction
  next =>
    have hlt := readDigits_lt_pow hbase h
    rw [Nat.zero_add, Nat.one_mul] at hlt
    calc n < 16 ^ cs.length := hlt
      _ ≤ 16 ^ 64 := Nat.pow_le_pow_right (by decide) hlength
      _ = 256 ^ 32 := by decide

/-- A coordinate that `BigInt` reads at all fits into 32 bytes. -/
theorem BigInt_coordinate {value : String} {bytes : Bytes} {a : Int} (h : coordinate value = .ok bytes)
    (ha : BigInt value = some a) : ∃ n : Nat, a = n ∧ n < 256 ^ 32 := by
  obtain ⟨-, hmax, hall, -, -⟩ := coordinate_eq_ok h
  have hnat {base : Nat} {cs : List Char} (hbase : base ≤ 16) (hlength : cs.length ≤ 64)
      (hdigits : (digits base cs).map Int.ofNat = some a) : ∃ n : Nat, a = n ∧ n < 256 ^ 32 := by
    obtain ⟨n, hn, rfl⟩ := Option.map_eq_some_iff.mp hdigits
    exact ⟨n, rfl, digits_lt_pow hbase hlength hn⟩
  unfold stripHexPrefix at hmax hall
  split at hmax
  next hex hvalue =>
    rw [hvalue] at hall
    simp only [String.toList_ofList] at hmax hall
    have htrim : trim value.toList = '0' :: 'x' :: hex := by
      rw [hvalue]
      apply trim_eq_self
      simp only [List.forall_mem_cons]
      exact ⟨by decide, by decide, fun c hc => Server.isSpace_of_isHexDigit (hall c hc)⟩
    unfold BigInt at ha
    rw [htrim] at ha
    exact hnat (by decide) hmax ha
  -- without 0x, `BigInt` reads the digits in decimal, or in binary behind `0b`
  next hbare =>
    have hall : ∀ c ∈ value.toList, isHexDigit c = true := by
      split at hall
      next hex hvalue => exact absurd hvalue (hbare hex)
      next => exact hall
    have htrim := trim_eq_self fun c hc => Server.isSpace_of_isHexDigit (hall c hc)
    have hnot {c : Char} (hc : isHexDigit c = false) : c ∉ value.toList := by
      intro hmem
      rw [hall c hmem] at hc
      contradiction
    unfold BigInt at ha
    rw [htrim] at ha
    split at ha
    next heq => exact ⟨0, (Option.some.inj ha).symm, by decide⟩
    next heq => exact absurd (by simp [heq]) (hnot (c := 'x') rfl)
    next heq => exact absurd (by simp [heq]) (hnot (c := 'X') rfl)
    next heq => exact absurd (by simp [heq]) (hnot (c := 'o') rfl)
    next heq => exact absurd (by simp [heq]) (hnot (c := 'O') rfl)
    next cs heq => exact hnat (by decide) (by rw [heq] at hmax; simp at hmax; omega) ha
    next cs heq => exact hnat (by decide) (by rw [heq] at hmax; simp at hmax; omega) ha
    next heq => exact absurd (by simp [heq]) (hnot (c := '-') rfl)
    next heq => exact absurd (by simp [heq]) (hnot (c := '+') rfl)
    next => exact hnat (by decide) hmax ha

def coordinateValue (value : String) : Option Nat := readDigits 16 0 (stripHexPrefix value).toList

theorem numberBytes_bytesValue (bytes : Bytes) : numberBytes bytes.length (bytesValue bytes) = bytes := by
  induction bytes using List.reverseRecOn with
  | nil => rfl
  | append_singleton bytes byte ih =>
    have hbyte := byte.toNat_lt
    have hvalue : bytesValue (bytes ++ [byte]) = 256 * bytesValue bytes + byte.toNat := by
      unfold bytesValue
      rw [List.foldl_append, List.foldl_cons, List.foldl_nil]
    have hdiv : (256 * bytesValue bytes + byte.toNat) / 256 = bytesValue bytes := by omega
    have hmod : UInt8.ofNat (256 * bytesValue bytes + byte.toNat) = byte := by
      rw [← UInt8.toNat_inj, UInt8.toNat_ofNat']
      omega
    rw [List.length_append, List.length_singleton, numberBytes, hvalue, hdiv, hmod, ih]

theorem bytesValue_inj {bytes bytes' : Bytes} (hlength : bytes.length = bytes'.length)
    : bytesValue bytes = bytesValue bytes' ↔ bytes = bytes' := by
  refine ⟨fun h => ?_, fun h => by rw [h]⟩
  rw [← numberBytes_bytesValue bytes, ← numberBytes_bytesValue bytes', hlength, h]

theorem encodeRefundSignerPublicKey_eq_ok {publicKey : RefundSigner} {bytes : Bytes}
    (h : encodeRefundSignerPublicKey publicKey = .ok bytes)
    : ∃ x y, bytes = x ++ y ∧ x.length = 32 ∧ y.length = 32
        ∧ coordinateValue publicKey.x = some (bytesValue x) ∧ coordinateValue publicKey.y = some (bytesValue y) := by
  unfold encodeRefundSignerPublicKey at h
  simp only [bind_eq_ok, pure_eq_ok] at h
  obtain ⟨x, hx, y, hy, hbytes⟩ := h
  obtain ⟨-, -, -, hxlength, hxvalue⟩ := coordinate_eq_ok hx
  obtain ⟨-, -, -, hylength, hyvalue⟩ := coordinate_eq_ok hy
  exact ⟨x, y, hbytes, hxlength, hylength, hxvalue, hyvalue⟩

/-- A key is its two numbers, whatever digits they were written with. -/
theorem encodeRefundSignerPublicKey_inj {publicKey publicKey' : RefundSigner} {bytes bytes' : Bytes}
    (h : encodeRefundSignerPublicKey publicKey = .ok bytes)
    (h' : encodeRefundSignerPublicKey publicKey' = .ok bytes')
    : ∃ x y x' y', coordinateValue publicKey.x = some x ∧ coordinateValue publicKey.y = some y
        ∧ coordinateValue publicKey'.x = some x' ∧ coordinateValue publicKey'.y = some y'
        ∧ (bytes = bytes' ↔ x = x' ∧ y = y') := by
  obtain ⟨x, y, rfl, hx, hy, hxvalue, hyvalue⟩ := encodeRefundSignerPublicKey_eq_ok h
  obtain ⟨x', y', rfl, hx', hy', hxvalue', hyvalue'⟩ := encodeRefundSignerPublicKey_eq_ok h'
  refine ⟨_, _, _, _, hxvalue, hyvalue, hxvalue', hyvalue', ?_⟩
  rw [bytesValue_inj (hx.trans hx'.symm), bytesValue_inj (hy.trans hy'.symm)]
  exact ⟨fun heq => List.append_inj heq (hx.trans hx'.symm), fun ⟨hx, hy⟩ => by rw [hx, hy]⟩

end Coordinates

section Commits

/-- Two different inputs with one hash, of the commitments themselves or of the certificates within. -/
def PreimagesCollide (sha256 : Bytes → Bytes) (inputs inputs' : ReportDataInputs) : Prop :=
  (∃ input input', commitmentInput sha256 inputs = .ok input ∧ commitmentInput sha256 inputs' = .ok input'
      ∧ input ≠ input' ∧ sha256 input = sha256 input')
    ∨ ∃ der der', inputs.tlsCertificateDer = some der ∧ inputs'.tlsCertificateDer = some der'
      ∧ der ≠ der' ∧ sha256 der = sha256 der'

variable {sha256 : Bytes → Bytes}

theorem reportData_commits (hlength : ∀ bytes, (sha256 bytes).length = 32)
    : (∀ inputs inputs' nonce nonce' data,
        buildReportData sha256 inputs nonce = .ok data
          →
        buildReportData sha256 inputs' nonce' = .ok data
          →
        (SameKeys inputs inputs'
            ∧ nonce.getD (List.replicate NONCE_LENGTH 0) = nonce'.getD (List.replicate NONCE_LENGTH 0))
          ∨ PreimagesCollide sha256 inputs inputs')
      ∧ ∀ publicKey publicKey' bytes bytes',
        encodeRefundSignerPublicKey publicKey = .ok bytes
          →
        encodeRefundSignerPublicKey publicKey' = .ok bytes'
          →
        ∃ x y x' y', coordinateValue publicKey.x = some x ∧ coordinateValue publicKey.y = some y
          ∧ coordinateValue publicKey'.x = some x' ∧ coordinateValue publicKey'.y = some y'
          ∧ (bytes = bytes' ↔ x = x' ∧ y = y') := by
  refine ⟨?_, fun _ _ _ _ h h' => encodeRefundSignerPublicKey_inj h h'⟩
  intro inputs inputs' nonce nonce' data h h'
  obtain ⟨-, input, hinput, rfl⟩ := buildReportData_eq_ok h
  obtain ⟨-, input', hinput', heq⟩ := buildReportData_eq_ok h'
  obtain ⟨hhash, hnonce⟩ := List.append_inj heq (by rw [hlength, hlength])
  by_cases hne : input = input'
  . subst hne
    obtain ⟨hek, hidentity, hrefund, hcertificate⟩ := commitmentInput_terms hinput hinput'
    rcases certificateHash_injective hlength hcertificate with hder | ⟨der, der', hder, hder', hne, hhash⟩
    . exact Or.inl ⟨⟨hek, hidentity, hrefund, hder⟩, hnonce⟩
    . exact Or.inr (Or.inr ⟨der, der', hder, hder', hne, hhash⟩)
  . exact Or.inr (Or.inl ⟨input, input', hinput, hinput', hne, hhash⟩)

def recordedCertificate : Bytes := [0x30, 0x82]

def recordedInputs : ReportDataInputs where
  mlkemPublicKey := [1, 2, 3]
  identityPublicKey := none
  refundSignerPublicKey := some (numberBytes 32 3 ++ numberBytes 32 4)
  tlsCertificateDer := some recordedCertificate

def certificateDigest : Nat := 0x9df0692e6d29b2a40631cd75ea0ce46206374edcb7a7950ce3180025c7088a00

/-- The digests of the certificate and of the commitment; of other inputs only the length is right. -/
def recordedSha256 (input : Bytes) : Bytes :=
  if input = recordedCertificate then
    numberBytes 32 certificateDigest
  else if input = uint32BE 18 ++ REPORT_DATA_LABEL ++ uint32BE 3 ++ [1, 2, 3] ++ uint32BE 0 ++ uint32BE 64
      ++ numberBytes 32 3 ++ numberBytes 32 4 ++ uint32BE 32 ++ numberBytes 32 certificateDigest then
    numberBytes 32 0xc2b6d50ca2d04ad18035ebf2ac8c605f75538f95b4896691b575dd25937afaa9
  else
    numberBytes 32 0

theorem length_recordedSha256 (input : Bytes) : (recordedSha256 input).length = 32 := by
  unfold recordedSha256
  split
  . exact length_numberBytes 32 _
  . split <;> exact length_numberBytes 32 _

/-- An empty identity key counts as none, and 32 zero bytes as no nonce; one other digit makes another key. -/
theorem reportData_commits_recorded
    : (∃ data, buildReportData recordedSha256 recordedInputs none = .ok data
        ∧ buildReportData recordedSha256 { recordedInputs with identityPublicKey := some [] }
          (some (List.replicate NONCE_LENGTH 0)) = .ok data
        ∧ SameKeys recordedInputs { recordedInputs with identityPublicKey := some [] })
      ∧ ∃ publicKey publicKey' : RefundSigner, ∃ bytes bytes',
        encodeRefundSignerPublicKey publicKey = .ok bytes ∧ encodeRefundSignerPublicKey publicKey' = .ok bytes'
          ∧ coordinateValue publicKey.x = coordinateValue publicKey'.x ∧ bytes ≠ bytes' := by
  obtain ⟨hsame, hkeys⟩ := reportData_commits length_recordedSha256
  constructor
  . have hdata : buildReportData recordedSha256 recordedInputs none
        = .ok (numberBytes 32 0xc2b6d50ca2d04ad18035ebf2ac8c605f75538f95b4896691b575dd25937afaa9
          ++ List.replicate 32 0) := by decide +kernel
    have hempty : buildReportData recordedSha256 { recordedInputs with identityPublicKey := some [] }
        (some (List.replicate NONCE_LENGTH 0)) = buildReportData recordedSha256 recordedInputs none := rfl
    refine ⟨_, hdata, hempty.trans hdata, ?_⟩
    rcases hsame _ _ _ _ _ hdata (hempty.trans hdata) with ⟨hsame, -⟩ | hcollide
    . exact hsame
    . -- the hashed inputs are the same ones
      rcases hcollide with ⟨input, input', hinput, hinput', hne, -⟩ | ⟨der, der', hder, hder', hne, -⟩
      . exact absurd (Except.ok.inj (hinput.symm.trans hinput')) hne
      . exact absurd (Option.some.inj (hder.symm.trans hder')) hne
  . refine ⟨⟨"0x03", "0x04"⟩, ⟨"3", "5"⟩, numberBytes 32 3 ++ numberBytes 32 4,
      numberBytes 32 3 ++ numberBytes 32 5, by decide +kernel, by decide +kernel, by decide +kernel, ?_⟩
    obtain ⟨x, y, x', y', hx, hy, hx', hy', hiff⟩ := hkeys ⟨"0x03", "0x04"⟩ ⟨"3", "5"⟩
      (numberBytes 32 3 ++ numberBytes 32 4) (numberBytes 32 3 ++ numberBytes 32 5) (by decide +kernel)
      (by decide +kernel)
    have hvalues : coordinateValue "0x04" = some 4 ∧ coordinateValue "5" = some 5 := by decide +kernel
    rw [hvalues.1] at hy
    rw [hvalues.2] at hy'
    cases hy
    cases hy'
    exact fun heq => absurd (hiff.mp heq).2 (by decide)

end Commits

end Attestation
end Longjing
