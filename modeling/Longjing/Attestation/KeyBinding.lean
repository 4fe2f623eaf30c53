import Longjing.Attestation.ReportData

/-!
This module contains `key-binding.ts`: whether an attestation commits to the keys it comes with.
-/

namespace Longjing
namespace Attestation

open Js Fallible
open Server (isHexDigit)

structure KeyManifest where
  appId : String
  mlkemPublicKeyHash : String
  refundSignerX : String
  refundSignerY : String
  tlsCertificateHash : String
  txSignerAddress : String
  epoch : Nat
deriving DecidableEq, Repr

structure SignedKeyManifest where
  manifest : KeyManifest
  signature : String
deriving DecidableEq, Repr

def isHexBytes (n : Nat) (value : String) : Bool :=
  match value.toList with
  | '0' :: 'x' :: hex => hex.length = 2 * n && hex.all isHexDigit
  | _ => false

/-- The values fit the types of `KEY_MANIFEST_TYPES`. -/
def KeyManifest.isTyped (m : KeyManifest) : Bool :=
  isHexBytes 20 m.appId && isHexBytes 32 m.mlkemPublicKeyHash && isHexBytes 32 m.refundSignerX
    && isHexBytes 32 m.refundSignerY && isHexBytes 32 m.tlsCertificateHash && isHexBytes 20 m.txSignerAddress
    && m.epoch < 2 ^ 64

/-- What the verification uses of Node and of ethers; `none` is a throw. -/
structure Crypto extends Runtime where
  sha256 : Bytes → Bytes
  sha256_length : ∀ input, (sha256 input).length = 32
  -- `Buffer.from(value, 'base64')`
  fromBase64 : String → Bytes
  -- every byte string has an encoding
  fromBase64_surjective : ∀ bytes, ∃ value, fromBase64 value = bytes
  verifyTypedData : KeyManifest → String → Option String
  getAddress : String → Option String
  computeAddress : Bytes → Option String
  -- a key signs what the types allow
  exists_signature : ∀ m : KeyManifest, m.isTyped = true → ∃ identity signature signer address,
    identity ≠ [] ∧ identity.length < 2 ^ 32 ∧ verifyTypedData m signature = some signer
      ∧ getAddress signer = some address ∧ computeAddress identity = some address

/-- `null` is `none`. -/
structure BoundKeys where
  mlkemPublicKey : String
  identityPublicKey : Option String
  refundSignerPublicKey : Option RefundSigner
  tlsCertificate : Option String
deriving DecidableEq, Repr

structure KeyBindingEvidence where
  platform : String
  -- base64
  quote : String
  -- hex
  reportData : String
  keys : BoundKeys
  -- what `JSON.parse` makes of the log, if there is one
  eventLog : Option (Option Json)

structure KeyBindingOptions where
  nonce : Option Bytes
  servedCertificate : Option Bytes
  keyManifest : Option SignedKeyManifest

inductive BindingFailure where
  -- "reportData does not commit to the returned keys and nonce"
  | reportData
  -- "The attestation binds no TLS certificate: TLS terminates outside the enclave"
  | noCertificate
  -- "The TLS session certificate is not the one bound by the attestation"
  | otherCertificate
  -- "The quote report_data does not match"
  | quote
  -- "TDX quote too short: ", the length and " bytes"
  | shortQuote (length : Nat)
  | eventLog (failure : Failure)
  -- "The key manifest commits to a different ML-KEM key"
  | manifestMlkem
  -- "The key manifest commits to a different refund signer"
  | manifestRefundSigner
  -- "The key manifest commits to a different TLS certificate"
  | manifestCertificate
  -- "The attestation binds no identity key"
  | noIdentity
  -- "The key manifest is not signed by the identity key"
  | otherIdentity
  -- "The key manifest signature is invalid"
  | invalidSignature

def TDX_REPORT_DATA_OFFSET : Nat := 48 + 520
def TDX_REPORT_DATA_LENGTH : Nat := 64

/-- `none` when the quote is too short. -/
def tdxQuoteReportData (quote : Bytes) : Option Bytes :=
  if quote.length < TDX_REPORT_DATA_OFFSET + TDX_REPORT_DATA_LENGTH then
    none
  else
    some ((quote.drop TDX_REPORT_DATA_OFFSET).take TDX_REPORT_DATA_LENGTH)

def isTdx (platform : String) : Bool := platform = "phala" || platform = "intel-tdx"

variable (rt : Crypto)

/-- The bound keys as `verifyKeyBinding` decodes them; an empty string counts as none. -/
def decodeIdentity (keys : BoundKeys) : Option Bytes :=
  (keys.identityPublicKey.filter (· ≠ "")).map fun value => fromHex (stripHexPrefix value).toList

def decodeCertificate (keys : BoundKeys) : Option Bytes :=
  (keys.tlsCertificate.filter (· ≠ "")).map rt.fromBase64

def encodeRefundSigner (keys : BoundKeys) : Except BindingError (Option Bytes) :=
  match keys.refundSignerPublicKey with
  | some refundSigner => do
    let bytes ← encodeRefundSignerPublicKey refundSigner
    return some bytes
  | none => .ok none

def decodeKeys (keys : BoundKeys) : Except BindingError ReportDataInputs := do
  let refundSigner ← encodeRefundSigner keys
  return ⟨rt.fromBase64 keys.mlkemPublicKey, decodeIdentity keys, refundSigner, decodeCertificate rt keys⟩

def sha256Hex (bytes : Bytes) : String := String.ofList ('0' :: 'x' :: toHex (rt.sha256 bytes))

/-- The hash of the certificate, or zero. -/
def certificateHashHex (certificate : Option Bytes) : String :=
  match certificate with
  | some der => sha256Hex rt der
  | none => String.ofList ('0' :: 'x' :: List.replicate 64 '0')

def checkCertificate (served bound : Option Bytes) : List BindingFailure :=
  match served, bound with
  | none, _ => []
  | some _, none => [.noCertificate]
  | some served, some bound => if served = bound then [] else [.otherCertificate]

def checkQuote (evidence : KeyBindingEvidence) (expected : Bytes) : Except BindingError (List BindingFailure) :=
  if isTdx evidence.platform then
    let quote := rt.fromBase64 evidence.quote
    let mismatch := match tdxQuoteReportData quote with
      | none => [BindingFailure.shortQuote quote.length]
      | some reportData => if reportData = expected then [] else [.quote]
    match evidence.eventLog with
    | none => .ok mismatch
    | some eventLog =>
      match verifyEventLog rt.toRuntime quote eventLog with
      | none => .error .quoteTooShort
      | some failures => .ok (mismatch ++ failures.map .eventLog)
  else
    .ok []

/-- Whether the manifest names the coordinates of the refund signer; `BigInt` may throw. -/
def checkRefundSigner (manifest : KeyManifest) (keys : BoundKeys) : Except BindingError (List BindingFailure) :=
  match keys.refundSignerPublicKey with
  | none => .ok [.manifestRefundSigner]
  | some refundSigner =>
    match BigInt manifest.refundSignerX, BigInt refundSigner.x with
    | some x, some x' =>
      if x ≠ x' then
        .ok [.manifestRefundSigner]
      else
        match BigInt manifest.refundSignerY, BigInt refundSigner.y with
        | some y, some y' => .ok (if y ≠ y' then [.manifestRefundSigner] else [])
        | _, _ => .error .syntaxError
    | _, _ => .error .syntaxError

def checkSignature (m : SignedKeyManifest) (identity : Bytes) : List BindingFailure :=
  match (rt.verifyTypedData m.manifest m.signature).bind rt.getAddress, rt.computeAddress identity with
  | some signer, some address => if signer ≠ address then [.otherIdentity] else []
  | _, _ => [.invalidSignature]

def verifyManifest (m : SignedKeyManifest) (keys : BoundKeys) : Except BindingError (List BindingFailure) := do
  let mlkem := if rt.toLowerCase m.manifest.mlkemPublicKeyHash ≠ sha256Hex rt (rt.fromBase64 keys.mlkemPublicKey)
    then [BindingFailure.manifestMlkem] else []
  let refundSigner ← checkRefundSigner m.manifest keys
  let certificate := if rt.toLowerCase m.manifest.tlsCertificateHash
      ≠ certificateHashHex rt (decodeCertificate rt keys)
    then [BindingFailure.manifestCertificate] else []
  let signature := match decodeIdentity keys with
    | none => [BindingFailure.noIdentity]
    | some identity => checkSignature rt m identity
  return mlkem ++ (refundSigner ++ (certificate ++ signature))

def checkManifest (keyManifest : Option SignedKeyManifest) (keys : BoundKeys)
    : Except BindingError (List BindingFailure) :=
  match keyManifest with
  | none => .ok []
  | some m => verifyManifest rt m keys

/-- The report data the returned keys and the nonce stand for. -/
def expectedReportData (evidence : KeyBindingEvidence) (nonce : Option Bytes) : Except BindingError Bytes := do
  let inputs ← decodeKeys rt evidence.keys
  buildReportData rt.sha256 inputs nonce

def verifyKeyBinding (evidence : KeyBindingEvidence) (options : KeyBindingOptions)
    : Except BindingError (List BindingFailure) := do
  let expected ← expectedReportData rt evidence options.nonce
  let reportData := if fromHex (stripHexPrefix evidence.reportData).toList ≠ expected
    then [BindingFailure.reportData] else []
  let certificate := checkCertificate options.servedCertificate (decodeCertificate rt evidence.keys)
  let quote ← checkQuote rt evidence expected
  let manifest ← checkManifest rt options.keyManifest evidence.keys
  return reportData ++ (certificate ++ (quote ++ manifest))

/-- The quote carries the report data: where the code looks in a TDX quote, at any place in another one. -/
def Carries (platform : String) (quote expected : Bytes) : Prop :=
  if isTdx platform then
    tdxQuoteReportData quote = some expected
  else
    ∃ offset, (quote.drop offset).take TDX_REPORT_DATA_LENGTH = expected

/-- The manifest commits to the bound keys and is signed by the bound identity key. -/
structure Manifested (m : SignedKeyManifest) (keys : BoundKeys) : Prop where
  mlkem : rt.toLowerCase m.manifest.mlkemPublicKeyHash = sha256Hex rt (rt.fromBase64 keys.mlkemPublicKey)
  refundSigner : ∃ refundSigner x y, keys.refundSignerPublicKey = some refundSigner
    ∧ coordinate refundSigner.x = .ok x ∧ coordinate refundSigner.y = .ok y
    ∧ BigInt m.manifest.refundSignerX = some (bytesValue x : Int)
    ∧ BigInt m.manifest.refundSignerY = some (bytesValue y : Int)
  certificate : rt.toLowerCase m.manifest.tlsCertificateHash = certificateHashHex rt (decodeCertificate rt keys)
  signed : ∃ identity signer address, decodeIdentity keys = some identity
    ∧ rt.verifyTypedData m.manifest m.signature = some signer
    ∧ rt.getAddress signer = some address ∧ rt.computeAddress identity = some address

/-- What is to hold when there are no failures. -/
structure Bound (evidence : KeyBindingEvidence) (options : KeyBindingOptions) : Prop where
  -- the quote itself is for the returned keys and the nonce, and for no others
  quote : ∃ inputs expected, decodeKeys rt evidence.keys = .ok inputs
    ∧ buildReportData rt.sha256 inputs options.nonce = .ok expected
    ∧ Carries evidence.platform (rt.fromBase64 evidence.quote) expected
    ∧ ∀ inputs' nonce', buildReportData rt.sha256 inputs' nonce' = .ok expected →
        SameKeys inputs inputs'
            ∧ options.nonce.getD (List.replicate NONCE_LENGTH 0) = nonce'.getD (List.replicate NONCE_LENGTH 0)
          ∨ Collides rt.sha256 (hashedFor rt.sha256 inputs ++ hashedFor rt.sha256 inputs')
  certificate : ∀ served, options.servedCertificate = some served →
    decodeCertificate rt evidence.keys = some served
  manifest : ∀ m, options.keyManifest = some m → Manifested rt m evidence.keys

/-- `BigInt` reads the coordinates as other numbers than the ones that are bound. -/
def Misread (refundSigner : RefundSigner) : Prop :=
  ∃ (x y : Bytes) (a b : Int), coordinate refundSigner.x = .ok x ∧ coordinate refundSigner.y = .ok y
    ∧ BigInt refundSigner.x = some a ∧ BigInt refundSigner.y = some b
    ∧ ¬ (a = bytesValue x ∧ b = bytesValue y)

/-- The coordinates that a given manifest is compared with are read as the ones that are bound. -/
def ReadAlike (keyManifest : Option SignedKeyManifest) (refundSigner : Option RefundSigner) : Prop :=
  ∀ m r, keyManifest = some m → refundSigner = some r → ¬ Misread r

/-- The report data stands somewhere in the quote. -/
def Contains (evidence : KeyBindingEvidence) (nonce : Option Bytes) : Prop :=
  ∃ expected offset, expectedReportData rt evidence nonce = .ok expected
    ∧ ((rt.fromBase64 evidence.quote).drop offset).take TDX_REPORT_DATA_LENGTH = expected

section Sound

variable {rt} {evidence : KeyBindingEvidence} {options : KeyBindingOptions}

theorem checkQuote_eq_nil {expected : Bytes} (htdx : isTdx evidence.platform = true)
    (h : checkQuote rt evidence expected = .ok [])
    : tdxQuoteReportData (rt.fromBase64 evidence.quote) = some expected := by
  unfold checkQuote at h
  rw [if_pos htdx] at h
  have hmismatch (mismatch rest : List BindingFailure)
      (hm : mismatch = match tdxQuoteReportData (rt.fromBase64 evidence.quote) with
        | none => [BindingFailure.shortQuote (rt.fromBase64 evidence.quote).length]
        | some reportData => if reportData = expected then [] else [.quote])
      (hnil : mismatch ++ rest = [])
      : tdxQuoteReportData (rt.fromBase64 evidence.quote) = some expected := by
    have hempty := (List.append_eq_nil_iff.mp hnil).1
    rw [hm] at hempty
    cases hread : tdxQuoteReportData (rt.fromBase64 evidence.quote) with
    | none => simp [hread] at hempty
    | some reportData =>
      simp only [hread, ite_eq_left_iff, List.cons_ne_nil, imp_false, not_not] at hempty
      rw [hempty]
  simp only at h
  cases heventLog : evidence.eventLog with
  | none =>
    simp only [heventLog, Except.ok.injEq] at h
    exact hmismatch _ [] rfl (by rw [List.append_nil]; exact h)
  | some eventLog =>
    simp only [heventLog] at h
    cases hverify : verifyEventLog rt.toRuntime (rt.fromBase64 evidence.quote) eventLog with
    | none => simp [hverify] at h
    | some failures =>
      simp only [hverify, Except.ok.injEq] at h
      exact hmismatch _ _ rfl h

theorem checkRefundSigner_eq_nil {manifest : KeyManifest} {keys : BoundKeys}
    (h : checkRefundSigner manifest keys = .ok [])
    : ∃ refundSigner a b, keys.refundSignerPublicKey = some refundSigner
        ∧ BigInt manifest.refundSignerX = some a ∧ BigInt refundSigner.x = some a
        ∧ BigInt manifest.refundSignerY = some b ∧ BigInt refundSigner.y = some b := by
  unfold checkRefundSigner at h
  split at h
  next => simp at h
  next refundSigner hkeys =>
    split at h
    next x x' hx hx' =>
      split at h
      next => simp at h
      next hxx =>
        split at h
        next y y' hy hy' =>
          simp only [Except.ok.injEq, ite_eq_right_iff, List.cons_ne_nil, imp_false, not_not] at h hxx
          exact ⟨refundSigner, x, y, hkeys, hx, by rw [hxx]; exact hx', hy, by rw [h]; exact hy'⟩
        next => contradiction
    next => contradiction

theorem checkSignature_eq_nil {m : SignedKeyManifest} {identity : Bytes} (h : checkSignature rt m identity = [])
    : ∃ signer address, rt.verifyTypedData m.manifest m.signature = some signer
        ∧ rt.getAddress signer = some address ∧ rt.computeAddress identity = some address := by
  unfold checkSignature at h
  split at h
  next signer address hsigner haddress =>
    simp only [ite_eq_right_iff, List.cons_ne_nil, imp_false, not_not] at h
    obtain ⟨recovered, hrecovered, hget⟩ := Option.bind_eq_some_iff.mp hsigner
    exact ⟨recovered, address, hrecovered, by rw [hget, h], haddress⟩
  next => simp at h

theorem encodeRefundSigner_eq_ok {keys : BoundKeys} {refundSigner : RefundSigner} {encoded : Option Bytes}
    (h : encodeRefundSigner keys = .ok encoded) (hkeys : keys.refundSignerPublicKey = some refundSigner)
    : ∃ x y, coordinate refundSigner.x = .ok x ∧ coordinate refundSigner.y = .ok y := by
  unfold encodeRefundSigner at h
  rw [hkeys] at h
  simp only [encodeRefundSignerPublicKey, bind_eq_ok, pure_eq_ok] at h
  obtain ⟨bytes, ⟨x, hx, y, hy, -⟩, -⟩ := h
  exact ⟨x, y, hx, hy⟩

/-- A manifest that passes is one for the bound keys, unless its coordinates were misread. -/
theorem manifested_iff {m : SignedKeyManifest} {keys : BoundKeys} {encoded : Option Bytes}
    (h : verifyManifest rt m keys = .ok []) (hencoded : encodeRefundSigner keys = .ok encoded)
    : Manifested rt m keys ↔
      ∀ refundSigner, keys.refundSignerPublicKey = some refundSigner → ¬ Misread refundSigner := by
  unfold verifyManifest at h
  simp only [bind_eq_ok, pure_eq_ok] at h
  obtain ⟨failures, hrefund, hnil⟩ := h
  simp only [List.nil_eq, List.append_eq_nil_iff, ite_eq_right_iff, List.cons_ne_nil, imp_false, not_not] at hnil
  obtain ⟨hmlkem, rfl, hcertificate, hsignature⟩ := hnil
  obtain ⟨refundSigner, a, b, hkeys, hX, hx, hY, hy⟩ := checkRefundSigner_eq_nil hrefund
  constructor
  . rintro hmanifested r hr ⟨x, y, a', b', hcx, hcy, hx', hy', hne⟩
    obtain ⟨r', x', y', hr', hcx', hcy', hX', hY'⟩ := hmanifested.refundSigner
    rw [hkeys, Option.some.injEq] at hr hr'
    subst hr hr'
    simp_all
  intro hread
  obtain ⟨x, y, hcx, hcy⟩ := encodeRefundSigner_eq_ok hencoded hkeys
  have hvalues : a = bytesValue x ∧ b = bytesValue y := by
    by_contra hne
    exact hread refundSigner hkeys ⟨x, y, a, b, hcx, hcy, hx, hy, hne⟩
  refine ⟨hmlkem, ⟨refundSigner, x, y, hkeys, hcx, hcy, ?_, ?_⟩, hcertificate, ?_⟩
  . rw [hX, hvalues.1]
  . rw [hY, hvalues.2]
  . cases hidentity : decodeIdentity keys with
    | none => simp [hidentity] at hsignature
    | some identity =>
      rw [hidentity] at hsignature
      obtain ⟨signer, address, hsigner, hget, haddress⟩ := checkSignature_eq_nil hsignature
      exact ⟨identity, signer, address, rfl, hsigner, hget, haddress⟩

theorem checkCertificate_eq_nil {served bound : Option Bytes} (h : checkCertificate served bound = [])
    (der : Bytes) (hserved : served = some der) : bound = some der := by
  subst hserved
  unfold checkCertificate at h
  cases bound with
  | none => simp at h
  | some bound =>
    simp only [ite_eq_left_iff, List.cons_ne_nil, imp_false, not_not] at h
    rw [h]

/-- What a verification without failures has checked. -/
theorem verifyKeyBinding_eq_nil (h : verifyKeyBinding rt evidence options = .ok [])
    : ∃ inputs expected, decodeKeys rt evidence.keys = .ok inputs
        ∧ buildReportData rt.sha256 inputs options.nonce = .ok expected
        ∧ checkCertificate options.servedCertificate (decodeCertificate rt evidence.keys) = []
        ∧ checkQuote rt evidence expected = .ok []
        ∧ ∀ m, options.keyManifest = some m → verifyManifest rt m evidence.keys = .ok [] := by
  unfold verifyKeyBinding expectedReportData at h
  simp only [bind_eq_ok, pure_eq_ok] at h
  obtain ⟨expected, ⟨inputs, hinputs, hexpected⟩, quote, hquote, manifest, hmanifest, hnil⟩ := h
  simp only [List.nil_eq, List.append_eq_nil_iff] at hnil
  obtain ⟨-, hcertificate, rfl, rfl⟩ := hnil
  refine ⟨inputs, expected, hinputs, hexpected, hcertificate, hquote, ?_⟩
  intro m hm
  unfold checkManifest at hmanifest
  rw [hm] at hmanifest
  exact hmanifest

theorem carries_iff {inputs : ReportDataInputs} {expected : Bytes}
    (hinputs : decodeKeys rt evidence.keys = .ok inputs)
    (hexpected : buildReportData rt.sha256 inputs options.nonce = .ok expected)
    (hquote : checkQuote rt evidence expected = .ok [])
    : Carries evidence.platform (rt.fromBase64 evidence.quote) expected
      ↔ isTdx evidence.platform = true ∨ Contains rt evidence options.nonce := by
  have hreport : expectedReportData rt evidence options.nonce = .ok expected := by
    unfold expectedReportData
    rw [hinputs]
    exact hexpected
  unfold Carries Contains
  by_cases htdx : isTdx evidence.platform = true
  . simp only [htdx, if_true, true_or, iff_true]
    exact checkQuote_eq_nil htdx hquote
  . simp [htdx, hreport, eq_comm]

/-- Of what passes, exactly this is bound: the quote was looked at, or is right by chance, and the coordinates
in the manifest were read as the bound ones. -/
theorem bound_iff (h : verifyKeyBinding rt evidence options = .ok [])
    : Bound rt evidence options
      ↔ (isTdx evidence.platform = true ∨ Contains rt evidence options.nonce)
        ∧ ReadAlike options.keyManifest evidence.keys.refundSignerPublicKey := by
  obtain ⟨inputs, expected, hinputs, hexpected, hcertificate, hquote, hmanifest⟩ := verifyKeyBinding_eq_nil h
  obtain ⟨encoded, hencoded, -⟩ : ∃ encoded, encodeRefundSigner evidence.keys = .ok encoded ∧ True := by
    unfold decodeKeys at hinputs
    simp only [bind_eq_ok, pure_eq_ok] at hinputs
    obtain ⟨encoded, hencoded, -⟩ := hinputs
    exact ⟨encoded, hencoded, trivial⟩
  rw [← carries_iff hinputs hexpected hquote]
  constructor
  . intro hbound
    obtain ⟨inputs', expected', hinputs', hexpected', hcarries, -⟩ := hbound.quote
    obtain rfl : inputs = inputs' := Except.ok.inj (hinputs.symm.trans hinputs')
    obtain rfl : expected = expected' := Except.ok.inj (hexpected.symm.trans hexpected')
    exact ⟨hcarries, fun m r hm hr => (manifested_iff (hmanifest m hm) hencoded).mp (hbound.manifest m hm) r hr⟩
  . rintro ⟨hcarries, hread⟩
    refine ⟨⟨inputs, expected, hinputs, hexpected, hcarries, ?_⟩, checkCertificate_eq_nil hcertificate, ?_⟩
    . intro inputs' nonce' hexpected'
      exact buildReportData_injective rt.sha256_length hexpected hexpected'
    . intro m hm
      exact (manifested_iff (hmanifest m hm) hencoded).mpr (hread m · hm)

/-- Without a platform whose quotes are read, any quote does. -/
theorem verifyKeyBinding_quote (hplatform : isTdx evidence.platform = false) (quote : String)
    : verifyKeyBinding rt { evidence with quote } options = verifyKeyBinding rt evidence options := by
  have hcheck (expected : Bytes)
      : checkQuote rt { evidence with quote } expected = checkQuote rt evidence expected := by
    unfold checkQuote
    simp only [hplatform, Bool.false_eq_true, if_false]
  unfold verifyKeyBinding
  simp only [hcheck]
  rfl

end Sound

section Forged

variable {rt} {keys : BoundKeys} {inputs : ReportDataInputs}

theorem lengthPrefixed_ok {bytes : Bytes} (h : bytes.length < 2 ^ 32) : ∃ encoded, lengthPrefixed bytes = .ok encoded :=
  ⟨_, if_pos h⟩

theorem buildReportData_ok (hmlkem : inputs.mlkemPublicKey.length < 2 ^ 32)
    (hidentity : (inputs.identityPublicKey.getD []).length < 2 ^ 32)
    (hrefund : (inputs.refundSignerPublicKey.getD []).length < 2 ^ 32)
    (hcertificate : inputs.tlsCertificateDer = none)
    : ∃ expected, buildReportData rt.sha256 inputs none = .ok expected := by
  obtain ⟨label, h1⟩ := lengthPrefixed_ok (by decide : REPORT_DATA_LABEL.length < 2 ^ 32)
  obtain ⟨ek, h2⟩ := lengthPrefixed_ok hmlkem
  obtain ⟨identity, h3⟩ := lengthPrefixed_ok hidentity
  obtain ⟨refundSigner, h4⟩ := lengthPrefixed_ok hrefund
  obtain ⟨certificate, h5⟩ : ∃ encoded,
      lengthPrefixed (certificateHash rt.sha256 inputs.tlsCertificateDer) = .ok encoded := by
    rw [hcertificate]
    exact lengthPrefixed_ok (by decide : ([] : Bytes).length < 2 ^ 32)
  refine ⟨rt.sha256 (label ++ (ek ++ (identity ++ (refundSigner ++ certificate)))) ++ List.replicate NONCE_LENGTH 0, ?_⟩
  unfold buildReportData commitmentInput
  rw [h1, h2, h3, h4, h5]
  rfl

/-- A response anyone can make for keys of their choice, but for the quote. -/
def forged (platform quote : String) (keys : BoundKeys) (expected : Bytes) : KeyBindingEvidence :=
  ⟨platform, quote, String.ofList (toHex expected), keys, none⟩

/-- The shortest quote with some report data. -/
def quoteOf (expected : Bytes) : Bytes := List.replicate TDX_REPORT_DATA_OFFSET 0 ++ expected

theorem tdxQuoteReportData_quoteOf {expected : Bytes} (hlength : expected.length = TDX_REPORT_DATA_LENGTH)
    : tdxQuoteReportData (quoteOf expected) = some expected := by
  unfold tdxQuoteReportData quoteOf
  rw [if_neg (by simp [hlength]), List.drop_left' (by simp), List.take_of_length_le (by simp [hlength])]

theorem verifyKeyBinding_forged {platform quote : String} {expected : Bytes} {keyManifest : Option SignedKeyManifest}
    (hinputs : decodeKeys rt keys = .ok inputs) (hexpected : buildReportData rt.sha256 inputs none = .ok expected)
    (hquote : isTdx platform = true → tdxQuoteReportData (rt.fromBase64 quote) = some expected)
    (hmanifest : checkManifest rt keyManifest keys = .ok [])
    : verifyKeyBinding rt (forged platform quote keys expected) ⟨none, none, keyManifest⟩ = .ok [] := by
  have hreport : expectedReportData rt (forged platform quote keys expected) none = .ok expected := by
    unfold expectedReportData forged
    rw [hinputs]
    exact hexpected
  have hcheck : checkQuote rt (forged platform quote keys expected) expected = .ok [] := by
    unfold checkQuote forged
    by_cases htdx : isTdx platform = true
    . simp [htdx, hquote htdx]
    . simp [htdx]
  have hhex : fromHex (stripHexPrefix (forged platform quote keys expected).reportData).toList = expected := by
    unfold forged
    rw [stripHexPrefix_toHex, fromHex_toHex]
  unfold verifyKeyBinding
  rw [hreport]
  simp only [bind_eq_ok, pure_eq_ok]
  exact ⟨expected, rfl, [], hcheck, [], hmanifest, by simp [hhex, checkCertificate]⟩

theorem exists_reportData {mlkem : String} {identity : Option String} {refundSigner : Option RefundSigner}
    (hmlkem : rt.fromBase64 mlkem = [])
    (hidentity : ((decodeIdentity ⟨mlkem, identity, refundSigner, none⟩).getD []).length < 2 ^ 32)
    (hrefund : ∀ r, refundSigner = some r → ∃ bytes, encodeRefundSignerPublicKey r = .ok bytes)
    : ∃ inputs expected, decodeKeys rt ⟨mlkem, identity, refundSigner, none⟩ = .ok inputs
        ∧ buildReportData rt.sha256 inputs none = .ok expected := by
  obtain ⟨encoded, hencoded, hlength⟩ : ∃ encoded,
      encodeRefundSigner ⟨mlkem, identity, refundSigner, none⟩ = .ok encoded ∧ (encoded.getD []).length ≤ 64 := by
    cases refundSigner with
    | none => exact ⟨none, rfl, by simp⟩
    | some r =>
      obtain ⟨bytes, hbytes⟩ := hrefund r rfl
      refine ⟨some bytes, ?_, ?_⟩
      . unfold encodeRefundSigner
        simp only [hbytes]
        rfl
      . unfold encodeRefundSignerPublicKey at hbytes
        simp only [bind_eq_ok, pure_eq_ok] at hbytes
        obtain ⟨x, hx, y, hy, rfl⟩ := hbytes
        obtain ⟨-, -, -, hxlength, -⟩ := coordinate_eq_ok hx
        obtain ⟨-, -, -, hylength, -⟩ := coordinate_eq_ok hy
        simp [hxlength, hylength]
  have hinputs : decodeKeys rt ⟨mlkem, identity, refundSigner, none⟩
      = .ok ⟨[], decodeIdentity ⟨mlkem, identity, refundSigner, none⟩, encoded, none⟩ := by
    unfold decodeKeys
    rw [hencoded, hmlkem]
    rfl
  obtain ⟨expected, hexpected⟩ := @buildReportData_ok rt
    ⟨[], decodeIdentity ⟨mlkem, identity, refundSigner, none⟩, encoded, none⟩ (by simp) hidentity
    (Nat.lt_of_le_of_lt hlength (by decide)) rfl
  exact ⟨_, expected, hinputs, hexpected⟩

theorem not_carries_empty {platform quote : String} {expected : Bytes} {nonce : Option Bytes}
    (hplatform : isTdx platform = false) (hempty : rt.fromBase64 quote = [])
    (hexpected : buildReportData rt.sha256 inputs nonce = .ok expected)
    : ¬ Carries platform (rt.fromBase64 quote) expected := by
  intro hcarries
  have hlength := buildReportData_length rt.sha256_length hexpected
  unfold Carries at hcarries
  simp only [hplatform, Bool.false_eq_true, if_false, hempty, List.drop_nil, List.take_nil, exists_const] at hcarries
  rw [← hcarries] at hlength
  simp at hlength

/-- For any other platform string there are keys and a quote that pass and are not bound. -/
theorem exists_unbound_of_platform {platform : String} {refundSigner : Option RefundSigner}
    (hrefund : ∀ r, refundSigner = some r → ∃ bytes, encodeRefundSignerPublicKey r = .ok bytes)
    (hplatform : isTdx platform = false)
    : ∃ evidence options, evidence.platform = platform ∧ evidence.keys.refundSignerPublicKey = refundSigner
        ∧ verifyKeyBinding rt evidence options = .ok [] ∧ ¬ Bound rt evidence options := by
  obtain ⟨empty, hempty⟩ := rt.fromBase64_surjective []
  obtain ⟨inputs, expected, hinputs, hexpected⟩ := @exists_reportData rt empty none refundSigner hempty
    (by simp [decodeIdentity]) hrefund
  have haccepted := verifyKeyBinding_forged hinputs hexpected (by simp [hplatform] : isTdx platform = true →
    tdxQuoteReportData (rt.fromBase64 empty) = some expected) (rfl : checkManifest rt none _ = .ok [])
  refine ⟨_, _, rfl, rfl, haccepted, fun hbound => ?_⟩
  obtain ⟨inputs', expected', hinputs', hexpected', hcarries, -⟩ := hbound.quote
  exact not_carries_empty hplatform hempty hexpected' hcarries

def identityHex (identity : Bytes) : String := String.ofList ('0' :: 'x' :: toHex identity)

theorem decodeIdentity_identityHex (identity : Bytes) (mlkem : String) (refundSigner : Option RefundSigner)
    (certificate : Option String)
    : decodeIdentity ⟨mlkem, some (identityHex identity), refundSigner, certificate⟩ = some identity := by
  have hne : identityHex identity ≠ "" := by
    intro h
    have := congrArg String.toList h
    simp [identityHex] at this
  unfold decodeIdentity
  simp only [Option.filter_some, ne_eq, hne, not_false_eq_true, decide_true, if_true, Option.map_some]
  unfold identityHex
  rw [stripHexPrefix_prefixed, fromHex_toHex]

theorem toLowerCase_hex (bytes : Bytes)
    : rt.toLowerCase (String.ofList ('0' :: 'x' :: toHex bytes)) = String.ofList ('0' :: 'x' :: toHex bytes) := by
  apply rt.toLowerCase_ascii
  intro c hc
  rw [String.toList_ofList] at hc
  rcases List.mem_cons.mp hc with rfl | hc
  . decide
  . rcases List.mem_cons.mp hc with rfl | hc
    . decide
    . exact ⟨(mem_toHex hc).1, by simp [(mem_toHex hc).2.1]⟩

theorem isHexBytes_toHex (bytes : Bytes)
    : isHexBytes bytes.length (String.ofList ('0' :: 'x' :: toHex bytes)) = true := by
  unfold isHexBytes
  rw [String.toList_ofList]
  simp only [length_toHex, decide_true, Bool.true_and, List.all_eq_true]
  exact fun c hc => isHexDigit_of_mem_toHex hc

def manifestFor (rt : Crypto) (a b : Nat) : KeyManifest where
  appId := String.ofList ('0' :: 'x' :: toHex (List.replicate 20 0))
  mlkemPublicKeyHash := sha256Hex rt []
  refundSignerX := hex32 a
  refundSignerY := hex32 b
  tlsCertificateHash := String.ofList ('0' :: 'x' :: toHex (List.replicate 32 0))
  txSignerAddress := String.ofList ('0' :: 'x' :: toHex (List.replicate 20 0))
  epoch := 1

theorem manifestFor_isTyped (a b : Nat) : (manifestFor rt a b).isTyped = true := by
  have hhash : isHexBytes 32 (sha256Hex rt []) = true := by
    have h := isHexBytes_toHex (rt.sha256 [])
    rwa [rt.sha256_length] at h
  have hcoordinate (n : Nat) : isHexBytes 32 (hex32 n) = true := by
    have h := isHexBytes_toHex (numberBytes 32 n)
    rwa [length_numberBytes] at h
  have hzeros (n : Nat) : isHexBytes n (String.ofList ('0' :: 'x' :: toHex (List.replicate n 0))) = true := by
    have h := isHexBytes_toHex (List.replicate n 0)
    rwa [List.length_replicate] at h
  unfold KeyManifest.isTyped
  simp only [manifestFor, hhash, hcoordinate, hzeros, Bool.and_self, Bool.true_and]
  rfl

/-- A manifest of the numbers that `BigInt` reads, signed by the identity key, passes. -/
theorem checkManifest_manifestFor {empty signature signer address : String} {identity : Bytes}
    {refundSigner : RefundSigner} {m n : Nat} (hempty : rt.fromBase64 empty = []) (hm : m < 256 ^ 32)
    (hn : n < 256 ^ 32) (ha : BigInt refundSigner.x = some (m : Int)) (hb : BigInt refundSigner.y = some (n : Int))
    (hsigner : rt.verifyTypedData (manifestFor rt m n) signature = some signer)
    (hget : rt.getAddress signer = some address) (haddress : rt.computeAddress identity = some address)
    : checkManifest rt (some ⟨manifestFor rt m n, signature⟩)
        ⟨empty, some (identityHex identity), some refundSigner, none⟩ = .ok [] := by
  have hcoordinates : checkRefundSigner (manifestFor rt m n)
      ⟨empty, some (identityHex identity), some refundSigner, none⟩ = .ok [] := by
    unfold checkRefundSigner
    simp [manifestFor, BigInt_hex32 hm, BigInt_hex32 hn, ha, hb]
  have hmlkem : rt.toLowerCase (manifestFor rt m n).mlkemPublicKeyHash = sha256Hex rt (rt.fromBase64 empty) := by
    rw [hempty]
    exact toLowerCase_hex _
  have hzeros : toHex (List.replicate 32 0) = List.replicate 64 '0' := by decide
  have hcertificate : rt.toLowerCase (manifestFor rt m n).tlsCertificateHash = certificateHashHex rt none := by
    unfold certificateHashHex
    rw [← hzeros]
    exact toLowerCase_hex _
  have hsignature : checkSignature rt ⟨manifestFor rt m n, signature⟩ identity = [] := by
    unfold checkSignature
    simp [hsigner, hget, haddress]
  have hdecode := decodeIdentity_identityHex identity empty (some refundSigner) none
  unfold checkManifest verifyManifest
  simp only [bind_eq_ok, pure_eq_ok]
  refine ⟨[], hcoordinates, ?_⟩
  rw [hdecode]
  simp [hmlkem, decodeCertificate, hcertificate, hsignature]

/-- A quote of the returned keys passes with a manifest of other coordinates. -/
theorem exists_unbound_of_misread {refundSigner : RefundSigner} (hmisread : Misread refundSigner) (platform : String)
    : ∃ evidence options, evidence.platform = platform
        ∧ evidence.keys.refundSignerPublicKey = some refundSigner
        ∧ verifyKeyBinding rt evidence options = .ok [] ∧ ¬ Bound rt evidence options := by
  have hmisreads := hmisread
  obtain ⟨x, y, a, b, hx, hy, ha, hb, hne⟩ := hmisread
  obtain ⟨m, rfl, hm⟩ := BigInt_coordinate hx ha
  obtain ⟨n, rfl, hn⟩ := BigInt_coordinate hy hb
  -- a manifest of the numbers that `BigInt` reads, signed by a key of one's own
  obtain ⟨identity, signature, signer, address, -, hidentity, hsigner, hget, haddress⟩ :=
    rt.exists_signature (manifestFor rt m n) (manifestFor_isTyped m n)
  obtain ⟨empty, hempty⟩ := rt.fromBase64_surjective []
  have hrefund : ∀ r, some refundSigner = some r → ∃ bytes, encodeRefundSignerPublicKey r = .ok bytes := by
    rintro r ⟨rfl⟩
    unfold encodeRefundSignerPublicKey
    rw [hx, hy]
    exact ⟨_, rfl⟩
  have hdecode := decodeIdentity_identityHex identity empty (some refundSigner) none
  obtain ⟨inputs, expected, hinputs, hexpected⟩ := @exists_reportData rt empty (some (identityHex identity))
    (some refundSigner) hempty (by rw [hdecode]; exact hidentity) hrefund
  -- and a quote of the same keys, with the coordinates as hex
  obtain ⟨quote, hquote⟩ := rt.fromBase64_surjective (quoteOf expected)
  have hread : tdxQuoteReportData (rt.fromBase64 quote) = some expected := by
    rw [hquote]
    exact tdxQuoteReportData_quoteOf (buildReportData_length rt.sha256_length hexpected)
  have hmanifest := checkManifest_manifestFor hempty hm hn ha hb hsigner hget haddress
  have haccepted := verifyKeyBinding_forged hinputs hexpected (fun _ : isTdx platform = true => hread) hmanifest
  exact ⟨_, _, rfl, rfl, haccepted, fun hbound => ((bound_iff haccepted).mp hbound).2 _ _ rfl rfl hmisreads⟩

end Forged

section Example

def sextet? (c : Char) : Option Nat :=
  if c.isUpper then some (c.toNat - 'A'.toNat)
  else if c.isLower then some (c.toNat - 'a'.toNat + 26)
  else if c.isDigit then some (c.toNat - '0'.toNat + 52)
  else if c = '+' ∨ c = '-' then some 62
  else if c = '/' ∨ c = '_' then some 63
  else none

def sextetChar (n : Nat) : Char :=
  "ABCDEFGHIJKLMNOPQRSTUVWXYZabcdefghijklmnopqrstuvwxyz0123456789+/".toList.getD n 'A'

def decodeSextets : List Nat → Bytes
  | a :: b :: c :: d :: rest =>
    UInt8.ofNat (4 * a + b / 16) :: UInt8.ofNat (16 * b + c / 4) :: UInt8.ofNat (64 * c + d) :: decodeSextets rest
  | [a, b, c] => [UInt8.ofNat (4 * a + b / 16), UInt8.ofNat (16 * b + c / 4)]
  | [a, b] => [UInt8.ofNat (4 * a + b / 16)]
  | _ => []

def encodeSextets : Bytes → List Nat
  | x :: y :: z :: rest =>
    x.toNat / 4 :: (16 * (x.toNat % 4) + y.toNat / 16) :: (4 * (y.toNat % 16) + z.toNat / 64) :: z.toNat % 64
      :: encodeSextets rest
  | [x, y] => [x.toNat / 4, 16 * (x.toNat % 4) + y.toNat / 16, 4 * (y.toNat % 16)]
  | [x] => [x.toNat / 4, 16 * (x.toNat % 4)]
  | [] => []

theorem ofNat_eq_of_mod {n : Nat} {byte : UInt8} (h : n % 256 = byte.toNat) : UInt8.ofNat n = byte := by
  rw [← UInt8.toNat_inj, UInt8.toNat_ofNat']
  exact h

theorem decodeSextets_encodeSextets (bytes : Bytes) : decodeSextets (encodeSextets bytes) = bytes := by
  fun_induction encodeSextets bytes with
  | case1 x y z rest ih =>
    have hx := x.toNat_lt
    have hy := y.toNat_lt
    have hz := z.toNat_lt
    rw [decodeSextets, ih]
    congr 1
    . exact ofNat_eq_of_mod (by omega)
    . congr 1
      . exact ofNat_eq_of_mod (by omega)
      . congr 1
        exact ofNat_eq_of_mod (by omega)
  | case2 x y =>
    have hx := x.toNat_lt
    have hy := y.toNat_lt
    simp only [decodeSextets, List.cons.injEq, and_true]
    exact ⟨ofNat_eq_of_mod (by omega), ofNat_eq_of_mod (by omega)⟩
  | case3 x =>
    have hx := x.toNat_lt
    simp only [decodeSextets, List.cons.injEq, and_true]
    exact ofNat_eq_of_mod (by omega)
  | case4 => rfl

theorem encodeSextets_lt (bytes : Bytes) : ∀ n ∈ encodeSextets bytes, n < 64 := by
  fun_induction encodeSextets bytes with
  | case1 x y z rest ih =>
    have hx := x.toNat_lt
    have hy := y.toNat_lt
    have hz := z.toNat_lt
    simp only [List.forall_mem_cons]
    exact ⟨by omega, by omega, by omega, by omega, ih⟩
  | case2 x y =>
    have hx := x.toNat_lt
    have hy := y.toNat_lt
    simp only [List.forall_mem_cons, List.not_mem_nil, false_imp_iff, implies_true, and_true]
    exact ⟨by omega, by omega, by omega⟩
  | case3 x =>
    have hx := x.toNat_lt
    simp only [List.forall_mem_cons, List.not_mem_nil, false_imp_iff, implies_true, and_true]
    exact ⟨by omega, by omega⟩
  | case4 => simp

def decodeBase64 (value : String) : Bytes := decodeSextets (value.toList.filterMap sextet?)

def encodeBase64 (bytes : Bytes) : String := String.ofList ((encodeSextets bytes).map sextetChar)

theorem decodeBase64_encodeBase64 (bytes : Bytes) : decodeBase64 (encodeBase64 bytes) = bytes := by
  have hsextet : ∀ n < 64, sextet? (sextetChar n) = some n := by decide +kernel
  have hread : ((encodeSextets bytes).map sextetChar).filterMap sextet? = encodeSextets bytes := by
    rw [List.filterMap_map]
    have hcongr : (encodeSextets bytes).filterMap (sextet? ∘ sextetChar) = (encodeSextets bytes).filterMap some :=
      List.filterMap_congr fun n hn => hsextet n (encodeSextets_lt bytes n hn)
    rw [hcongr, List.filterMap_some]
  unfold decodeBase64 encodeBase64
  rw [String.toList_ofList, hread, decodeSextets_encodeSextets]

/-- A runtime with base64 as Node reads it, a digest that only has the length of one, and one key that
signs everything. -/
def exampleCrypto : Crypto where
  toRuntime := exampleRuntime
  sha256 := fun input => (input ++ List.replicate 32 0).take 32
  sha256_length := by simp
  fromBase64 := decodeBase64
  fromBase64_surjective := fun bytes => ⟨encodeBase64 bytes, decodeBase64_encodeBase64 bytes⟩
  verifyTypedData := fun _ _ => some "0x7E5F4552091A69125d5DfCb7b8C2659029395Bdf"
  getAddress := some
  computeAddress := fun _ => some "0x7E5F4552091A69125d5DfCb7b8C2659029395Bdf"
  exists_signature := fun _ _ => ⟨[4], "", _, _, by simp, by simp, rfl, rfl, rfl⟩

theorem exampleCrypto_fromBase64 : exampleCrypto.fromBase64 = decodeBase64 := rfl

def exampleSigner : RefundSigner := ⟨"0x03", "0x04"⟩

def exampleKeys : BoundKeys := ⟨"", some "0x04", some exampleSigner, none⟩

def exampleInputs : ReportDataInputs := ⟨[], some [4], some (numberBytes 32 3 ++ numberBytes 32 4), none⟩

def exampleReportData : Bytes :=
  fromHex ("000000126c6f6e676a696e672d7265706f72742d763100000000000000010400"
    ++ "0000000000000000000000000000000000000000000000000000000000000000").toList

/-- A quote of the keys, and of nothing else. -/
def exampleEvidence : KeyBindingEvidence :=
  forged "phala" (encodeBase64 (quoteOf exampleReportData)) exampleKeys exampleReportData

def exampleOptions : KeyBindingOptions := ⟨none, none, some ⟨manifestFor exampleCrypto 3 4, ""⟩⟩

theorem exampleEvidence_accepted : verifyKeyBinding exampleCrypto exampleEvidence exampleOptions = .ok [] := by
  have hinputs : decodeKeys exampleCrypto exampleKeys = .ok exampleInputs := by
    have hrefund : encodeRefundSigner exampleKeys = .ok (some (numberBytes 32 3 ++ numberBytes 32 4)) := by
      decide +kernel
    unfold decodeKeys
    rw [hrefund]
    rfl
  have hexpected : buildReportData exampleCrypto.sha256 exampleInputs none = .ok exampleReportData := by
    decide +kernel
  have hread : tdxQuoteReportData (exampleCrypto.fromBase64 (encodeBase64 (quoteOf exampleReportData)))
      = some exampleReportData := by
    rw [exampleCrypto_fromBase64, decodeBase64_encodeBase64]
    exact tdxQuoteReportData_quoteOf (buildReportData_length exampleCrypto.sha256_length hexpected)
  have hidentity : "0x04" = identityHex [4] := by decide
  have hmanifest : checkManifest exampleCrypto exampleOptions.keyManifest exampleKeys = .ok [] := by
    unfold exampleKeys
    rw [hidentity]
    exact checkManifest_manifestFor rfl (by decide) (by decide) (by decide +kernel) (by decide +kernel) rfl rfl rfl
  exact verifyKeyBinding_forged hinputs hexpected (fun _ => hread) hmanifest

theorem exampleSigner_not_misread : ¬ Misread exampleSigner := by
  rintro ⟨x, y, a, b, hx, hy, ha, hb, hne⟩
  have hcoordinates : coordinate "0x03" = .ok (numberBytes 32 3) ∧ coordinate "0x04" = .ok (numberBytes 32 4)
      ∧ BigInt "0x03" = some 3 ∧ BigInt "0x04" = some 4 := by decide +kernel
  obtain ⟨h3, h4, hread3, hread4⟩ := hcoordinates
  have hx : numberBytes 32 3 = x := Except.ok.inj (h3.symm.trans hx)
  have hy : numberBytes 32 4 = y := Except.ok.inj (h4.symm.trans hy)
  have ha : 3 = a := Option.some.inj (hread3.symm.trans ha)
  have hb : 4 = b := Option.some.inj (hread4.symm.trans hb)
  subst hx hy ha hb
  exact hne (by decide +kernel)

/-- Keys of anyone's choice, an empty quote and the platform "mock": no failures, whatever the hash is. -/
theorem exists_forged_mock (rt : Crypto) (hempty : rt.fromBase64 "" = [])
    : ∃ inputs expected,
        decodeKeys rt ⟨"", none, some exampleSigner, none⟩ = .ok inputs
          ∧ buildReportData rt.sha256 inputs none = .ok expected
          ∧ verifyKeyBinding rt (forged "mock" "" ⟨"", none, some exampleSigner, none⟩ expected) ⟨none, none, none⟩
            = .ok []
          ∧ ¬ Bound rt (forged "mock" "" ⟨"", none, some exampleSigner, none⟩ expected) ⟨none, none, none⟩ := by
  have hencoded : encodeRefundSignerPublicKey exampleSigner = .ok (numberBytes 32 3 ++ numberBytes 32 4) := by
    decide +kernel
  have hplatform : isTdx "mock" = false := by decide
  obtain ⟨inputs, expected, hinputs, hexpected⟩ := @exists_reportData rt "" none (some exampleSigner) hempty
    (by simp [decodeIdentity]) (by rintro r ⟨rfl⟩; exact ⟨_, hencoded⟩)
  refine ⟨inputs, expected, hinputs, hexpected, ?_, ?_⟩
  . have hmanifest : checkManifest rt none ⟨"", none, some exampleSigner, none⟩ = .ok [] := by
      unfold checkManifest
      rfl
    exact verifyKeyBinding_forged hinputs hexpected (by simp [hplatform]) hmanifest
  . intro hbound
    obtain ⟨inputs', expected', hinputs', hexpected', hcarries, -⟩ := hbound.quote
    exact not_carries_empty hplatform hempty hexpected' hcarries

end Example

end Attestation
end Longjing
