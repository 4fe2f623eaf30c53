import Longjing.Attestation.KeyBinding
import Longjing.Js.Date

/-!
This module contains the answers that `verifyKeyBinding` checks: the attestation of the keys a process
serves with, on each platform, and the key manifest it signs, which is kept until the TLS certificate changes.
-/

namespace Longjing
namespace Attestation

open Js Fallible
open Server (isHexDigit)

/-- What the enclave uses of Node besides. -/
structure EnclaveCrypto extends Crypto where
  -- `buffer.toString('base64')`
  toBase64 : Bytes → String
  fromBase64_toBase64 : ∀ bytes, fromBase64 (toBase64 bytes) = bytes
  fromBase64_empty : fromBase64 "" = []

def MLKEM_PUBLIC_KEY_LENGTH : Nat := 1568
def IDENTITY_PUBLIC_KEY_LENGTH : Nat := 65

variable (rt : EnclaveCrypto)

/-- What `KeyDerivationService.derive` gets from the root key of the app. -/
structure DerivedKeys where
  mlkemPublicKey : Bytes
  -- uncompressed
  identityPublicKey : Bytes
  refundSignerX : Nat
  refundSignerY : Nat
  appId : String
  txSignerAddress : String
  -- with the identity key, the EIP-712 digest
  sign : KeyManifest → String
  mlkemPublicKey_length : mlkemPublicKey.length = MLKEM_PUBLIC_KEY_LENGTH
  identityPublicKey_length : identityPublicKey.length = IDENTITY_PUBLIC_KEY_LENGTH
  refundSignerX_lt : refundSignerX < 256 ^ 32
  refundSignerY_lt : refundSignerY < 256 ^ 32
  appId_isAddress : isHexBytes 20 appId = true
  txSignerAddress_isAddress : isHexBytes 20 txSignerAddress = true
  -- the signer of a manifest can be recovered
  verifyTypedData_sign : ∀ m : KeyManifest, m.isTyped = true → ∃ signer address,
    rt.verifyTypedData m (sign m) = some signer ∧ rt.getAddress signer = some address
      ∧ rt.computeAddress identityPublicKey = some address

/-- Every instance of the app derives the same keys; one that cannot reads an ML-KEM key from its environment. -/
structure ServerKeys where
  derived : Option (DerivedKeys rt)
  -- `ADMIN_MLKEM_PUBLIC_KEY`
  envPublicKey : Option Bytes
  envPublicKey_length : ∀ key, envPublicKey = some key → key.length = MLKEM_PUBLIC_KEY_LENGTH

/-- DER, which is never empty. -/
structure Certificate where
  der : Bytes
  der_ne_nil : der ≠ []

/-- What a process keeps in memory. -/
structure Enclave where
  tlsLeafCertificate : Option Certificate
  keyManifest : Option SignedKeyManifest

/-- What the guest agent answers: the quote as hex, and what `JSON.parse` makes of the event log, if there is
one. -/
structure QuoteResponse where
  quote : String
  eventLog : Option (Option Json)

inductive TeePlatform where
  | phala
  | intelTdx
  | amdSevSnp
  | awsNitro
  | mock
deriving DecidableEq, Repr

def TeePlatform.name : TeePlatform → String
  | phala => "phala"
  | intelTdx => "intel-tdx"
  | amdSevSnp => "amd-sev-snp"
  | awsNitro => "aws-nitro"
  | mock => "mock"

/-- What follows the output file in `tdx-attest quote`. -/
inductive TdxAttestArgs where
  -- `--user-data`
  | userData (reportData : Bytes)
  | reportDataFile (reportData : Bytes)
  | none

/-- The machine below the process; a failure is `none`. -/
structure Machine where
  -- `client.getQuote` of dstack
  getQuote : Bytes → Option QuoteResponse
  -- a command that succeeds leaves a file, which may still be unreadable
  tdxAttest : TdxAttestArgs → Option (Option Bytes)
  -- the file of `snpguest report`
  snpguest : Bytes → Option Bytes
  now : TimeValue

inductive AttestationError where
  -- "Nonce must be 32 bytes of hex"
  | nonce
  -- "ML-KEM public key not available from TEE Key Manager"
  | mlkemPublicKey
  | reportData (error : BindingError)
  -- "Phala TDX attestation generation failed", "Intel TDX attestation generation failed" and so on
  | generation (platform : TeePlatform)

/-- The `nonce` of the query; an empty one is none. -/
def parseNonce (value : Option String) : Except AttestationError (Option Bytes) :=
  match value with
  | none => .ok none
  | some value =>
    if value = "" then
      .ok none
    else
      let hex := (stripHexPrefix value).toList
      if hex.length = 64 ∧ hex.all isHexDigit = true then .ok (some (fromHex hex)) else .error .nonce

variable {rt}

namespace DerivedKeys

/-- The coordinates with 64 hex digits. -/
def refundSignerPublicKey (keys : DerivedKeys rt) : RefundSigner := ⟨hex32 keys.refundSignerX, hex32 keys.refundSignerY⟩

def signKeyManifest (keys : DerivedKeys rt) (tlsCertificateHash : String) (epoch : Nat) : SignedKeyManifest :=
  let manifest : KeyManifest := {
    appId := keys.appId
    mlkemPublicKeyHash := sha256Hex rt.toCrypto keys.mlkemPublicKey
    refundSignerX := keys.refundSignerPublicKey.x
    refundSignerY := keys.refundSignerPublicKey.y
    tlsCertificateHash
    txSignerAddress := keys.txSignerAddress
    epoch
  }
  ⟨manifest, keys.sign manifest⟩

end DerivedKeys

/-- `TeeKeyManagerService.getPublicKeyBytes` -/
def ServerKeys.getPublicKeyBytes (keys : ServerKeys rt) : Option Bytes :=
  match keys.derived with
  | some derived => some derived.mlkemPublicKey
  | none => keys.envPublicKey

namespace Enclave

variable (keys : ServerKeys rt)

def certificate (s : Enclave) : Option Bytes := s.tlsLeafCertificate.map (·.der)

variable (rt) in
def tlsCertificateHash (s : Enclave) : String := certificateHashHex rt.toCrypto s.certificate

/-- Signed again when the certificate has changed. -/
def getKeyManifest (s : Enclave) : Enclave × Option SignedKeyManifest :=
  match keys.derived with
  | none => (s, none)
  | some derived =>
    if s.keyManifest.map (·.manifest.tlsCertificateHash) ≠ some (s.tlsCertificateHash rt) then
      let signed := derived.signKeyManifest (s.tlsCertificateHash rt) 1
      ({ s with keyManifest := some signed }, some signed)
    else
      (s, s.keyManifest)

def boundKeys (s : Enclave) : Except AttestationError (ReportDataInputs × BoundKeys) :=
  match keys.getPublicKeyBytes with
  | none => .error .mlkemPublicKey
  | some mlkemPublicKey =>
    let bound : BoundKeys := {
      mlkemPublicKey := rt.toBase64 mlkemPublicKey
      identityPublicKey := keys.derived.map (identityHex ·.identityPublicKey)
      refundSignerPublicKey := keys.derived.map (·.refundSignerPublicKey)
      tlsCertificate := s.certificate.map rt.toBase64
    }
    match encodeRefundSigner bound with
    | .error error => .error (.reportData error)
    | .ok refundSignerPublicKey =>
      .ok (⟨mlkemPublicKey, keys.derived.map (·.identityPublicKey), refundSignerPublicKey, s.certificate⟩, bound)

end Enclave

def utf8 (s : String) : Bytes := s.toUTF8.data.toList

namespace Machine

/-- `TdxPlatform.generateQuote`: without report data as the last resort. -/
def tdxQuote (machine : Machine) (reportData : Bytes) : Option Bytes :=
  let file := match machine.tdxAttest (.userData reportData) with
    | some file => some file
    | none =>
      match machine.tdxAttest (.reportDataFile reportData) with
      | some file => some file
      | none => machine.tdxAttest .none
  file.bind id

def generateMockPCR : String := String.ofList (toHex ((List.range 48).map UInt8.ofNat))

variable (rt) in
/-- The document of `NitroPlatform.generateQuote`, in JSON. -/
def attestationDoc (machine : Machine) (reportData : Bytes) : String :=
  "\x7b\"module_id\":\"i-1234567890abcdef0-enc1234567890abcd\",\"digest\":\"SHA384\",\"timestamp\":"
    ++ toString machine.now.ms ++ ",\"pcrs\":\x7b\"0\":\"" ++ generateMockPCR ++ "\",\"1\":\"" ++ generateMockPCR
    ++ "\",\"2\":\"" ++ generateMockPCR
    ++ "\"\x7d,\"certificate\":\"BASE64_CERT_CHAIN\",\"cabundle\":[],\"user_data\":\""
    ++ rt.toBase64 reportData ++ "\",\"nonce\":null,\"public_key\":null\x7d"

/-- The report of `MockPlatform.generateQuote`, in JSON. -/
def mockReport (machine : Machine) (reportData : Bytes) : String :=
  "\x7b\"warning\":\"MOCK_ATTESTATION_FOR_DEVELOPMENT_ONLY\",\"timestamp\":\"" ++ machine.now.toISOString
    ++ "\",\"message\":\"This is not a real TEE environment\",\"reportData\":\"" ++ String.ofList (toHex reportData)
    ++ "\",\"platform\":\"mock\"\x7d"

variable (rt) in
/-- `generateQuote` of the platform: the quote, and the event log if there is one. -/
def generateQuote (machine : Machine) (reportData : Bytes) : TeePlatform → Option (Bytes × Option (Option Json))
  | .phala => (machine.getQuote (reportData.take 64)).map fun result =>
      (fromHex (stripHexPrefix result.quote).toList, result.eventLog)
  | .intelTdx => (machine.tdxQuote reportData).map fun quote => (quote, none)
  | .amdSevSnp => (machine.snpguest reportData).map fun report => (report, none)
  | .awsNitro => some (utf8 (machine.attestationDoc rt reportData), none)
  | .mock => some (utf8 (machine.mockReport reportData), none)

end Machine

namespace Enclave

variable (keys : ServerKeys rt)

variable (rt) in
/-- The answer of a platform, with the keys that the service adds to it. -/
def evidence (platform : TeePlatform) (quote : Bytes) (eventLog : Option (Option Json)) (reportData : Bytes)
    (keys : BoundKeys) : KeyBindingEvidence where
  platform := platform.name
  quote := rt.toBase64 quote
  reportData := String.ofList (toHex reportData)
  keys
  eventLog

def getAttestation (s : Enclave) (platform : TeePlatform) (machine : Machine) (query : Option String)
    : Except AttestationError KeyBindingEvidence :=
  match parseNonce query, s.boundKeys keys with
  | .error error, _ => .error error
  | .ok _, .error error => .error error
  | .ok nonce, .ok (inputs, bound) =>
    match buildReportData rt.sha256 inputs nonce with
    | .error error => .error (.reportData error)
    | .ok reportData =>
      match machine.generateQuote rt reportData platform with
      | none => .error (.generation platform)
      | some (quote, eventLog) => .ok (evidence rt platform quote eventLog reportData bound)

inductive Event where
  | setTlsLeafCertificate (certificate : Certificate)
  | getKeyManifest
  -- the process ends, and one with the same keys starts
  | restart

def start : Enclave := ⟨none, none⟩

def step (s : Enclave) : Event → Enclave
  | .setTlsLeafCertificate certificate => { s with tlsLeafCertificate := some certificate }
  | .getKeyManifest => (s.getKeyManifest keys).1
  | .restart => start

def run (s : Enclave) (events : List Event) : Enclave := events.foldl (step keys) s

end Enclave

variable (rt) in
/-- A quote of dstack carries the report data it is asked for, and comes with the events of its registers. -/
def IsGuestAgent (getQuote : Bytes → Option QuoteResponse) : Prop :=
  ∀ reportData response, reportData.length = TDX_REPORT_DATA_LENGTH → getQuote reportData = some response →
    let quote := fromHex (stripHexPrefix response.quote).toList
    tdxQuoteReportData quote = some reportData
      ∧ ∀ eventLog, response.eventLog = some eventLog → verifyEventLog rt.toRuntime quote eventLog = some []

/-- What fails of the quote when the report data is expected to be `expected`. The quotes of dstack are as they are
to be, whoever asks for them; what `tdx-attest` leaves may have other report data than it was given. -/
def quoteFailures (platform : TeePlatform) (quote reportData expected : Bytes) : List BindingFailure :=
  match platform with
  | .phala => if reportData ≠ expected then [.quote] else []
  | .intelTdx =>
    match tdxQuoteReportData quote with
    | none => [.shortQuote quote.length]
    | some attested => if attested ≠ expected then [.quote] else []
  | _ => []

/-- The second half of the report data. -/
def nonceTerm (nonce : Option Bytes) : Bytes := nonce.getD (List.replicate NONCE_LENGTH 0)

section Lemmas

theorem parseNonce_length {query : Option String} {nonce : Option Bytes} (h : parseNonce query = .ok nonce)
    : ∀ bytes, nonce = some bytes → bytes.length = NONCE_LENGTH := by
  rintro bytes rfl
  unfold parseNonce at h
  split at h
  next => cases h
  next value =>
    split at h
    next => cases h
    next =>
      simp only at h
      split at h
      next hhex =>
        cases h
        exact (readDigits_fromHex NONCE_LENGTH 0 _ hhex.1 (List.all_eq_true.mp hhex.2)).1
      next => cases h

theorem coordinate_hex32 (n : Nat) : coordinate (hex32 n) = .ok (numberBytes 32 n) := by
  have hlength : (toHex (numberBytes 32 n)).length = 64 := by
    rw [length_toHex, length_numberBytes]
  have hall : (toHex (numberBytes 32 n)).all isHexDigit = true :=
    List.all_eq_true.mpr fun c hc => isHexDigit_of_mem_toHex hc
  unfold coordinate hex32
  rw [stripHexPrefix_prefixed]
  simp [hlength, hall, fromHex_toHex]

variable {keys : ServerKeys rt} {derived : DerivedKeys rt} {s : Enclave}

theorem DerivedKeys.encode_refundSigner (derived : DerivedKeys rt)
    : encodeRefundSignerPublicKey derived.refundSignerPublicKey
        = .ok (numberBytes 32 derived.refundSignerX ++ numberBytes 32 derived.refundSignerY) := by
  unfold encodeRefundSignerPublicKey refundSignerPublicKey
  rw [coordinate_hex32, coordinate_hex32]
  rfl

theorem ServerKeys.getPublicKeyBytes_length {key : Bytes} (h : keys.getPublicKeyBytes = some key)
    : key.length = MLKEM_PUBLIC_KEY_LENGTH := by
  unfold getPublicKeyBytes at h
  split at h
  next derived _ =>
    cases h
    exact derived.mlkemPublicKey_length
  next => exact keys.envPublicKey_length key h

theorem certificateHashHex_eq (certificate : Option Bytes)
    : ∃ bytes : Bytes, bytes.length = 32
        ∧ certificateHashHex rt.toCrypto certificate = String.ofList ('0' :: 'x' :: toHex bytes) := by
  cases certificate with
  | none =>
    have hzeros : toHex (List.replicate 32 0) = List.replicate 64 '0' := by decide
    exact ⟨List.replicate 32 0, by simp, by rw [hzeros]; rfl⟩
  | some der => exact ⟨rt.sha256 der, rt.sha256_length der, rfl⟩

theorem isHexBytes_certificateHashHex (certificate : Option Bytes)
    : isHexBytes 32 (certificateHashHex rt.toCrypto certificate) = true := by
  obtain ⟨bytes, hlength, heq⟩ := @certificateHashHex_eq rt certificate
  rw [heq, ← hlength]
  exact isHexBytes_toHex bytes

theorem toLowerCase_certificateHashHex (certificate : Option Bytes)
    : rt.toLowerCase (certificateHashHex rt.toCrypto certificate) = certificateHashHex rt.toCrypto certificate := by
  obtain ⟨bytes, -, heq⟩ := @certificateHashHex_eq rt certificate
  rw [heq]
  exact @toLowerCase_hex rt.toCrypto bytes

/-- Every manifest that is signed has the types of `KEY_MANIFEST_TYPES`. -/
theorem DerivedKeys.signKeyManifest_isTyped (derived : DerivedKeys rt) (certificate : Option Bytes)
    : (derived.signKeyManifest (certificateHashHex rt.toCrypto certificate) 1).manifest.isTyped = true := by
  have hcoordinate (n : Nat) : isHexBytes 32 (hex32 n) = true := by
    have h := isHexBytes_toHex (numberBytes 32 n)
    rwa [length_numberBytes] at h
  have hmlkem : isHexBytes 32 (sha256Hex rt.toCrypto derived.mlkemPublicKey) = true :=
    isHexBytes_certificateHashHex (some derived.mlkemPublicKey)
  unfold KeyManifest.isTyped signKeyManifest refundSignerPublicKey
  simp only [derived.appId_isAddress, derived.txSignerAddress_isAddress, hcoordinate, hmlkem,
    isHexBytes_certificateHashHex, Bool.and_self, Bool.true_and]
  rfl

end Lemmas

namespace Enclave

variable {keys : ServerKeys rt} {s : Enclave}

/-- The manifest that is kept was signed for the certificate it names. -/
def Signed (keys : ServerKeys rt) (s : Enclave) : Prop :=
  ∀ m, s.keyManifest = some m →
    ∃ derived, keys.derived = some derived ∧ m = derived.signKeyManifest m.manifest.tlsCertificateHash 1

theorem getKeyManifest_cases (keys : ServerKeys rt) (s : Enclave)
    : keys.derived = none ∧ s.getKeyManifest keys = (s, none)
      ∨ ∃ derived signed, keys.derived = some derived
          ∧ s.getKeyManifest keys = ({ s with keyManifest := some signed }, some signed)
          ∧ signed.manifest.tlsCertificateHash = s.tlsCertificateHash rt
          ∧ (s.keyManifest = some signed ∨ signed = derived.signKeyManifest (s.tlsCertificateHash rt) 1) := by
  unfold getKeyManifest
  cases hderived : keys.derived with
  | none => exact .inl ⟨rfl, rfl⟩
  | some derived =>
    simp only
    split
    next => exact .inr ⟨derived, _, rfl, rfl, rfl, .inr rfl⟩
    next hkept =>
      obtain ⟨m, hm, hhash⟩ := Option.map_eq_some_iff.mp (not_not.mp hkept)
      refine .inr ⟨derived, m, rfl, ?_, hhash, .inl hm⟩
      rw [← hm]

theorem Signed.step (h : s.Signed keys) (event : Event) : (s.step keys event).Signed keys := by
  cases event with
  | setTlsLeafCertificate certificate => exact h
  | getKeyManifest =>
    rcases getKeyManifest_cases keys s with ⟨-, heq⟩ | ⟨derived, signed, hderived, heq, hhash, hsigned⟩
    . simp only [Enclave.step, heq]
      exact h
    . simp only [Enclave.step, heq]
      rintro m ⟨rfl⟩
      rcases hsigned with hkept | hnew
      . exact h signed hkept
      . exact ⟨derived, hderived, by rw [hhash]; exact hnew⟩
  | restart =>
    intro m hm
    cases hm

theorem Signed.run (h : s.Signed keys) (events : List Event) : (s.run keys events).Signed keys := by
  induction events generalizing s with
  | nil => exact h
  | cons event events ih => exact ih (h.step event)

theorem Signed.start : start.Signed keys := by
  intro m hm
  cases hm

/-- Whenever it was signed, it is the manifest for the certificate of the moment. -/
theorem Signed.getKeyManifest_eq (h : s.Signed keys)
    : (s.getKeyManifest keys).2
        = keys.derived.map fun derived => derived.signKeyManifest (s.tlsCertificateHash rt) 1 := by
  rcases getKeyManifest_cases keys s with ⟨hnone, heq⟩ | ⟨derived, signed, hderived, heq, hhash, hkept | hnew⟩
  . rw [heq, hnone]
    rfl
  . obtain ⟨derived', hderived', hsigned⟩ := h signed hkept
    rw [heq, hderived', ← hhash]
    exact congrArg some hsigned
  . rw [heq, hderived]
    exact congrArg some hnew

theorem decodeCertificate_boundKeys {mlkem : String} {identity : Option String} {refundSigner : Option RefundSigner}
    (s : Enclave)
    : decodeCertificate rt.toCrypto ⟨mlkem, identity, refundSigner, s.certificate.map rt.toBase64⟩ = s.certificate := by
  unfold decodeCertificate certificate
  cases s.tlsLeafCertificate with
  | none => rfl
  | some certificate =>
    -- an empty string would stand for no certificate
    have hne : rt.toBase64 certificate.der ≠ "" := by
      intro hempty
      have hder := rt.fromBase64_toBase64 certificate.der
      rw [hempty, rt.fromBase64_empty] at hder
      exact certificate.der_ne_nil hder.symm
    simp [hne, rt.fromBase64_toBase64]

/-- The keys of an answer are decoded to the keys that its report data is built from. -/
theorem boundKeys_eq_ok {inputs : ReportDataInputs} {bound : BoundKeys}
    (h : s.boundKeys keys = .ok (inputs, bound))
    : decodeKeys rt.toCrypto bound = .ok inputs
        ∧ decodeCertificate rt.toCrypto bound = s.certificate
        ∧ decodeIdentity bound = keys.derived.map (·.identityPublicKey)
        ∧ keys.getPublicKeyBytes = some (rt.fromBase64 bound.mlkemPublicKey)
        ∧ bound.refundSignerPublicKey = keys.derived.map (·.refundSignerPublicKey) := by
  unfold boundKeys at h
  split at h
  next => cases h
  next mlkemPublicKey hkey =>
    simp only at h
    split at h
    next => cases h
    next refundSigner hrefund =>
      cases h
      have hidentity : decodeIdentity ⟨rt.toBase64 mlkemPublicKey, keys.derived.map (identityHex ·.identityPublicKey),
          keys.derived.map (·.refundSignerPublicKey), s.certificate.map rt.toBase64⟩
          = keys.derived.map (·.identityPublicKey) := by
        cases keys.derived with
        | none => rfl
        | some derived => exact decodeIdentity_identityHex ..
      refine ⟨?_, decodeCertificate_boundKeys s, hidentity, ?_, rfl⟩
      . unfold decodeKeys
        rw [hrefund, hidentity, decodeCertificate_boundKeys, rt.fromBase64_toBase64]
        rfl
      . rw [rt.fromBase64_toBase64]
        exact hkey

theorem boundKeys_isOk (s : Enclave) (h : keys.getPublicKeyBytes.isSome = true)
    : ∃ inputs bound, s.boundKeys keys = .ok (inputs, bound) ∧ inputs.mlkemPublicKey.length < 2 ^ 32
        ∧ (inputs.identityPublicKey.getD []).length < 2 ^ 32
        ∧ (inputs.refundSignerPublicKey.getD []).length < 2 ^ 32 := by
  obtain ⟨mlkemPublicKey, hkey⟩ := Option.isSome_iff_exists.mp h
  have hlength : mlkemPublicKey.length < 2 ^ 32 := by
    rw [keys.getPublicKeyBytes_length hkey]
    decide
  unfold boundKeys
  rw [hkey]
  cases keys.derived with
  | none => exact ⟨_, _, rfl, hlength, by simp, by simp⟩
  | some derived =>
    simp only [encodeRefundSigner, Option.map_some, derived.encode_refundSigner]
    refine ⟨_, _, rfl, hlength, ?_, ?_⟩
    . simp [derived.identityPublicKey_length, IDENTITY_PUBLIC_KEY_LENGTH]
    . simp [length_numberBytes]

theorem exists_commitmentInput {sha256 : Bytes → Bytes} {inputs : ReportDataInputs}
    (hlength : ∀ bytes, (sha256 bytes).length = 32) (hmlkem : inputs.mlkemPublicKey.length < 2 ^ 32)
    (hidentity : (inputs.identityPublicKey.getD []).length < 2 ^ 32)
    (hrefund : (inputs.refundSignerPublicKey.getD []).length < 2 ^ 32)
    : ∃ input, commitmentInput sha256 inputs = .ok input := by
  have hcertificate : (certificateHash sha256 inputs.tlsCertificateDer).length < 2 ^ 32 := by
    cases inputs.tlsCertificateDer with
    | none => simp [certificateHash]
    | some der => simp [certificateHash, hlength]
  obtain ⟨label, h1⟩ := lengthPrefixed_ok (by decide : REPORT_DATA_LABEL.length < 2 ^ 32)
  obtain ⟨ek, h2⟩ := lengthPrefixed_ok hmlkem
  obtain ⟨identity, h3⟩ := lengthPrefixed_ok hidentity
  obtain ⟨refundSigner, h4⟩ := lengthPrefixed_ok hrefund
  obtain ⟨certificate, h5⟩ := lengthPrefixed_ok hcertificate
  refine ⟨label ++ (ek ++ (identity ++ (refundSigner ++ certificate))), ?_⟩
  unfold commitmentInput
  rw [h1, h2, h3, h4, h5]
  rfl

theorem buildReportData_nonce {sha256 : Bytes → Bytes} {inputs : ReportDataInputs} {input : Bytes}
    {nonce : Option Bytes} (hinput : commitmentInput sha256 inputs = .ok input)
    (hnonce : ∀ bytes, nonce = some bytes → bytes.length = NONCE_LENGTH)
    : buildReportData sha256 inputs nonce = .ok (sha256 input ++ nonceTerm nonce) := by
  have hvalid : ¬ nonce.any (·.length ≠ NONCE_LENGTH) = true := by
    cases nonce with
    | none => simp
    | some bytes => simp [hnonce bytes rfl]
  unfold buildReportData
  rw [if_neg hvalid, hinput]
  rfl

variable {platform : TeePlatform} {machine : Machine} {query : Option String}

theorem getAttestation_eq_ok {answer : KeyBindingEvidence}
    (h : s.getAttestation keys platform machine query = .ok answer)
    : ∃ nonce inputs bound input quote eventLog, parseNonce query = .ok nonce ∧ s.boundKeys keys = .ok (inputs, bound)
        ∧ commitmentInput rt.sha256 inputs = .ok input
        ∧ machine.generateQuote rt (rt.sha256 input ++ nonceTerm nonce) platform = some (quote, eventLog)
        ∧ answer = evidence rt platform quote eventLog (rt.sha256 input ++ nonceTerm nonce) bound := by
  unfold getAttestation at h
  split at h
  next => cases h
  next => cases h
  next nonce inputs bound hnonce hbound =>
    split at h
    next => cases h
    next reportData hdata =>
      obtain ⟨-, input, hinput, rfl⟩ := buildReportData_eq_ok hdata
      split at h
      next => cases h
      next quote eventLog hquote =>
        cases h
        exact ⟨nonce, inputs, bound, input, quote, eventLog, hnonce, hbound, hinput, hquote, rfl⟩

/-- An attestation is given to every request with a nonce that can be read, once there is an ML-KEM key and unless
the platform fails. -/
theorem getAttestation_isOk {inputs : ReportDataInputs} {bound : BoundKeys} {input : Bytes}
    (hbound : s.boundKeys keys = .ok (inputs, bound)) (hinput : commitmentInput rt.sha256 inputs = .ok input)
    : (∃ answer, s.getAttestation keys platform machine query = .ok answer)
      ↔ ∃ nonce, parseNonce query = .ok nonce
          ∧ (machine.generateQuote rt (rt.sha256 input ++ nonceTerm nonce) platform).isSome = true := by
  constructor
  . rintro ⟨answer, h⟩
    obtain ⟨nonce, inputs', bound', input', quote, eventLog, hnonce, hbound', hinput', hquote, -⟩ :=
      getAttestation_eq_ok h
    obtain ⟨rfl, rfl⟩ := Prod.mk.inj (Except.ok.inj (hbound.symm.trans hbound'))
    obtain rfl := Except.ok.inj (hinput.symm.trans hinput')
    exact ⟨nonce, hnonce, by rw [hquote]; rfl⟩
  . rintro ⟨nonce, hnonce, hquote⟩
    obtain ⟨⟨quote, eventLog⟩, hquote⟩ := Option.isSome_iff_exists.mp hquote
    unfold getAttestation
    simp only [hnonce, hbound, buildReportData_nonce hinput (parseNonce_length hnonce), hquote]
    exact ⟨_, rfl⟩

/-- What the check makes of the signed manifest, given the keys that an attestation came with. -/
theorem verifyManifest_signed {derived : DerivedKeys rt} (hderived : keys.derived = some derived)
    {inputs : ReportDataInputs} {bound : BoundKeys} (hbound : s.boundKeys keys = .ok (inputs, bound))
    (s' : Enclave)
    : verifyManifest rt.toCrypto (derived.signKeyManifest (s'.tlsCertificateHash rt) 1) bound
        = .ok (if s'.tlsCertificateHash rt ≠ s.tlsCertificateHash rt then [.manifestCertificate] else []) := by
  obtain ⟨-, hcertificate, hidentity, hkey, hrefund⟩ := boundKeys_eq_ok hbound
  rw [hderived] at hidentity hrefund
  have hmlkem : rt.fromBase64 bound.mlkemPublicKey = derived.mlkemPublicKey := by
    unfold ServerKeys.getPublicKeyBytes at hkey
    rw [hderived] at hkey
    exact (Option.some.inj hkey).symm
  obtain ⟨signer, address, hsigner, hget, haddress⟩ :=
    derived.verifyTypedData_sign _ (derived.signKeyManifest_isTyped s'.certificate)
  obtain ⟨signed, hsigned⟩ : ∃ signed, derived.signKeyManifest (s'.tlsCertificateHash rt) 1 = signed := ⟨_, rfl⟩
  have hcoordinates : checkRefundSigner signed.manifest bound = .ok [] := by
    unfold checkRefundSigner
    simp [hrefund, ← hsigned, DerivedKeys.signKeyManifest, DerivedKeys.refundSignerPublicKey,
      BigInt_hex32 derived.refundSignerX_lt, BigInt_hex32 derived.refundSignerY_lt]
  have hkeyHash : rt.toLowerCase signed.manifest.mlkemPublicKeyHash
      = sha256Hex rt.toCrypto derived.mlkemPublicKey := by
    rw [← hsigned]
    exact toLowerCase_certificateHashHex (some derived.mlkemPublicKey)
  have hhash : rt.toLowerCase signed.manifest.tlsCertificateHash = s'.tlsCertificateHash rt := by
    rw [← hsigned]
    exact toLowerCase_certificateHashHex s'.certificate
  have hsignature : checkSignature rt.toCrypto signed derived.identityPublicKey = [] := by
    have hrecovered : rt.verifyTypedData signed.manifest signed.signature = some signer := by
      rw [← hsigned]
      exact hsigner
    unfold checkSignature
    simp [hrecovered, hget, haddress]
  rw [hsigned]
  unfold verifyManifest
  simp only [bind_eq_ok, pure_eq_ok]
  refine ⟨[], hcoordinates, ?_⟩
  have hbound' : certificateHashHex rt.toCrypto s.certificate = s.tlsCertificateHash rt := rfl
  rw [hmlkem, hkeyHash, hhash, hcertificate, hidentity, hbound']
  by_cases heq : s'.tlsCertificateHash rt = s.tlsCertificateHash rt
  . simp [heq, hsignature]
  . simp [heq, hsignature]

/-- What the check makes of a quote of one of the platforms. -/
theorem checkQuote_evidence {quote reportData expected : Bytes} {eventLog : Option (Option Json)} {bound : BoundKeys}
    (hagent : IsGuestAgent rt machine.getQuote) (hlength : reportData.length = TDX_REPORT_DATA_LENGTH)
    (hquote : machine.generateQuote rt reportData platform = some (quote, eventLog))
    : checkQuote rt.toCrypto (evidence rt platform quote eventLog reportData bound) expected
        = .ok (quoteFailures platform quote reportData expected) := by
  have htake : reportData.take 64 = reportData := List.take_of_length_le (Nat.le_of_eq hlength)
  unfold checkQuote
  cases platform with
  | phala =>
    simp only [Machine.generateQuote, htake, Option.map_eq_some_iff, Prod.mk.injEq] at hquote
    obtain ⟨response, hresponse, rfl, rfl⟩ := hquote
    obtain ⟨hdata, hlog⟩ := hagent reportData response hlength hresponse
    simp only [evidence, TeePlatform.name, isTdx, decide_true, Bool.true_or, if_true, rt.fromBase64_toBase64, hdata,
      quoteFailures]
    cases hevents : response.eventLog with
    | none => simp only [ite_not]
    | some eventLog => simp only [hlog eventLog hevents, List.map_nil, List.append_nil, ite_not]
  | intelTdx =>
    simp only [Machine.generateQuote, Option.map_eq_some_iff, Prod.mk.injEq] at hquote
    obtain ⟨quote, -, rfl, rfl⟩ := hquote
    have htdx : isTdx "intel-tdx" = true := by decide
    simp only [evidence, TeePlatform.name, htdx, if_true, rt.fromBase64_toBase64, quoteFailures]
    cases tdxQuoteReportData quote with
    | none => rfl
    | some attested => simp only [ite_not]
  | amdSevSnp => rfl
  | awsNitro => rfl
  | mock => rfl

/-- What the check makes of an attestation: the nonce is the one of the request, and the certificate the one
of the moment. -/
theorem verifyKeyBinding_evidence {inputs : ReportDataInputs} {bound : BoundKeys} {input quote : Bytes}
    {eventLog : Option (Option Json)} {nonce nonce' : Option Bytes} {failures : List BindingFailure}
    (hagent : IsGuestAgent rt machine.getQuote)
    (hbound : s.boundKeys keys = .ok (inputs, bound)) (hinput : commitmentInput rt.sha256 inputs = .ok input)
    (hnonce : ∀ bytes, nonce = some bytes → bytes.length = NONCE_LENGTH)
    (hquote : machine.generateQuote rt (rt.sha256 input ++ nonceTerm nonce) platform = some (quote, eventLog))
    (hnonce' : ∀ bytes, nonce' = some bytes → bytes.length = NONCE_LENGTH)
    (served : Option Bytes) (keyManifest : Option SignedKeyManifest)
    (hmanifest : checkManifest rt.toCrypto keyManifest bound = .ok failures)
    : verifyKeyBinding rt.toCrypto (evidence rt platform quote eventLog (rt.sha256 input ++ nonceTerm nonce) bound)
        ⟨nonce', served, keyManifest⟩
        = .ok ((if nonceTerm nonce ≠ nonceTerm nonce' then [.reportData] else [])
            ++ (checkCertificate served s.certificate
              ++ (quoteFailures platform quote (rt.sha256 input ++ nonceTerm nonce)
                  (rt.sha256 input ++ nonceTerm nonce')
                ++ failures))) := by
  obtain ⟨hinputs, hcertificate, -⟩ := boundKeys_eq_ok hbound
  have hlength := buildReportData_length rt.sha256_length (buildReportData_nonce hinput hnonce)
  let answer := evidence rt platform quote eventLog (rt.sha256 input ++ nonceTerm nonce) bound
  have hexpected : expectedReportData rt.toCrypto answer nonce' = .ok (rt.sha256 input ++ nonceTerm nonce') := by
    unfold expectedReportData
    simp only [bind_eq_ok]
    exact ⟨inputs, hinputs, buildReportData_nonce hinput hnonce'⟩
  have hreport : fromHex (stripHexPrefix answer.reportData).toList = rt.sha256 input ++ nonceTerm nonce := by
    simp only [answer, evidence]
    rw [stripHexPrefix_toHex, fromHex_toHex]
  unfold verifyKeyBinding
  simp only [bind_eq_ok, pure_eq_ok]
  refine ⟨_, hexpected, _, checkQuote_evidence hagent hlength hquote, failures, hmanifest, ?_⟩
  rw [hreport]
  simp [evidence, hcertificate]

/-- Any attestation of any platform, checked with any nonce, with any certificate and with the manifest that a
process of the same app returns at any other moment: what fails is the nonce, if it is another one, the
certificate, if the session is not with the process of the attestation, the quote of a platform whose quotes are
read, if it is for other report data, and the manifest, if it is for another certificate. -/
theorem run_verified (keys : ServerKeys rt) (events events' : List Event) (platform : TeePlatform) (machine : Machine)
    (hagent : IsGuestAgent rt machine.getQuote)
    : let s := start.run keys events
      let s' := start.run keys events'
      ∃ commitment : Bytes, ∀ query,
        ((∃ answer, s.getAttestation keys platform machine query = .ok answer)
          ↔ ∃ nonce, parseNonce query = .ok nonce ∧ keys.getPublicKeyBytes.isSome = true
              ∧ (machine.generateQuote rt (commitment ++ nonceTerm nonce) platform).isSome = true)
        ∧ ∀ nonce answer, parseNonce query = .ok nonce → s.getAttestation keys platform machine query = .ok answer →
          ∀ nonce' : Option Bytes, (∀ bytes, nonce' = some bytes → bytes.length = NONCE_LENGTH) → ∀ served,
            verifyKeyBinding rt.toCrypto answer ⟨nonce', served, (s'.getKeyManifest keys).2⟩
              = .ok ((if nonceTerm nonce ≠ nonceTerm nonce' then [.reportData] else [])
                ++ (checkCertificate served s.certificate
                  ++ (quoteFailures platform (rt.fromBase64 answer.quote) (commitment ++ nonceTerm nonce)
                      (commitment ++ nonceTerm nonce')
                    ++ if keys.derived.isSome = true ∧ s'.tlsCertificateHash rt ≠ s.tlsCertificateHash rt then
                        [.manifestCertificate]
                      else
                        []))) := by
  intro s s'
  cases hkey : keys.getPublicKeyBytes with
  | none =>
    have hrefused (query : Option String) (answer : KeyBindingEvidence)
        : s.getAttestation keys platform machine query ≠ .ok answer := by
      intro h
      obtain ⟨_, _, _, _, _, _, -, hbound, -⟩ := getAttestation_eq_ok h
      obtain ⟨-, -, -, hsome, -⟩ := boundKeys_eq_ok hbound
      rw [hkey] at hsome
      cases hsome
    refine ⟨[], fun query => ⟨⟨fun ⟨answer, h⟩ => absurd h (hrefused query answer), ?_⟩, ?_⟩⟩
    . rintro ⟨-, -, hnone, -⟩
      cases hnone
    . exact fun _ answer _ h => absurd h (hrefused query answer)
  | some key =>
    obtain ⟨inputs, bound, hbound, hmlkem, hidentity, hrefund⟩ := s.boundKeys_isOk (by rw [hkey]; rfl)
    obtain ⟨input, hinput⟩ := exists_commitmentInput rt.sha256_length hmlkem hidentity hrefund
    refine ⟨rt.sha256 input, fun query => ⟨?_, fun nonce answer hquery h nonce' hnonce' served => ?_⟩⟩
    . simpa only [Option.isSome_some, true_and] using getAttestation_isOk hbound hinput
    obtain ⟨nonce, inputs', bound', input', quote, eventLog, hparsed, hbound', hinput', hquote, rfl⟩ :=
      getAttestation_eq_ok h
    obtain rfl := Except.ok.inj (hparsed.symm.trans hquery)
    obtain ⟨rfl, rfl⟩ := Prod.mk.inj (Except.ok.inj (hbound.symm.trans hbound'))
    obtain rfl := Except.ok.inj (hinput.symm.trans hinput')
    have hdecoded : rt.fromBase64 (evidence rt platform quote eventLog (rt.sha256 input ++ nonceTerm nonce) bound).quote
        = quote := rt.fromBase64_toBase64 quote
    have hsigned : s'.Signed keys := Signed.start.run events'
    rw [hdecoded]
    refine verifyKeyBinding_evidence hagent hbound hinput (parseNonce_length hparsed) hquote hnonce' served _ ?_
    rw [hsigned.getKeyManifest_eq]
    cases hderived : keys.derived with
    | none => simp [checkManifest]
    | some derived =>
      simp only [Option.map_some, checkManifest, Option.isSome_some, true_and]
      exact verifyManifest_signed hderived hbound s'

end Enclave

section Example

theorem filterMap_sextet (bytes : Bytes) (n : Nat)
    : ((encodeSextets bytes).map sextetChar ++ List.replicate n '=').filterMap sextet? = encodeSextets bytes := by
  have hsextet : ∀ n < 64, sextet? (sextetChar n) = some n := by decide +kernel
  have hpadding : (List.replicate n '=').filterMap sextet? = [] :=
    List.filterMap_eq_nil_iff.mpr fun c hc => by
      rw [List.eq_of_mem_replicate hc]
      decide
  rw [List.filterMap_append, hpadding, List.append_nil, List.filterMap_map]
  calc (encodeSextets bytes).filterMap (sextet? ∘ sextetChar)
    _ = (encodeSextets bytes).filterMap some :=
      List.filterMap_congr fun n hn => hsextet n (encodeSextets_lt bytes n hn)
    _ = encodeSextets bytes := List.filterMap_some

/-- `exampleCrypto`, with the padded base64 of Node. -/
def exampleEnclaveCrypto : EnclaveCrypto where
  toCrypto := exampleCrypto
  toBase64 bytes :=
    String.ofList ((encodeSextets bytes).map sextetChar ++ List.replicate ((3 - bytes.length % 3) % 3) '=')
  fromBase64_toBase64 bytes := by
    rw [exampleCrypto_fromBase64, decodeBase64, String.toList_ofList, filterMap_sextet, decodeSextets_encodeSextets]
  fromBase64_empty := rfl

def exampleAddress : String := String.ofList ('0' :: 'x' :: toHex (List.replicate 20 1))

theorem exampleAddress_isAddress : isHexBytes 20 exampleAddress = true :=
  isHexBytes_toHex (List.replicate 20 1)

def exampleServerKeys : ServerKeys exampleEnclaveCrypto where
  derived := some {
    mlkemPublicKey := List.replicate MLKEM_PUBLIC_KEY_LENGTH 2
    identityPublicKey := 4 :: List.replicate 64 3
    refundSignerX := 3
    refundSignerY := 4
    appId := exampleAddress
    txSignerAddress := exampleAddress
    sign := fun _ => ""
    mlkemPublicKey_length := List.length_replicate
    identityPublicKey_length := rfl
    refundSignerX_lt := by decide
    refundSignerY_lt := by decide
    appId_isAddress := exampleAddress_isAddress
    txSignerAddress_isAddress := exampleAddress_isAddress
    verifyTypedData_sign := fun _ _ => ⟨_, _, rfl, rfl, rfl⟩
  }
  envPublicKey := none
  envPublicKey_length := by simp

/-- A quote with nothing but the report data, from a machine that has recorded no events. -/
def exampleGetQuote (reportData : Bytes) : Option QuoteResponse :=
  some ⟨String.ofList (toHex (quoteOf reportData)), some (some (.arr []))⟩

/-- Has dstack, and nothing else. -/
def exampleMachine : Machine := ⟨exampleGetQuote, fun _ => none, fun _ => none, .epoch⟩

/-- Every register is still zero. -/
theorem parseRtmrs_zeros {front reportData : Bytes} (hfront : front = List.replicate TDX_REPORT_DATA_OFFSET 0)
    (hlength : reportData.length = TDX_REPORT_DATA_LENGTH)
    : parseRtmrs (front ++ reportData) = some (List.replicate 4 (toHex (List.replicate MEASUREMENT_LENGTH 0))) := by
  have hfrontLength : front.length = TDX_REPORT_DATA_OFFSET := by
    rw [hfront, List.length_replicate]
  have hshort : ¬ (front ++ reportData).length < TDX_QUOTE_BODY_END := by
    rw [List.length_append, hfrontLength, hlength]
    decide
  have hregister (offset : Nat) (h : offset + MEASUREMENT_LENGTH ≤ TDX_REPORT_DATA_OFFSET)
      : ((front ++ reportData).drop offset).take MEASUREMENT_LENGTH = List.replicate MEASUREMENT_LENGTH 0 := by
    rw [List.drop_append_of_le_length (by omega),
      List.take_append_of_le_length (by rw [List.length_drop]; omega), hfront, List.drop_replicate,
      List.take_replicate, Nat.min_eq_left (by omega)]
  have hregisters : TDX_QUOTE_RTMR_OFFSETS.map
      (fun offset => toHex (((front ++ reportData).drop offset).take MEASUREMENT_LENGTH))
      = TDX_QUOTE_RTMR_OFFSETS.map fun _ => toHex (List.replicate MEASUREMENT_LENGTH 0) := by
    refine List.map_congr_left fun offset hoffset => congrArg toHex (hregister offset ?_)
    revert offset
    decide
  unfold parseRtmrs
  rw [if_neg hshort, hregisters]
  rfl

theorem isGuestAgent_exampleGetQuote (rt : EnclaveCrypto) : IsGuestAgent rt exampleGetQuote := by
  intro reportData response hlength hresponse
  have hresponse : QuoteResponse.mk (String.ofList (toHex (quoteOf reportData))) (some (some (.arr []))) = response :=
    Option.some.inj hresponse
  subst hresponse
  simp only [stripHexPrefix_toHex, fromHex_toHex]
  refine ⟨tdxQuoteReportData_quoteOf hlength, fun eventLog heventLog => ?_⟩
  obtain rfl := Option.some.inj heventLog
  have hreplay : replayRtmrs rt.toRuntime (some (.arr [])) = .ok Replay.init := rfl
  unfold verifyEventLog quoteOf
  rw [parseRtmrs_zeros rfl hlength]
  simp only [hreplay]
  rfl

def exampleCertificate : Certificate := ⟨[0x30, 0x00], by decide⟩

def exampleSession : Enclave :=
  Enclave.start.run exampleServerKeys [.setTlsLeafCertificate exampleCertificate, .getKeyManifest]

/-- A client with the certificate of its session and the manifest finds no failures. -/
theorem run_verified_session
    : ∃ answer, exampleSession.getAttestation exampleServerKeys .phala exampleMachine none = .ok answer
        ∧ verifyKeyBinding exampleEnclaveCrypto.toCrypto answer
            ⟨none, some exampleCertificate.der, (exampleSession.getKeyManifest exampleServerKeys).2⟩ = .ok [] := by
  obtain ⟨commitment, hverified⟩ := Enclave.run_verified exampleServerKeys
    [.setTlsLeafCertificate exampleCertificate, .getKeyManifest]
    [.setTlsLeafCertificate exampleCertificate, .getKeyManifest] .phala exampleMachine
    (isGuestAgent_exampleGetQuote _)
  have hquote : (exampleMachine.generateQuote exampleEnclaveCrypto (commitment ++ nonceTerm none) .phala).isSome
      = true := by
    simp [Machine.generateQuote, exampleMachine, exampleGetQuote]
  obtain ⟨answer, hanswer⟩ := (hverified none).1.mpr ⟨none, rfl, rfl, hquote⟩
  have hchecked := (hverified none).2 none answer rfl hanswer none (by simp) (some exampleCertificate.der)
  refine ⟨answer, hanswer, hchecked.trans ?_⟩
  have hcertificate : exampleSession.certificate = some exampleCertificate.der := rfl
  rw [exampleSession] at hcertificate
  simp [hcertificate, checkCertificate, quoteFailures]

end Example

end Attestation
end Longjing
