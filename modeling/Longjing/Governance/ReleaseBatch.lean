import Longjing.Attestation.KeyBinding
import Longjing.Lib.Abi

/-!
This module contains `buildReleaseBatch` of `release-batch.ts`: the timelock batch of a release, and what
the id of its operation says of it.
-/

namespace Longjing
namespace Governance

open Attestation (Bytes fromHex toHex hexChar isHexBytes Collides)
open Server (isHexDigit)
open Js (hexDigit?)
open Abi Fallible

/-- On the text of a hash: whatever other letters become, they are no hexadecimal digits, before or after. -/
def toLowerCase (value : String) : String := String.ofList (value.toList.map Char.toLower)

/-- What the batch uses of ethers; `none` is a throw. -/
structure Ethers where
  keccak256 : Bytes → Bytes
  keccak256_length : ∀ input, (keccak256 input).length = 32
  getAddress : String → Option Bytes
  getAddress_length : ∀ value address, getAddress value = some address → address.length = 20

def ZeroHash : String := String.ofList ('0' :: 'x' :: List.replicate 64 '0')

def bytes32 (value : String) : Option Bytes :=
  if isHexBytes 32 value then some (fromHex (value.toList.drop 2)) else none

def bytes32Part (value : String) : Option Part :=
  (bytes32 value).map fun bytes => ⟨false, bytes⟩

def uint256Part (value : Int) : Option Part :=
  if 0 ≤ value then (word value.toNat).map fun bytes => ⟨false, bytes⟩ else none

def bytesPart (value : Bytes) : Option Part :=
  (encodeBytes value).map fun bytes => ⟨true, bytes⟩

def arrayPart (elements : List Part) : Option Part :=
  (encodeArray elements).map fun bytes => ⟨true, bytes⟩

structure Options where
  appOwner : String
  timelock : String
  delay : Int
  composeHash : String
  allowed : List String
deriving DecidableEq, Repr

structure Transaction where
  toAddress : String
  data : Bytes
deriving DecidableEq, Repr

structure ReleaseBatch where
  composeHash : String
  retired : List String
  operationId : Bytes
  schedule : Transaction
  execute : Transaction
deriving DecidableEq, Repr

/-- The arguments by which the timelock knows an operation. -/
structure Operation where
  targets : List String
  values : List Int
  payloads : List Bytes
  predecessor : String
  salt : String
deriving DecidableEq, Repr

section Build

variable (ethers : Ethers)

def addressPart (value : String) : Option Part :=
  (ethers.getAddress value).map fun address => ⟨false, List.replicate 12 0 ++ address⟩

def selector (signature : String) : Bytes :=
  (ethers.keccak256 signature.toUTF8.data.toList).take 4

def encodeFunctionData (signature : String) (arguments : List Part) : Option Bytes := do
  let encoded ← pack arguments
  some (selector ethers signature ++ encoded)

def addComposeHash (hash : String) : Option Bytes := do
  let argument ← bytes32Part hash
  encodeFunctionData ethers "addComposeHash(bytes32)" [argument]

def removeComposeHash (hash : String) : Option Bytes := do
  let argument ← bytes32Part hash
  encodeFunctionData ethers "removeComposeHash(bytes32)" [argument]

/-- The call of the app's owner that forwards a call to the app. -/
def executeCall (call : Bytes) : Option Bytes := do
  let argument ← bytesPart call
  encodeFunctionData ethers "execute(bytes)" [argument]

namespace Options

def release (o : Options) : String := toLowerCase o.composeHash

def retired (o : Options) : List String :=
  (o.allowed.map toLowerCase).filter (· ≠ o.release)

def calls (o : Options) : Option (List Bytes) := do
  let add ← addComposeHash ethers o.release
  let removals ← o.retired.mapM (removeComposeHash ethers)
  some (add :: removals)

def operation (o : Options) : Option Operation := do
  let calls ← o.calls ethers
  let payloads ← calls.mapM (executeCall ethers)
  some
    { targets := calls.map fun _ => o.appOwner
      values := calls.map fun _ => 0
      payloads
      predecessor := ZeroHash
      -- the compose hash as salt
      salt := o.release }

end Options

/-- `address[]`, `uint256[]`, `bytes[]`, `bytes32` and `bytes32`. -/
def Operation.arguments (o : Operation) : Option (List Part) := do
  let targets ← o.targets.mapM (addressPart ethers)
  let targets ← arrayPart targets
  let values ← o.values.mapM uint256Part
  let values ← arrayPart values
  let payloads ← o.payloads.mapM bytesPart
  let payloads ← arrayPart payloads
  let predecessor ← bytes32Part o.predecessor
  let salt ← bytes32Part o.salt
  some [targets, values, payloads, predecessor, salt]

/-- What the id of the operation is the hash of. -/
def Options.encodedOperation (o : Options) : Option Bytes := do
  let operation ← o.operation ethers
  let arguments ← operation.arguments ethers
  pack arguments

def buildReleaseBatch (o : Options) : Option ReleaseBatch := do
  let operation ← o.operation ethers
  let arguments ← operation.arguments ethers
  let encoded ← pack arguments
  let delay ← uint256Part o.delay
  let schedule ← encodeFunctionData ethers
    "scheduleBatch(address[],uint256[],bytes[],bytes32,bytes32,uint256)" (arguments ++ [delay])
  let execute ← encodeFunctionData ethers
    "executeBatch(address[],uint256[],bytes[],bytes32,bytes32)" arguments
  some
    { composeHash := o.release
      retired := o.retired
      operationId := ethers.keccak256 encoded
      schedule := ⟨o.timelock, schedule⟩
      execute := ⟨o.timelock, execute⟩ }

def hashOf (value : String) : Option Bytes := bytes32 (toLowerCase value)

/-- The compose hash of a release, and the other hashes that were allowed. -/
def move (o : Options) : Option Bytes × List (Option Bytes) :=
  (hashOf o.composeHash,
    (o.allowed.map hashOf).filter (· ≠ hashOf o.composeHash))

end Build

section Hex

theorem toLower_not_upper (c : Char) : c.toLower.isUpper = false := by
  unfold Char.toLower Char.isUpper
  split
  next h =>
    have hA : ('A' : Char).val.toNat = 65 := rfl
    have hZ : ('Z' : Char).val.toNat = 90 := rfl
    have hoffset : ('a'.val - 'A'.val).toNat = 32 := rfl
    simp only [ge_iff_le, UInt32.le_iff_toNat_le] at h
    simp only [decide_eq_false_iff_not, ge_iff_le, UInt32.le_iff_toNat_le, UInt32.toNat_add]
    omega
  next h => simpa using h

theorem toLowerCase_not_upper (value : String) : ∀ c ∈ (toLowerCase value).toList, c.isUpper = false := by
  intro c hc
  rw [toLowerCase, String.toList_ofList] at hc
  obtain ⟨d, -, rfl⟩ := List.mem_map.mp hc
  exact toLower_not_upper d

theorem hexChar_of_not_upper {c : Char} {d : Nat} (h : hexDigit? c = some d) (hupper : c.isUpper = false)
    : hexChar d = c := by
  have hdigit (n : Nat) (hn : n < 10) : hexChar n = Char.ofNat (n + 48) := by
    revert n
    decide
  have hletter (n : Nat) (hn : n < 6) : hexChar (n + 10) = Char.ofNat (n + 97) := by
    revert n
    decide
  unfold hexDigit? at h
  simp only [Char.le_def, UInt32.le_iff_toNat_le] at h
  have h0 : ('0' : Char).toNat = 48 := rfl
  have ha : ('a' : Char).toNat = 97 := rfl
  have hv : c.toNat = c.val.toNat := rfl
  have h0' : ('0' : Char).val.toNat = 48 := rfl
  have h9' : ('9' : Char).val.toNat = 57 := rfl
  have ha' : ('a' : Char).val.toNat = 97 := rfl
  have hf' : ('f' : Char).val.toNat = 102 := rfl
  split at h
  next hc =>
    obtain rfl := Option.some.inj h
    rw [hdigit _ (by omega), h0, Nat.sub_add_cancel (by omega), Char.ofNat_toNat]
  next =>
    split at h
    next hc =>
      obtain rfl := Option.some.inj h
      rw [hletter _ (by omega), ha, Nat.sub_add_cancel (by omega), Char.ofNat_toNat]
    next =>
      split at h
      next hc =>
        -- an upper case letter
        have hcase : ¬(c.val ≥ 'A'.val ∧ c.val ≤ 'Z'.val) := of_decide_eq_false hupper
        simp only [ge_iff_le, UInt32.le_iff_toNat_le] at hcase
        have hA' : ('A' : Char).val.toNat = 65 := rfl
        have hF' : ('F' : Char).val.toNat = 70 := rfl
        have hZ' : ('Z' : Char).val.toNat = 90 := rfl
        omega
      next => contradiction

theorem toHex_fromHex (n : Nat) (cs : List Char) (hlength : cs.length = 2 * n)
    (hdigits : ∀ c ∈ cs, isHexDigit c = true) (hupper : ∀ c ∈ cs, c.isUpper = false)
    : toHex (fromHex cs) = cs := by
  induction n generalizing cs with
  | zero =>
    rw [Nat.mul_zero, List.length_eq_zero_iff] at hlength
    rw [hlength]
    rfl
  | succ n ih =>
    match cs, hlength with
    | high :: low :: rest, hlength =>
      obtain ⟨hi, hhi⟩ := Option.isSome_iff_exists.mp (hdigits high (by simp))
      obtain ⟨lo, hlo⟩ := Option.isSome_iff_exists.mp (hdigits low (by simp))
      have hrest := ih rest (by simp at hlength; omega) (fun c hc => hdigits c (by simp [hc]))
        (fun c hc => hupper c (by simp [hc]))
      have hilt := Server.hexDigit?_lt hhi
      have hlolt := Server.hexDigit?_lt hlo
      have hbyte : (UInt8.ofNat (16 * hi + lo)).toNat = 16 * hi + lo := by
        rw [UInt8.toNat_ofNat']
        omega
      have hdiv : (16 * hi + lo) / 16 = hi := by omega
      have hmod : (16 * hi + lo) % 16 = lo := by omega
      simp only [fromHex, hhi, hlo]
      rw [Attestation.toHex, List.flatMap_cons, hbyte, hdiv, hmod,
        hexChar_of_not_upper hhi (hupper high (by simp)), hexChar_of_not_upper hlo (hupper low (by simp))]
      exact congrArg (high :: low :: ·) hrest

theorem bytes32_eq_some {value : String} {bytes : Bytes} (h : bytes32 value = some bytes)
    : ∃ hex, value.toList = '0' :: 'x' :: hex ∧ hex.length = 2 * 32
      ∧ (∀ c ∈ hex, isHexDigit c = true) ∧ bytes = fromHex hex := by
  unfold bytes32 at h
  split at h
  next hvalue =>
    obtain rfl := Option.some.inj h
    unfold isHexBytes at hvalue
    split at hvalue
    next hex heq =>
      simp only [Bool.and_eq_true, decide_eq_true_eq, List.all_eq_true] at hvalue
      exact ⟨hex, heq, hvalue.1, hvalue.2, by simp [heq]⟩
    next => contradiction
  next => contradiction

theorem length_bytes32 {value : String} {bytes : Bytes} (h : bytes32 value = some bytes)
    : bytes.length = 32 := by
  obtain ⟨hex, -, hlength, hdigits, rfl⟩ := bytes32_eq_some h
  exact (Attestation.readDigits_fromHex 32 0 hex hlength hdigits).1

theorem bytes32_injective {a b : String} {bytes : Bytes} (ha : bytes32 a = some bytes)
    (hb : bytes32 b = some bytes) (hlower : ∀ c ∈ a.toList, c.isUpper = false)
    (hlower' : ∀ c ∈ b.toList, c.isUpper = false) : a = b := by
  obtain ⟨hex, htext, hlength, hdigits, rfl⟩ := bytes32_eq_some ha
  obtain ⟨hex', htext', hlength', hdigits', heq⟩ := bytes32_eq_some hb
  have hhex := toHex_fromHex 32 hex hlength hdigits (fun c hc => hlower c (by simp [htext, hc]))
  have hhex' := toHex_fromHex 32 hex' hlength' hdigits' (fun c hc => hlower' c (by simp [htext', hc]))
  rw [String.ext_iff, htext, htext', ← hhex, ← hhex', heq]

end Hex

section Build

variable {ethers : Ethers}

theorem pack_static (bytes : Bytes) : pack [⟨false, bytes⟩] = some bytes := by
  simp [pack, heads, tails]

theorem addComposeHash_eq (hash : String)
    : addComposeHash ethers hash
      = (bytes32 hash).map (selector ethers "addComposeHash(bytes32)" ++ ·) := by
  unfold addComposeHash bytes32Part encodeFunctionData
  cases bytes32 hash with
  | none => rfl
  | some bytes => simp [pack_static]

theorem removeComposeHash_eq (hash : String)
    : removeComposeHash ethers hash
      = (bytes32 hash).map (selector ethers "removeComposeHash(bytes32)" ++ ·) := by
  unfold removeComposeHash bytes32Part encodeFunctionData
  cases bytes32 hash with
  | none => rfl
  | some bytes => simp [pack_static]

theorem encodeFunctionData_injective {signature : String} {ps qs : List Part} {data : Bytes}
    (haligned : List.Forall₂ Aligned ps qs) (hp : encodeFunctionData ethers signature ps = some data)
    (hq : encodeFunctionData ethers signature qs = some data) : ps = qs := by
  obtain ⟨encoded, hencoded, hp⟩ := Option.bind_eq_some_iff.mp hp
  obtain ⟨encoded', hencoded', hq⟩ := Option.bind_eq_some_iff.mp hq
  have heq := List.append_cancel_left (Option.some.inj (hp.trans hq.symm))
  exact pack_injective haligned hencoded (heq ▸ hencoded')

theorem bytesPart_aligned {a b : Bytes} {p q : Part} (hp : bytesPart a = some p)
    (hq : bytesPart b = some q) : Aligned p q := by
  obtain ⟨encoded, hencoded, rfl⟩ := Option.map_eq_some_iff.mp hp
  obtain ⟨encoded', hencoded', rfl⟩ := Option.map_eq_some_iff.mp hq
  exact .of_encodeBytes hencoded hencoded'

theorem bytesPart_injective {a b : Bytes} {p : Part} (ha : bytesPart a = some p)
    (hb : bytesPart b = some p) : a = b := by
  obtain ⟨encoded, hencoded, rfl⟩ := Option.map_eq_some_iff.mp ha
  obtain ⟨encoded', hencoded', heq⟩ := Option.map_eq_some_iff.mp hb
  cases heq
  exact encodeBytes_injective hencoded hencoded'

theorem executeCall_injective {call call' payload : Bytes} (h : executeCall ethers call = some payload)
    (h' : executeCall ethers call' = some payload) : call = call' := by
  obtain ⟨part, hpart, h⟩ := Option.bind_eq_some_iff.mp h
  obtain ⟨part', hpart', h'⟩ := Option.bind_eq_some_iff.mp h'
  have hparts := encodeFunctionData_injective (.cons (bytesPart_aligned hpart hpart') .nil) h h'
  cases hparts
  exact bytesPart_injective hpart hpart'

theorem addressPart_aligned {a b : String} {p q : Part} (hp : addressPart ethers a = some p)
    (hq : addressPart ethers b = some q) : Aligned p q := by
  obtain ⟨address, haddress, rfl⟩ := Option.map_eq_some_iff.mp hp
  obtain ⟨address', haddress', rfl⟩ := Option.map_eq_some_iff.mp hq
  apply Aligned.of_length
  rw [List.length_append, List.length_append, ethers.getAddress_length _ _ haddress,
    ethers.getAddress_length _ _ haddress']

theorem uint256Part_aligned {a b : Int} {p q : Part} (hp : uint256Part a = some p)
    (hq : uint256Part b = some q) : Aligned p q := by
  unfold uint256Part at hp hq
  split at hp
  next =>
    split at hq
    next =>
      obtain ⟨bytes, hbytes, rfl⟩ := Option.map_eq_some_iff.mp hp
      obtain ⟨bytes', hbytes', rfl⟩ := Option.map_eq_some_iff.mp hq
      exact .of_length (by rw [length_of_word hbytes, length_of_word hbytes'])
    next => contradiction
  next => contradiction

theorem bytes32Part_aligned {a b : String} {p q : Part} (hp : bytes32Part a = some p)
    (hq : bytes32Part b = some q) : Aligned p q := by
  obtain ⟨bytes, hbytes, rfl⟩ := Option.map_eq_some_iff.mp hp
  obtain ⟨bytes', hbytes', rfl⟩ := Option.map_eq_some_iff.mp hq
  exact .of_length (by rw [length_bytes32 hbytes, length_bytes32 hbytes'])

theorem arrayPart_aligned {ps qs : List Part} {p q : Part} (h : ∀ a ∈ ps, ∀ b ∈ qs, Aligned a b)
    (hp : arrayPart ps = some p) (hq : arrayPart qs = some q) : Aligned p q := by
  obtain ⟨bytes, hbytes, rfl⟩ := Option.map_eq_some_iff.mp hp
  obtain ⟨bytes', hbytes', rfl⟩ := Option.map_eq_some_iff.mp hq
  exact .of_encodeArray h hbytes hbytes'

theorem arrayPart_injective {ps qs : List Part} {p : Part} (h : ∀ a ∈ ps, ∀ b ∈ qs, Aligned a b)
    (hp : arrayPart ps = some p) (hq : arrayPart qs = some p) : ps = qs := by
  obtain ⟨bytes, hbytes, rfl⟩ := Option.map_eq_some_iff.mp hp
  obtain ⟨bytes', hbytes', heq⟩ := Option.map_eq_some_iff.mp hq
  cases heq
  exact encodeArray_injective h hbytes hbytes'

theorem mapM_aligned {α : Type} {f : α → Option Part}
    (hf : ∀ x y p q, f x = some p → f y = some q → Aligned p q)
    {xs ys : List α} {ps qs : List Part} (hp : xs.mapM f = some ps) (hq : ys.mapM f = some qs)
    : ∀ p ∈ ps, ∀ q ∈ qs, Aligned p q := by
  intro p hpmem q hqmem
  obtain ⟨x, -, hx⟩ := exists_of_mem_mapM hp hpmem
  obtain ⟨y, -, hy⟩ := exists_of_mem_mapM hq hqmem
  exact hf x y p q hx hy

theorem arguments_eq_some {o : Operation} {ps : List Part} (h : o.arguments ethers = some ps)
    : ∃ targets values payloads targetsPart valuesPart payloadsPart predecessor salt,
        o.targets.mapM (addressPart ethers) = some targets ∧ arrayPart targets = some targetsPart
          ∧ o.values.mapM uint256Part = some values ∧ arrayPart values = some valuesPart
          ∧ o.payloads.mapM bytesPart = some payloads ∧ arrayPart payloads = some payloadsPart
          ∧ bytes32Part o.predecessor = some predecessor ∧ bytes32Part o.salt = some salt
          ∧ ps = [targetsPart, valuesPart, payloadsPart, predecessor, salt] := by
  obtain ⟨targets, htargets, h⟩ := Option.bind_eq_some_iff.mp h
  obtain ⟨targetsPart, htargetsPart, h⟩ := Option.bind_eq_some_iff.mp h
  obtain ⟨values, hvalues, h⟩ := Option.bind_eq_some_iff.mp h
  obtain ⟨valuesPart, hvaluesPart, h⟩ := Option.bind_eq_some_iff.mp h
  obtain ⟨payloads, hpayloads, h⟩ := Option.bind_eq_some_iff.mp h
  obtain ⟨payloadsPart, hpayloadsPart, h⟩ := Option.bind_eq_some_iff.mp h
  obtain ⟨predecessor, hpredecessor, h⟩ := Option.bind_eq_some_iff.mp h
  obtain ⟨salt, hsalt, h⟩ := Option.bind_eq_some_iff.mp h
  exact ⟨targets, values, payloads, targetsPart, valuesPart, payloadsPart, predecessor, salt, htargets,
    htargetsPart, hvalues, hvaluesPart, hpayloads, hpayloadsPart, hpredecessor, hsalt,
    (Option.some.inj h).symm⟩

theorem payloads_of_arguments {o o' : Operation} {ps qs : List Part} {encoded : Bytes}
    (hp : o.arguments ethers = some ps) (hq : o'.arguments ethers = some qs)
    (hpack : pack ps = some encoded) (hpack' : pack qs = some encoded) : o.payloads = o'.payloads := by
  obtain ⟨targets, values, payloads, targetsPart, valuesPart, payloadsPart, predecessor, salt, htargets,
    htargetsPart, hvalues, hvaluesPart, hpayloads, hpayloadsPart, hpredecessor, hsalt, rfl⟩ :=
    arguments_eq_some hp
  obtain ⟨targets', values', payloads', targetsPart', valuesPart', payloadsPart', predecessor', salt',
    htargets', htargetsPart', hvalues', hvaluesPart', hpayloads', hpayloadsPart', hpredecessor', hsalt',
    rfl⟩ := arguments_eq_some hq
  have htargetsAligned := arrayPart_aligned
    (mapM_aligned (fun _ _ _ _ => addressPart_aligned) htargets htargets') htargetsPart htargetsPart'
  have hvaluesAligned := arrayPart_aligned
    (mapM_aligned (fun _ _ _ _ => uint256Part_aligned) hvalues hvalues') hvaluesPart hvaluesPart'
  have hbytes := mapM_aligned (fun _ _ _ _ => bytesPart_aligned) hpayloads hpayloads'
  have hpayloadsAligned := arrayPart_aligned hbytes hpayloadsPart hpayloadsPart'
  have hparts := pack_injective
    (.cons htargetsAligned (.cons hvaluesAligned (.cons hpayloadsAligned
      (.cons (bytes32Part_aligned hpredecessor hpredecessor')
        (.cons (bytes32Part_aligned hsalt hsalt') .nil))))) hpack hpack'
  simp only [List.cons.injEq, and_true] at hparts
  obtain ⟨-, -, rfl, -, -⟩ := hparts
  obtain rfl := arrayPart_injective hbytes hpayloadsPart hpayloadsPart'
  exact mapM_injective (fun _ _ _ => bytesPart_injective) hpayloads hpayloads'

namespace Options

theorem calls_eq_some {o : Options} {calls : List Bytes} (h : o.calls ethers = some calls)
    : ∃ (hash : Bytes) (hashes : List Bytes), bytes32 o.release = some hash
      ∧ o.retired.map bytes32 = hashes.map some
      ∧ calls = (selector ethers "addComposeHash(bytes32)" ++ hash)
        :: hashes.map (selector ethers "removeComposeHash(bytes32)" ++ ·) := by
  obtain ⟨add, hadd, h⟩ := Option.bind_eq_some_iff.mp h
  obtain ⟨removals, hremovals, h⟩ := Option.bind_eq_some_iff.mp h
  rw [addComposeHash_eq] at hadd
  obtain ⟨hash, hhash, rfl⟩ := Option.map_eq_some_iff.mp hadd
  rw [funext removeComposeHash_eq] at hremovals
  obtain ⟨hashes, hhashes, rfl⟩ := exists_of_mapM_map hremovals
  exact ⟨hash, hashes, hhash, hhashes, (Option.some.inj h).symm⟩

theorem release_not_upper (o : Options) : ∀ c ∈ o.release.toList, c.isUpper = false :=
  toLowerCase_not_upper _

theorem hashOf_eq_release {o : Options} {value : String} {hash : Bytes}
    (h : bytes32 o.release = some hash)
    : hashOf value = some hash ↔ toLowerCase value = o.release := by
  constructor
  . intro hvalue
    exact bytes32_injective hvalue h (toLowerCase_not_upper _) o.release_not_upper
  . intro hvalue
    rw [hashOf, hvalue, h]

theorem map_retired {o : Options} {hash : Bytes} (h : bytes32 o.release = some hash)
    : o.retired.map bytes32 = (o.allowed.map hashOf).filter (· ≠ some hash) := by
  have hfilter : o.retired
      = (o.allowed.filter fun value => hashOf value ≠ some hash).map toLowerCase := by
    rw [retired, List.filter_map]
    congr 1
    apply List.filter_congr
    intro value _
    simp [hashOf_eq_release h]
  rw [hfilter, List.map_map, List.filter_map]
  rfl

theorem move_of_calls {o : Options} {hash : Bytes} {hashes : List Bytes}
    (hhash : bytes32 o.release = some hash)
    (hhashes : o.retired.map bytes32 = hashes.map some)
    : move o = (some hash, hashes.map some) := by
  have hrelease : hashOf o.composeHash = some hash := hhash
  rw [move, hrelease, ← map_retired hhash, hhashes]

theorem operation_eq_some {o : Options} {operation : Operation} (h : o.operation ethers = some operation)
    : ∃ calls payloads, o.calls ethers = some calls ∧ calls.mapM (executeCall ethers) = some payloads
      ∧ operation = ⟨calls.map fun _ => o.appOwner, calls.map fun _ => 0, payloads, ZeroHash,
        o.release⟩ := by
  obtain ⟨calls, hcalls, h⟩ := Option.bind_eq_some_iff.mp h
  obtain ⟨payloads, hpayloads, h⟩ := Option.bind_eq_some_iff.mp h
  exact ⟨calls, payloads, hcalls, hpayloads, (Option.some.inj h).symm⟩

theorem encodedOperation_eq_some {o : Options} {encoded : Bytes}
    (h : o.encodedOperation ethers = some encoded)
    : ∃ operation arguments, o.operation ethers = some operation
      ∧ operation.arguments ethers = some arguments ∧ pack arguments = some encoded := by
  obtain ⟨operation, hoperation, h⟩ := Option.bind_eq_some_iff.mp h
  obtain ⟨arguments, harguments, h⟩ := Option.bind_eq_some_iff.mp h
  exact ⟨operation, arguments, hoperation, harguments, h⟩

theorem move_of_encodedOperation {o o' : Options} {encoded : Bytes}
    (h : o.encodedOperation ethers = some encoded)
    (h' : o'.encodedOperation ethers = some encoded) : move o = move o' := by
  obtain ⟨operation, arguments, hoperation, harguments, hpack⟩ := encodedOperation_eq_some h
  obtain ⟨operation', arguments', hoperation', harguments', hpack'⟩ := encodedOperation_eq_some h'
  have hpayloads := payloads_of_arguments harguments harguments' hpack hpack'
  obtain ⟨calls, payloads, hcalls, hexecute, rfl⟩ := operation_eq_some hoperation
  obtain ⟨calls', payloads', hcalls', hexecute', rfl⟩ := operation_eq_some hoperation'
  cases hpayloads
  obtain rfl := mapM_injective (fun _ _ _ => executeCall_injective) hexecute hexecute'
  obtain ⟨hash, hashes, hhash, hhashes, heq⟩ := calls_eq_some hcalls
  obtain ⟨hash', hashes', hhash', hhashes', heq'⟩ := calls_eq_some hcalls'
  rw [heq, List.cons.injEq, List.append_cancel_left_eq] at heq'
  obtain ⟨rfl, hmap⟩ := heq'
  have hinjective : Function.Injective (selector ethers "removeComposeHash(bytes32)" ++ ·) :=
    fun _ _ => List.append_cancel_left
  obtain rfl := List.map_injective_iff.mpr hinjective hmap
  rw [move_of_calls hhash hhashes, move_of_calls hhash' hhashes']

theorem operation_of_move {o o' : Options} {operation operation' : Operation}
    (howner : o.appOwner = o'.appOwner) (hmove : move o = move o')
    (h : o.operation ethers = some operation) (h' : o'.operation ethers = some operation')
    : operation = operation' := by
  obtain ⟨calls, payloads, hcalls, hexecute, rfl⟩ := operation_eq_some h
  obtain ⟨calls', payloads', hcalls', hexecute', rfl⟩ := operation_eq_some h'
  obtain ⟨hash, hashes, hhash, hhashes, rfl⟩ := calls_eq_some hcalls
  obtain ⟨hash', hashes', hhash', hhashes', rfl⟩ := calls_eq_some hcalls'
  rw [move_of_calls hhash hhashes, move_of_calls hhash' hhashes', Prod.mk.injEq, Option.some.injEq]
    at hmove
  obtain ⟨rfl, hmap⟩ := hmove
  obtain rfl := List.map_injective_iff.mpr (Option.some_injective _) hmap
  obtain rfl := Option.some.inj (hexecute.symm.trans hexecute')
  rw [howner, bytes32_injective hhash hhash' o.release_not_upper o'.release_not_upper]

end Options

theorem buildReleaseBatch_eq_some {o : Options} {batch : ReleaseBatch}
    (h : buildReleaseBatch ethers o = some batch)
    : ∃ operation encoded, o.operation ethers = some operation
      ∧ o.encodedOperation ethers = some encoded ∧ batch.composeHash = o.release ∧ batch.retired = o.retired
      ∧ batch.operationId = ethers.keccak256 encoded := by
  obtain ⟨operation, hoperation, h⟩ := Option.bind_eq_some_iff.mp h
  obtain ⟨arguments, harguments, h⟩ := Option.bind_eq_some_iff.mp h
  obtain ⟨encoded, hpack, h⟩ := Option.bind_eq_some_iff.mp h
  obtain ⟨delay, hdelay, h⟩ := Option.bind_eq_some_iff.mp h
  obtain ⟨schedule, hschedule, h⟩ := Option.bind_eq_some_iff.mp h
  obtain ⟨execute, hexecute, h⟩ := Option.bind_eq_some_iff.mp h
  cases h
  refine ⟨operation, encoded, hoperation, ?_, rfl, rfl, rfl⟩
  simp [Options.encodedOperation, hoperation, harguments, hpack]

/-- Two batches of one app owner are one operation when their releases are the same move. -/
theorem operationId_eq_iff {o o' : Options} {batch batch' : ReleaseBatch}
    (h : buildReleaseBatch ethers o = some batch) (h' : buildReleaseBatch ethers o' = some batch')
    (howner : o.appOwner = o'.appOwner) {inputs : List Bytes}
    (hinputs : ∀ encoded, o.encodedOperation ethers = some encoded
      ∨ o'.encodedOperation ethers = some encoded → encoded ∈ inputs)
    (hkeccak : ¬ Collides ethers.keccak256 inputs)
    : batch.operationId = batch'.operationId ↔ move o = move o' := by
  obtain ⟨operation, encoded, hoperation, hencoded, -, -, hid⟩ := buildReleaseBatch_eq_some h
  obtain ⟨operation', encoded', hoperation', hencoded', -, -, hid'⟩ := buildReleaseBatch_eq_some h'
  rw [hid, hid']
  constructor
  . intro heq
    have hsame : encoded = encoded' := by
      by_contra hne
      have hmem := hinputs _ (.inl hencoded)
      have hmem' := hinputs _ (.inr hencoded')
      exact hkeccak ⟨encoded, hmem, encoded', hmem', hne, heq⟩
    exact Options.move_of_encodedOperation hencoded (hsame ▸ hencoded')
  . intro hmove
    obtain rfl := Options.operation_of_move howner hmove hoperation hoperation'
    have hencode : o.encodedOperation ethers = o'.encodedOperation ethers := by
      rw [Options.encodedOperation, Options.encodedOperation, hoperation, hoperation']
    rw [hencoded, hencoded'] at hencode
    rw [Option.some.inj hencode]

end Build

end Governance
end Longjing
