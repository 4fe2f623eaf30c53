import Longjing.Js.BigInt
import Mathlib.Data.Rat.Defs
import Mathlib.Logic.Function.Basic
import Mathlib.Tactic.Common

/-!
This module contains the replay of a dstack event log against a TDX quote (`tdx-quote.ts`) and the
reading of the compose hash from that log (`app-governance.ts`).
-/

namespace Longjing
namespace Attestation

open Js (hexDigit?)

abbrev Bytes := List UInt8

/-- A JavaScript number as `JSON.parse` returns it; a literal out of range is infinite. -/
inductive Num where
  | finite (value : Rat)
  | infinite (negative : Bool)
deriving DecidableEq

/-- What `JSON.parse` returns. -/
inductive Json where
  | null
  | bool (value : Bool)
  | num (value : Num)
  | str (value : String)
  | arr (elements : List Json)
  | obj (fields : List (String × Json))

namespace Json

/-- A property of a value, `none` when it is `undefined`. -/
def get? (key : String) : Json → Option Json
  | .obj fields => fields.lookup key
  | _ => none

def isNull : Json → Bool
  | .null => true
  | _ => false

/-- The object with a property it has set to another value. -/
def set (json : Json) (key : String) (value : Json) : Json :=
  match json with
  | .obj fields => .obj (fields.map fun field => if field.1 = key then (field.1, value) else field)
  | json => json

end Json

/-! Hex, as Node's `Buffer` reads and writes it. -/

/-- `Buffer.from(hex, 'hex')`: pairs of digits up to the first pair that is none, without an error. -/
def fromHex : List Char → Bytes
  | high :: low :: rest =>
    match hexDigit? high, hexDigit? low with
    | some h, some l => UInt8.ofNat (16 * h + l) :: fromHex rest
    | _, _ => []
  | _ => []

def hexChar (n : Nat) : Char := "0123456789abcdef".toList.getD n '0'

/-- `buffer.toString('hex')`. -/
def toHex (bytes : Bytes) : List Char :=
  bytes.flatMap fun byte => [hexChar (byte.toNat / 16), hexChar (byte.toNat % 16)]

/-- What the code uses of the JavaScript runtime. -/
structure Runtime where
  -- `createHash('sha384')` over the concatenation of its updates
  sha384 : Bytes → Bytes
  sha384_length : ∀ input, (sha384 input).length = 48
  -- `Buffer.from(value, 'hex')` of a value that is no string, `none` when it throws
  bufferFrom : Json → Option Bytes
  toLowerCase : String → String
  toLowerCase_ascii : ∀ s, (∀ c ∈ s.toList, c.val < 128 ∧ ¬ c.isUpper) → toLowerCase s = s

def QUOTE_HEADER_LENGTH : Nat := 48
def MEASUREMENT_LENGTH : Nat := 48
def TDX_QUOTE_RTMR_OFFSETS : List Nat := [328, 376, 424, 472].map (QUOTE_HEADER_LENGTH + ·)
def TDX_QUOTE_BODY_END : Nat := QUOTE_HEADER_LENGTH + 584

def DSTACK_RUNTIME_EVENT_TYPE : Nat := 0x08000001

/-- The RTMRs of a quote, `none` when it is too short and `parseTdxMeasurements` throws. -/
def parseRtmrs (quote : Bytes) : Option (List (List Char)) :=
  if quote.length < TDX_QUOTE_BODY_END then none
  else some (TDX_QUOTE_RTMR_OFFSETS.map fun offset => toHex ((quote.drop offset).take MEASUREMENT_LENGTH))

inductive ReplayError where
  -- `JSON.parse` throws
  | syntaxError
  -- the runtime throws: the log is not iterable, an event is null, an argument has a wrong type
  | typeError
  -- "Event extends an unknown RTMR: " and the event's `imr`
  | unknownRtmr (imr : Option Json)
  -- "Event digest is longer than 48 bytes"
  | digestTooLong
  -- "Runtime event ", its name and " does not match its digest"
  | runtimeMismatch (event : Option Json)

/--
The RTMRs during a replay, with its history: the digests extended, and every input of SHA-384.
-/
structure Replay where
  rtmrs : Fin 4 → Bytes
  extended : List (Fin 4 × Bytes)
  hashed : List Bytes

def Replay.init : Replay where
  rtmrs := fun _ => List.replicate MEASUREMENT_LENGTH 0
  extended := []
  hashed := []

/-- The `imr` of an event when it is an integer from 0 to 3. -/
def rtmrIndex : Option Json → Option (Fin 4)
  | some (.num (.finite value)) =>
    if value = 0 then some 0 else if value = 1 then some 1
    else if value = 2 then some 2 else if value = 3 then some 3 else none
  | _ => none

namespace Runtime

variable (rt : Runtime)

/-- `Buffer.from(value, 'hex')`, where an `undefined` value throws. -/
def buffer : Option Json → Except ReplayError Bytes
  | some (.str value) => .ok (fromHex value.toList)
  | some value =>
    match rt.bufferFrom value with
    | some bytes => .ok bytes
    | none => .error .typeError
  | none => .error .typeError

/-- A string passed to `hash.update`, which throws on any other JSON value. -/
def updateString : Option Json → Except ReplayError Bytes
  | some (.str value) => .ok value.toUTF8.toList
  | _ => .error .typeError

/-- What `runtimeEventDigest` hashes: the type (little endian), the name and the payload. -/
def runtimeEventInput (event : Json) : Except ReplayError Bytes := do
  let eventType : Bytes := [0x01, 0x00, 0x00, 0x08]
  let name ← updateString (event.get? "event")
  let payload ← rt.buffer (event.get? "event_payload")
  return eventType ++ ":".toUTF8.toList ++ name ++ ":".toUTF8.toList ++ payload

end Runtime

def isRuntimeEvent (event : Json) : Bool :=
  match event.get? "event_type" with
  | some (.num value) => value = .finite DSTACK_RUNTIME_EVENT_TYPE
  | _ => false

variable (rt : Runtime)

/-- The digest check of an event: a runtime event carries the digest of its own name and payload. -/
def checkDigest (r : Replay) (event : Json) (digest : Bytes) : Except ReplayError Replay :=
  if isRuntimeEvent event then do
    let input ← rt.runtimeEventInput event
    if digest ≠ rt.sha384 input then
      throw (.runtimeMismatch (event.get? "event"))
    return { r with hashed := r.hashed ++ [input] }
  else
    return r

/-- RTMR = SHA-384(RTMR || digest), the digest padded to 48 bytes. -/
def Replay.extend (r : Replay) (imr : Fin 4) (digest : Bytes) : Replay :=
  let padded := digest ++ List.replicate (MEASUREMENT_LENGTH - digest.length) 0
  let input := r.rtmrs imr ++ padded
  { rtmrs := Function.update r.rtmrs imr (rt.sha384 input)
    extended := r.extended ++ [(imr, padded)]
    hashed := r.hashed ++ [input] }

def replayEvent (r : Replay) (event : Json) : Except ReplayError Replay := do
  if event.isNull then
    throw .typeError
  match rtmrIndex (event.get? "imr") with
  | none => throw (.unknownRtmr (event.get? "imr"))
  | some imr =>
    let digest ← rt.buffer (event.get? "digest")
    if MEASUREMENT_LENGTH < digest.length then
      throw .digestTooLong
    let r ← checkDigest rt r event digest
    return r.extend rt imr digest

/-- What `for (const event of events)` iterates over. -/
def iterate : Json → Except ReplayError (List Json)
  | .arr elements => .ok elements
  | .str value => .ok (value.toList.map fun c => .str (String.singleton c))
  | _ => .error .typeError

/--
`replayRtmrs`. The log is what `JSON.parse` makes of the string, `none` when it throws; neither
function of the log uses the string in another way.
-/
def replayRtmrs (eventLog : Option Json) : Except ReplayError Replay := do
  match eventLog with
  | none => throw .syntaxError
  | some json =>
    let events ← iterate json
    events.foldlM (replayEvent rt) Replay.init

inductive Failure where
  -- "The event log cannot be replayed: " and the error
  | cannotReplay (error : ReplayError)
  -- "RTMR", the index and " does not match the event log"
  | mismatch (index : Nat)

/-- `verifyEventLog`, `none` when it throws for a quote that is too short. -/
def verifyEventLog (quote : Bytes) (eventLog : Option Json) : Option (List Failure) :=
  match parseRtmrs quote with
  | none => none
  | some rtmrs =>
    match replayRtmrs rt eventLog with
    | .error error => some [.cannotReplay error]
    | .ok replayed =>
      some ((rtmrs.zip (List.ofFn replayed.rtmrs)).zipIdx.flatMap fun ((rtmr, bytes), index) =>
        if rtmr = toHex bytes then [] else [.mismatch index])

def stripHexPrefix (hash : String) : String :=
  match hash.toList with
  | '0' :: 'x' :: rest => String.ofList rest
  | _ => hash

def normalizeHash (hash : String) : String :=
  "0x" ++ rt.toLowerCase (stripHexPrefix hash)

def isComposeHash (entry : Json) : Bool :=
  match entry.get? "event" with
  | some (.str name) => name = "compose-hash"
  | _ => false

def truthy : Json → Bool
  | .null => false
  | .bool value => value
  | .num value => value ≠ .finite 0
  | .str value => value ≠ ""
  | .arr _ => true
  | .obj _ => true

/-- `composeHashFromEventLog`: `.ok none` is `undefined`; a payload that is no string throws. -/
def composeHashFromEventLog (eventLog : Option Json) : Except ReplayError (Option String) :=
  match eventLog with
  | some (.arr events) =>
    match (events.find? isComposeHash).bind (Json.get? "event_payload") with
    | none => .ok none
    | some payload =>
      if truthy payload then
        match payload with
        | .str value => .ok (some (normalizeHash rt value))
        | _ => .error .typeError
      else
        .ok none
  | _ => .ok none

def Collision (inputs : List Bytes) : Prop :=
  ∃ a ∈ inputs, ∃ b ∈ inputs, a ≠ b ∧ rt.sha384 a = rt.sha384 b

def hashed (eventLog : Option Json) : List Bytes :=
  match replayRtmrs rt eventLog with
  | .ok replayed => replayed.hashed
  | .error _ => []

/-- `hash` is the payload of a runtime event of the log named compose-hash, whose digest is extended. -/
def FromMeasuredEvent (eventLog : Option Json) (hash : String) : Prop :=
  ∃ events replayed entry payload digest imr,
    eventLog = some (.arr events) ∧ replayRtmrs rt eventLog = .ok replayed ∧ entry ∈ events
      ∧ isRuntimeEvent entry ∧ isComposeHash entry
      ∧ entry.get? "event_payload" = some (.str payload) ∧ hash = normalizeHash rt payload
      ∧ rt.buffer (entry.get? "digest") = .ok digest ∧ (imr, digest) ∈ replayed.extended

/--
The compose hash of a log is measured by the quote: every log that verifies against the quote reads
the same one, and it comes from a measured event, unless the two logs show a collision of SHA-384.
-/
def ComposeHashMeasured (quote : Bytes) (eventLog : Option Json) : Prop :=
  ∀ eventLog' hash hash',
    verifyEventLog rt quote eventLog = some [] → verifyEventLog rt quote eventLog' = some [] →
    composeHashFromEventLog rt eventLog = .ok (some hash) →
    composeHashFromEventLog rt eventLog' = .ok (some hash') →
    hash = hash' ∧ FromMeasuredEvent rt eventLog hash
      ∨ Collision rt (hashed rt eventLog ++ hashed rt eventLog')

theorem hexDigit?_hexChar {n : Nat} (h : n < 16) : hexDigit? (hexChar n) = some n := by
  revert n
  decide

/-- Digits that are none end the reading without an error. -/
theorem fromHex_toHex_append (bytes : Bytes) (n : Nat)
    : fromHex (toHex bytes ++ List.replicate n 'z') = bytes := by
  induction bytes with
  | nil =>
    match n with
    | 0 => rfl
    | 1 => rfl
    | n + 2 =>
      have hz : hexDigit? 'z' = none := by decide
      simp [toHex, List.replicate_succ, fromHex, hz]
  | cons byte rest ih =>
    have hbyte := byte.toNat_lt
    have hhigh := hexDigit?_hexChar (n := byte.toNat / 16) (by omega)
    have hlow := hexDigit?_hexChar (n := byte.toNat % 16) (by omega)
    have hdigits : toHex (byte :: rest)
        = hexChar (byte.toNat / 16) :: hexChar (byte.toNat % 16) :: toHex rest := rfl
    rw [hdigits, List.cons_append, List.cons_append]
    simp only [fromHex, hhigh, hlow, ih]
    rw [Nat.div_add_mod]
    simp

theorem mem_toHex {bytes : Bytes} {c : Char} (h : c ∈ toHex bytes)
    : c.val < 128 ∧ c.isUpper = false ∧ c ≠ 'x' := by
  have hdigit (n : Nat) (hn : n < 16)
      : (hexChar n).val < 128 ∧ (hexChar n).isUpper = false ∧ hexChar n ≠ 'x' := by
    revert n
    decide
  unfold toHex at h
  simp only [List.mem_flatMap, List.mem_cons, List.not_mem_nil, or_false] at h
  obtain ⟨byte, -, rfl | rfl⟩ := h
  . have := byte.toNat_lt
    exact hdigit _ (by omega)
  . exact hdigit _ (by omega)

/-- A payload that reads as `bytes`, followed by `n` characters that are no hex digits. -/
def paddedPayload (bytes : Bytes) (n : Nat) : String :=
  String.ofList (toHex bytes ++ List.replicate n 'z')

theorem normalizeHash_paddedPayload (bytes : Bytes) (n : Nat)
    : normalizeHash rt (paddedPayload bytes n) = "0x" ++ paddedPayload bytes n := by
  have hmem (c : Char) (hc : c ∈ (paddedPayload bytes n).toList)
      : c.val < 128 ∧ c.isUpper = false ∧ c ≠ 'x' := by
    simp only [paddedPayload, String.toList_ofList, List.mem_append, List.mem_replicate] at hc
    rcases hc with hc | ⟨-, rfl⟩
    . exact mem_toHex hc
    . decide
  have hstrip : stripHexPrefix (paddedPayload bytes n) = paddedPayload bytes n := by
    unfold stripHexPrefix
    split
    next rest heq => exact absurd rfl (hmem 'x' (by simp [heq])).2.2
    next => rfl
  unfold normalizeHash
  rw [hstrip, rt.toLowerCase_ascii]
  intro c hc
  exact ⟨(hmem c hc).1, by simp [(hmem c hc).2.1]⟩

theorem paddedPayload_ne_empty (bytes : Bytes) {n : Nat} (h : 0 < n)
    : paddedPayload bytes n ≠ "" := by
  intro hempty
  have := congrArg (fun s => s.toList.length) hempty
  simp [paddedPayload] at this
  omega

theorem Json.get?_set_of_ne {key key' : String} (value json : Json) (h : key' ≠ key)
    : (json.set key value).get? key' = json.get? key' := by
  cases json with
  | obj fields =>
    simp only [Json.set, Json.get?]
    induction fields with
    | nil => rfl
    | cons field fields ih =>
      obtain ⟨k, v⟩ := field
      by_cases hk : k = key
      . have hne : (key' == k) = false := by simp [hk, h]
        simp only [List.map_cons, hk, if_true, List.lookup_cons]
        rw [← hk, hne]
        simpa [hk] using ih
      . simp only [List.map_cons, hk, if_false, List.lookup_cons]
        rw [ih]
  | _ => rfl

theorem Json.get?_set_self {key : String} {json old : Json} (value : Json)
    (h : json.get? key = some old) : (json.set key value).get? key = some value := by
  cases json with
  | obj fields =>
    simp only [Json.set, Json.get?] at h ⊢
    induction fields with
    | nil => simp at h
    | cons field fields ih =>
      obtain ⟨k, v⟩ := field
      by_cases hk : k = key
      . simp [hk]
      . have hne : (key == k) = false := by simp [Ne.symm hk]
        simp only [List.lookup_cons, hne] at h
        simp only [List.map_cons, hk, if_false, List.lookup_cons, hne]
        exact ih h
  | _ => simp [Json.get?] at h

theorem Json.isNull_set (key : String) (value json : Json)
    : (json.set key value).isNull = json.isNull := by
  cases json <;> rfl

/-- The replay sees the payload of an event only through the bytes it decodes to. -/
theorem replayEvent_set_payload {event old value : Json} (r : Replay)
    (hold : event.get? "event_payload" = some old)
    (hbytes : rt.buffer (some value) = rt.buffer (some old))
    : replayEvent rt r (event.set "event_payload" value) = replayEvent rt r event := by
  have hkey {key : String} (h : key ≠ "event_payload")
      : (event.set "event_payload" value).get? key = event.get? key :=
    Json.get?_set_of_ne value event h
  have htype : isRuntimeEvent (event.set "event_payload" value) = isRuntimeEvent event := by
    unfold isRuntimeEvent
    rw [hkey (by decide)]
  have hinput : rt.runtimeEventInput (event.set "event_payload" value)
      = rt.runtimeEventInput event := by
    unfold Runtime.runtimeEventInput
    rw [hkey (by decide), Json.get?_set_self value hold, hold, hbytes]
  have hcheck (digest : Bytes) : checkDigest rt r (event.set "event_payload" value) digest
      = checkDigest rt r event digest := by
    unfold checkDigest
    rw [htype, hinput, hkey (by decide)]
  unfold replayEvent
  simp only [Json.isNull_set, hkey (show "imr" ≠ "event_payload" by decide),
    hkey (show "digest" ≠ "event_payload" by decide), hcheck]

theorem replayRtmrs_set_payload {before after : List Json} {event old value : Json}
    (hold : event.get? "event_payload" = some old)
    (hbytes : rt.buffer (some value) = rt.buffer (some old))
    : replayRtmrs rt (some (.arr (before ++ event.set "event_payload" value :: after)))
      = replayRtmrs rt (some (.arr (before ++ event :: after))) := by
  unfold replayRtmrs
  simp only [iterate]
  show List.foldlM _ _ _ = List.foldlM _ _ _
  simp only [List.foldlM_append, List.foldlM_cons, replayEvent_set_payload rt _ hold hbytes]

theorem verifyEventLog_congr {eventLog eventLog' : Option Json} (quote : Bytes)
    (h : replayRtmrs rt eventLog' = replayRtmrs rt eventLog)
    : verifyEventLog rt quote eventLog' = verifyEventLog rt quote eventLog := by
  unfold verifyEventLog
  rw [h]

theorem composeHash_eq_some {eventLog : Option Json} {hash : String}
    (h : composeHashFromEventLog rt eventLog = .ok (some hash))
    : ∃ before entry after payload, eventLog = some (.arr (before ++ entry :: after))
        ∧ (∀ e ∈ before, isComposeHash e = false) ∧ isComposeHash entry = true
        ∧ entry.get? "event_payload" = some (.str payload) ∧ hash = normalizeHash rt payload := by
  unfold composeHashFromEventLog at h
  split at h
  next events =>
    split at h
    next => simp at h
    next value hfind =>
      obtain ⟨entry, hentry, hvalue⟩ := Option.bind_eq_some_iff.mp hfind
      obtain ⟨hname, before, after, rfl, hbefore⟩ := List.find?_eq_some_iff_append.mp hentry
      split at h
      next =>
        split at h
        next payload _ =>
          refine ⟨before, entry, after, payload, rfl, ?_, hname, hvalue, ?_⟩
          . intro e he
            simpa using hbefore e he
          . simpa using h.symm
        next => simp at h
      next => simp at h
  next => simp at h

theorem composeHash_of_first {before after : List Json} {entry : Json} {payload : String}
    (hbefore : ∀ e ∈ before, isComposeHash e = false) (hname : isComposeHash entry = true)
    (hpayload : entry.get? "event_payload" = some (.str payload)) (hne : payload ≠ "")
    : composeHashFromEventLog rt (some (.arr (before ++ entry :: after)))
      = .ok (some (normalizeHash rt payload)) := by
  have hfind : (before ++ entry :: after).find? isComposeHash = some entry := by
    rw [List.find?_append, List.find?_cons_of_pos hname]
    have : before.find? isComposeHash = none := by
      rw [List.find?_eq_none]
      intro e he
      simp [hbefore e he]
    simp [this]
  unfold composeHashFromEventLog
  simp [hfind, hpayload, truthy, hne]

/-- Any log with a compose hash has a twin: it replays the same and reads another compose hash. -/
theorem exists_twin {eventLog : Option Json} {hash : String}
    (h : composeHashFromEventLog rt eventLog = .ok (some hash))
    : ∃ eventLog' hash', replayRtmrs rt eventLog' = replayRtmrs rt eventLog
        ∧ composeHashFromEventLog rt eventLog' = .ok (some hash') ∧ hash ≠ hash' := by
  obtain ⟨before, entry, after, payload, rfl, hbefore, hname, hpayload, rfl⟩ := composeHash_eq_some rt h
  have htwin (n : Nat) (hn : 0 < n) : ∃ eventLog',
      replayRtmrs rt eventLog' = replayRtmrs rt (some (.arr (before ++ entry :: after)))
        ∧ composeHashFromEventLog rt eventLog'
          = .ok (some ("0x" ++ paddedPayload (fromHex payload.toList) n)) := by
    have hbytes : rt.buffer (some (.str (paddedPayload (fromHex payload.toList) n)))
        = rt.buffer (some (.str payload)) := by
      simp [Runtime.buffer, paddedPayload, fromHex_toHex_append]
    refine ⟨some (.arr (before ++ entry.set "event_payload" (.str (paddedPayload (fromHex payload.toList) n))
      :: after)), replayRtmrs_set_payload rt hpayload hbytes, ?_⟩
    rw [← normalizeHash_paddedPayload]
    refine composeHash_of_first rt hbefore ?_ (Json.get?_set_self _ hpayload) ?_
    . unfold isComposeHash at hname ⊢
      rw [Json.get?_set_of_ne _ _ (by decide)]
      exact hname
    . exact paddedPayload_ne_empty _ hn
  -- the two paddings read differently, so one of them differs from `hash`
  obtain ⟨log₁, hreplay₁, hcompose₁⟩ := htwin 1 (by omega)
  obtain ⟨log₂, hreplay₂, hcompose₂⟩ := htwin 2 (by omega)
  by_cases heq : normalizeHash rt payload = "0x" ++ paddedPayload (fromHex payload.toList) 1
  . refine ⟨log₂, _, hreplay₂, hcompose₂, ?_⟩
    rw [heq]
    intro h
    have := congrArg (fun s => s.toList.length) h
    simp [paddedPayload] at this
  . exact ⟨log₁, _, hreplay₁, hcompose₁, heq⟩

/--
The compose hash of a log is measured only where there is nothing to measure: the log does not
verify, it has no compose hash, or it shows a collision of SHA-384 itself.
-/
theorem composeHashMeasured_iff (quote : Bytes) (eventLog : Option Json)
    : ComposeHashMeasured rt quote eventLog
      ↔ verifyEventLog rt quote eventLog ≠ some []
        ∨ (∀ hash, composeHashFromEventLog rt eventLog ≠ .ok (some hash))
        ∨ Collision rt (hashed rt eventLog) := by
  constructor
  . intro hmeasured
    by_contra hcon
    push Not at hcon
    obtain ⟨hverify, ⟨hash, hhash⟩, hcollision⟩ := hcon
    obtain ⟨eventLog', hash', hreplay, hhash', hne⟩ := exists_twin rt hhash
    have hverify' := (verifyEventLog_congr rt quote hreplay).trans hverify
    have hhashed : hashed rt eventLog' = hashed rt eventLog := by
      unfold hashed
      rw [hreplay]
    rcases hmeasured eventLog' hash hash' hverify hverify' hhash hhash' with ⟨heq, -⟩ | hfound
    . exact hne heq
    . rw [hhashed] at hfound
      obtain ⟨a, ha, b, hb, hab⟩ := hfound
      simp only [List.mem_append, or_self] at ha hb
      exact hcollision ⟨a, ha, b, hb, hab⟩
  . rintro (hverify | hnone | ⟨a, ha, b, hb, hab⟩) eventLog' hash hash' hverify₁ hverify₂ hhash hhash'
    . exact absurd hverify₁ hverify
    . exact absurd hhash (hnone hash)
    . exact Or.inr ⟨a, List.mem_append_left _ ha, b, List.mem_append_left _ hb, hab⟩

/-- A boot event (its type is no runtime type) that calls itself a compose hash. -/
def bootEvent (payload : String) : Json :=
  .obj [("imr", .num (.finite 0)), ("event_type", .num (.finite 1)), ("digest", .str ""),
    ("event", .str "compose-hash"), ("event_payload", .str payload)]

/-- A quote whose RTMR0 was extended once, with an empty digest. -/
def bootQuote : Bytes :=
  List.replicate 376 0 ++ rt.sha384 (List.replicate 96 0) ++ List.replicate 208 0

theorem replayRtmrs_bootEvent (payload : String)
    : replayRtmrs rt (some (.arr [bootEvent payload]))
      = .ok (Replay.init.extend rt 0 []) := by
  simp [replayRtmrs, iterate, replayEvent, bootEvent, Json.isNull, Json.get?, rtmrIndex,
    Runtime.buffer, fromHex, checkDigest, isRuntimeEvent, DSTACK_RUNTIME_EVENT_TYPE, bind,
    Except.bind, pure, Except.pure, List.lookup_cons]

theorem parseRtmrs_bootQuote
    : parseRtmrs (bootQuote rt) = some [toHex (rt.sha384 (List.replicate 96 0)),
        toHex (List.replicate 48 0), toHex (List.replicate 48 0), toHex (List.replicate 48 0)] := by
  have hlength := rt.sha384_length (List.replicate 96 0)
  have hquote : (bootQuote rt).length = 632 := by
    simp only [bootQuote, List.length_append, List.length_replicate, hlength]
  have hrtmr0 : ((bootQuote rt).drop 376).take 48 = rt.sha384 (List.replicate 96 0) := by
    rw [bootQuote, List.append_assoc, List.drop_left' List.length_replicate, List.take_left' hlength]
  -- the other three lie in the zeros behind it
  have hrtmr (n : Nat) (h : n + 48 ≤ 208)
      : ((bootQuote rt).drop (424 + n)).take 48 = List.replicate 48 0 := by
    have hbefore : (List.replicate 376 0 ++ rt.sha384 (List.replicate 96 0)).length = 424 := by
      rw [List.length_append, List.length_replicate, hlength]
    rw [bootQuote, ← List.drop_drop, List.drop_left' hbefore, List.drop_replicate,
      List.take_replicate, Nat.min_eq_left (by omega)]
  unfold parseRtmrs
  rw [hquote, if_neg (by decide)]
  simp only [TDX_QUOTE_RTMR_OFFSETS, QUOTE_HEADER_LENGTH, MEASUREMENT_LENGTH, List.map_cons,
    List.map_nil]
  rw [hrtmr0, hrtmr 0 (by omega), hrtmr 48 (by omega), hrtmr 96 (by omega)]

theorem verifyEventLog_bootEvent (payload : String)
    : verifyEventLog rt (bootQuote rt) (some (.arr [bootEvent payload])) = some [] := by
  unfold verifyEventLog
  rw [parseRtmrs_bootQuote, replayRtmrs_bootEvent]
  simp [Replay.extend, Replay.init, MEASUREMENT_LENGTH, List.ofFn_succ]

theorem hashed_bootEvent (payload : String)
    : hashed rt (some (.arr [bootEvent payload])) = [List.replicate 96 0] := by
  unfold hashed
  rw [replayRtmrs_bootEvent]
  simp [Replay.extend, Replay.init, MEASUREMENT_LENGTH]

theorem composeHash_bootEvent (byte : UInt8)
    : composeHashFromEventLog rt (some (.arr [bootEvent (paddedPayload [byte] 0)]))
      = .ok (some ("0x" ++ paddedPayload [byte] 0)) := by
  have hne : paddedPayload [byte] 0 ≠ "" := by
    intro hempty
    have := congrArg (fun s => s.toList.length) hempty
    simp [paddedPayload, toHex] at this
  rw [← normalizeHash_paddedPayload]
  exact @composeHash_of_first rt [] [] _ _ (by simp) rfl rfl hne

/--
Two logs of one boot event, with the compose hashes 0xaa and 0xbb as its payload. Both verify against
the same quote, whatever the hash is.
-/
theorem not_composeHashMeasured_bootQuote
    : ¬ ComposeHashMeasured rt (bootQuote rt) (some (.arr [bootEvent "aa"])) := by
  intro hmeasured
  have haa : paddedPayload [0xaa] 0 = "aa" := by decide
  have hbb : paddedPayload [0xbb] 0 = "bb" := by decide
  have hcompose₁ := composeHash_bootEvent rt 0xaa
  have hcompose₂ := composeHash_bootEvent rt 0xbb
  rw [haa] at hcompose₁
  rw [hbb] at hcompose₂
  rcases hmeasured _ _ _ (verifyEventLog_bootEvent rt _) (verifyEventLog_bootEvent rt _)
    hcompose₁ hcompose₂ with ⟨heq, -⟩ | hcoll
  . exact absurd heq (by decide)
  . rw [hashed_bootEvent, hashed_bootEvent] at hcoll
    obtain ⟨a, ha, b, hb, hne, -⟩ := hcoll
    simp only [List.mem_append, List.mem_singleton, or_self] at ha hb
    exact hne (ha.trans hb.symm)

/-- A digest that only has the length of one. -/
def exampleRuntime : Runtime where
  sha384 := fun input => (input ++ List.replicate 48 0).take 48
  sha384_length := by simp
  bufferFrom := fun _ => none
  toLowerCase := id
  toLowerCase_ascii := fun _ _ => rfl

theorem composeHash_of_boot_event
    : ¬ ComposeHashMeasured exampleRuntime (bootQuote exampleRuntime) (some (.arr [bootEvent "aa"])) :=
  not_composeHashMeasured_bootQuote exampleRuntime

end Attestation
end Longjing
