import Longjing.Governance.Releases
import Longjing.Lib.AbiDecode

/-!
This module contains `LongjingAppOwner.sol` with the `DstackApp` that it owns: who can change the allowed
compose hashes, and what the batch of a release does to them once the timelock executes it.
-/

namespace Longjing
namespace Governance

open Attestation (Bytes)
open Abi Fallible

def zeroAddress : Bytes := List.replicate 20 0
def zeroHash : Bytes := List.replicate 32 0

/-- A `DstackApp`, of which only the interface is given. An error is the data of a revert. -/
structure DstackApp (σ : Type) where
  owner : σ → Bytes
  pendingOwner : σ → Bytes
  allowedComposeHashes : σ → Finset Bytes
  -- from a state, by a sender, with calldata
  call : σ → Bytes → Bytes → Except Bytes σ

/-- What the contract relies on: two-step ownership, and setters for the owner. -/
structure DstackApp.IsDocumented {σ : Type} (ethers : Ethers) (app : DstackApp σ) : Prop where
  onlyOwner : ∀ s sender data s', app.call s sender data = .ok s' →
    sender ≠ app.owner s → sender ≠ app.pendingOwner s →
    app.owner s' = app.owner s ∧ app.pendingOwner s' = app.pendingOwner s
      ∧ app.allowedComposeHashes s' = app.allowedComposeHashes s
  acceptOwnership : ∀ s sender s', sender ≠ app.pendingOwner s →
    app.call s sender (selector ethers "acceptOwnership()") ≠ .ok s'
  addComposeHash : ∀ s hash, hash.length = 32 → hash ≠ zeroHash →
    ∃ s', app.call s (app.owner s) (selector ethers "addComposeHash(bytes32)" ++ hash) = .ok s'
      ∧ app.owner s' = app.owner s ∧ app.pendingOwner s' = app.pendingOwner s
      ∧ app.allowedComposeHashes s' = insert hash (app.allowedComposeHashes s)
  removeComposeHash : ∀ s hash, hash.length = 32 →
    ∃ s', app.call s (app.owner s) (selector ethers "removeComposeHash(bytes32)" ++ hash) = .ok s'
      ∧ app.owner s' = app.owner s ∧ app.pendingOwner s' = app.pendingOwner s
      ∧ app.allowedComposeHashes s' = (app.allowedComposeHashes s).erase hash

inductive Revert where
  | NotTimelock
  | NotGuardian
  | ZeroAddress
  -- no function of the contract, or arguments that it does not decode
  | undecoded
  -- the revert of the app, passed on
  | app (data : Bytes)
deriving DecidableEq, Repr

/-- The contract with its immutables. -/
structure LongjingAppOwner where
  self : Bytes
  app : Bytes
  timelock : Bytes
  self_ne_zero : self ≠ zeroAddress
  app_ne_zero : app ≠ zeroAddress
  timelock_ne_zero : timelock ≠ zeroAddress

/-- The storage of the contract, and the state of the app. -/
structure Governed (σ : Type) where
  guardian : Bytes
  app : σ

/-- A call of a function of the contract. -/
inductive Message where
  | execute (data : Bytes)
  | removeComposeHash (composeHash : Bytes)
  | setGuardian (guardian : Bytes)
  | acceptOwnership
  -- `app`, `timelock` and `guardian`
  | view
deriving DecidableEq, Repr

structure Call where
  sender : Bytes
  target : Bytes
  data : Bytes
deriving DecidableEq, Repr

section Contract

variable (ethers : Ethers)

/-- The function that calldata selects, with its arguments. -/
def decode (data : Bytes) : Option Message :=
  let function := data.take 4
  let arguments := data.drop 4
  if function = selector ethers "execute(bytes)" then
    (readBytes arguments 0).map .execute
  else if function = selector ethers "removeComposeHash(bytes32)" then
    (readWord arguments 0).map .removeComposeHash
  else if function = selector ethers "setGuardian(address)" then
    (readAddress arguments 0).map .setGuardian
  else if function = selector ethers "acceptOwnership()" then
    some .acceptOwnership
  else if function = selector ethers "app()" ∨ function = selector ethers "timelock()"
      ∨ function = selector ethers "guardian()" then
    some .view
  else
    none

namespace LongjingAppOwner

def deploy (self app timelock guardian : Bytes) (hself : self ≠ zeroAddress)
    : Except Revert (LongjingAppOwner × Bytes) :=
  if h : app = zeroAddress ∨ timelock = zeroAddress then
    .error .ZeroAddress
  else
    .ok (⟨self, app, timelock, hself, fun h' => h (.inl h'), fun h' => h (.inr h')⟩, guardian)

variable {σ : Type} (app : DstackApp σ) (o : LongjingAppOwner)

/-- A call of the app, by the contract. -/
def callApp (s : Governed σ) (data : Bytes) : Except Revert (Governed σ) :=
  match app.call s.app o.self data with
  | .ok next => .ok { s with app := next }
  | .error reason => .error (.app reason)

def execute (s : Governed σ) (sender data : Bytes) : Except Revert (Governed σ) :=
  if sender ≠ o.timelock then .error .NotTimelock else o.callApp app s data

def removeComposeHash (s : Governed σ) (sender composeHash : Bytes) : Except Revert (Governed σ) :=
  if sender ≠ s.guardian then
    .error .NotGuardian
  else
    o.callApp app s (selector ethers "removeComposeHash(bytes32)" ++ composeHash)

def setGuardian (s : Governed σ) (sender guardian : Bytes) : Except Revert (Governed σ) :=
  if sender ≠ o.timelock then .error .NotTimelock else .ok { s with guardian }

def acceptOwnership (s : Governed σ) : Except Revert (Governed σ) :=
  o.callApp app s (selector ethers "acceptOwnership()")

def call (s : Governed σ) (sender data : Bytes) : Except Revert (Governed σ) :=
  match decode ethers data with
  | some (.execute data) => o.execute app s sender data
  | some (.removeComposeHash composeHash) => o.removeComposeHash ethers app s sender composeHash
  | some (.setGuardian guardian) => o.setGuardian s sender guardian
  | some .acceptOwnership => o.acceptOwnership ethers app s
  | some .view => .ok s
  | none => .error .undecoded

/-- A call of any contract: of this one, of the app, or of one that keeps out of it. -/
def transact (s : Governed σ) (c : Call) : Except Revert (Governed σ) :=
  if c.target = o.self then
    o.call ethers app s c.sender c.data
  else if c.target = o.app then
    match app.call s.app c.sender c.data with
    | .ok next => .ok { s with app := next }
    | .error reason => .error (.app reason)
  else
    .ok s

/-- A call that reverts changes nothing. -/
def step (s : Governed σ) (c : Call) : Governed σ :=
  match o.transact ethers app s c with
  | .ok next => next
  | .error _ => s

def run (s : Governed σ) (calls : List Call) : Governed σ := calls.foldl (o.step ethers app) s

/-- Calls of the timelock one after the other, all of them or none. -/
def transactAll (s : Governed σ) (calls : List (Bytes × Bytes)) : Except Revert (Governed σ) :=
  calls.foldlM (fun s call => o.transact ethers app s ⟨o.timelock, call.1, call.2⟩) s

/-- The hash that a call removes on the emergency path. -/
def removal? (guardian : Bytes) (c : Call) : Option Bytes :=
  if c.target = o.self ∧ c.sender = guardian then
    match decode ethers c.data with
    | some (.removeComposeHash composeHash) => some composeHash
    | _ => none
  else
    none

end LongjingAppOwner

/-- The state that `executeBatch` of the timelock makes of another one, for the calls of an operation that is ready. -/
abbrev ExecuteBatch (σ : Type) := Governed σ → List (Bytes × Bytes) → Except Revert (Governed σ)

/-- What a release relies on: the timelock makes the calls in their order, and the batch reverts if one of them does. -/
structure ExecuteBatch.IsDocumented {σ : Type} (app : DstackApp σ) (o : LongjingAppOwner)
    (executeBatch : ExecuteBatch σ) : Prop where
  executes : ∀ s calls s', o.transactAll ethers app s calls = .ok s' → executeBatch s calls = .ok s'
  reverts : ∀ s calls reason, o.transactAll ethers app s calls = .error reason →
    ∃ reason', executeBatch s calls = .error reason'

end Contract

section Guarded

variable {ethers : Ethers} {σ : Type} {app : DstackApp σ} {o : LongjingAppOwner} {s : Governed σ}

/-- The contract owns the app, and nobody is about to take it over. -/
structure LongjingAppOwner.Owns (app : DstackApp σ) (o : LongjingAppOwner) (s : Governed σ) : Prop where
  owner : app.owner s.app = o.self
  pendingOwner : app.pendingOwner s.app = zeroAddress

/-- A call by anybody, but not the timelock's of the contract. -/
structure LongjingAppOwner.Foreign (o : LongjingAppOwner) (c : Call) : Prop where
  sender_ne_self : c.sender ≠ o.self
  sender_ne_zero : c.sender ≠ zeroAddress
  untimed : ¬ (c.sender = o.timelock ∧ c.target = o.self)

namespace LongjingAppOwner

/-- What a step keeps, and which hashes it takes from the allowed ones. -/
structure Shrinks (app : DstackApp σ) (o : LongjingAppOwner) (s s' : Governed σ) (removed : List Bytes)
    : Prop where
  owns : o.Owns app s'
  guardian : s'.guardian = s.guardian
  allowed : app.allowedComposeHashes s'.app = app.allowedComposeHashes s.app \ removed.toFinset

theorem Shrinks.refl (h : o.Owns app s) : Shrinks app o s s [] := ⟨h, rfl, by simp⟩

theorem Shrinks.trans {s' s'' : Governed σ} {removed later : List Bytes} (h : Shrinks app o s s' removed)
    (h' : Shrinks app o s' s'' later) : Shrinks app o s s'' (removed ++ later) where
  owns := h'.owns
  guardian := h'.guardian.trans h.guardian
  allowed := by rw [h'.allowed, h.allowed, List.toFinset_append, sdiff_sdiff_left, Finset.sup_eq_union]

theorem length_readWord {data word : Bytes} {offset : Nat} (h : readWord data offset = some word)
    : word.length = 32 := by
  unfold readWord at h
  split at h
  . cases h
    simp only [List.length_take, List.length_drop]
    omega
  . cases h

theorem length_of_decode {data composeHash : Bytes}
    (h : decode ethers data = some (.removeComposeHash composeHash)) : composeHash.length = 32 := by
  unfold decode at h
  simp only at h
  split at h
  . obtain ⟨_, -, heq⟩ := Option.map_eq_some_iff.mp h
    cases heq
  . split at h
    . obtain ⟨word, hword, heq⟩ := Option.map_eq_some_iff.mp h
      cases heq
      exact length_readWord hword
    . split at h
      . obtain ⟨_, -, heq⟩ := Option.map_eq_some_iff.mp h
        cases heq
      . split at h
        . cases h
        . split at h <;> cases h

/-- The contract removes a hash from the app that it owns. -/
theorem callApp_removeComposeHash (happ : app.IsDocumented ethers) (h : o.Owns app s) {composeHash : Bytes}
    (hlength : composeHash.length = 32)
    : ∃ s', o.callApp app s (selector ethers "removeComposeHash(bytes32)" ++ composeHash) = .ok s'
        ∧ Shrinks app o s s' [composeHash] := by
  obtain ⟨next, hcall, howner, hpending, hallowed⟩ := happ.removeComposeHash s.app composeHash hlength
  rw [h.owner] at hcall
  refine ⟨{ s with app := next }, by rw [callApp, hcall], ⟨howner.trans h.owner, hpending.trans h.pendingOwner⟩,
    rfl, ?_⟩
  rw [hallowed, List.toFinset_cons, List.toFinset_nil, insert_empty_eq, Finset.erase_eq]

/-- The functions of the contract, called by another one than the timelock. -/
theorem call_foreign (happ : app.IsDocumented ethers) (h : o.Owns app s) {c : Call}
    (hsender : c.sender ≠ o.timelock) (htarget : c.target = o.self)
    : (∃ reason, o.call ethers app s c.sender c.data = .error reason)
        ∧ o.removal? ethers s.guardian c = none
      ∨ ∃ s', o.call ethers app s c.sender c.data = .ok s'
        ∧ Shrinks app o s s' (o.removal? ethers s.guardian c).toList := by
  unfold call removal?
  cases hdecode : decode ethers c.data with
  | none => exact .inl ⟨⟨_, rfl⟩, by simp⟩
  | some message =>
    cases message with
    | execute data => exact .inl ⟨⟨.NotTimelock, by simp [execute, hsender]⟩, by simp⟩
    | removeComposeHash composeHash =>
      by_cases hguardian : c.sender = s.guardian
      . obtain ⟨s', hcall, hshrinks⟩ := callApp_removeComposeHash happ h (length_of_decode hdecode)
        exact .inr ⟨s', by simp [removeComposeHash, hguardian, hcall],
          by simpa [htarget, hguardian] using hshrinks⟩
      . exact .inl ⟨⟨.NotGuardian, by simp [removeComposeHash, hguardian]⟩, by simp [hguardian]⟩
    | setGuardian guardian => exact .inl ⟨⟨.NotTimelock, by simp [setGuardian, hsender]⟩, by simp⟩
    | acceptOwnership =>
      -- nobody, and so not the contract, is about to become the owner
      have hrefused (next : σ) : app.call s.app o.self (selector ethers "acceptOwnership()") ≠ .ok next :=
        happ.acceptOwnership s.app o.self next (h.pendingOwner ▸ o.self_ne_zero)
      refine .inl ⟨?_, by simp⟩
      simp only [acceptOwnership, callApp]
      split
      next next hok => exact absurd hok (hrefused next)
      next reason _ => exact ⟨_, rfl⟩
    | view => exact .inr ⟨s, rfl, by simpa using Shrinks.refl h⟩

theorem step_foreign (happ : app.IsDocumented ethers) (h : o.Owns app s) {c : Call} (hc : o.Foreign c)
    : Shrinks app o s (o.step ethers app s c) (o.removal? ethers s.guardian c).toList := by
  unfold step transact
  by_cases hself : c.target = o.self
  . rw [if_pos hself]
    rcases call_foreign happ h (fun hsender => hc.untimed ⟨hsender, hself⟩) hself
      with ⟨⟨reason, hcall⟩, hnone⟩ | ⟨s', hcall, hshrinks⟩
    . rw [hcall, hnone]
      exact .refl h
    . rw [hcall]
      exact hshrinks
  . have hnone : o.removal? ethers s.guardian c = none := by simp [removal?, hself]
    rw [if_neg hself, hnone]
    by_cases hown : c.target = o.app
    . rw [if_pos hown]
      cases hcall : app.call s.app c.sender c.data with
      | error reason => exact .refl h
      | ok next =>
        obtain ⟨howner, hpending, hallowed⟩ := happ.onlyOwner s.app c.sender c.data next hcall
          (h.owner ▸ hc.sender_ne_self) (h.pendingOwner ▸ hc.sender_ne_zero)
        exact ⟨⟨howner.trans h.owner, hpending.trans h.pendingOwner⟩, rfl, by simpa using hallowed⟩
    . rw [if_neg hown]
      exact .refl h

/-- Whatever anybody calls, without the timelock the allowed compose hashes only lose the ones that the
guardian removes; the guardian and the owner of the app stay. -/
theorem run_guarded {ethers : Ethers} {σ : Type} {app : DstackApp σ} (happ : app.IsDocumented ethers)
    (o : LongjingAppOwner) (s : Governed σ) (h : o.Owns app s) (calls : List Call)
    (hcalls : ∀ c ∈ calls, o.Foreign c)
    : Shrinks app o s (o.run ethers app s calls) (calls.filterMap (o.removal? ethers s.guardian)) := by
  induction calls generalizing s with
  | nil => exact .refl h
  | cons c calls ih =>
    have hstep := step_foreign happ h (hcalls c (by simp))
    have hrun := ih (o.step ethers app s c) hstep.owns fun c hc => hcalls c (by simp [hc])
    rw [hstep.guardian] at hrun
    have hsplit : (c :: calls).filterMap (o.removal? ethers s.guardian)
        = (o.removal? ethers s.guardian c).toList ++ calls.filterMap (o.removal? ethers s.guardian) := by
      rw [List.filterMap_cons]
      cases o.removal? ethers s.guardian c <;> rfl
    rw [hsplit]
    exact hstep.trans hrun

theorem length_selector (ethers : Ethers) (signature : String) : (selector ethers signature).length = 4 := by
  simp [selector, ethers.keccak256_length]

/-- The contract reads from a payload of the batch the call that it was built for. -/
theorem decode_executeCall {call payload : Bytes} (h : executeCall ethers call = some payload)
    (hlength : call.length ≤ maxOffset) : decode ethers payload = some (.execute call) := by
  obtain ⟨part, hpart, h⟩ := Option.bind_eq_some_iff.mp h
  obtain ⟨encoded, hencoded, rfl⟩ := Option.map_eq_some_iff.mp hpart
  unfold encodeFunctionData at h
  obtain ⟨arguments, hpack, h⟩ := Option.bind_eq_some_iff.mp h
  cases h
  have hselector := length_selector ethers "execute(bytes)"
  unfold decode
  simp only [List.take_left' hselector, List.drop_left' hselector, if_true,
    readBytes_pack hencoded hpack hlength, Option.map_some]

theorem transact_executeCall {call payload : Bytes} (h : executeCall ethers call = some payload)
    (hlength : call.length ≤ maxOffset)
    : o.transact ethers app s ⟨o.timelock, o.self, payload⟩ = o.callApp app s call := by
  simp [transact, LongjingAppOwner.call, decode_executeCall h hlength, execute]

theorem callApp_addComposeHash (happ : app.IsDocumented ethers) (h : o.Owns app s) {composeHash : Bytes}
    (hlength : composeHash.length = 32) (hzero : composeHash ≠ zeroHash)
    : ∃ s', o.callApp app s (selector ethers "addComposeHash(bytes32)" ++ composeHash) = .ok s'
        ∧ o.Owns app s' ∧ s'.guardian = s.guardian
        ∧ app.allowedComposeHashes s'.app = insert composeHash (app.allowedComposeHashes s.app) := by
  obtain ⟨next, hcall, howner, hpending, hallowed⟩ := happ.addComposeHash s.app composeHash hlength hzero
  rw [h.owner] at hcall
  exact ⟨{ s with app := next }, by rw [callApp, hcall],
    ⟨howner.trans h.owner, hpending.trans h.pendingOwner⟩, rfl, hallowed⟩

theorem length_appCall_le {signature : String} {composeHash : Bytes} (h : composeHash.length = 32)
    : (selector ethers signature ++ composeHash).length ≤ maxOffset := by
  rw [List.length_append, length_selector, h]
  decide

theorem transactAll_cons {payload : Bytes} {payloads : List (Bytes × Bytes)} {s' : Governed σ}
    (h : o.transact ethers app s ⟨o.timelock, o.self, payload⟩ = .ok s')
    : o.transactAll ethers app s ((o.self, payload) :: payloads)
      = o.transactAll ethers app s' payloads := by
  rw [transactAll, List.foldlM_cons, h]
  rfl

theorem transactAll_removals (happ : app.IsDocumented ethers) {hashes payloads : List Bytes}
    (hlength : ∀ hash ∈ hashes, hash.length = 32)
    (hpayloads : (hashes.map (selector ethers "removeComposeHash(bytes32)" ++ ·)).map (executeCall ethers)
      = payloads.map some)
    (s : Governed σ) (h : o.Owns app s)
    : ∃ s', o.transactAll ethers app s (payloads.map (o.self, ·)) = .ok s'
        ∧ Shrinks app o s s' hashes := by
  induction hashes generalizing payloads s with
  | nil =>
    obtain rfl : payloads = [] := by simpa using hpayloads.symm
    exact ⟨s, rfl, .refl h⟩
  | cons hash hashes ih =>
    cases payloads with
    | nil => simp at hpayloads
    | cons payload payloads =>
      simp only [List.map_cons, List.cons.injEq] at hpayloads
      have hhash := hlength hash (by simp)
      obtain ⟨next, hcall, hshrinks⟩ := callApp_removeComposeHash happ h hhash
      rw [← transact_executeCall hpayloads.1 (length_appCall_le hhash)] at hcall
      obtain ⟨s', hbatch, hlater⟩ :=
        ih (fun hash hmem => hlength hash (by simp [hmem])) hpayloads.2 next hshrinks.owns
      refine ⟨s', ?_, hshrinks.trans hlater⟩
      rw [List.map_cons, transactAll_cons hcall, hbatch]

theorem zip_targets {α β γ : Type} (a : α) (xs : List β) (ys : List γ) (h : xs.length = ys.length)
    : (xs.map fun _ => a).zip ys = ys.map (a, ·) := by
  induction xs generalizing ys with
  | nil =>
    obtain rfl := List.eq_nil_of_length_eq_zero h.symm
    rfl
  | cons x xs ih =>
    cases ys with
    | nil => cases h
    | cons y ys =>
      simp only [List.length_cons, Nat.add_right_cancel_iff] at h
      simp only [List.map_cons, List.zip_cons_cons, ih ys h]

theorem mapM_const {α β γ : Type} {f : α → Option β} {a : α} {b : β} (h : f a = some b) (xs : List γ)
    : (xs.map fun _ => a).mapM f = some (xs.map fun _ => b) := by
  rw [mapM_eq_some, List.map_map, List.map_map]
  exact List.map_congr_left fun _ _ => h

/-- The batch of a release leaves its hash as the only one of those that it was built from, of which some
may be gone. -/
theorem transactAll_release (happ : app.IsDocumented ethers) {r : Release}
    (hbuilt : buildReleaseBatch ethers r.options = some r.batch)
    (hlisted : ∀ hash, hash ∈ r.before ↔ some hash ∈ r.options.allowed.map hashOf)
    (hself : ethers.getAddress r.options.appOwner = some o.self)
    (hzero : hashOf r.options.composeHash ≠ some zeroHash) (howns : o.Owns app s)
    (hbefore : app.allowedComposeHashes s.app ⊆ r.before)
    : ∃ hash operation targets s',
        hashOf r.options.composeHash = some hash
        ∧ r.options.operation ethers = some operation
        ∧ operation.targets.mapM ethers.getAddress = some targets
        ∧ o.transactAll ethers app s (targets.zip operation.payloads) = .ok s'
        ∧ o.Owns app s' ∧ s'.guardian = s.guardian ∧ app.allowedComposeHashes s'.app = {hash} := by
  obtain ⟨operation, -, hoperation, -, -, -, -⟩ := buildReleaseBatch_eq_some hbuilt
  obtain ⟨calls, payloads, hcalls, hpayloads, rfl⟩ := Options.operation_eq_some hoperation
  obtain ⟨hash, hashes, hhash, hremovals, rfl⟩ := Options.calls_eq_some hcalls
  have hrelease : hashOf r.options.composeHash = some hash := hhash
  have hlength := length_bytes32 hhash
  have hlengths : ∀ hash ∈ hashes, hash.length = 32 := by
    intro hash hmem
    have hmem : some hash ∈ r.options.retired.map bytes32 := hremovals ▸ List.mem_map_of_mem hmem
    obtain ⟨value, -, hvalue⟩ := List.mem_map.mp hmem
    exact length_bytes32 hvalue
  have hretired (other : Bytes) : other ∈ hashes ↔ other ∈ r.before ∧ other ≠ hash := by
    rw [hlisted other, ← List.mem_map_of_injective (Option.some_injective _), ← hremovals,
      Options.map_retired hhash]
    simp [List.mem_filter]
  rw [mapM_eq_some] at hpayloads
  have hcount := congrArg List.length hpayloads
  simp only [List.length_map] at hcount
  have htargets := zip_targets o.self _ payloads hcount
  cases payloads with
  | nil => simp at hpayloads
  | cons payload payloads =>
    rw [List.map_cons, List.map_cons, List.cons.injEq] at hpayloads
    -- the addition, then the removals
    obtain ⟨next, hadd, hnext, hguardian, hadded⟩ :=
      callApp_addComposeHash happ howns hlength (fun h => hzero (h ▸ hrelease))
    rw [← transact_executeCall hpayloads.1 (length_appCall_le hlength)] at hadd
    obtain ⟨s', hbatch, hremoved⟩ := transactAll_removals happ hlengths hpayloads.2 next hnext
    refine ⟨hash, _, _, s', hrelease, hoperation, mapM_const hself _, ?_, hremoved.owns,
      hremoved.guardian.trans hguardian, ?_⟩
    . rw [htargets, List.map_cons, transactAll_cons hadd, hbatch]
    . ext other
      have hother := @hbefore other
      rw [hremoved.allowed, hadded]
      simp only [Finset.mem_sdiff, Finset.mem_insert, List.mem_toFinset, Finset.mem_singleton, hretired]
      constructor
      . rintro ⟨rfl | hmem, hkept⟩
        . rfl
        . by_contra hne
          exact hkept ⟨hother hmem, hne⟩
      . rintro rfl
        exact ⟨Or.inl rfl, fun h => h.2 rfl⟩

/-- The batch of a release that was built from the hashes allowed before it leaves its own as the only one
allowed, whatever anybody but the timelock has done since; from then on only the guardian can change that. -/
theorem run_release {ethers : Ethers} {σ : Type} {app : DstackApp σ} (happ : app.IsDocumented ethers)
    (o : LongjingAppOwner) {executeBatch : ExecuteBatch σ} (hbatch : executeBatch.IsDocumented ethers app o)
    (r : Release) (hbuilt : buildReleaseBatch ethers r.options = some r.batch)
    (hlisted : ∀ hash, hash ∈ r.before ↔ some hash ∈ r.options.allowed.map hashOf)
    (hself : ethers.getAddress r.options.appOwner = some o.self)
    (hzero : hashOf r.options.composeHash ≠ some zeroHash)
    (s : Governed σ) (howns : o.Owns app s) (hbefore : app.allowedComposeHashes s.app = r.before)
    (waiting later : List Call) (hwaiting : ∀ c ∈ waiting, o.Foreign c) (hlater : ∀ c ∈ later, o.Foreign c)
    : ∃ hash operation targets s',
        hashOf r.options.composeHash = some hash
        ∧ r.options.operation ethers = some operation
        ∧ operation.targets.mapM ethers.getAddress = some targets
        ∧ executeBatch (o.run ethers app s waiting) (targets.zip operation.payloads) = .ok s'
        ∧ app.allowedComposeHashes s'.app = {hash}
        ∧ r.after = {hash}
        ∧ app.allowedComposeHashes (o.run ethers app s' later).app
          = {hash} \ (later.filterMap (o.removal? ethers s.guardian)).toFinset := by
  -- the guardian may have removed some of the hashes while the batch waited
  have hwait := run_guarded happ o s howns waiting hwaiting
  have hsubset : app.allowedComposeHashes (o.run ethers app s waiting).app ⊆ r.before := by
    rw [hwait.allowed, hbefore]
    exact Finset.sdiff_subset
  obtain ⟨hash, operation, targets, s', hhash, hoperation, htargets, hcalls, howns', hguardian, hallowed⟩ :=
    transactAll_release happ hbuilt hlisted hself hzero hwait.owns hsubset
  obtain ⟨hash', hhash', hafter⟩ := after_eq_singleton hbuilt hlisted
  obtain rfl := Option.some.inj (hhash.symm.trans hhash')
  have hrun := (run_guarded happ o s' howns' later hlater).allowed
  rw [hallowed, hguardian, hwait.guardian] at hrun
  exact ⟨hash, operation, targets, s', hhash, hoperation, htargets, hbatch.executes _ _ _ hcalls, hallowed, hafter,
    hrun⟩

end LongjingAppOwner

end Guarded

section Mock

/-- The app of the contract's tests, with the access control of a `DstackApp`. -/
structure MockDstackApp where
  owner : Bytes
  pendingOwner : Bytes
  allowedComposeHashes : Finset Bytes
  requireTcbUpToDate : Bool
deriving DecidableEq

namespace MockDstackApp

variable (ethers : Ethers)

/-- Reverts without their data. -/
def call (s : MockDstackApp) (sender data : Bytes) : Except Bytes MockDstackApp :=
  let function := data.take 4
  let arguments := data.drop 4
  if function = selector ethers "acceptOwnership()" then
    if sender = s.pendingOwner then .ok { s with owner := sender, pendingOwner := zeroAddress } else .error []
  else if sender ≠ s.owner then
    .error []
  else if function = selector ethers "addComposeHash(bytes32)" then
    match readWord arguments 0 with
    | some hash =>
      if hash = zeroHash then
        .error []
      else
        .ok { s with allowedComposeHashes := insert hash s.allowedComposeHashes }
    | none => .error []
  else if function = selector ethers "removeComposeHash(bytes32)" then
    match readWord arguments 0 with
    | some hash => .ok { s with allowedComposeHashes := s.allowedComposeHashes.erase hash }
    | none => .error []
  else if function = selector ethers "setRequireTcbUpToDate(bool)" then
    match readWord arguments 0 with
    | some word => .ok { s with requireTcbUpToDate := 0 < ofBigEndian word }
    | none => .error []
  else if function = selector ethers "transferOwnership(address)" then
    match readAddress arguments 0 with
    | some newOwner => .ok { s with pendingOwner := newOwner }
    | none => .error []
  else
    .error []

def app : DstackApp MockDstackApp where
  owner := owner
  pendingOwner := pendingOwner
  allowedComposeHashes := allowedComposeHashes
  call := call ethers

variable {ethers}

theorem readWord_self {word : Bytes} (h : word.length = 32) : readWord word 0 = some word := by
  simp [readWord, h, List.take_of_length_le h.le]

theorem isDocumented
    (hadd : selector ethers "addComposeHash(bytes32)" ≠ selector ethers "acceptOwnership()")
    (hremove : selector ethers "removeComposeHash(bytes32)" ≠ selector ethers "acceptOwnership()")
    (hdistinct : selector ethers "removeComposeHash(bytes32)" ≠ selector ethers "addComposeHash(bytes32)")
    : (app ethers).IsDocumented ethers where
  onlyOwner s sender data s' hcall howner hpending := by
    simp only [app, call] at hcall howner hpending ⊢
    rw [if_neg hpending, if_pos howner] at hcall
    split at hcall <;> cases hcall
  acceptOwnership s sender s' hpending hcall := by
    have hselector := LongjingAppOwner.length_selector ethers "acceptOwnership()"
    simp only [app, call] at hcall hpending
    rw [List.take_of_length_le hselector.le, if_pos rfl, if_neg hpending] at hcall
    cases hcall
  addComposeHash s hash hlength hzero := by
    have hselector := LongjingAppOwner.length_selector ethers "addComposeHash(bytes32)"
    refine ⟨{ s with allowedComposeHashes := insert hash s.allowedComposeHashes }, ?_, rfl, rfl, rfl⟩
    simp [app, call, List.take_left' hselector, List.drop_left' hselector, hadd, readWord_self hlength,
      hzero]
  removeComposeHash s hash hlength := by
    have hselector := LongjingAppOwner.length_selector ethers "removeComposeHash(bytes32)"
    refine ⟨{ s with allowedComposeHashes := s.allowedComposeHashes.erase hash }, ?_, rfl, rfl, rfl⟩
    simp [app, call, List.take_left' hselector, List.drop_left' hselector, hremove, hdistinct,
      readWord_self hlength]

end MockDstackApp

end Mock

section Example

/-! Version 2 replaces version 1, which the guardian removes while the batch waits. -/

/-- `recorded`, with the digest of one signature more. -/
def deployed : Ethers where
  keccak256 input :=
    if input = "acceptOwnership()".toUTF8.data.toList then
      bigEndian 32 0x79ba5097e5519a381a52113cdcc59540d13f73fd9d26abc0453484a096cc96f2
    else
      recorded.keccak256 input
  keccak256_length input := by
    split
    . exact length_bigEndian 32 _
    . exact recorded.keccak256_length input
  getAddress := recorded.getAddress
  getAddress_length := recorded.getAddress_length

theorem deployed_isDocumented : (MockDstackApp.app deployed).IsDocumented deployed :=
  MockDstackApp.isDocumented (by decide +kernel) (by decide +kernel) (by decide +kernel)

def address (last : UInt8) : Bytes := List.replicate 19 0 ++ [last]

def exampleOwner : LongjingAppOwner where
  self := address 0xb2
  app := address 0xa1
  timelock := address 0xc3
  self_ne_zero := by decide +kernel
  app_ne_zero := by decide +kernel
  timelock_ne_zero := by decide +kernel

def exampleState : Governed MockDstackApp where
  guardian := address 0xd4
  app := ⟨exampleOwner.self, zeroAddress, {repeatedHash '1'}, true⟩

theorem exampleState_owned : exampleOwner.Owns (MockDstackApp.app deployed) exampleState := ⟨rfl, rfl⟩

/-- The guardian removes version 1. -/
def exampleRemoval : Call where
  sender := address 0xd4
  target := address 0xb2
  data := selector deployed "removeComposeHash(bytes32)" ++ repeatedHash '1'

theorem exampleRemoval_foreign : exampleOwner.Foreign exampleRemoval where
  sender_ne_self := by decide
  sender_ne_zero := by decide
  untimed := by decide

theorem run_guarded_removal
    : LongjingAppOwner.Shrinks (MockDstackApp.app deployed) exampleOwner exampleState
        (exampleOwner.run deployed (MockDstackApp.app deployed) exampleState [exampleRemoval])
        ([exampleRemoval].filterMap (exampleOwner.removal? deployed exampleState.guardian)) :=
  LongjingAppOwner.run_guarded deployed_isDocumented exampleOwner exampleState exampleState_owned
    [exampleRemoval] (by simpa using exampleRemoval_foreign)

def exampleRelease : Release where
  options := replacing '1' '2'
  batch := (buildReleaseBatch deployed (replacing '1' '2')).getD ⟨"", [], [], ⟨"", []⟩, ⟨"", []⟩⟩
  before := {repeatedHash '1'}

theorem exampleRelease_built
    : buildReleaseBatch deployed exampleRelease.options = some exampleRelease.batch := by
  have hsome : (buildReleaseBatch deployed (replacing '1' '2')).isSome = true := by decide +kernel
  obtain ⟨batch, hbatch⟩ := Option.isSome_iff_exists.mp hsome
  simp [exampleRelease, hbatch]

theorem run_release_replacing
    : ∃ hash operation targets s',
        hashOf exampleRelease.options.composeHash = some hash
        ∧ exampleRelease.options.operation deployed = some operation
        ∧ operation.targets.mapM deployed.getAddress = some targets
        ∧ exampleOwner.transactAll deployed (MockDstackApp.app deployed)
          (exampleOwner.run deployed (MockDstackApp.app deployed) exampleState [exampleRemoval])
          (targets.zip operation.payloads) = .ok s'
        ∧ s'.app.allowedComposeHashes = {hash}
        ∧ exampleRelease.after = {hash}
        ∧ (exampleOwner.run deployed (MockDstackApp.app deployed) s' [exampleRemoval]).app.allowedComposeHashes
          = {hash} \ ([exampleRemoval].filterMap (exampleOwner.removal? deployed exampleState.guardian)).toFinset := by
  have hlisted (hash : Bytes) : hash ∈ exampleRelease.before
      ↔ some hash ∈ exampleRelease.options.allowed.map hashOf := by
    have hone := hashOf_repeated (Or.inl rfl : ('1' : Char) = '1' ∨ ('1' : Char) = '2')
    simp [exampleRelease, replacing, hone]
  have hzero : hashOf exampleRelease.options.composeHash ≠ some zeroHash := by
    have htwo := hashOf_repeated (Or.inr rfl : ('2' : Char) = '1' ∨ ('2' : Char) = '2')
    have hrelease : exampleRelease.options.composeHash = repeated '2' := rfl
    rw [hrelease, htwo]
    decide +kernel
  exact LongjingAppOwner.run_release deployed_isDocumented exampleOwner
    ⟨fun _ _ _ h => h, fun _ _ reason h => ⟨reason, h⟩⟩ exampleRelease exampleRelease_built
    hlisted rfl hzero exampleState exampleState_owned rfl [exampleRemoval] [exampleRemoval]
    (by simpa using exampleRemoval_foreign) (by simpa using exampleRemoval_foreign)

end Example

end Governance
end Longjing
