import Longjing.Governance.ReleaseBatch
import Mathlib.Data.Finset.Option
import Mathlib.Data.Finset.SDiff

/-!
This module contains what a history of releases does to the compose hashes that the `DstackApp` allows,
and when each release is an operation of its own for the timelock.
-/

namespace Longjing
namespace Governance

open Attestation (Bytes fromHex isHexBytes Collides)
open Abi

/-- A release with the hashes that were allowed when its batch was built. -/
structure Release where
  options : Options
  batch : ReleaseBatch
  before : Finset Bytes
deriving DecidableEq

namespace Release

/-- The batch is executed: it adds its hash and removes the retired ones. -/
def after (r : Release) : Finset Bytes :=
  r.batch.retired.foldl (fun allowed hash => allowed \ (bytes32 hash).toFinset)
    (r.before ∪ (bytes32 r.batch.composeHash).toFinset)

end Release

section History

variable (ethers : Ethers)

/--
Releases of one app owner and timelock. Each is built from the allowed hashes, executed before the next
one is built, and changes what is allowed.
-/
structure IsHistory (appOwner timelock : String) (history : List Release) : Prop where
  addresses : ∀ r ∈ history, r.options.appOwner = appOwner ∧ r.options.timelock = timelock
  built : ∀ r ∈ history, buildReleaseBatch ethers r.options = some r.batch
  listed : ∀ r ∈ history, ∀ hash,
    hash ∈ r.before ↔ some hash ∈ r.options.allowed.map hashOf
  changes : ∀ r ∈ history, r.after ≠ r.before
  executed : history.IsChain fun r next => next.before = r.after

/--
Every release is an operation of its own, so that none was done before, and leaves its hash as the only
one allowed.
-/
structure Distinct (history : List Release) : Prop where
  operationIds : (history.map (·.batch.operationId)).Nodup
  single : ∀ r ∈ history, ∃ hash,
    hashOf r.options.composeHash = some hash ∧ r.after = {hash}

end History

section History

variable {ethers : Ethers}

theorem mem_foldl_sdiff {allowed : Finset Bytes} {values : List String} {hash : Bytes}
    : hash ∈ values.foldl (fun allowed value => allowed \ (bytes32 value).toFinset) allowed
      ↔ hash ∈ allowed ∧ some hash ∉ values.map bytes32 := by
  induction values generalizing allowed with
  | nil => simp
  | cons value values ih =>
    rw [List.foldl_cons, ih]
    simp only [Finset.mem_sdiff, Option.mem_toFinset, Option.mem_def, List.map_cons, List.mem_cons,
      not_or, and_assoc, eq_comm]

/-- Once a batch is executed, its hash is the only one allowed. -/
theorem after_eq_singleton {r : Release} (hbuilt : buildReleaseBatch ethers r.options = some r.batch)
    (hlisted : ∀ hash, hash ∈ r.before ↔ some hash ∈ r.options.allowed.map hashOf)
    : ∃ hash, hashOf r.options.composeHash = some hash ∧ r.after = {hash} := by
  obtain ⟨operation, -, hoperation, -, hrelease, hretired, -⟩ := buildReleaseBatch_eq_some hbuilt
  obtain ⟨calls, -, hcalls, -⟩ := Options.operation_eq_some hoperation
  obtain ⟨hash, hashes, hhash, -⟩ := Options.calls_eq_some hcalls
  refine ⟨hash, hhash, ?_⟩
  ext other
  unfold Release.after
  rw [mem_foldl_sdiff, hrelease, hretired, hhash, Options.map_retired hhash]
  simp only [Finset.mem_union, Option.toFinset_some, Finset.mem_singleton, List.mem_filter,
    decide_eq_true_eq, ne_eq, Option.some.injEq, not_and, not_not]
  constructor
  . rintro ⟨hbefore | rfl, hkept⟩
    . exact hkept ((hlisted other).mp hbefore)
    . rfl
  . rintro rfl
    exact ⟨.inr rfl, fun _ => rfl⟩

theorem nodup_map_iff {α β γ : Type} {f : α → β} {g : α → γ} {xs : List α}
    (h : ∀ x ∈ xs, ∀ y ∈ xs, f x = f y ↔ g x = g y)
    : (xs.map f).Nodup ↔ (xs.map g).Nodup := by
  rw [List.Nodup, List.Nodup, List.pairwise_map, List.pairwise_map]
  exact List.Pairwise.iff_of_mem fun {x y} hx hy => not_congr (h x hx y hy)

/--
The releases of a history are operations of their own, each of which leaves its hash as the only one
allowed, if and only if no two of them make the same move: no release adds the hash that another one
added when the other allowed hashes were the same.
-/
theorem buildReleaseBatch_distinct_iff {appOwner timelock : String} {history : List Release}
    (h : IsHistory ethers appOwner timelock history)
    (hkeccak : ¬ Collides ethers.keccak256
      (history.filterMap fun r => r.options.encodedOperation ethers))
    : Distinct history ↔ (history.map fun r => move r.options).Nodup := by
  have hids : (history.map (·.batch.operationId)).Nodup
      ↔ (history.map fun r => move r.options).Nodup := by
    apply nodup_map_iff
    intro r hr r' hr'
    have howner := (h.addresses r hr).1.trans (h.addresses r' hr').1.symm
    refine operationId_eq_iff (h.built r hr) (h.built r' hr') howner ?_ hkeccak
    rintro encoded (hencoded | hencoded)
    . exact List.mem_filterMap.mpr ⟨r, hr, hencoded⟩
    . exact List.mem_filterMap.mpr ⟨r', hr', hencoded⟩
  constructor
  . intro hdistinct
    exact hids.mp hdistinct.operationIds
  . intro hmoves
    exact ⟨hids.mpr hmoves, fun r hr => after_eq_singleton (h.built r hr) (h.listed r hr)⟩

theorem IsHistory.of_append {appOwner timelock : String} {history later : List Release}
    (h : IsHistory ethers appOwner timelock (history ++ later))
    : IsHistory ethers appOwner timelock history where
  addresses r hr := h.addresses r (List.mem_append_left _ hr)
  built r hr := h.built r (List.mem_append_left _ hr)
  listed r hr := h.listed r (List.mem_append_left _ hr)
  changes r hr := h.changes r (List.mem_append_left _ hr)
  executed := h.executed.left_of_append

end History

section Rollback

/-! A rollback with ethers as it is on its inputs: the digests are those of keccak-256. -/

/-- By the length of an input and the first byte of its salt. -/
def digests : List ((Nat × UInt8) × Nat) :=
  [((14, 0), 0x09c5eabe8d7d17edb2a5ee22b8241b3c45db7f41e72a7ae433139a0e48dc3584),
    ((23, 0), 0xdfc772230e34815c212c47559a3620380f88daf04edd06c81abca1c96efbaf92),
    ((26, 0), 0x67b3f22ca7e1d00dbbcecaa171d6ab258dd2a70225a3750951954913a7985dca),
    ((57, 0), 0xe38335e538545b221322518604fed4c68b1db0584b8769f10c34ac8e9abadae3),
    ((66, 0), 0x8f2a0bb0720e43552ff48c3771689e697e1df4c8ef90faf7acce47bcfa9dfdd9),
    ((832, 0x11), 0x7b87b9b77065b4ffac459f15f69baa782ecf368c21bb0afc6f8a658cc64eb759),
    ((832, 0x22), 0x8926f43b1717ccc8549826764c183ec7aaa4e1ce345ec31dd473715131672a56)]

def recorded : Ethers where
  keccak256 input := bigEndian 32 ((digests.lookup (input.length, input.getD 128 0)).getD 0)
  keccak256_length _ := length_bigEndian 32 _
  getAddress value :=
    if value = "0x00000000000000000000000000000000000000b2" then
      some (List.replicate 19 0 ++ [0xb2])
    else
      none
  getAddress_length value address h := by
    split at h
    . cases h
      rfl
    . contradiction

def repeated (digit : Char) : String := String.ofList ('0' :: 'x' :: List.replicate 64 digit)

def repeatedHash (digit : Char) : Bytes := fromHex (List.replicate 64 digit)

def replacing (old new : Char) : Options where
  appOwner := "0x00000000000000000000000000000000000000b2"
  timelock := "0x00000000000000000000000000000000000000c3"
  delay := 604800
  composeHash := repeated new
  allowed := [repeated old]

def replace (old new : Char) : Release where
  options := replacing old new
  batch := (buildReleaseBatch recorded (replacing old new)).getD ⟨"", [], [], ⟨"", []⟩, ⟨"", []⟩⟩
  before := {repeatedHash old}

theorem hashOf_repeated {digit : Char} (h : digit = '1' ∨ digit = '2')
    : hashOf (repeated digit) = some (repeatedHash digit) := by
  have hlower : toLowerCase (repeated digit) = repeated digit := by
    rcases h with rfl | rfl <;> simp [toLowerCase, repeated]
  rw [hashOf, hlower, bytes32, repeated, isHexBytes, String.toList_ofList]
  rcases h with rfl | rfl <;> rfl

/-- Version 2 replaces version 1, and is rolled back. -/
theorem operationId_replacing
    : (buildReleaseBatch recorded (replacing '1' '2')).map ReleaseBatch.operationId
        = some (bigEndian 32 0x8926f43b1717ccc8549826764c183ec7aaa4e1ce345ec31dd473715131672a56)
      ∧ (buildReleaseBatch recorded (replacing '2' '1')).map ReleaseBatch.operationId
        = some (bigEndian 32 0x7b87b9b77065b4ffac459f15f69baa782ecf368c21bb0afc6f8a658cc64eb759) := by
  decide +kernel

/-- A version is `1` or `2`, and another one replaces it. -/
def IsReplacement (old new : Char) : Prop := (old = '1' ∧ new = '2') ∨ (old = '2' ∧ new = '1')

theorem built_replace {old new : Char} (h : IsReplacement old new)
    : buildReleaseBatch recorded (replacing old new) = some (replace old new).batch := by
  have hsome : (buildReleaseBatch recorded (replacing old new)).isSome = true := by
    rcases h with ⟨rfl, rfl⟩ | ⟨rfl, rfl⟩
    . obtain ⟨batch, hbatch, -⟩ := Option.map_eq_some_iff.mp operationId_replacing.1
      simp [hbatch]
    . obtain ⟨batch, hbatch, -⟩ := Option.map_eq_some_iff.mp operationId_replacing.2
      simp [hbatch]
  obtain ⟨batch, hbatch⟩ := Option.isSome_iff_exists.mp hsome
  simp [replace, hbatch]

theorem before_replace (old new : Char) : (replace old new).before = {repeatedHash old} := rfl

theorem options_replace (old new : Char) : (replace old new).options = replacing old new := rfl

theorem listed_replace {old new : Char} (h : IsReplacement old new) (hash : Bytes)
    : hash ∈ (replace old new).before
      ↔ some hash ∈ (replace old new).options.allowed.map hashOf := by
  have hold := hashOf_repeated (h.imp And.left And.left)
  simp [before_replace, options_replace, replacing, hold]

theorem after_replace {old new : Char} (h : IsReplacement old new)
    : (replace old new).after = {repeatedHash new} := by
  have hnew := hashOf_repeated (h.symm.imp And.right And.right)
  obtain ⟨hash, hhash, hafter⟩ :=
    @after_eq_singleton recorded (replace old new) (built_replace h) (listed_replace h)
  have hhash : hashOf (repeated new) = some hash := hhash
  rw [hnew, Option.some.injEq] at hhash
  subst hhash
  exact hafter

/-- Version 2 is released, rolled back, and released again. -/
theorem isHistory_replace : IsHistory recorded "0x00000000000000000000000000000000000000b2"
    "0x00000000000000000000000000000000000000c3" [replace '1' '2', replace '2' '1', replace '1' '2'] := by
  have hfirst : IsReplacement '1' '2' := .inl ⟨rfl, rfl⟩
  have hback : IsReplacement '2' '1' := .inr ⟨rfl, rfl⟩
  have hne : repeatedHash '1' ≠ repeatedHash '2' := by decide +kernel
  constructor
  . simp [options_replace, replacing]
  . simp only [List.mem_cons, List.not_mem_nil, or_false]
    rintro r (rfl | rfl | rfl)
    . exact built_replace hfirst
    . exact built_replace hback
    . exact built_replace hfirst
  . simp only [List.mem_cons, List.not_mem_nil, or_false]
    rintro r (rfl | rfl | rfl)
    . exact listed_replace hfirst
    . exact listed_replace hback
    . exact listed_replace hfirst
  . simp only [List.mem_cons, List.not_mem_nil, or_false]
    rintro r (rfl | rfl | rfl)
    . simpa [after_replace hfirst, before_replace] using hne.symm
    . simpa [after_replace hback, before_replace] using hne
    . simpa [after_replace hfirst, before_replace] using hne.symm
  . simp [after_replace hfirst, after_replace hback, before_replace]

theorem not_collides_replace {history : List Release}
    (h : ∀ r ∈ history, r = replace '1' '2' ∨ r = replace '2' '1')
    : ¬ Collides recorded.keccak256
      (history.filterMap fun r => r.options.encodedOperation recorded) := by
  obtain ⟨batch, hbatch, hid⟩ := Option.map_eq_some_iff.mp operationId_replacing.1
  obtain ⟨batch', hbatch', hid'⟩ := Option.map_eq_some_iff.mp operationId_replacing.2
  obtain ⟨-, first, -, hfirst, -, -, hfirstId⟩ := buildReleaseBatch_eq_some hbatch
  obtain ⟨-, back, -, hback, -, -, hbackId⟩ := buildReleaseBatch_eq_some hbatch'
  have hne : recorded.keccak256 first ≠ recorded.keccak256 back := by
    rw [← hfirstId, ← hbackId, hid, hid']
    decide +kernel
  have hinputs : ∀ input ∈ history.filterMap fun r => r.options.encodedOperation recorded,
      input = first ∨ input = back := by
    intro input hinput
    obtain ⟨r, hr, hencoded⟩ := List.mem_filterMap.mp hinput
    rcases h r hr with rfl | rfl
    . exact .inl (Option.some.inj (hencoded.symm.trans hfirst))
    . exact .inr (Option.some.inj (hencoded.symm.trans hback))
  rintro ⟨a, ha, b, hb, hab, heq⟩
  rcases hinputs a ha with rfl | rfl
  . rcases hinputs b hb with rfl | rfl
    . exact hab rfl
    . exact hne heq
  . rcases hinputs b hb with rfl | rfl
    . exact hne heq.symm
    . exact hab rfl

/-- A release and its rollback are two operations. -/
theorem buildReleaseBatch_distinct_rollback : Distinct [replace '1' '2', replace '2' '1'] := by
  have hhistory := @IsHistory.of_append recorded _ _ [replace '1' '2', replace '2' '1'] _ isHistory_replace
  refine (buildReleaseBatch_distinct_iff hhistory (not_collides_replace (by simp))).mpr ?_
  have hne : repeatedHash '1' ≠ repeatedHash '2' := by decide +kernel
  have hfirst := hashOf_repeated (Or.inl rfl : ('1' : Char) = '1' ∨ ('1' : Char) = '2')
  have hsecond := hashOf_repeated (Or.inr rfl : ('2' : Char) = '1' ∨ ('2' : Char) = '2')
  simp [options_replace, replacing, move, hfirst, hsecond, hne.symm]

/-- A version that is released again after its rollback is the operation that was done before. -/
theorem buildReleaseBatch_not_distinct
    : ¬ ∀ (ethers : Ethers) (appOwner timelock : String) (history : List Release),
        IsHistory ethers appOwner timelock history
          → ¬ Collides ethers.keccak256 (history.filterMap fun r => r.options.encodedOperation ethers)
          → Distinct history := by
  intro h
  have hdistinct := h recorded _ _ _ isHistory_replace (not_collides_replace (by simp))
  have hids := hdistinct.operationIds
  simp at hids

end Rollback

end Governance
end Longjing
