import Longjing.Attestation.KeyBinding
import Longjing.Js.Map
import Mathlib.Data.List.Induction

/-!
This module contains `app-governance.ts`: the history of an app, read from its logs page by page, and the
checks on what was read.
-/

namespace Longjing
namespace Attestation

open Js

inductive GovernanceEvent where
  | composeHashAdded (composeHash : String)
  | composeHashRemoved (composeHash : String)
  | upgraded (implementation : String)
deriving DecidableEq, Repr

structure GovernanceLog where
  event : GovernanceEvent
  blockNumber : Nat
deriving DecidableEq, Repr

structure ComposeHashRecord where
  composeHash : String
  allowed : Bool
  added : List Nat
  removed : List Nat
deriving DecidableEq, Repr

structure Upgrade where
  implementation : String
  blockNumber : Nat
deriving DecidableEq, Repr

/-- The chain: its latest block, the logs of an inclusive range, and what the contract allows now. -/
structure ChainReader where
  latest : Nat
  getLogs : Nat → Nat → List GovernanceLog
  allowedComposeHashes : String → Bool

structure History where
  records : Map String ComposeHashRecord
  upgrades : List Upgrade
deriving DecidableEq, Repr

structure GovernanceHistory where
  composeHashes : List ComposeHashRecord
  upgrades : List Upgrade
deriving DecidableEq, Repr

namespace History

def empty : History := ⟨[], []⟩

def recordOf (h : History) (composeHash : String) : ComposeHashRecord :=
  (Map.get h.records composeHash).getD ⟨composeHash, false, [], []⟩

def handleLog (h : History) (log : GovernanceLog) : History :=
  match log.event with
  | .upgraded implementation => { h with upgrades := h.upgrades ++ [⟨implementation, log.blockNumber⟩] }
  | .composeHashAdded composeHash =>
    let record := h.recordOf composeHash
    { h with
      records := Map.set h.records composeHash { record with added := record.added ++ [log.blockNumber] } }
  | .composeHashRemoved composeHash =>
    let record := h.recordOf composeHash
    { h with
      records := Map.set h.records composeHash { record with removed := record.removed ++ [log.blockNumber] } }

/-- What is returned: whether a build is allowed is asked of the contract. -/
def finish (h : History) (reader : ChainReader) : GovernanceHistory where
  composeHashes := h.records.map fun (_, record) =>
    { record with allowed := reader.allowedComposeHashes record.composeHash }
  upgrades := h.upgrades

end History

/-- The loop over the pages; `none` if it has not ended within the steps given. -/
def readPages (reader : ChainReader) (blockRange : Nat) : Nat → Nat → History → Option History
  | 0, _, _ => none
  | steps + 1, start, h =>
    if start ≤ reader.latest then
      readPages reader blockRange steps (start + blockRange)
        ((reader.getLogs start (min (start + blockRange - 1) reader.latest)).foldl History.handleLog h)
    else
      some h

def readHistory (reader : ChainReader) (fromBlock blockRange steps : Nat) : Option GovernanceHistory :=
  (readPages reader blockRange steps fromBlock .empty).map (·.finish reader)

/-- One query over the whole interval. -/
def readOnce (reader : ChainReader) (fromBlock : Nat) : GovernanceHistory :=
  ((reader.getLogs fromBlock reader.latest).foldl History.handleLog .empty).finish reader

/-- The logs of an inclusive range. -/
def inRange (log : List GovernanceLog) (fromBlock toBlock : Nat) : List GovernanceLog :=
  log.filter fun entry => fromBlock ≤ entry.blockNumber && entry.blockNumber ≤ toBlock

/-- The reader answers from this log, which is in the order of the chain. -/
structure Serves (reader : ChainReader) (log : List GovernanceLog) : Prop where
  ordered : log.Pairwise (·.blockNumber ≤ ·.blockNumber)
  getLogs : ∀ fromBlock toBlock, reader.getLogs fromBlock toBlock = inRange log fromBlock toBlock

def addedAt (composeHash : String) (log : List GovernanceLog) : List Nat :=
  (log.filter (·.event = .composeHashAdded composeHash)).map GovernanceLog.blockNumber

def removedAt (composeHash : String) (log : List GovernanceLog) : List Nat :=
  (log.filter (·.event = .composeHashRemoved composeHash)).map GovernanceLog.blockNumber

def upgradesIn (log : List GovernanceLog) : List Upgrade :=
  log.filterMap fun entry =>
    match entry.event with
    | .upgraded implementation => some ⟨implementation, entry.blockNumber⟩
    | _ => none

/-- A history has every log once, in order, and nothing else. -/
structure Records (reader : ChainReader) (log : List GovernanceLog) (history : GovernanceHistory) : Prop where
  upgrades : history.upgrades = upgradesIn log
  distinct : (history.composeHashes.map ComposeHashRecord.composeHash).Nodup
  record : ∀ record ∈ history.composeHashes,
    record.added = addedAt record.composeHash log ∧ record.removed = removedAt record.composeHash log
      ∧ record.allowed = reader.allowedComposeHashes record.composeHash
      ∧ record.added ++ record.removed ≠ []
  complete : ∀ composeHash, addedAt composeHash log ++ removedAt composeHash log ≠ [] →
    ∃ record ∈ history.composeHashes, record.composeHash = composeHash

structure AppOwner where
  address : String
  timelock : String
  guardian : String
  minDelay : Int
  timelockSelfAdministered : Bool
deriving DecidableEq, Repr

structure AppGovernance extends GovernanceHistory where
  app : String
  owner : String
  pendingOwner : String
  requireTcbUpToDate : Bool
  -- set when the owner is a LongjingAppOwner for this app
  appOwner : Option AppOwner
deriving DecidableEq, Repr

inductive GovernanceFailure where
  | owner (owner : String)
  | delay (delay minDelay : Int)
  | tcb
  | composeHash (composeHash : String)
deriving DecidableEq, Repr

def GovernanceFailure.message : GovernanceFailure → String
  | .owner address => "The app is owned by " ++ address
    ++ ", not a LongjingAppOwner behind a timelock: it can add builds without delay"
  | .delay seconds required => "The timelock delay is " ++ toString seconds ++ "s, under the required "
    ++ toString required ++ "s"
  | .tcb => "requireTcbUpToDate is off: out-of-date TCBs can boot the app"
  | .composeHash hash => "The running compose hash " ++ hash ++ " is not allowed"

inductive GovernanceWarning where
  | timelock
  | guardian
  | pendingOwner (pendingOwner : String)
  | allowed (builds : Nat)
deriving DecidableEq, Repr

def GovernanceWarning.message : GovernanceWarning → String
  | .timelock =>
    "The timelock does not administer itself: check no other admin can change its roles without delay"
  | .guardian => "No guardian: compose hashes cannot be removed without delay"
  | .pendingOwner address => "An ownership transfer to " ++ address
    ++ " is pending: that address can take the app over at any time"
  | .allowed builds => toString builds ++ " compose hashes are allowed: every one of them can derive the keys"

def ZeroAddress : String := "0x0000000000000000000000000000000000000000"
def DEFAULT_MIN_DELAY_SECONDS : Int := 7 * 24 * 60 * 60

/-- The builds that can derive the keys. -/
def AppGovernance.allowed (governance : AppGovernance) : List ComposeHashRecord :=
  governance.composeHashes.filter ComposeHashRecord.allowed

/-- The running build, if its hash is given and it is not among those allowed. -/
def checkComposeHash (rt : Runtime) (governance : AppGovernance) (composeHash : Option String)
    : List GovernanceFailure :=
  match composeHash.filter (· ≠ "") with
  | none => []
  | some hash =>
    let running := governance.composeHashes.find? (·.composeHash = normalizeHash rt hash)
    if running.any ComposeHashRecord.allowed then [] else [.composeHash hash]

def checkAppGovernance (rt : Runtime) (governance : AppGovernance) (minDelay : Option Int)
    (composeHash : Option String) : List GovernanceFailure × List GovernanceWarning :=
  let minDelay := minDelay.getD DEFAULT_MIN_DELAY_SECONDS
  let ownerFailures := match governance.appOwner with
    | none => [.owner governance.owner]
    | some appOwner => if appOwner.minDelay < minDelay then [.delay appOwner.minDelay minDelay] else []
  let ownerWarnings := match governance.appOwner with
    | none => []
    | some appOwner =>
      (if appOwner.timelockSelfAdministered then [] else [.timelock])
        ++ if appOwner.guardian = ZeroAddress then [.guardian] else []
  (ownerFailures ++ (if governance.requireTcbUpToDate then [] else [.tcb])
      ++ checkComposeHash rt governance composeHash,
    ownerWarnings
      ++ (if governance.pendingOwner = ZeroAddress then [] else [.pendingOwner governance.pendingOwner])
      ++ if 1 < governance.allowed.length then [.allowed governance.allowed.length] else [])

section Pages

variable {log : List GovernanceLog}

theorem inRange_eq_nil {fromBlock toBlock : Nat} (h : toBlock < fromBlock) : inRange log fromBlock toBlock = [] := by
  unfold inRange
  rw [List.filter_eq_nil_iff]
  intro entry _
  simp only [Bool.and_eq_true, decide_eq_true_eq]
  omega

theorem inRange_append (hordered : log.Pairwise (·.blockNumber ≤ ·.blockNumber)) {first next last : Nat}
    (hnext : first < next)
    : inRange log first last = inRange log first (min (next - 1) last) ++ inRange log next last := by
  unfold inRange
  induction log with
  | nil => rfl
  | cons entry rest ih =>
    obtain ⟨hlater, hrest⟩ := List.pairwise_cons.mp hordered
    by_cases hpage : entry.blockNumber < next
    . have hkeep : (decide (first ≤ entry.blockNumber) && decide (entry.blockNumber ≤ last))
          = (decide (first ≤ entry.blockNumber) && decide (entry.blockNumber ≤ min (next - 1) last)) := by
        rw [← Bool.decide_and, ← Bool.decide_and, decide_eq_decide]
        omega
      have hdrop : ¬ (decide (next ≤ entry.blockNumber) && decide (entry.blockNumber ≤ last)) = true := by
        simp only [Bool.and_eq_true, decide_eq_true_eq]
        omega
      rw [List.filter_cons, List.filter_cons, List.filter_cons, ih hrest, hkeep, if_neg hdrop]
      split <;> rfl
    . -- the page is over, and everything that follows comes after it
      have hall : ∀ e ∈ entry :: rest, next ≤ e.blockNumber := by
        intro e he
        rcases List.mem_cons.mp he with rfl | he
        . omega
        . exact Nat.le_trans (by omega) (hlater e he)
      have hnone : (entry :: rest).filter (fun e => decide (first ≤ e.blockNumber)
          && decide (e.blockNumber ≤ min (next - 1) last)) = [] := by
        rw [List.filter_eq_nil_iff]
        intro e he
        have := hall e he
        simp only [Bool.and_eq_true, decide_eq_true_eq]
        omega
      rw [hnone, List.nil_append]
      apply List.filter_congr
      intro e he
      have := hall e he
      rw [← Bool.decide_and, ← Bool.decide_and, decide_eq_decide]
      omega

theorem readPages_eq {reader : ChainReader} (h : Serves reader log) {blockRange : Nat} (hrange : 1 ≤ blockRange)
    (steps start : Nat) (history : History) (hsteps : reader.latest + 1 - start < steps)
    : readPages reader blockRange steps start history
      = some ((inRange log start reader.latest).foldl History.handleLog history) := by
  induction steps generalizing start history with
  | zero => omega
  | succ steps ih =>
    unfold readPages
    split
    next hstart =>
      rw [ih (start + blockRange) _ (by omega), h.getLogs, ← List.foldl_append,
        ← inRange_append h.ordered (by omega)]
    next hstart =>
      rw [inRange_eq_nil (by omega)]
      rfl

end Pages

section Record

theorem addedAt_concat (composeHash : String) (log : List GovernanceLog) (entry : GovernanceLog)
    : addedAt composeHash (log ++ [entry])
      = addedAt composeHash log
        ++ if entry.event = .composeHashAdded composeHash then [entry.blockNumber] else [] := by
  unfold addedAt
  rw [List.filter_append, List.map_append, List.filter_singleton]
  by_cases hentry : entry.event = .composeHashAdded composeHash <;> simp [hentry]

theorem removedAt_concat (composeHash : String) (log : List GovernanceLog) (entry : GovernanceLog)
    : removedAt composeHash (log ++ [entry])
      = removedAt composeHash log
        ++ if entry.event = .composeHashRemoved composeHash then [entry.blockNumber] else [] := by
  unfold removedAt
  rw [List.filter_append, List.map_append, List.filter_singleton]
  by_cases hentry : entry.event = .composeHashRemoved composeHash <;> simp [hentry]

/-- The records are of the logs so far. -/
structure History.Of (h : History) (log : List GovernanceLog) : Prop where
  distinct : Map.Distinct h.records
  get : ∀ composeHash, Map.get h.records composeHash
    = if addedAt composeHash log ++ removedAt composeHash log = [] then none
      else some ⟨composeHash, false, addedAt composeHash log, removedAt composeHash log⟩
  upgrades : h.upgrades = upgradesIn log

theorem History.Of.recordOf {h : History} {log : List GovernanceLog} (hof : h.Of log) (composeHash : String)
    : h.recordOf composeHash = ⟨composeHash, false, addedAt composeHash log, removedAt composeHash log⟩ := by
  unfold History.recordOf
  rw [hof.get]
  split
  next hnone =>
    obtain ⟨hadded, hremoved⟩ := List.append_eq_nil_iff.mp hnone
    rw [hadded, hremoved]
    rfl
  next => rfl

theorem History.Of.handleLog {h : History} {log : List GovernanceLog} (hof : h.Of log) (entry : GovernanceLog)
    : (h.handleLog entry).Of (log ++ [entry]) := by
  obtain ⟨event, blockNumber⟩ := entry
  cases event with
  | upgraded implementation =>
    refine ⟨hof.distinct, fun composeHash => ?_, ?_⟩
    . simp only [addedAt_concat, removedAt_concat, reduceCtorEq, if_false, List.append_nil]
      exact hof.get composeHash
    . unfold History.handleLog
      simp [hof.upgrades, upgradesIn]
  | composeHashAdded c =>
    unfold History.handleLog
    simp only
    refine ⟨hof.distinct.set _ _, fun composeHash => ?_, ?_⟩
    . simp only [Map.get_set, hof.recordOf, addedAt_concat, removedAt_concat, GovernanceEvent.composeHashAdded.injEq,
        reduceCtorEq, if_false, List.append_nil]
      by_cases hc : composeHash = c
      . subst hc
        simp
      . rw [if_neg hc, if_neg (Ne.symm hc), List.append_nil]
        exact hof.get composeHash
    . simp [hof.upgrades, upgradesIn]
  | composeHashRemoved c =>
    unfold History.handleLog
    simp only
    refine ⟨hof.distinct.set _ _, fun composeHash => ?_, ?_⟩
    . simp only [Map.get_set, hof.recordOf, addedAt_concat, removedAt_concat,
        GovernanceEvent.composeHashRemoved.injEq, reduceCtorEq, if_false, List.append_nil]
      by_cases hc : composeHash = c
      . subst hc
        simp
      . rw [if_neg hc, if_neg (Ne.symm hc), List.append_nil]
        exact hof.get composeHash
    . simp [hof.upgrades, upgradesIn]

theorem foldl_handleLog_of (log : List GovernanceLog) : (log.foldl History.handleLog .empty).Of log := by
  induction log using List.reverseRecOn with
  | nil => exact ⟨List.nodup_nil, fun _ => rfl, rfl⟩
  | append_singleton log entry ih =>
    rw [List.foldl_append]
    exact ih.handleLog entry

theorem History.Of.record {h : History} {log : List GovernanceLog} (hof : h.Of log) {key : String}
    {record : ComposeHashRecord} (hmem : (key, record) ∈ h.records)
    : record = ⟨key, false, addedAt key log, removedAt key log⟩ ∧ addedAt key log ++ removedAt key log ≠ [] := by
  have hget := Map.get_of_mem hof.distinct hmem
  rw [hof.get] at hget
  split at hget
  next => contradiction
  next hne => exact ⟨(Option.some.inj hget).symm, hne⟩

theorem History.Of.finish {h : History} {log : List GovernanceLog} (hof : h.Of log) (reader : ChainReader)
    : Records reader log (h.finish reader) := by
  refine ⟨hof.upgrades, ?_, ?_, fun composeHash hne => ?_⟩
  . have hkeys : (h.finish reader).composeHashes.map ComposeHashRecord.composeHash = h.records.map Prod.fst := by
      unfold History.finish
      rw [List.map_map]
      apply List.map_congr_left
      rintro ⟨key, record⟩ hmem
      simp [(hof.record hmem).1]
    rw [hkeys]
    exact hof.distinct
  . intro record hrecord
    obtain ⟨⟨key, stored⟩, hmem, rfl⟩ := List.mem_map.mp hrecord
    obtain ⟨rfl, hne⟩ := hof.record hmem
    exact ⟨rfl, rfl, rfl, hne⟩
  . have hget := hof.get composeHash
    rw [if_neg hne] at hget
    exact ⟨_, List.mem_map.mpr ⟨_, Map.mem_of_get hget, rfl⟩, rfl⟩

end Record

section Check

variable {rt : Runtime} {governance : AppGovernance} {reader : ChainReader} {log : List GovernanceLog}

theorem composeHash_mem_checkAppGovernance {minDelay : Option Int} {composeHash : Option String} {hash : String}
    (h : .composeHash hash ∈ (checkAppGovernance rt governance minDelay composeHash).1)
    : .composeHash hash ∈ checkComposeHash rt governance composeHash := by
  unfold checkAppGovernance at h
  simp only [List.mem_append] at h
  rcases h with (howner | htcb) | hcompose
  . cases happ : governance.appOwner with
    | none => simp [happ] at howner
    | some appOwner =>
      simp only [happ] at howner
      split at howner <;> simp at howner
  . split at htcb <;> simp at htcb
  . exact hcompose

theorem Records.checked (h : Records reader log governance.toGovernanceHistory) {composeHash : String}
    (hadded : addedAt (normalizeHash rt composeHash) log ≠ [])
    (hallowed : reader.allowedComposeHashes (normalizeHash rt composeHash) = true)
    : (∃ record ∈ governance.allowed, record.composeHash = normalizeHash rt composeHash)
      ∧ ∀ minDelay, .composeHash composeHash ∉ (checkAppGovernance rt governance minDelay (some composeHash)).1 := by
  have hsome := h.complete (normalizeHash rt composeHash) (by simp [hadded])
  have hrecord {record : ComposeHashRecord} (hmem : record ∈ governance.composeHashes)
      (hhash : record.composeHash = normalizeHash rt composeHash) : record.allowed = true := by
    rw [(h.record record hmem).2.2.1, hhash]
    exact hallowed
  constructor
  . obtain ⟨record, hmem, hhash⟩ := hsome
    exact ⟨record, List.mem_filter.mpr ⟨hmem, hrecord hmem hhash⟩, hhash⟩
  . intro minDelay hfailure
    have hcheck := composeHash_mem_checkAppGovernance hfailure
    unfold checkComposeHash at hcheck
    split at hcheck
    next => exact absurd hcheck List.not_mem_nil
    next hash hsome' =>
      obtain ⟨hcomposeHash, -⟩ := Option.filter_eq_some_iff.mp hsome'
      cases hcomposeHash
      cases hfind : governance.composeHashes.find? (·.composeHash = normalizeHash rt composeHash) with
      | none =>
        obtain ⟨record, hmem, hhash⟩ := hsome
        exact absurd hhash (by simpa using List.find?_eq_none.mp hfind record hmem)
      | some record =>
        have hallowed' := hrecord (List.mem_of_find?_eq_some hfind) (by simpa using List.find?_some hfind)
        simp [hfind, hallowed'] at hcheck

/-- However the interval is cut into pages, the history is that of one query: every event in it once, in order,
and every build that was added in it and is allowed. -/
theorem readHistory_paged (rt : Runtime) (h : Serves reader log) {blockRange : Nat} (hrange : 1 ≤ blockRange)
    (fromBlock : Nat)
    : (∀ steps, reader.latest + 1 - fromBlock < steps →
        readHistory reader fromBlock blockRange steps = some (readOnce reader fromBlock))
      ∧ Records reader (inRange log fromBlock reader.latest) (readOnce reader fromBlock)
      ∧ ∀ governance : AppGovernance, governance.toGovernanceHistory = readOnce reader fromBlock →
        ∀ composeHash, addedAt (normalizeHash rt composeHash) (inRange log fromBlock reader.latest) ≠ [] →
          reader.allowedComposeHashes (normalizeHash rt composeHash) = true →
          (∃ record ∈ governance.allowed, record.composeHash = normalizeHash rt composeHash)
            ∧ ∀ minDelay,
              .composeHash composeHash ∉ (checkAppGovernance rt governance minDelay (some composeHash)).1 := by
  have hrecords : Records reader (inRange log fromBlock reader.latest) (readOnce reader fromBlock) := by
    unfold readOnce
    rw [h.getLogs]
    exact (foldl_handleLog_of _).finish reader
  refine ⟨fun steps hsteps => ?_, hrecords, fun governance hgovernance composeHash hadded hallowed => ?_⟩
  . unfold readHistory readOnce
    rw [readPages_eq h hrange steps fromBlock .empty hsteps, h.getLogs]
    rfl
  . exact Records.checked (hgovernance ▸ hrecords) hadded hallowed

def exampleLog : List GovernanceLog :=
  [⟨.composeHashAdded "0x01", 100⟩, ⟨.composeHashRemoved "0x01", 12000⟩, ⟨.composeHashAdded "0x02", 12000⟩,
    ⟨.upgraded "0x03", 20000⟩]

def exampleReader : ChainReader := ⟨25000, inRange exampleLog, fun composeHash => composeHash = "0x02"⟩

theorem readHistory_paged_example
    : Serves exampleReader exampleLog
      ∧ readHistory exampleReader 50 10000 25000 = some (readOnce exampleReader 50)
      ∧ readOnce exampleReader 50
        = ⟨[⟨"0x01", false, [100], [12000]⟩, ⟨"0x02", true, [12000], []⟩], [⟨"0x03", 20000⟩]⟩ := by
  have hserves : Serves exampleReader exampleLog := ⟨by decide, fun _ _ => rfl⟩
  exact ⟨hserves, (readHistory_paged exampleCrypto.toRuntime hserves (by decide) 50).1 25000 (by decide),
    by decide +kernel⟩

end Check

end Attestation
end Longjing
