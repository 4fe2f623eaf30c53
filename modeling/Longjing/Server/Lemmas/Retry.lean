import Longjing.Server.Handle
import Longjing.Server.Lemmas.Slash

/-!
Retries: a request that is sent again runs through the whole admission before its cached response is
looked up.
-/

namespace Longjing
namespace Server

open Js Accumulator
open Blockchain (WithdrawalInitiated)

variable {cfg : Config} {req : LongjingRequestDto} {cMax : Nat}

/-- The root can be put to the contract. -/
def RootReadable (root : String) : Prop := ∃ r, BigInt root = some r ∧ 0 ≤ r ∧ r < 2 ^ 256

theorem knownRoot_eq_none_iff {answer : VerifyAnswer} {root : String}
    : knownRoot answer root = none ↔ answer.isKnownRoot = none ∨ ¬ RootReadable root := by
  unfold knownRoot RootReadable
  cases answer.isKnownRoot with
  | none => simp
  | some known =>
    cases BigInt root with
    | none => simp
    | some r =>
      simp only [reduceCtorEq, false_or, Option.some.injEq, exists_eq_left']
      by_cases hrange : 0 ≤ r ∧ r < 2 ^ 256
      . simp [hrange]
      . simp only [hrange, if_false, not_false_eq_true]

/-- A proof that verified once is refused later for want of a slot or for its root, or verifies again. -/
theorem verify_again {answer answer' : VerifyAnswer} {known : Nat → Bool}
    (h : verify cfg req cMax answer = .ok true) (hartifacts : answer'.artifacts = true)
    (hknown : answer'.isKnownRoot = some known)
    : verify cfg req cMax answer' = if answer'.isFull then .error serverBusy
        else .ok (decide (knownRoot answer' req.merkleRoot ≠ some false)) := by
  obtain ⟨-, -, -, hprod, signals, hsignals, p, hread, hverifies⟩ := verify_eq_true_iff.mp h
  cases hfull : answer'.isFull with
  | true =>
    unfold verify
    simp [hartifacts, hread, hfull]
  | false =>
    simp only [Bool.false_eq_true, if_false]
    by_cases hroot : knownRoot answer' req.merkleRoot = some false
    . simp only [hroot, ne_eq, not_true_eq_false, decide_false]
      unfold verify
      simp [hartifacts, hread, hfull, hroot]
    . simp only [ne_eq, hroot, not_false_eq_true, decide_true]
      refine verify_eq_true_iff.mpr ⟨hartifacts, hfull, hroot, ?_, signals, hsignals, p, hread, hverifies⟩
      rintro ⟨hnone, hprod'⟩
      refine hprod ⟨knownRoot_eq_none_iff.mpr (Or.inr ?_), hprod'⟩
      rw [knownRoot_eq_none_iff, hknown] at hnone
      simpa using hnone

/-- A request whose response is in the cache. -/
structure Retriable (cfg : Config) (cMax : Nat) (req : LongjingRequestDto) (store : Store Kept) (now : Nat)
    (kept : Kept) where
  nullifier : Int
  x : Int
  y : Int
  answer : VerifyAnswer
  nullifier_eq : parseFieldElement req.nullifier = some nullifier
  x_eq : parseFieldElement req.signal.x = some x
  y_eq : parseFieldElement req.signal.y = some y
  bound : signalXMatchesRequest cfg req.signal.x req.payload req.nonce = true
  verified : verify cfg req cMax answer = .ok true
  row : store.get (toString nullifier) = some (storedSignal x y)
  recalled : store.recallResponse now (toString nullifier) (storedSignal x y) = some kept

/-- The retry returns the cached response, calls no provider and signs nothing. -/
def RetryReturns (cfg : Config) (d : Dependencies) (req : LongjingRequestDto) (store : Store Kept)
    (kept : Kept) : Prop :=
  (handleRequest cfg d req store).pc = .done kept.outcome
    ∧ ∀ e ∈ (handleRequest cfg d req store).events,
        (∀ r, e ≠ .provider r) ∧ ∀ r a v, e ≠ .signed r a v

/-- The worst case is still covered at the current rate, another verification may start, and the root is
still known. -/
def Admitted (cMax worstCaseCost : Nat) (answer : VerifyAnswer) (req : LongjingRequestDto) : Prop :=
  worstCaseCost ≤ cMax ∧ answer.isFull = false ∧ knownRoot answer req.merkleRoot ≠ some false

theorem retryReturns_iff {d : Dependencies} {store : Store Kept} {kept : Kept} {worstCaseCost : Nat}
    {known : Nat → Bool} {now : Nat} (r : Retriable cfg cMax req store now kept)
    (hnow : d.now (.verifying (toString r.nullifier) cMax) = now)
    (hallowed : (store.checkRateLimit d.startedAt (toString r.nullifier)).2 = true) (hcMax : d.cMax = some cMax)
    (hcost : d.worstCaseCost = some worstCaseCost) (hartifacts : d.verifier.artifacts = true)
    (hknown : d.verifier.isKnownRoot = some known)
    : RetryReturns cfg d req store kept ↔ Admitted cMax worstCaseCost d.verifier req := by
  have hkept (status : Nat) (message : String) : kept.outcome ≠ .error (.http status message) := by
    cases kept <;> simp [Kept.outcome]
  have hrows := store.checkRateLimit_nullifiers d.startedAt (toString r.nullifier)
  have hresponses := store.checkRateLimit_responses d.startedAt (toString r.nullifier)
  unfold RetryReturns handleRequest startRequest
  simp only [req.supported, Bool.not_true, Bool.false_eq_true, if_false, r.nullifier_eq]
  cases hlimit : store.checkRateLimit d.startedAt (toString r.nullifier) with
  | mk limited allowed =>
    rw [hlimit] at hallowed hrows hresponses
    simp only at hallowed hrows hresponses
    subst hallowed
    simp only
    -- up to the price everything is as it was for the request itself
    rw [drive]
    simp only [resume, Dependencies.answer, afterMatching, r.bound, Bool.not_true, Bool.false_eq_true,
      if_false, hcMax, List.append_nil]
    rw [drive]
    simp only [resume, Dependencies.answer, afterPricing, hcost, List.append_nil]
    by_cases hlt : cMax < worstCaseCost
    . simp only [hlt, if_true, refuse, drive_done]
      refine iff_of_false ?_ (fun h => absurd h.1 (Nat.not_le_of_lt hlt))
      rintro ⟨hpc, -⟩
      simp only [Pc.done.injEq] at hpc
      exact hkept _ _ hpc.symm
    . simp only [hlt, if_false]
      rw [drive]
      simp only [resume, Dependencies.answer, afterVerifying, verify_again r.verified hartifacts hknown]
      -- the proof still verifies, so only the limit and the root are left to refuse it
      cases hfull : d.verifier.isFull with
      | true =>
        simp only [if_true, List.append_nil, drive_done]
        refine iff_of_false ?_ (fun h => absurd h.2.1 (by simp [hfull]))
        rintro ⟨hpc, -⟩
        simp only [Pc.done.injEq] at hpc
        exact hkept _ _ hpc.symm
      | false =>
        simp only [Bool.false_eq_true, if_false]
        have hadmitted : Admitted cMax worstCaseCost d.verifier req ↔
            knownRoot d.verifier req.merkleRoot ≠ some false :=
          ⟨fun h => h.2.2, fun h => ⟨Nat.le_of_not_lt hlt, hfull, h⟩⟩
        rw [hadmitted]
        by_cases hroot : knownRoot d.verifier req.merkleRoot = some false
        . simp only [hroot, ne_eq, not_true_eq_false, decide_false, refuse, List.append_nil, drive_done]
          refine iff_of_false ?_ id
          rintro ⟨hpc, -⟩
          simp only [Pc.done.injEq] at hpc
          exact hkept _ _ hpc.symm
        -- the row is there with the same signal: the response is recalled
        . refine iff_of_true ?_ hroot
          have hget : limited.get (toString r.nullifier) = some (storedSignal r.x r.y) := by
            have hrow := r.row
            unfold Store.get at hrow ⊢
            rw [hrows]
            exact hrow
          have hrecall : limited.recallResponse (d.now (.verifying (toString r.nullifier) cMax))
              (toString r.nullifier) (storedSignal r.x r.y) = some kept := by
            have hrecalled := r.recalled
            unfold Store.recallResponse at hrecalled ⊢
            rw [hresponses, hnow]
            exact hrecalled
          simp only [ne_eq, hroot, not_false_eq_true, decide_true, record, r.x_eq, r.y_eq,
            Store.checkAndSet_some _ hget, spent, not_true_eq_false, if_false, hrecall, List.nil_append,
            drive_done]
          simp

/-- C_MAX as a request read it. -/
def Pc.cMax? : Pc → Option Nat
  | .pricing _ cMax => some cMax
  | .verifying _ cMax => some cMax
  | _ => none

theorem Pc.matched_of_cMax? {pc : Pc} {c : Nat} (h : pc.cMax? = some c) : pc.matched = true := by
  cases pc <;> simp_all [Pc.cMax?, Pc.matched]

theorem resume_cMax? {now : Nat} {store : Store Kept} (pc : Pc) (answer : Answer) (c : Nat)
    (h : (resume cfg now store req pc answer).pc.cMax? = some c)
    : pc.cMax? = some c ∨ answer = .matched (some c) := by
  -- only the answer to the first await brings a C_MAX, and the next two keep it
  cases pc with
  | matching nullifier =>
    cases answer with
    | matched cMax =>
      simp only [resume, afterMatching] at h
      split at h
      . simp [refuse, Pc.cMax?] at h
      . cases cMax with
        | none => simp [refuse, Pc.cMax?] at h
        | some cMax =>
          simp only [Pc.cMax?, Option.some.injEq] at h
          exact Or.inr (by rw [h])
    | _ => exact Or.inl h
  | pricing nullifier cMax =>
    cases answer with
    | cost wei =>
      cases wei with
      | none => simp [resume, afterPricing, Pc.cMax?] at h
      | some wei =>
        simp only [resume, afterPricing] at h
        split at h
        . simp [refuse, Pc.cMax?] at h
        . exact Or.inl h
    | _ => exact Or.inl h
  | verifying nullifier cMax =>
    cases answer with
    | verified answer slashing =>
      simp only [resume, afterVerifying] at h
      split at h
      . simp [Pc.cMax?] at h
      . simp [refuse, Pc.cMax?] at h
      . have hrecorded : Recorded now store req nullifier cMax slashing
            (record now store req nullifier cMax slashing) := record_sound _ _ _
        generalize record now store req nullifier cMax slashing = piece at h hrecorded
        cases hrecorded <;> simp [Pc.cMax?] at h
    | _ => exact Or.inl h
  | calling ticket =>
    cases answer with
    | provider content => cases content <;> simp [resume, afterCalling, Pc.cMax?] at h
    | _ => exact Or.inl h
  | costing ticket content =>
    cases answer with
    | cost wei => cases wei <;> simp [resume, afterCosting, Pc.cMax?] at h
    | _ => exact Or.inl h
  | refunding ticket =>
    cases answer with
    | signed ok => cases ok <;> simp [resume, afterRefunding, Pc.cMax?] at h
    | _ => exact Or.inl h
  | signing ticket refund content =>
    cases answer with
    | signed ok => cases ok <;> simp [resume, afterSigning, Pc.cMax?] at h
    | _ => exact Or.inl h
  | slashing => cases answer <;> simp [resume, refuse, Pc.cMax?] at h
  | done outcome => cases answer <;> simp [resume, Pc.cMax?] at h
  | lost => cases answer <;> simp [resume, Pc.cMax?] at h

/-- A request that verified with C_MAX and whose signal is in the table. -/
def Backed (cfg : Config) (cMax : Nat) (store : Store Kept) (req : LongjingRequestDto) (nullifier : String)
    (signal : StoredSignal) : Prop :=
  ∃ (n x y : Int) (answer : VerifyAnswer),
    parseFieldElement req.nullifier = some n ∧ parseFieldElement req.signal.x = some x
      ∧ parseFieldElement req.signal.y = some y
      ∧ signalXMatchesRequest cfg req.signal.x req.payload req.nonce = true
      ∧ verify cfg req cMax answer = .ok true
      ∧ nullifier = toString n ∧ signal = storedSignal x y ∧ store.get nullifier = some signal

theorem Backed.mono {store store' : Store Kept} {nullifier : String} {signal : StoredSignal}
    (h : Backed cfg cMax store req nullifier signal)
    (hget : ∀ key row, store.get key = some row → store'.get key = some row)
    : Backed cfg cMax store' req nullifier signal := by
  obtain ⟨n, x, y, answer, hn, hx, hy, hbound, hverify, hkey, hsignal, hrow⟩ := h
  exact ⟨n, x, y, answer, hn, hx, hy, hbound, hverify, hkey, hsignal, hget _ _ hrow⟩

theorem responses_resumed {now : Nat} {store : Store Kept} {pc : Pc} {piece : Piece}
    (h : Resumed cfg now store req pc piece)
    : piece.store.responses = store.responses
      ∨ ∃ ticket kept a v, pc.ticket? = some ticket
          ∧ piece.store.responses = Map.set store.responses ticket.nullifier
              ⟨ticket.signal, kept, now + Store.RESPONSE_TTL_MS⟩
          ∧ Event.signed req a v ∈ piece.events := by
  cases h with
  | stay => exact Or.inl rfl
  | pass => exact Or.inl rfl
  | accept _ _ _ _ _ hrecorded =>
    cases hrecorded with
    | unreadable => exact Or.inl rfl
    | revealed => exact Or.inl rfl
    | retried => exact Or.inl rfl
    | served => exact Or.inl rfl
    | wasted => exact Or.inl rfl
  | keep => exact Or.inl rfl
  | drop => exact Or.inl rfl
  | sign refund kept hticket _ =>
    exact Or.inr ⟨_, kept, _, _, hticket, rfl, List.mem_singleton.mpr rfl⟩

namespace State

variable {s : State}

/-- Every ticket and every kept response goes back to a verified request. -/
structure Replayable (cfg : Config) (cMax : Nat) (s : State) : Prop where
  once : ∀ N, Once N s
  matched : s.Matched cfg
  priced : ∀ exec ∈ s.execs, ∀ c, exec.pc.cMax? = some c → c = cMax
  tickets : ∀ exec ∈ s.execs, ∀ ticket, exec.pc.ticket? = some ticket →
    Backed cfg cMax s.store exec.req ticket.nullifier ticket.signal
  kept : ∀ nullifier entry, (nullifier, entry) ∈ s.store.responses →
    ∃ req a v, Event.signed req a v ∈ s.events ∧ Backed cfg cMax s.store req nullifier entry.signal

theorem Replayable.init (cfg : Config) (cMax : Nat) (rows : Map String StoredSignal)
    : Replayable cfg cMax (init rows) where
  once := fun N => Once.init N rows
  matched := Matched.init cfg rows
  priced := by simp [Server.init]
  tickets := by simp [Server.init]
  kept := by simp [Server.init]

theorem Replayable.backed {exec : Exec} {piece : Piece} (h : Replayable cfg cMax s) (hexec : exec ∈ s.execs)
    (hresumed : Resumed cfg s.now s.store exec.req exec.pc piece) {ticket : Ticket}
    (hticket : piece.pc.ticket? = some ticket)
    : Backed cfg cMax piece.store exec.req ticket.nullifier ticket.signal := by
  have hnamed := (h.once 0).named exec hexec
  have hmatched := h.matched exec hexec
  have hpriced := h.priced exec hexec
  have hold := h.tickets exec hexec
  generalize exec.pc = pc at hresumed hnamed hmatched hpriced hold
  cases hresumed with
  | stay => exact hold ticket hticket
  | pass _ hnone => simp [hnone] at hticket
  | accept nullifier c answer slashing hverify hrecorded =>
    obtain ⟨n, hn, rfl⟩ := hnamed nullifier rfl
    have hc := hpriced c rfl
    subst hc
    cases hrecorded with
    | unreadable => simp [Pc.ticket?] at hticket
    | revealed => simp [Pc.ticket?] at hticket
    | retried => simp [Pc.ticket?] at hticket
    | served x y ax ay hx hy _ _ hfresh =>
      simp only [Pc.ticket?, Option.some.injEq] at hticket
      subst hticket
      refine ⟨n, x, y, answer, hn, hx, hy, hmatched rfl, hverify, rfl, rfl, ?_⟩
      simp only
      rw [Store.get_insert, hfresh, if_pos rfl]
      rfl
    | wasted => simp [Pc.ticket?] at hticket
  | keep hbefore hafter _ =>
    rw [hafter, Option.some.injEq] at hticket
    subst hticket
    exact hold _ hbefore
  | drop => simp [Pc.ticket?] at hticket
  | sign => simp [Pc.ticket?] at hticket

theorem Replayable.resumed {i : Nat} {exec : Exec} {piece : Piece} (h : Replayable cfg cMax s)
    (hexec : s.execs[i]? = some exec) (hresumed : Resumed cfg s.now s.store exec.req exec.pc piece)
    (hcMax : ∀ c, piece.pc.cMax? = some c → c = cMax)
    : Replayable cfg cMax (s.after i exec piece) := by
  have hmem := List.mem_of_getElem? hexec
  have hget (key : String) (row : StoredSignal) (hrow : s.store.get key = some row)
      : piece.store.get key = some row := get_resumed hresumed hrow
  refine ⟨fun N => (h.once N).resumed hexec hresumed, h.matched.resumed hexec hresumed, ?_, ?_, ?_⟩
  . intro e he c hc
    rcases List.mem_or_eq_of_mem_set he with he | rfl
    . exact h.priced e he c hc
    . exact hcMax c hc
  . intro e he ticket hticket
    rcases List.mem_or_eq_of_mem_set he with he | rfl
    . exact (h.tickets e he ticket hticket).mono hget
    . exact h.backed hmem hresumed hticket
  . intro nullifier entry hentry
    have hkept (hold : (nullifier, entry) ∈ s.store.responses)
        : ∃ req a v, Event.signed req a v ∈ (s.after i exec piece).events
          ∧ Backed cfg cMax piece.store req nullifier entry.signal := by
      obtain ⟨req, a, v, hsigned, hbacked⟩ := h.kept nullifier entry hold
      exact ⟨req, a, v, List.mem_append_left _ hsigned, hbacked.mono hget⟩
    rcases responses_resumed hresumed with hsame | ⟨ticket, kept, a, v, hticket, hset, hsigned⟩
    . have hentry : (nullifier, entry) ∈ piece.store.responses := hentry
      rw [hsame] at hentry
      exact hkept hentry
    . have hentry : (nullifier, entry) ∈ piece.store.responses := hentry
      rw [hset] at hentry
      rcases Map.mem_set hentry with hnew | hold
      . rw [Prod.mk.injEq] at hnew
        obtain ⟨rfl, rfl⟩ := hnew
        exact ⟨exec.req, a, v, List.mem_append_right _ hsigned,
          (h.tickets exec hmem ticket hticket).mono hget⟩
      . exact hkept hold

theorem Replayable.step {a : Action} (h : Replayable cfg cMax s)
    (ha : ∀ i c, a = .resume i (.matched (some c)) → c = cMax) : Replayable cfg cMax (s.step cfg a) := by
  have honce (N : F) : Once N (s.step cfg a) := (h.once N).step a
  have hmatched : (s.step cfg a).Matched cfg := h.matched.step a
  have hrows (key : String) (row : StoredSignal) (hrow : s.store.get key = some row)
      : (s.step cfg a).store.get key = some row := get_step hrow a
  cases a with
  -- a new execution has neither a ticket nor a C_MAX
  | arrive req =>
    obtain ⟨-, hresponses, hevents, hticket, hfresh, -⟩ := startRequest_spec s.now s.store req
    refine ⟨honce, hmatched, ?_, ?_, ?_⟩
    . intro exec hexec c hc
      rcases List.mem_append.mp hexec with hexec | hexec
      . exact h.priced exec hexec c hc
      . rw [List.mem_singleton] at hexec
        subst hexec
        rw [Pc.matched_of_cMax? hc] at hfresh
        contradiction
    . intro exec hexec ticket ht
      rcases List.mem_append.mp hexec with hexec | hexec
      . exact (h.tickets exec hexec ticket ht).mono hrows
      . rw [List.mem_singleton] at hexec
        subst hexec
        simp [hticket] at ht
    . intro nullifier entry hentry
      have hentry : (nullifier, entry) ∈ (startRequest s.now s.store req).store.responses := hentry
      rw [hresponses] at hentry
      obtain ⟨req', a, v, hsigned, hbacked⟩ := h.kept nullifier entry hentry
      exact ⟨req', a, v, List.mem_append_left _ hsigned, hbacked.mono hrows⟩
  | resume i answer =>
    cases hexec : s.execs[i]? with
    | none =>
      rw [step_resume_none hexec]
      exact h
    | some exec =>
      rw [step_resume hexec]
      refine h.resumed hexec (resume_sound exec.pc answer) ?_
      intro c hc
      rcases resume_cMax? exec.pc answer c hc with hold | hnew
      . exact h.priced exec (List.mem_of_getElem? hexec) c hold
      . exact ha i c (by rw [hnew])
  -- an exit keeps every row, and touches no response
  | ingest exit slashing =>
    refine ⟨honce, hmatched, h.priced, fun exec hexec ticket ht => ?_, ?_⟩
    . exact (h.tickets exec hexec ticket ht).mono hrows
    . intro nullifier entry hentry
      have hentry : (nullifier, entry) ∈ s.store.responses := by
        have hsame : (ingest s.store exit slashing).1.responses = s.store.responses := by
          have hingested := ingest_sound s.store exit slashing
          generalize ingest s.store exit slashing = result at hingested
          cases hingested <;> rfl
        rw [← hsame]
        exact hentry
      obtain ⟨req, a, v, hsigned, hbacked⟩ := h.kept nullifier entry hentry
      exact ⟨req, a, v, List.mem_append_left _ hsigned, hbacked.mono hrows⟩
  | clock now => exact ⟨honce, hmatched, h.priced, h.tickets, h.kept⟩
  | cleanup =>
    refine ⟨honce, hmatched, h.priced, h.tickets, ?_⟩
    intro nullifier entry hentry
    exact h.kept nullifier entry (List.mem_of_mem_filter hentry)
  -- the cache is empty after a crash, and no execution has a ticket
  | crash =>
    refine ⟨honce, hmatched, ?_, ?_, by simp [State.step, Store.restart]⟩
    . intro exec hexec c hc
      obtain ⟨e, -, rfl⟩ := List.mem_map.mp hexec
      cases hpc : e.pc <;> simp [Pc.crash, hpc, Pc.cMax?] at hc
    . intro exec hexec ticket ht
      obtain ⟨e, -, rfl⟩ := List.mem_map.mp hexec
      cases hpc : e.pc <;> simp [Pc.crash, hpc, Pc.ticket?] at ht

theorem Replayable.run (h : Replayable cfg cMax s) (actions : List Action)
    (hcMax : ∀ i c, .resume i (.matched (some c)) ∈ actions → c = cMax)
    : Replayable cfg cMax (s.run cfg actions) := by
  induction actions generalizing s with
  | nil => exact h
  | cons a actions ih =>
    refine ih (h.step ?_) (fun i c hmem => hcMax i c (List.mem_cons_of_mem _ hmem))
    rintro i c rfl
    exact hcMax i c (by simp)

theorem eq_of_countP_le_one {α : Type} {p : α → Bool} {l : List α} (h : l.countP p ≤ 1) {a b : α}
    (ha : a ∈ l) (hb : b ∈ l) (hpa : p a = true) (hpb : p b = true) : a = b := by
  rw [List.countP_eq_length_filter] at h
  have ha : a ∈ l.filter p := List.mem_filter.mpr ⟨ha, hpa⟩
  have hb : b ∈ l.filter p := List.mem_filter.mpr ⟨hb, hpb⟩
  match hl : l.filter p, h with
  | [], _ => simp [hl] at ha
  | [c], _ =>
    rw [hl, List.mem_singleton] at ha hb
    rw [ha, hb]
  | _ :: _ :: _, h => simp at h

/-- The request a kept response was signed for is the only one with its nullifier. -/
theorem Replayable.retriable {n : Int} {a : Point} {v now : Nat} {entry : CachedResponse Kept}
    (h : Replayable cfg cMax s) (hsigned : Event.signed req a v ∈ s.events)
    (hn : parseFieldElement req.nullifier = some n)
    (hentry : Map.get s.store.responses (toString n) = some entry) (hnow : now < entry.expiresAt)
    : ∃ r : Retriable cfg cMax req s.store now entry.response, r.nullifier = n := by
  obtain ⟨req', a', v', hsigned', n', x, y, answer, hn', hx, hy, hbound, hverify, hkey, hsignal, hrow⟩ :=
    h.kept _ _ (Map.mem_of_get hentry)
  have hnn : n = n' := toString_injective hkey
  subst hnn
  obtain ⟨signals⟩ := verify_eq_true hverify
  -- both requests are signed for one field element, and only one signature is
  have hval : n = (signals.nullifier.val : Int) := by
    have hread := (toBigInt_of_parse req'.isFieldElement.2.1 hn').1
    rw [signals.nullifier_eq, Option.some.injEq] at hread
    exact hread.symm
  have hdenotes : denotes req.nullifier signals.nullifier = true := by
    have hread := (toBigInt_of_parse req.isFieldElement.2.1 hn).1
    rw [hval] at hread
    simp [denotes_of_val hread]
  have hdenotes' : denotes req'.nullifier signals.nullifier = true := by
    simp [denotes_of_val signals.nullifier_eq]
  have honce := h.once signals.nullifier
  have hcount : s.events.countP (isSignatureFor signals.nullifier) ≤ 1 := by
    have hbalance := honce.balance
    have hcalls := honce.once
    unfold signatures at hbalance
    omega
  have hevent := eq_of_countP_le_one hcount hsigned hsigned' hdenotes hdenotes'
  simp only [Event.signed.injEq] at hevent
  obtain ⟨rfl, -, -⟩ := hevent
  refine ⟨⟨n, x, y, answer, hn, hx, hy, hbound, hverify, ?_, ?_⟩, rfl⟩
  . rw [hrow, hsignal]
  . unfold Store.recallResponse
    rw [hentry]
    simp [hsignal, Nat.not_le_of_lt hnow]

end State

section Example

def exampleDelivery : List Action :=
  [.arrive exampleRequest, .resume 0 (.matched (some 10)), .resume 0 (.cost (some 1)),
    .resume 0 (.verified ⟨true, false, some fun _ => true⟩ true), .resume 0 (.provider (some "hello")),
    .resume 0 (.cost (some 1)), .resume 0 (.signed true)]

def exampleKept : Kept :=
  .response ⟨padResponse "hello", "9", nextAccumulator exampleConfig (0, 1) 9⟩

def exampleEntry : CachedResponse Kept :=
  ⟨storedSignal exampleX exampleY, exampleKept, Store.RESPONSE_TTL_MS⟩

def exampleRetry (worstCaseCost : Nat) : Dependencies where
  startedAt := 0
  now := fun _ => 0
  cMax := some 10
  worstCaseCost := some worstCaseCost
  verifier := ⟨true, false, some fun _ => true⟩
  slashing := true
  provider := none
  actualCost := none

def exampleRecorded : List Action :=
  [.arrive exampleRequest, .resume 0 (.matched (some 10)), .resume 0 (.cost (some 1)),
    .resume 0 (.verified ⟨true, false, some fun _ => true⟩ true)]

theorem exampleRecorded_run
    : (init []).run exampleConfig exampleRecorded
      = { store := ⟨[(toString (exampleNullifier : Int), storedSignal exampleX exampleY)], [],
            [(toString (exampleNullifier : Int), [0])]⟩
          now := 0
          execs := [⟨exampleRequest,
            .calling ⟨toString (exampleNullifier : Int), storedSignal exampleX exampleY, 10, (0, 1)⟩⟩]
          events := [.accepted exampleRequest, .provider exampleRequest] } := by
  have hallowed : ((init []).store.checkRateLimit 0 (toString (exampleNullifier : Int))).2 = true :=
    Store.checkRateLimit_fresh 0 rfl
  have hverify : verify exampleConfig exampleRequest 10 ⟨true, false, some fun _ => true⟩ = .ok true :=
    example_verify exampleRequest _ rfl example_signalY_readers.2 rfl
  have hrun := State.run_to_record true rfl example_nullifier_readers.1 hallowed (example_bound _)
    (by decide : 1 ≤ 10) hverify exampleRequest.supported
  have hax : parseFieldElement exampleRequest.accumulator.x = some 0 := by
    show parseFieldElement "0" = some 0
    decide +kernel
  have hay : parseFieldElement exampleRequest.accumulator.y = some 1 := by
    show parseFieldElement "1" = some 1
    decide +kernel
  have hrecord : record 0 ((init []).store.checkRateLimit 0 (toString (exampleNullifier : Int))).1
        exampleRequest (toString (exampleNullifier : Int)) 10 true
      = ⟨⟨[(toString (exampleNullifier : Int), storedSignal exampleX exampleY)], [],
            [(toString (exampleNullifier : Int), [0])]⟩,
          .calling ⟨toString (exampleNullifier : Int), storedSignal exampleX exampleY, 10, (0, 1)⟩,
          [.provider exampleRequest]⟩ := by
    have hlimited : ((init []).store.checkRateLimit 0 (toString (exampleNullifier : Int))).1
        = ⟨[], [], [(toString (exampleNullifier : Int), [0])]⟩ := rfl
    rw [hlimited]
    unfold record
    rw [example_signalX_readers.1, example_signalY_readers.1, hax, hay]
    rfl
  have hnow : (init []).now = 0 := rfl
  rw [exampleRecorded, hrun, hnow, hrecord]
  rfl

theorem exampleDelivery_run
    : ((init []).run exampleConfig exampleDelivery).events
        = [.accepted exampleRequest, .provider exampleRequest,
            .signed exampleRequest (applyRefund (0, 1) 9) 9]
      ∧ ((init []).run exampleConfig exampleDelivery).store.responses
        = [(toString (exampleNullifier : Int), exampleEntry)]
      ∧ ((init []).run exampleConfig exampleDelivery).store.nullifierAttempts
        = [(toString (exampleNullifier : Int), [0])] := by
  have hsplit : exampleDelivery
      = exampleRecorded
        ++ [.resume 0 (.provider (some "hello")), .resume 0 (.cost (some 1)), .resume 0 (.signed true)] := rfl
  have hrefund : refundOf 10 1 = 9 := by decide
  have hnine : toString 9 = "9" := by decide
  rw [hsplit, State.run_append, exampleRecorded_run]
  simp only [State.run, List.foldl_cons, List.foldl_nil, State.step, List.getElem?_cons_zero,
    List.set_cons_zero, resume, afterCalling, afterCosting, afterSigning, if_true, hrefund, hnine]
  refine ⟨rfl, rfl, rfl⟩

theorem exampleDelivery_cMax (i c : Nat) (h : .resume i (.matched (some c)) ∈ exampleDelivery) : c = 10 := by
  simp only [exampleDelivery, List.mem_cons, List.not_mem_nil, reduceCtorEq, Action.resume.injEq,
    Answer.matched.injEq, Option.some.injEq, and_false, or_false, false_or] at h
  exact h.2

theorem exampleDelivery_allowed
    : (((init []).run exampleConfig exampleDelivery).store.checkRateLimit 0
        (toString (exampleNullifier : Int))).2 = true := by
  rw [Store.checkRateLimit_allowed, exampleDelivery_run.2.2, Map.get_cons, if_pos rfl]
  decide

theorem exampleDelivery_entry
    : Map.get ((init []).run exampleConfig exampleDelivery).store.responses
        (toString (exampleNullifier : Int)) = some exampleEntry := by
  rw [exampleDelivery_run.2.1, Map.get_cons, if_pos rfl]

theorem exampleDelivery_signed
    : .signed exampleRequest (applyRefund (0, 1) 9) 9
      ∈ ((init []).run exampleConfig exampleDelivery).events := by
  rw [exampleDelivery_run.1]
  simp

theorem example_root : knownRoot ⟨true, false, some fun _ => true⟩ exampleRequest.merkleRoot ≠ some false := by
  have hread : BigInt exampleRequest.merkleRoot = some 1 := by
    show BigInt "1" = some 1
    decide +kernel
  simp [knownRoot, hread]

end Example

end Server
end Longjing
