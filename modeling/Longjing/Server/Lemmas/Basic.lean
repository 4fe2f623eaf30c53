import Longjing.Server.Readers
import Longjing.Server.Request

/-!
What one piece of `handleRequest` can do, said once for every property of the server.
-/

namespace Longjing
namespace Server

open Js Accumulator
open Blockchain (WithdrawalInitiated)

variable {cfg : Config} {now : Nat} {store : Store Kept} {req : LongjingRequestDto}

def Store.insert (s : Store Kept) (nullifier : String) (signal : StoredSignal) : Store Kept :=
  { s with nullifiers := s.nullifiers ++ [(nullifier, signal)] }

theorem Store.get_insert (s : Store Kept) (nullifier : String) (signal : StoredSignal) (key : String)
    : (s.insert nullifier signal).get key
      = (s.get key).or (if key = nullifier then some signal else none) :=
  Map.get_append _ _ _ _

/-- The refund and the accumulator a response or a failure carries. -/
def Kept.carries (kept : Kept) (refund : Nat) (accumulator : SignedAccumulatorDto) : Prop :=
  match kept with
  | .response r => r.refund = toString refund ∧ r.accumulator = accumulator
  | .failure r a => r = toString refund ∧ a = accumulator

inductive Recorded (now : Nat) (store : Store Kept) (req : LongjingRequestDto) (nullifier : String)
    (cMax : Nat) (slashing : Bool) : Piece → Prop where
  -- the signal of a verified proof is not read
  | unreadable
    : parseFieldElement req.signal.x = none ∨ parseFieldElement req.signal.y = none →
      Recorded now store req nullifier cMax slashing ⟨store, .done (.error .other), []⟩
  -- a second signal
  | revealed (x y : Int) (existing : StoredSignal)
    : parseFieldElement req.signal.x = some x → parseFieldElement req.signal.y = some y →
      store.get nullifier = some existing → existing.x ≠ toString x →
      Recorded now store req nullifier cMax slashing
        ⟨store, .slashing, slashEvents slashing existing (storedSignal x y)⟩
  -- the same signal again
  | retried (x y : Int) (existing : StoredSignal) (outcome : Outcome)
    : parseFieldElement req.signal.x = some x → parseFieldElement req.signal.y = some y →
      store.get nullifier = some existing → existing.x = toString x →
      (outcome = .error (.http 403 "Nullifier already used")
        ∨ ∃ kept, store.recallResponse now nullifier (storedSignal x y) = some kept
          ∧ outcome = kept.outcome) →
      Recorded now store req nullifier cMax slashing ⟨store, .done outcome, []⟩
  -- a new nullifier
  | served (x y ax ay : Int)
    : parseFieldElement req.signal.x = some x → parseFieldElement req.signal.y = some y →
      parseFieldElement req.accumulator.x = some ax → parseFieldElement req.accumulator.y = some ay →
      store.get nullifier = none →
      Recorded now store req nullifier cMax slashing
        ⟨store.insert nullifier (storedSignal x y),
          .calling ⟨nullifier, storedSignal x y, cMax, (ax, ay)⟩, [.provider req]⟩
  -- a new nullifier, with an accumulator that is not read
  | wasted (x y : Int)
    : parseFieldElement req.signal.x = some x → parseFieldElement req.signal.y = some y →
      parseFieldElement req.accumulator.x = none ∨ parseFieldElement req.accumulator.y = none →
      store.get nullifier = none →
      Recorded now store req nullifier cMax slashing
        ⟨store.insert nullifier (storedSignal x y), .done (.error .other), []⟩

theorem record_sound (nullifier : String) (cMax : Nat) (slashing : Bool)
    : Recorded now store req nullifier cMax slashing
        (record now store req nullifier cMax slashing) := by
  unfold record
  split
  next x y hx hy =>
    cases hget : store.get nullifier with
    | some existing =>
      simp only [Store.checkAndSet_some _ hget]
      unfold spent
      split
      next hne => exact .revealed x y existing hx hy hget hne
      next heq =>
        have heq : existing.x = toString x := by simpa [storedSignal] using heq
        split
        next kept hkept => exact .retried x y existing _ hx hy hget heq (Or.inr ⟨kept, hkept, rfl⟩)
        next => exact .retried x y existing _ hx hy hget heq (Or.inl rfl)
    | none =>
      simp only [Store.checkAndSet_none _ hget]
      split
      next ax ay hax hay => exact .served x y ax ay hx hy hax hay hget
      next hacc =>
        refine .wasted x y hx hy ?_ hget
        cases hax : parseFieldElement req.accumulator.x with
        | none => exact Or.inl rfl
        | some ax =>
          cases hay : parseFieldElement req.accumulator.y with
          | none => exact Or.inr rfl
          | some ay => exact absurd hay (hacc ax ay hax)
  next hsignal =>
    refine .unreadable ?_
    cases hx : parseFieldElement req.signal.x with
    | none => exact Or.inl rfl
    | some x =>
      cases hy : parseFieldElement req.signal.y with
      | none => exact Or.inr rfl
      | some y => exact absurd hy (hsignal x y hx)

/-- Whether the signal of a request has been bound to its payload. -/
def Pc.matched : Pc → Bool
  | .pricing _ _ => true
  | .verifying _ _ => true
  | _ => false

/-- What one piece of `handleRequest` does. -/
inductive Resumed (cfg : Config) (now : Nat) (store : Store Kept) (req : LongjingRequestDto)
    : Pc → Piece → Prop where
  | stay (pc : Pc) : Resumed cfg now store req pc ⟨store, pc, []⟩
  -- before the record, or a refusal
  | pass {pc pc' : Pc}
    : pc.ticket? = none → pc'.ticket? = none →
      (∀ nullifier, pc'.nullifier? = some nullifier → pc.nullifier? = some nullifier) →
      (pc'.matched = true →
        pc.matched = true ∨ signalXMatchesRequest cfg req.signal.x req.payload req.nonce = true) →
      (∀ kept : Kept, pc' ≠ .done kept.outcome) →
      Resumed cfg now store req pc ⟨store, pc', []⟩
  | accept (nullifier : String) (cMax : Nat) (answer : VerifyAnswer) (slashing : Bool) {piece : Piece}
    : verify cfg req cMax answer = .ok true → Recorded now store req nullifier cMax slashing piece →
      Resumed cfg now store req (.verifying nullifier cMax)
        { piece with events := .accepted req :: piece.events }
  -- the provider answered or failed, or the cost is known
  | keep {pc pc' : Pc} {ticket : Ticket}
    : pc.ticket? = some ticket → pc'.ticket? = some ticket →
      (∀ refund content, pc' = .signing ticket refund content → refund ≤ ticket.cMax) →
      Resumed cfg now store req pc ⟨store, pc', []⟩
  -- the cost is not known, or the signer failed
  | drop {pc : Pc} {ticket : Ticket}
    : pc.ticket? = some ticket → Resumed cfg now store req pc ⟨store, .done (.error .other), []⟩
  | sign {pc : Pc} {ticket : Ticket} (refund : Nat) (kept : Kept)
    : pc.ticket? = some ticket →
      (refund = ticket.cMax ∨ ∃ content, pc = .signing ticket refund content) →
      kept.carries refund (nextAccumulator cfg ticket.published refund) →
      Resumed cfg now store req pc
        ⟨store.rememberResponse now ticket.nullifier ticket.signal kept, .done kept.outcome,
          [.signed req (applyRefund ticket.published refund) refund]⟩

theorem refundOf_le (cMax actualCost : Nat) : refundOf cMax actualCost ≤ cMax := by
  unfold refundOf
  split <;> omega

theorem refuse_ne_kept (status : Nat) (message : String) (kept : Kept)
    : refuse status message ≠ .done kept.outcome := by
  cases kept <;> simp [refuse, Kept.outcome]

theorem other_ne_kept (kept : Kept) : Pc.done (.error .other) ≠ .done kept.outcome := by
  cases kept <;> simp [Kept.outcome]

/-- A verification refuses, throws one of three errors, or leaves it to the pairing check. -/
theorem verify_cases (cfg : Config) (req : LongjingRequestDto) (cMax : Nat) (answer : VerifyAnswer)
    : verify cfg req cMax answer = .ok false ∨ verify cfg req cMax answer = .error .other
      ∨ (∃ message, verify cfg req cMax answer = .error (.http 503 message))
      ∨ ∃ proof signals, verify cfg req cMax answer = .ok (cfg.groth16 proof signals) := by
  unfold verify
  split
  . exact .inr (.inl rfl)
  . split
    . exact .inr (.inl rfl)
    . exact .inl rfl
    . split
      . exact .inr (.inr (.inl ⟨_, rfl⟩))
      . split
        . exact .inl rfl
        . split
          . exact .inr (.inr (.inl ⟨_, rfl⟩))
          . split
            . exact .inr (.inl rfl)
            . split
              . exact .inr (.inl rfl)
              . exact .inr (.inr (.inr ⟨_, _, rfl⟩))

/-- The verification does not throw what a failed provider call does. -/
theorem verify_error_ne_kept {cMax : Nat} {answer : VerifyAnswer} {e : Thrown}
    (h : verify cfg req cMax answer = .error e) (kept : Kept) : Pc.done (.error e) ≠ .done kept.outcome := by
  intro hkept
  cases kept with
  | response r => simp [Kept.outcome] at hkept
  | failure refund accumulator =>
    obtain rfl := Except.error.inj (Pc.done.inj hkept)
    rcases verify_cases cfg req cMax answer with hverify | hverify | ⟨_, hverify⟩ | ⟨_, _, hverify⟩
    all_goals
      rw [hverify] at h
      simp at h

theorem resume_sound (pc : Pc) (answer : Answer)
    : Resumed cfg now store req pc (resume cfg now store req pc answer) := by
  -- one case for each await of `handleRequest`, in the order of the source
  unfold resume
  split
  next nullifier cMax =>
    unfold afterMatching
    split
    . exact .pass rfl rfl (by simp [refuse, Pc.nullifier?, Pc.ticket?]) (by simp [refuse, Pc.matched])
        (refuse_ne_kept _ _)
    next hmatch =>
      split
      . exact .pass rfl rfl (by simp [refuse, Pc.nullifier?, Pc.ticket?]) (by simp [refuse, Pc.matched])
          (refuse_ne_kept _ _)
      . exact .pass rfl rfl (fun _ h => h) (fun _ => Or.inr (by simpa using hmatch)) (by simp)
  next nullifier cMax wei =>
    unfold afterPricing
    split
    . exact .pass rfl rfl (by simp [Pc.nullifier?, Pc.ticket?]) (fun _ => Or.inl rfl) other_ne_kept
    . split
      . exact .pass rfl rfl (by simp [refuse, Pc.nullifier?, Pc.ticket?]) (fun _ => Or.inl rfl)
          (refuse_ne_kept _ _)
      . exact .pass rfl rfl (fun _ h => h) (fun _ => Or.inl rfl) (by simp)
  next nullifier cMax answer slashing =>
    unfold afterVerifying
    split
    next hverify =>
      exact .pass rfl rfl (by simp [Pc.nullifier?, Pc.ticket?]) (fun _ => Or.inl rfl)
        (verify_error_ne_kept hverify)
    next =>
      exact .pass rfl rfl (by simp [refuse, Pc.nullifier?, Pc.ticket?]) (fun _ => Or.inl rfl)
        (refuse_ne_kept _ _)
    next hverify => exact .accept nullifier cMax answer slashing hverify (record_sound _ _ _)
  next =>
    exact .pass rfl rfl (by simp [refuse, Pc.nullifier?, Pc.ticket?]) (by simp [refuse, Pc.matched])
      (refuse_ne_kept _ _)
  next ticket content =>
    unfold afterCalling
    split
    . exact .keep rfl rfl (by simp)
    . exact .keep rfl rfl (by simp)
  next ticket ok =>
    unfold afterRefunding
    split
    . exact .sign ticket.cMax _ rfl (Or.inl rfl) ⟨rfl, rfl⟩
    . exact .drop rfl
  next ticket content wei =>
    unfold afterCosting
    split
    . exact .drop rfl
    . refine .keep rfl rfl ?_
      intro refund content' h
      simp only [Pc.signing.injEq] at h
      rw [← h.2.1]
      exact refundOf_le _ _
  next ticket refund content ok =>
    unfold afterSigning
    split
    . exact .sign refund _ rfl (Or.inr ⟨content, rfl⟩) ⟨rfl, rfl⟩
    . exact .drop rfl
  next => exact .stay _

inductive Ingested (store : Store Kept) (exit : WithdrawalInitiated) (slashing : Bool)
    : Store Kept × List Event → Prop where
  | recorded
    : store.get (toString (exit.nullifier : Int)) = none →
      Ingested store exit slashing
        (store.insert (toString (exit.nullifier : Int)) (storedSignal exit.signalX exit.signalY), [])
  | replayed (existing : StoredSignal)
    : store.get (toString (exit.nullifier : Int)) = some existing →
      existing.x = toString (exit.signalX : Int) → Ingested store exit slashing (store, [])
  | revealed (existing : StoredSignal)
    : store.get (toString (exit.nullifier : Int)) = some existing →
      existing.x ≠ toString (exit.signalX : Int) →
      Ingested store exit slashing
        (store, slashEvents slashing existing (storedSignal exit.signalX exit.signalY))

theorem ingest_sound (store : Store Kept) (exit : WithdrawalInitiated) (slashing : Bool)
    : Ingested store exit slashing (ingest store exit slashing) := by
  unfold ingest
  cases hget : store.get (toString (exit.nullifier : Int)) with
  | none =>
    simp only [Store.checkAndSet_none _ hget]
    exact .recorded hget
  | some existing =>
    simp only [Store.checkAndSet_some _ hget]
    by_cases hx : existing.x = toString (exit.signalX : Int)
    . rw [if_neg (by rw [hx]; simp [storedSignal])]
      exact .replayed existing hget hx
    . rw [if_pos (by simpa [storedSignal] using hx)]
      exact .revealed existing hget hx

theorem LongjingRequestDto.isFieldElement (req : LongjingRequestDto)
    : isFieldElement req.nonce = true ∧ isFieldElement req.nullifier = true
      ∧ isFieldElement req.signal.x = true ∧ isFieldElement req.signal.y = true
      ∧ isFieldElement req.merkleRoot = true
      ∧ isFieldElement req.accumulator.x = true ∧ isFieldElement req.accumulator.y = true := by
  have h := req.valid
  unfold RequestBody.isValid at h
  simp only [Bool.and_eq_true] at h
  obtain ⟨⟨⟨⟨⟨⟨⟨⟨⟨⟨⟨-, -⟩, hnonce⟩, hnullifier⟩, hx⟩, hy⟩, -⟩, -⟩, hroot⟩, hax⟩, hay⟩, -⟩ := h
  exact ⟨hnonce, hnullifier, hx, hy, hroot, hax, hay⟩

/-- Where `parseFieldElement` does not throw, it agrees with the verifier's reading. -/
theorem toBigInt_of_parse {value : String} {v : Int} (h : isFieldElement value = true)
    (hparse : parseFieldElement value = some v) : toBigInt value = some v ∧ 0 ≤ v := by
  cases hneg : isNegative value with
  | true =>
    rw [parse_of_negative h hneg] at hparse
    contradiction
  | false =>
    obtain ⟨n, hn, hbig⟩ := parse_of_not_negative h hneg
    rw [hn, Option.some.injEq] at hparse
    subst hparse
    exact ⟨hbig, Int.natCast_nonneg n⟩

/-- The text is that of a proof, and the proof verifies with these public signals. -/
def Proves (cfg : Config) (proof : String) (signals : List Int) : Prop :=
  ∃ p, readProof proof = .ok (some p) ∧ cfg.groth16 p signals = true

theorem verify_eq_true_iff {cMax : Nat} {answer : VerifyAnswer}
    : verify cfg req cMax answer = .ok true ↔
      answer.artifacts = true ∧ answer.isFull = false ∧ knownRoot answer req.merkleRoot ≠ some false
        ∧ ¬ (knownRoot answer req.merkleRoot = none ∧ cfg.prod = true)
        ∧ ∃ signals, publicSignals cfg req cMax = some signals ∧ Proves cfg req.proof signals := by
  unfold verify Proves
  cases hartifacts : answer.artifacts with
  | false =>
    simp only [Bool.not_false, Bool.and_true, if_true, Bool.false_eq_true, false_and, iff_false]
    split
    . simp
    . split
      . simp
      . simp
      . split
        . simp
        . split
          . simp
          . split <;> simp
  | true =>
    simp only [Bool.not_true, Bool.and_false, Bool.false_eq_true, if_false, true_and]
    cases hread : readProof req.proof with
    | error e => simp
    | ok proof =>
      cases proof with
      | none => simp
      | some proof =>
        cases answer.isFull with
        | true => simp
        | false =>
          cases hroot : knownRoot answer req.merkleRoot with
          | none =>
            cases cfg.prod with
            | true => simp
            | false => cases publicSignals cfg req cMax <;> simp
          | some known =>
            cases known with
            | false => simp
            | true => cases publicSignals cfg req cMax <;> simp

/-- The public signals of a verified request. -/
structure VerifiedSignals (cfg : Config) (req : LongjingRequestDto) (cMax : Nat) (answer : VerifyAnswer)
    where
  nullifier : F
  signalY : F
  accumulatorX : F
  accumulatorY : F
  merkleRoot : F
  signalX : F
  nullifier_eq : toBigInt req.nullifier = some (nullifier.val : Int)
  signalY_eq : toBigInt req.signal.y = some (signalY.val : Int)
  accumulatorX_eq : toBigInt req.accumulator.x = some (accumulatorX.val : Int)
  accumulatorY_eq : toBigInt req.accumulator.y = some (accumulatorY.val : Int)
  merkleRoot_eq : toBigInt req.merkleRoot = some (merkleRoot.val : Int)
  signalX_eq : toBigInt req.signal.x = some (signalX.val : Int)
  cMax_lt : cMax < FIELD_MODULUS
  root : knownRoot answer req.merkleRoot = some true ∨ knownRoot answer req.merkleRoot = none ∧ cfg.prod = false
  proves : Proves cfg req.proof
    [(nullifier.val : Int), (signalY.val : Int), (accumulatorX.val : Int), (accumulatorY.val : Int),
      (merkleRoot.val : Int), (cMax : Int), (signalX.val : Int), cfg.serverKey.1, cfg.serverKey.2]

theorem exists_val {v : Int} (h : 0 ≤ v ∧ v < FIELD_MODULUS) : ∃ a : F, v = (a.val : Int) :=
  ⟨(v : F), (eq_val_cast h.1 h.2).symm⟩

theorem verify_eq_true {cMax : Nat} {answer : VerifyAnswer} (h : verify cfg req cMax answer = .ok true)
    : Nonempty (VerifiedSignals cfg req cMax answer) := by
  obtain ⟨-, -, hroot, hprod, signals, hsignals, hproves⟩ := verify_eq_true_iff.mp h
  have hcanon : ∀ s ∈ signals, 0 ≤ s ∧ s < FIELD_MODULUS := by
    obtain ⟨p, -, hverifies⟩ := hproves
    exact cfg.groth16_canonical p signals hverifies
  unfold publicSignals at hsignals
  simp only [Option.bind_eq_bind, Option.bind_eq_some_iff, pure, Option.some.injEq] at hsignals
  obtain ⟨n, hn, y, hy, ax, hax, ay, hay, r, hr, x, hx, rfl⟩ := hsignals
  simp only [List.mem_cons, List.not_mem_nil, or_false, forall_eq_or_imp, forall_eq] at hcanon
  obtain ⟨cn, cy, cax, cay, cr, ccMax, cx, -, -⟩ := hcanon
  obtain ⟨n, rfl⟩ := exists_val cn
  obtain ⟨y, rfl⟩ := exists_val cy
  obtain ⟨ax, rfl⟩ := exists_val cax
  obtain ⟨ay, rfl⟩ := exists_val cay
  obtain ⟨r, rfl⟩ := exists_val cr
  obtain ⟨x, rfl⟩ := exists_val cx
  refine ⟨⟨n, y, ax, ay, r, x, hn, hy, hax, hay, hr, hx, by exact_mod_cast ccMax.2, ?_, hproves⟩⟩
  cases hk : knownRoot answer req.merkleRoot with
  | none =>
    refine Or.inr ⟨rfl, ?_⟩
    simpa [hk] using hprod
  | some known =>
    cases known with
    | true => exact Or.inl rfl
    | false => exact absurd hk hroot

theorem startRequest_spec (now : Nat) (store : Store Kept) (req : LongjingRequestDto)
    : (startRequest now store req).store.nullifiers = store.nullifiers
      ∧ (startRequest now store req).store.responses = store.responses
      ∧ (startRequest now store req).events = []
      ∧ (startRequest now store req).pc.ticket? = none
      ∧ (startRequest now store req).pc.matched = false
      ∧ ∀ n, (startRequest now store req).pc.nullifier? = some n →
          ∃ v, parseFieldElement req.nullifier = some v ∧ n = toString v := by
  unfold startRequest
  simp only
  split
  . simp [refuse, Pc.ticket?, Pc.nullifier?, Pc.matched]
  . split
    . simp [Pc.ticket?, Pc.nullifier?, Pc.matched]
    . next v hv =>
      have hrows := store.checkRateLimit_nullifiers now (toString v)
      have hresponses := store.checkRateLimit_responses now (toString v)
      split
      next store' hlimit =>
        rw [hlimit] at hrows hresponses
        exact ⟨hrows, hresponses, rfl, rfl, rfl, by simp [refuse, Pc.ticket?, Pc.nullifier?]⟩
      next store' hlimit =>
        rw [hlimit] at hrows hresponses
        refine ⟨hrows, hresponses, rfl, rfl, rfl, ?_⟩
        intro n hn
        simp only [Pc.nullifier?, Option.some.injEq] at hn
        exact ⟨v, hv, hn.symm⟩

theorem State.run_to_record {s : State} {n : Int} {cMax worstCaseCost : Nat} {answer : VerifyAnswer}
    (slashing : Bool) (hs : s.execs = []) (hn : parseFieldElement req.nullifier = some n)
    (hallowed : (s.store.checkRateLimit s.now (toString n)).2 = true)
    (hbound : signalXMatchesRequest cfg req.signal.x req.payload req.nonce = true)
    (hle : worstCaseCost ≤ cMax) (hverify : verify cfg req cMax answer = .ok true)
    (hmodel : CLAUDE_MODELS.contains (req.model.getD DEFAULT_CLAUDE_MODEL) = true)
    : s.run cfg [.arrive req, .resume 0 (.matched (some cMax)), .resume 0 (.cost (some worstCaseCost)),
        .resume 0 (.verified answer slashing)]
      = { s with
          store := (record s.now (s.store.checkRateLimit s.now (toString n)).1 req (toString n) cMax
            slashing).store
          execs := [⟨req, (record s.now (s.store.checkRateLimit s.now (toString n)).1 req (toString n) cMax
            slashing).pc⟩]
          events := s.events ++ .accepted req
            :: (record s.now (s.store.checkRateLimit s.now (toString n)).1 req (toString n) cMax
              slashing).events } := by
  have hstart : startRequest s.now s.store req
      = ⟨(s.store.checkRateLimit s.now (toString n)).1, .matching (toString n), []⟩ := by
    unfold startRequest
    simp only [hmodel, Bool.not_true, Bool.false_eq_true, if_false, hn]
    generalize s.store.checkRateLimit s.now (toString n) = limited at hallowed
    obtain ⟨limited, allowed⟩ := limited
    simp only at hallowed
    rw [hallowed]
  have hlt : ¬ cMax < worstCaseCost := Nat.not_lt_of_le hle
  simp only [State.run, List.foldl_cons, List.foldl_nil, State.step, hstart, hs, List.nil_append,
    List.getElem?_cons_zero, List.set_cons_zero, resume, afterMatching, hbound, Bool.not_true,
    Bool.false_eq_true, if_false, afterPricing, hlt, afterVerifying, hverify, List.append_nil]

section Example

/-- Accepts every proof of canonical signals. -/
def canonicalVerifier (_ : SnarkjsProof) (signals : List Int) : Bool :=
  signals.all fun s => 0 ≤ s && s < (FIELD_MODULUS : Int)

def exampleDigest : Nat :=
  21023094671860425355490264926124925764559694019428733141923896094461443340962

def exampleX : Nat := 2176549920148719223811936981646774261260564317229575911476386092474648491327

/-- A server with Poseidon and SHA-256 as far as the payload "hi" and the nonce 1 need them. -/
def exampleConfig : Config where
  prod := false
  poseidon := .ofTable [] [((exampleDigest, 1), exampleX)]
  payloadDigest := fun _ => exampleDigest
  serverKey := G
  sign := fun _ => ⟨"0", "0", "0"⟩
  groth16 := canonicalVerifier
  groth16_canonical := by
    intro proof signals h s hs
    have := List.all_eq_true.mp h s hs
    simpa using this

def exampleNullifier : Nat :=
  11793065511861235618526420501895304853341760271986845785794175507061527574702

def exampleProof : String :=
  "\x7b\"pi_a\":[\"1\",\"2\",\"1\"],\"pi_b\":[[\"4\",\"3\",\"1\"],[\"6\",\"5\",\"1\"]],\"pi_c\":[\"7\",\"8\",\"1\"],"
    ++ "\"protocol\":\"groth16\"\x7d"

theorem readProof_exampleProof : ∃ p, readProof exampleProof = .ok (some p) := by
  have hread : (readProof exampleProof).toOption.join.isSome = true := by decide +kernel
  cases hresult : readProof exampleProof with
  | error =>
    rw [hresult] at hread
    cases hread
  | ok result =>
    cases result with
    | none =>
      rw [hresult] at hread
      cases hread
    | some p => exact ⟨p, rfl⟩

/-- The request at index 0 of the note with the key 1, with `signal.y` written in a given way. -/
def exampleBody (signalY : String) : RequestBody where
  payload := "hi"
  nonce := "1"
  nullifier := toString exampleNullifier
  signal := ⟨toString exampleX, signalY⟩
  proof := exampleProof
  merkleRoot := "1"
  accumulator := ⟨"0", "1"⟩
  model := none

def exampleRequest : LongjingRequestDto where
  toRequestBody := exampleBody
    "4958813209305370055156486456135278892591369220791518384675104349017985905921"
  valid := by decide +kernel

def exampleY : Nat := 4958813209305370055156486456135278892591369220791518384675104349017985905921

theorem example_nullifier_readers
    : parseFieldElement exampleRequest.nullifier = some (exampleNullifier : Int)
      ∧ toBigInt exampleRequest.nullifier = some (exampleNullifier : Int) :=
  readers_repr (by decide +kernel)

theorem example_signalX_readers
    : parseFieldElement exampleRequest.signal.x = some (exampleX : Int)
      ∧ toBigInt exampleRequest.signal.x = some (exampleX : Int) :=
  readers_repr (by decide +kernel)

theorem example_signalY_readers
    : parseFieldElement exampleRequest.signal.y = some (exampleY : Int)
      ∧ toBigInt exampleRequest.signal.y = some (exampleY : Int) := by
  have hstring : exampleRequest.signal.y = exampleY.repr := by decide +kernel
  rw [hstring]
  exact readers_repr (by decide +kernel)

theorem example_bound (signalY : String)
    : signalXMatchesRequest exampleConfig (exampleBody signalY).signal.x (exampleBody signalY).payload
        (exampleBody signalY).nonce = true := by
  have hx : parseFieldElement (exampleBody signalY).signal.x = some (exampleX : Int) :=
    (readers_repr (by decide +kernel)).1
  have hnonce : parseFieldElement (exampleBody signalY).nonce = some 1 := by
    show parseFieldElement "1" = some 1
    decide +kernel
  unfold signalXMatchesRequest
  simp only [hx, hnonce]
  show (if (FIELD_MODULUS : Int) ≤ 1 then false
    else decide ((exampleX : Int) = payloadSignalX exampleConfig "hi" 1)) = true
  decide +kernel

theorem example_knownRoot {isFull : Bool} {root : Nat → Bool} (hroot : root 1 = true)
    : knownRoot ⟨true, isFull, some root⟩ "1" = some true := by
  have hread : BigInt "1" = some 1 := by decide +kernel
  simp [knownRoot, hread, hroot]

/-- The public signals of the example request; any way to write `signal.y` that the verifier reads as a
canonical element gives them. -/
def exampleSignals : List Int :=
  [(exampleNullifier : Int), (exampleY : Int), 0, 1, 1, 10, (exampleX : Int), G.1, G.2]

theorem example_publicSignals (req : LongjingRequestDto) (signalY : String)
    (hreq : req.toRequestBody = exampleBody signalY) (hy : toBigInt signalY = some (exampleY : Int))
    : publicSignals exampleConfig req 10 = some exampleSignals := by
  have hx : toBigInt (toString exampleX) = some (exampleX : Int) := (readers_repr (by decide +kernel)).2
  have hn : toBigInt (toString exampleNullifier) = some (exampleNullifier : Int) :=
    (readers_repr (by decide +kernel)).2
  have hshort : toBigInt "0" = some 0 ∧ toBigInt "1" = some 1 := by decide +kernel
  unfold publicSignals
  rw [hreq]
  simp only [exampleBody, hn, hy, hx, hshort, Option.bind_eq_bind, Option.bind_some]
  rfl

theorem example_canonical (p : SnarkjsProof) : exampleConfig.groth16 p exampleSignals = true := by
  show canonicalVerifier p exampleSignals = true
  unfold canonicalVerifier
  decide +kernel

theorem example_verify (req : LongjingRequestDto) (signalY : String)
    (hreq : req.toRequestBody = exampleBody signalY) (hy : toBigInt signalY = some (exampleY : Int))
    {root : Nat → Bool} (hroot : root 1 = true)
    : verify exampleConfig req 10 ⟨true, false, some root⟩ = .ok true := by
  obtain ⟨p, hp⟩ := readProof_exampleProof
  have hproof : req.proof = exampleProof := by rw [hreq]; rfl
  have hmerkle : req.merkleRoot = "1" := by rw [hreq]; rfl
  have hknown : knownRoot ⟨true, false, some root⟩ req.merkleRoot = some true := by
    rw [hmerkle]
    exact example_knownRoot hroot
  exact verify_eq_true_iff.mpr ⟨rfl, rfl, by simp [hknown], by simp [hknown], _,
    example_publicSignals req signalY hreq hy, p, by rw [hproof, hp], example_canonical p⟩

end Example

end Server
end Longjing
