import Longjing.Server.Lemmas.Basic

/-!
One run of `handleRequest` that nothing else interleaves with: whether the ticket it spends is replaced
by a successor.
-/

namespace Longjing
namespace Server

open Js Accumulator

/-- What the dependencies of one `handleRequest` answer, and the clock when they do. -/
structure Dependencies where
  startedAt : Nat
  now : Pc → Nat
  cMax : Option Nat
  -- the cost by the exchange rate before the provider call
  worstCaseCost : Option Nat
  verifier : VerifyAnswer
  slashing : Bool
  provider : Option String
  -- the cost by the exchange rate after the provider call
  actualCost : Option Nat

/-- The signer does not fail. -/
def Dependencies.answer (d : Dependencies) : Pc → Answer
  | .matching _ => .matched d.cMax
  | .pricing _ _ => .cost d.worstCaseCost
  | .verifying _ _ => .verified d.verifier d.slashing
  | .calling _ => .provider d.provider
  | .refunding _ => .signed true
  | .costing _ _ => .cost d.actualCost
  | .signing _ _ _ => .signed true
  | _ => .slashed

variable (cfg : Config) (d : Dependencies) (req : LongjingRequestDto)

def drive : Nat → Piece → Piece
  | 0, piece => piece
  | fuel + 1, piece =>
    let next := resume cfg (d.now piece.pc) piece.store req piece.pc (d.answer piece.pc)
    drive fuel ⟨next.store, next.pc, piece.events ++ next.events⟩

/-- There are six awaits at most. -/
def handleRequest (store : Store Kept) : Piece :=
  drive cfg d req 6 (startRequest d.startedAt store req)

/-- The run inserts a row for its nullifier. -/
def Consumes (store : Store Kept) : Prop :=
  ∃ n, parseFieldElement req.nullifier = some n ∧ store.get (toString n) = none
    ∧ (handleRequest cfg d req store).store.get (toString n) ≠ none

/-- The run ends by caching a response or a failure that carries a signed successor. -/
def Issues (store : Store Kept) : Prop :=
  ∃ (n ax ay : Int) (cMax refund now : Nat) (signal : StoredSignal) (kept : Kept),
    parseFieldElement req.nullifier = some n
      ∧ parseFieldElement req.accumulator.x = some ax ∧ parseFieldElement req.accumulator.y = some ay
      ∧ d.cMax = some cMax ∧ refund ≤ cMax
      ∧ kept.carries refund (nextAccumulator cfg (ax, ay) refund)
      ∧ Event.signed req (applyRefund (ax, ay) refund) refund ∈ (handleRequest cfg d req store).events
      ∧ (handleRequest cfg d req store).store.responses
          = Map.set store.responses (toString n) ⟨signal, kept, now + Store.RESPONSE_TTL_MS⟩
      ∧ (handleRequest cfg d req store).pc = .done kept.outcome

structure ConsumedIffIssued (store : Store Kept) : Prop where
  iff : Consumes cfg d req store ↔ Issues cfg d req store
  unchanged : ∀ e, (handleRequest cfg d req store).pc = .done (.error e) → ¬ Issues cfg d req store →
    (handleRequest cfg d req store).store.nullifiers = store.nullifiers
      ∧ (handleRequest cfg d req store).store.responses = store.responses

/-- A run whose proof verifies and whose nullifier is new. -/
structure Recording (store : Store Kept) where
  nullifier : Int
  cMax : Nat
  worstCaseCost : Nat
  x : Int
  y : Int
  nullifier_eq : parseFieldElement req.nullifier = some nullifier
  allowed : (store.checkRateLimit d.startedAt (toString nullifier)).2 = true
  bound : signalXMatchesRequest cfg req.signal.x req.payload req.nonce = true
  cMax_eq : d.cMax = some cMax
  cost_eq : d.worstCaseCost = some worstCaseCost
  cost_le : worstCaseCost ≤ cMax
  verified : verify cfg req cMax d.verifier = .ok true
  x_eq : parseFieldElement req.signal.x = some x
  y_eq : parseFieldElement req.signal.y = some y
  fresh : store.get (toString nullifier) = none

/-- The failures after the record that have no recovery: an accumulator that is not read, and the second
lookup of the exchange rate. -/
def Stranded : Prop :=
  isNegative req.accumulator.x = true ∨ isNegative req.accumulator.y = true
    ∨ d.provider.isSome = true ∧ d.actualCost = none

variable {cfg d req}

@[simp]
theorem drive_done (fuel : Nat) (store : Store Kept) (outcome : Outcome) (events : List Event)
    : drive cfg d req fuel ⟨store, .done outcome, events⟩ = ⟨store, .done outcome, events⟩ := by
  induction fuel with
  | zero => rfl
  | succ fuel ih =>
    simp only [drive, resume, List.append_nil]
    exact ih

theorem LongjingRequestDto.supported (req : LongjingRequestDto)
    : CLAUDE_MODELS.contains (req.model.getD DEFAULT_CLAUDE_MODEL) = true := by
  have h := req.valid
  unfold RequestBody.isValid at h
  simp only [Bool.and_eq_true] at h
  cases hmodel : req.model with
  | none => decide
  | some model => simpa [hmodel] using h.2

variable (cfg d req) in
/-- A run that has ended and recorded nothing. -/
structure Quiet (store : Store Kept) (piece : Piece) : Prop where
  nullifiers : piece.store.nullifiers = store.nullifiers
  responses : piece.store.responses = store.responses
  unsigned : ∀ a v, Event.signed req a v ∉ piece.events
  ended : ∃ outcome, piece.pc = .done outcome

/-- The store after the rate limit counted the attempt. -/
structure Limited (store limited : Store Kept) : Prop where
  nullifiers : limited.nullifiers = store.nullifiers
  responses : limited.responses = store.responses

variable (cfg d req) in
/-- How a run of `handleRequest` can end. -/
inductive Handled (store : Store Kept) : Piece → Prop where
  | quiet {piece : Piece}
    : (Recording cfg d req store → False) → Quiet req store piece → Handled store piece
  | wasted (r : Recording cfg d req store) {limited : Store Kept}
    : Limited store limited →
      parseFieldElement req.accumulator.x = none ∨ parseFieldElement req.accumulator.y = none →
      Handled store
        ⟨limited.insert (toString r.nullifier) (storedSignal r.x r.y), .done (.error .other),
          [.accepted req]⟩
  | unpriced (r : Recording cfg d req store) {limited : Store Kept} (ax ay : Int) (content : String)
    : Limited store limited →
      parseFieldElement req.accumulator.x = some ax → parseFieldElement req.accumulator.y = some ay →
      d.provider = some content → d.actualCost = none →
      Handled store
        ⟨limited.insert (toString r.nullifier) (storedSignal r.x r.y), .done (.error .other),
          [.accepted req, .provider req]⟩
  | failed (r : Recording cfg d req store) {limited : Store Kept} (ax ay : Int) (now : Nat)
    : Limited store limited →
      parseFieldElement req.accumulator.x = some ax → parseFieldElement req.accumulator.y = some ay →
      d.provider = none →
      Handled store
        ⟨(limited.insert (toString r.nullifier) (storedSignal r.x r.y)).rememberResponse now
            (toString r.nullifier) (storedSignal r.x r.y)
            (.failure (toString r.cMax) (nextAccumulator cfg (ax, ay) r.cMax)),
          .done (.error (.badGateway (toString r.cMax) (nextAccumulator cfg (ax, ay) r.cMax))),
          [.accepted req, .provider req, .signed req (applyRefund (ax, ay) r.cMax) r.cMax]⟩
  | answered (r : Recording cfg d req store) {limited : Store Kept} (ax ay : Int) (content : String)
      (actualCost now : Nat)
    : Limited store limited →
      parseFieldElement req.accumulator.x = some ax → parseFieldElement req.accumulator.y = some ay →
      d.provider = some content → d.actualCost = some actualCost →
      Handled store
        ⟨(limited.insert (toString r.nullifier) (storedSignal r.x r.y)).rememberResponse now
            (toString r.nullifier) (storedSignal r.x r.y)
            (.response ⟨padResponse content, toString (refundOf r.cMax actualCost),
              nextAccumulator cfg (ax, ay) (refundOf r.cMax actualCost)⟩),
          .done (.ok ⟨padResponse content, toString (refundOf r.cMax actualCost),
            nextAccumulator cfg (ax, ay) (refundOf r.cMax actualCost)⟩),
          [.accepted req, .provider req,
            .signed req (applyRefund (ax, ay) (refundOf r.cMax actualCost)) (refundOf r.cMax actualCost)]⟩

section Paths

variable {store limited : Store Kept}

theorem Quiet.of_limited {outcome : Outcome} {events : List Event} (h : Limited store limited)
    (hunsigned : ∀ a v, Event.signed req a v ∉ events)
    : Quiet req store ⟨limited, .done outcome, events⟩ :=
  ⟨h.nullifiers, h.responses, hunsigned, outcome, rfl⟩

theorem signed_notMem_slashEvents (enabled : Bool) (existing signal : StoredSignal) (a : Point) (v : Nat)
    : Event.signed req a v ∉ slashEvents enabled existing signal := by
  unfold slashEvents
  cases slashRevealed enabled existing signal <;> simp

theorem drive_calling (r : Recording cfg d req store) (hlimited : Limited store limited) (ax ay : Int)
    (hax : parseFieldElement req.accumulator.x = some ax)
    (hay : parseFieldElement req.accumulator.y = some ay)
    : Handled cfg d req store (drive cfg d req 3
        ⟨limited.insert (toString r.nullifier) (storedSignal r.x r.y),
          .calling ⟨toString r.nullifier, storedSignal r.x r.y, r.cMax, (ax, ay)⟩,
          [.accepted req, .provider req]⟩) := by
  cases hprovider : d.provider with
  | none =>
    simp only [drive, resume, Dependencies.answer, hprovider, afterCalling, afterRefunding, if_true]
    exact .failed r ax ay _ hlimited hax hay hprovider
  | some content =>
    cases hcost : d.actualCost with
    | none =>
      simp only [drive, resume, Dependencies.answer, hprovider, hcost, afterCalling, afterCosting]
      exact .unpriced r ax ay content hlimited hax hay hprovider hcost
    | some actualCost =>
      simp only [drive, resume, Dependencies.answer, hprovider, hcost, afterCalling, afterCosting,
        afterSigning, if_true]
      exact .answered r ax ay content actualCost _ hlimited hax hay hprovider hcost

theorem drive_recorded {n : Int} {cMax worstCaseCost : Nat} {piece : Piece} {now : Nat}
    (hlimited : Limited store limited) (hn : parseFieldElement req.nullifier = some n)
    (hallowed : (store.checkRateLimit d.startedAt (toString n)).2 = true)
    (hbound : signalXMatchesRequest cfg req.signal.x req.payload req.nonce = true)
    (hcMax : d.cMax = some cMax) (hcost : d.worstCaseCost = some worstCaseCost)
    (hle : worstCaseCost ≤ cMax) (hverify : verify cfg req cMax d.verifier = .ok true)
    (hrecorded : Recorded now limited req (toString n) cMax d.slashing piece)
    : Handled cfg d req store
        (drive cfg d req 3 { piece with events := .accepted req :: piece.events }) := by
  have hget : limited.get (toString n) = store.get (toString n) := by
    unfold Store.get
    rw [hlimited.nullifiers]
  have hspent {existing : StoredSignal} (hrow : limited.get (toString n) = some existing)
      (r : Recording cfg d req store) : False := by
    have hfresh := r.fresh
    rw [← Option.some.inj (hn.symm.trans r.nullifier_eq), ← hget, hrow] at hfresh
    contradiction
  cases hrecorded with
  | unreadable hnone =>
    rw [drive_done]
    refine .quiet (fun r => ?_) (.of_limited hlimited (by simp))
    rw [r.x_eq, r.y_eq] at hnone
    simp at hnone
  | revealed x y existing _ _ hrow _ =>
    simp only [drive, resume, Dependencies.answer, refuse]
    refine .quiet (hspent hrow) (.of_limited hlimited ?_)
    simp [signed_notMem_slashEvents]
  | retried x y existing outcome _ _ hrow _ =>
    rw [drive_done]
    exact .quiet (hspent hrow) (.of_limited hlimited (by simp))
  | served x y ax ay hx hy hax hay hnone =>
    exact drive_calling ⟨n, cMax, worstCaseCost, x, y, hn, hallowed, hbound, hcMax, hcost, hle, hverify,
      hx, hy, hget ▸ hnone⟩ hlimited ax ay hax hay
  | wasted x y hx hy hacc hnone =>
    rw [drive_done]
    exact .wasted ⟨n, cMax, worstCaseCost, x, y, hn, hallowed, hbound, hcMax, hcost, hle, hverify,
      hx, hy, hget ▸ hnone⟩ hlimited hacc

theorem handleRequest_sound (cfg : Config) (d : Dependencies) (req : LongjingRequestDto)
    (store : Store Kept)
    : Handled cfg d req store (handleRequest cfg d req store) := by
  unfold handleRequest startRequest
  simp only [req.supported, Bool.not_true, Bool.false_eq_true, if_false]
  -- one check after another: each ends the run with nothing recorded, or goes on to the next
  cases hn : parseFieldElement req.nullifier with
  | none =>
    simp only [drive_done]
    refine .quiet (fun r => ?_) (.of_limited ⟨rfl, rfl⟩ (by simp))
    have := r.nullifier_eq
    simp [hn] at this
  | some n =>
    have hrows := store.checkRateLimit_nullifiers d.startedAt (toString n)
    have hresponses := store.checkRateLimit_responses d.startedAt (toString n)
    cases hallowed : store.checkRateLimit d.startedAt (toString n) with
    | mk limited allowed =>
      rw [hallowed] at hrows hresponses
      have hlimited : Limited store limited := ⟨hrows, hresponses⟩
      have hquiet (outcome : Outcome) (hnot : Recording cfg d req store → False)
          : Handled cfg d req store ⟨limited, .done outcome, []⟩ :=
        .quiet hnot (.of_limited hlimited (by simp))
      cases allowed with
      | false =>
        simp only [hallowed, refuse, drive_done]
        refine hquiet _ (fun r => ?_)
        have hr := r.allowed
        rw [← Option.some.inj (hn.symm.trans r.nullifier_eq), hallowed] at hr
        contradiction
      | true =>
        simp only [hallowed]
        rw [drive]
        simp only [resume, Dependencies.answer, afterMatching, List.append_nil]
        by_cases hbound : signalXMatchesRequest cfg req.signal.x req.payload req.nonce = true
        . simp only [hbound, Bool.not_true, Bool.false_eq_true, if_false]
          cases hcMax : d.cMax with
          | none =>
            simp only [refuse, drive_done]
            exact hquiet _ (fun r => absurd r.cMax_eq (by simp [hcMax]))
          | some cMax =>
            rw [drive]
            simp only [resume, Dependencies.answer, List.append_nil]
            cases hcost : d.worstCaseCost with
            | none =>
              simp only [afterPricing, drive_done]
              exact hquiet _ (fun r => absurd r.cost_eq (by simp [hcost]))
            | some worstCaseCost =>
              simp only [afterPricing]
              by_cases hlt : cMax < worstCaseCost
              . simp only [hlt, if_true, refuse, drive_done]
                refine hquiet _ (fun r => ?_)
                have hle := r.cost_le
                rw [← Option.some.inj (hcMax.symm.trans r.cMax_eq),
                  ← Option.some.inj (hcost.symm.trans r.cost_eq)] at hle
                omega
              . simp only [hlt, if_false]
                rw [drive]
                simp only [resume, Dependencies.answer, afterVerifying]
                have hverified (r : Recording cfg d req store) : verify cfg req cMax d.verifier = .ok true := by
                  rw [Option.some.inj (hcMax.symm.trans r.cMax_eq)]
                  exact r.verified
                cases hverify : verify cfg req cMax d.verifier with
                | error e =>
                  simp only [List.append_nil, drive_done]
                  exact hquiet _ (fun r => absurd (hverified r) (by simp [hverify]))
                | ok valid =>
                  cases valid with
                  | false =>
                    simp only [refuse, List.append_nil, drive_done]
                    exact hquiet _ (fun r => absurd (hverified r) (by simp [hverify]))
                  | true =>
                    have hrecorded : Recorded (d.now (.verifying (toString n) cMax)) limited req
                        (toString n) cMax d.slashing
                        (record (d.now (.verifying (toString n) cMax)) limited req (toString n) cMax
                          d.slashing) := record_sound _ _ _
                    simp only [List.nil_append]
                    exact drive_recorded hlimited hn (by rw [hallowed]) hbound hcMax hcost
                      (Nat.le_of_not_lt hlt) hverify hrecorded
        . simp only [hbound, Bool.not_false, if_true, refuse, drive_done]
          exact hquiet _ (fun r => hbound r.bound)

theorem not_issues_of_unsigned (h : ∀ a v, Event.signed req a v ∉ (handleRequest cfg d req store).events)
    : ¬ Issues cfg d req store := by
  rintro ⟨n, ax, ay, cMax, refund, now, signal, kept, -, -, -, -, -, -, hsigned, -, -⟩
  exact h _ _ hsigned

theorem consumes_of_insert (r : Recording cfg d req store) (hlimited : Limited store limited)
    (hrows : (handleRequest cfg d req store).store.nullifiers
      = (limited.insert (toString r.nullifier) (storedSignal r.x r.y)).nullifiers)
    : Consumes cfg d req store := by
  refine ⟨r.nullifier, r.nullifier_eq, r.fresh, ?_⟩
  have hget : limited.get (toString r.nullifier) = none := by
    have hfresh := r.fresh
    unfold Store.get at hfresh ⊢
    rw [hlimited.nullifiers]
    exact hfresh
  have hrow : (handleRequest cfg d req store).store.get (toString r.nullifier)
      = (limited.insert (toString r.nullifier) (storedSignal r.x r.y)).get (toString r.nullifier) := by
    unfold Store.get
    rw [hrows]
  rw [hrow, Store.get_insert, hget, if_pos rfl]
  simp

theorem not_consumedIffIssued (r : Recording cfg d req store) (hlimited : Limited store limited)
    (hrows : (handleRequest cfg d req store).store.nullifiers
      = (limited.insert (toString r.nullifier) (storedSignal r.x r.y)).nullifiers)
    (hunsigned : ∀ a v, Event.signed req a v ∉ (handleRequest cfg d req store).events)
    : ¬ ConsumedIffIssued cfg d req store := by
  intro h
  exact not_issues_of_unsigned hunsigned (h.iff.mp (consumes_of_insert r hlimited hrows))

theorem consumedIffIssued_of_issues (r : Recording cfg d req store) (hlimited : Limited store limited)
    (hrows : (handleRequest cfg d req store).store.nullifiers
      = (limited.insert (toString r.nullifier) (storedSignal r.x r.y)).nullifiers)
    (hissues : Issues cfg d req store) : ConsumedIffIssued cfg d req store :=
  ⟨⟨fun _ => hissues, fun _ => consumes_of_insert r hlimited hrows⟩, fun _ _ hnot => absurd hissues hnot⟩

theorem consumedIffIssued_of_quiet (h : Quiet req store (handleRequest cfg d req store))
    : ConsumedIffIssued cfg d req store := by
  have hissues := not_issues_of_unsigned h.unsigned
  refine ⟨⟨?_, fun h => absurd h hissues⟩, fun _ _ _ => ⟨h.nullifiers, h.responses⟩⟩
  rintro ⟨n, -, hnone, hrow⟩
  refine absurd ?_ hrow
  unfold Store.get at hnone ⊢
  rw [h.nullifiers]
  exact hnone

theorem isNegative_of_parse_none {value : String} (h : isFieldElement value = true)
    (hparse : parseFieldElement value = none) : isNegative value = true := by
  cases hneg : isNegative value with
  | true => rfl
  | false =>
    obtain ⟨n, hn, -⟩ := parse_of_not_negative h hneg
    rw [hn] at hparse
    contradiction

theorem isNegative_of_parse_some {value : String} {v : Int} (h : isFieldElement value = true)
    (hparse : parseFieldElement value = some v) : isNegative value = false := by
  cases hneg : isNegative value with
  | false => rfl
  | true =>
    rw [parse_of_negative h hneg] at hparse
    contradiction

theorem not_stranded {ax ay : Int} (hax : parseFieldElement req.accumulator.x = some ax)
    (hay : parseFieldElement req.accumulator.y = some ay)
    (hcost : d.provider.isSome = true → d.actualCost ≠ none) : ¬ Stranded d req := by
  obtain ⟨-, -, -, -, -, hx, hy⟩ := req.isFieldElement
  rintro (hneg | hneg | ⟨hprovider, hnone⟩)
  . rw [isNegative_of_parse_some hx hax] at hneg
    contradiction
  . rw [isNegative_of_parse_some hy hay] at hneg
    contradiction
  . exact hcost hprovider hnone

end Paths

/-- A spent ticket has its successor unless one of the failures after the record strands it. -/
theorem consumedIffIssued_iff (cfg : Config) (d : Dependencies) (req : LongjingRequestDto)
    (store : Store Kept)
    : ConsumedIffIssued cfg d req store ↔ ¬ (Nonempty (Recording cfg d req store) ∧ Stranded d req) := by
  obtain ⟨-, -, -, -, -, hx, hy⟩ := req.isFieldElement
  have h := handleRequest_sound cfg d req store
  generalize hpiece : handleRequest cfg d req store = piece at h
  cases h with
  | quiet hnot hquiet =>
    refine iff_of_true (consumedIffIssued_of_quiet (hpiece ▸ hquiet)) ?_
    rintro ⟨⟨r⟩, -⟩
    exact hnot r
  | wasted r hlimited hacc =>
    refine iff_of_false (not_consumedIffIssued r hlimited (by rw [hpiece]) (by simp [hpiece])) ?_
    refine not_not_intro ⟨⟨r⟩, ?_⟩
    rcases hacc with hacc | hacc
    . exact Or.inl (isNegative_of_parse_none hx hacc)
    . exact Or.inr (Or.inl (isNegative_of_parse_none hy hacc))
  | unpriced r ax ay content hlimited hax hay hprovider hcost =>
    refine iff_of_false (not_consumedIffIssued r hlimited (by rw [hpiece]) (by simp [hpiece])) ?_
    exact not_not_intro ⟨⟨r⟩, Or.inr (Or.inr ⟨by simp [hprovider], hcost⟩)⟩
  | failed r ax ay now hlimited hax hay hprovider =>
    refine iff_of_true (consumedIffIssued_of_issues r hlimited (by rw [hpiece]; rfl) ?_) ?_
    . refine ⟨r.nullifier, ax, ay, r.cMax, r.cMax, now, storedSignal r.x r.y, .failure _ _, r.nullifier_eq, hax, hay,
        r.cMax_eq,
        Nat.le_refl _, ⟨rfl, rfl⟩, by simp [hpiece], ?_, by rw [hpiece]; rfl⟩
      rw [hpiece, ← hlimited.responses]
      rfl
    . rintro ⟨-, hstranded⟩
      exact not_stranded hax hay (by simp [hprovider]) hstranded
  | answered r ax ay content actualCost now hlimited hax hay hprovider hcost =>
    refine iff_of_true (consumedIffIssued_of_issues r hlimited (by rw [hpiece]; rfl) ?_) ?_
    . refine ⟨r.nullifier, ax, ay, r.cMax, refundOf r.cMax actualCost, now, storedSignal r.x r.y,
        .response _, r.nullifier_eq, hax, hay, r.cMax_eq, refundOf_le _ _, ⟨rfl, rfl⟩, by simp [hpiece], ?_,
        by rw [hpiece]; rfl⟩
      rw [hpiece, ← hlimited.responses]
      rfl
    . rintro ⟨-, hstranded⟩
      exact not_stranded hax hay (by simp [hcost]) hstranded

/-- The provider answers, then the exchange rate cannot be read. -/
def unpricedDependencies : Dependencies where
  startedAt := 0
  now := fun _ => 0
  cMax := some 10
  worstCaseCost := some 1
  verifier := ⟨true, false, some fun _ => true⟩
  slashing := true
  provider := some "hello"
  actualCost := none

/-- The example request reaches the record in a server with nothing recorded. -/
def exampleRecording (d : Dependencies) (hcMax : d.cMax = some 10) (hcost : d.worstCaseCost = some 1)
    (hverifier : d.verifier = ⟨true, false, some fun _ => true⟩)
    : Recording exampleConfig d exampleRequest Store.empty where
  nullifier := exampleNullifier
  cMax := 10
  worstCaseCost := 1
  x := exampleX
  y := exampleY
  nullifier_eq := example_nullifier_readers.1
  allowed := Store.checkRateLimit_fresh _ rfl
  bound := example_bound _
  cMax_eq := hcMax
  cost_eq := hcost
  cost_le := by decide
  verified := by
    rw [hverifier]
    exact example_verify exampleRequest _ rfl example_signalY_readers.2 rfl
  x_eq := example_signalX_readers.1
  y_eq := example_signalY_readers.1
  fresh := rfl

theorem unpriced_not_issued
    : ¬ ConsumedIffIssued exampleConfig unpricedDependencies exampleRequest Store.empty := by
  have r := exampleRecording unpricedDependencies rfl rfl rfl
  have h := handleRequest_sound exampleConfig unpricedDependencies exampleRequest Store.empty
  generalize hpiece : handleRequest exampleConfig unpricedDependencies exampleRequest Store.empty = piece at h
  cases h with
  | quiet hnot => exact (hnot r).elim
  | wasted r' hlimited => exact not_consumedIffIssued r' hlimited (by rw [hpiece]) (by simp [hpiece])
  | unpriced r' ax ay content hlimited =>
    exact not_consumedIffIssued r' hlimited (by rw [hpiece]) (by simp [hpiece])
  | failed r' ax ay now hlimited hax hay hprovider => simp [unpricedDependencies] at hprovider
  | answered r' ax ay content actualCost now hlimited hax hay hprovider hcost =>
    simp [unpricedDependencies] at hcost

end Server
end Longjing
