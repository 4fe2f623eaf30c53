import Longjing.Server.Lemmas.Basic
import Longjing.Server.Lemmas.RateLimit

/-!
A request that the server serves from beginning to end, among any others that it has under way.
-/

namespace Longjing
namespace Server

open Accumulator

/-- Nobody has tried the nullifier, as far as the rate limit remembers. -/
def Store.Untried (s : Store Kept) (nullifier : String) : Prop :=
  nullifier ∉ s.nullifierAttempts.map Prod.fst

/-- The server has seen nothing of the nullifier. -/
structure Store.Unseen (s : Store Kept) (nullifier : String) : Prop where
  free : s.get nullifier = none
  untried : s.Untried nullifier

theorem Store.Untried.allowed {s : Store Kept} {nullifier : String} (h : s.Untried nullifier) (now : Nat)
    : (s.checkRateLimit now nullifier).2 = true :=
  checkRateLimit_fresh now (Js.Map.get_eq_none h)

theorem Store.Untried.checkRateLimit {s : Store Kept} {nullifier other : String} (h : s.Untried other)
    (hne : other ≠ nullifier) (now : Nat) : (s.checkRateLimit now nullifier).1.Untried other := by
  have hset (attempts : List Nat) : other ∉ (Js.Map.set s.nullifierAttempts nullifier attempts).map Prod.fst := by
    rw [Js.Map.keys_set]
    unfold Untried at h
    split
    . exact h
    . simpa using ⟨by simpa using h, hne⟩
  unfold Untried Store.checkRateLimit
  simp only
  split
  . exact h
  . split
    . rw [cleanupRateLimitMap_attempts]
      exact fun hmem => hset _ (Js.Map.mem_keys_filterMapValues hmem)
    . exact hset _

theorem set_length_concat {α : Type} (l : List α) (a b : α) : (l ++ [a]).set l.length b = l ++ [b] := by
  simp

variable {cfg : Config} {req : LongjingRequestDto}

/-- What the server awaits for one request, the `exec`-th, when everything succeeds. -/
def servedActions (exec : Nat) (req : LongjingRequestDto) (cMax worstCaseCost : Nat) (answer : VerifyAnswer)
    (slashing : Bool) (content : String) (actualCost : Nat) : List Action :=
  [.arrive req, .resume exec (.matched (some cMax)), .resume exec (.cost (some worstCaseCost)),
    .resume exec (.verified answer slashing), .resume exec (.provider (some content)),
    .resume exec (.cost (some actualCost)), .resume exec (.signed true)]

/-- Nothing refuses the request: it is recorded, goes to the provider once and is answered with the refund. -/
theorem State.run_served {s : State} {n x y ax ay : Int} {cMax worstCaseCost : Nat} {answer : VerifyAnswer}
    (slashing : Bool) (content : String) (actualCost : Nat) (hn : parseFieldElement req.nullifier = some n)
    (hunseen : s.store.Unseen (toString n))
    (hbound : signalXMatchesRequest cfg req.signal.x req.payload req.nonce = true)
    (hle : worstCaseCost ≤ cMax) (hverify : verify cfg req cMax answer = .ok true)
    (hmodel : CLAUDE_MODELS.contains (req.model.getD DEFAULT_CLAUDE_MODEL) = true)
    (hx : parseFieldElement req.signal.x = some x) (hy : parseFieldElement req.signal.y = some y)
    (hax : parseFieldElement req.accumulator.x = some ax) (hay : parseFieldElement req.accumulator.y = some ay)
    : s.run cfg (servedActions s.execs.length req cMax worstCaseCost answer slashing content actualCost)
      = { s with
          store := ((s.store.checkRateLimit s.now (toString n)).1.insert (toString n)
            (storedSignal x y)).rememberResponse s.now (toString n) (storedSignal x y)
              (.response ⟨padResponse content, toString (refundOf cMax actualCost),
                nextAccumulator cfg (ax, ay) (refundOf cMax actualCost)⟩)
          execs := s.execs ++ [⟨req, .done (.ok ⟨padResponse content, toString (refundOf cMax actualCost),
            nextAccumulator cfg (ax, ay) (refundOf cMax actualCost)⟩)⟩]
          events := s.events ++ [.accepted req, .provider req,
            .signed req (applyRefund (ax, ay) (refundOf cMax actualCost)) (refundOf cMax actualCost)] } := by
  have hallowed := hunseen.untried.allowed s.now
  have hrows := s.store.checkRateLimit_nullifiers s.now (toString n)
  have hstart : startRequest s.now s.store req
      = ⟨(s.store.checkRateLimit s.now (toString n)).1, .matching (toString n), []⟩ := by
    unfold startRequest
    simp only [hmodel, Bool.not_true, Bool.false_eq_true, if_false, hn]
    generalize s.store.checkRateLimit s.now (toString n) = limited at hallowed
    obtain ⟨limited, allowed⟩ := limited
    simp only at hallowed
    rw [hallowed]
  have hget : (s.store.checkRateLimit s.now (toString n)).1.get (toString n) = none := by
    have hfree := hunseen.free
    unfold Store.get at hfree ⊢
    rw [hrows]
    exact hfree
  have hrecord : record s.now (s.store.checkRateLimit s.now (toString n)).1 req (toString n) cMax slashing
      = ⟨(s.store.checkRateLimit s.now (toString n)).1.insert (toString n) (storedSignal x y),
          .calling ⟨toString n, storedSignal x y, cMax, (ax, ay)⟩, [.provider req]⟩ := by
    unfold record
    rw [hx, hy, hax, hay]
    simp only [Store.checkAndSet_none _ hget]
    rfl
  have hlt : ¬ cMax < worstCaseCost := Nat.not_lt_of_le hle
  simp only [servedActions, State.run, List.foldl_cons, List.foldl_nil, State.step, hstart,
    List.getElem?_concat_length, set_length_concat, resume, afterMatching, hbound, Bool.not_true,
    Bool.false_eq_true, if_false, afterPricing, hlt, afterVerifying, hverify, hrecord, afterCalling, afterCosting,
    afterSigning, if_true, List.append_nil, List.append_assoc, List.cons_append, List.nil_append]
  rfl

/-- What the server has not seen before a request, it has not seen after it. -/
theorem Store.Unseen.served {s : Store Kept} {nullifier other : String} (h : s.Unseen other)
    (hne : other ≠ nullifier) (now later : Nat) (signal : StoredSignal) (kept : Kept)
    : (((s.checkRateLimit now nullifier).1.insert nullifier signal).rememberResponse later nullifier signal
        kept).Unseen other := by
  constructor
  . show ((s.checkRateLimit now nullifier).1.insert nullifier signal).get other = none
    rw [get_insert]
    have hfree := h.free
    unfold Store.get at hfree ⊢
    rw [checkRateLimit_nullifiers, hfree, if_neg hne]
    rfl
  . exact h.untried.checkRateLimit hne now

end Server
end Longjing
