import Longjing.Server.Store
import Mathlib.Data.List.Induction

/-!
This module contains the rate limit of the store as a sliding window over the attempts it accepted.
-/

namespace Longjing
namespace Server
namespace Store

open Js

/-- A call, or a cleanup by the timer. -/
inductive RateEvent where
  | check (nullifier : String) (now : Nat)
  | cleanup (now : Nat)
deriving DecidableEq, Repr

structure Decision where
  nullifier : String
  time : Nat
  accepted : Bool
deriving DecidableEq, Repr

def RateEvent.time : RateEvent → Nat
  | .check _ now => now
  | .cleanup now => now

def checks (events : List RateEvent) : List (String × Nat) :=
  events.filterMap fun
    | .check nullifier now => some (nullifier, now)
    | .cleanup _ => none

section Run

variable (ρ : Type)

def rateStep (s : Store ρ) : RateEvent → Store ρ × List Decision
  | .check nullifier now =>
    ((s.checkRateLimit now nullifier).1, [⟨nullifier, now, (s.checkRateLimit now nullifier).2⟩])
  | .cleanup now => (s.cleanupRateLimitMap now, [])

/-- The store after the events, and every decision so far. -/
def rateRun (events : List RateEvent) : Store ρ × List Decision :=
  events.foldl (fun (s, decisions) event => ((rateStep ρ s event).1, decisions ++ (rateStep ρ s event).2))
    (empty, [])

def decisions (events : List RateEvent) : List Decision := (rateRun ρ events).2

end Run

def acceptedTimes (nullifier : String) (decisions : List Decision) : List Nat :=
  (decisions.filter fun d => d.nullifier = nullifier && d.accepted).map Decision.time

def ClockRuns (events : List RateEvent) : Prop := events.Pairwise (·.time ≤ ·.time)

/-- The limit as it is meant: three accepted attempts within the window, whatever else happens. -/
def slidingWindow (calls : List (String × Nat)) : List Decision :=
  calls.foldl (fun decisions (nullifier, now) =>
    decisions ++ [⟨nullifier, now,
      (recentAttempts now (acceptedTimes nullifier decisions)).length < RATE_LIMIT_MAX_ATTEMPTS⟩]) []

theorem recentAttempts_recentAttempts {now later : Nat} (h : now ≤ later) (attempts : List Nat)
    : recentAttempts later (recentAttempts now attempts) = recentAttempts later attempts := by
  unfold recentAttempts
  rw [List.filter_filter]
  apply List.filter_congr
  intro t _
  simp only [← Bool.decide_and, decide_eq_decide]
  omega

theorem recentAttempts_append (now : Nat) (attempts attempts' : List Nat)
    : recentAttempts now (attempts ++ attempts') = recentAttempts now attempts ++ recentAttempts now attempts' :=
  List.filter_append ..

def attemptsOf {ρ : Type} (s : Store ρ) (nullifier : String) : List Nat :=
  (Map.get s.nullifierAttempts nullifier).getD []

section Tracks

variable {ρ : Type}

/-- From some time on, the store has the recent attempts that were accepted. -/
structure Tracks (s : Store ρ) (accepted : String → List Nat) (since : Nat) : Prop where
  distinct : Map.Distinct s.nullifierAttempts
  recent : ∀ now, since ≤ now → ∀ nullifier,
    recentAttempts now (attemptsOf s nullifier) = recentAttempts now (accepted nullifier)

theorem cleanupRateLimitMap_attempts (s : Store ρ) (now : Nat)
    : (s.cleanupRateLimitMap now).nullifierAttempts
      = Map.filterMapValues (fun attempts =>
          if (recentAttempts now attempts).length = 0 then none else some (recentAttempts now attempts))
          s.nullifierAttempts := by
  unfold cleanupRateLimitMap Map.filterMapValues
  apply List.filterMap_congr
  intro entry _
  simp only
  split <;> rfl

theorem Tracks.cleanup {s : Store ρ} {accepted : String → List Nat} {since now : Nat} (h : Tracks s accepted since)
    (hnow : since ≤ now) : Tracks (s.cleanupRateLimitMap now) accepted now := by
  refine ⟨?_, fun later hlater nullifier => ?_⟩
  . rw [cleanupRateLimitMap_attempts]
    exact h.distinct.filterMapValues _
  . rw [← h.recent later (Nat.le_trans hnow hlater) nullifier]
    unfold attemptsOf
    rw [cleanupRateLimitMap_attempts, Map.get_filterMapValues h.distinct]
    cases hget : Map.get s.nullifierAttempts nullifier with
    | none => rfl
    | some attempts =>
      rw [Option.getD_some, ← recentAttempts_recentAttempts hlater attempts, Option.bind_some]
      split
      next hempty => rw [List.length_eq_zero_iff.mp hempty, Option.getD_none]
      next => rw [Option.getD_some]

theorem Tracks.accept {s : Store ρ} {accepted : String → List Nat} {since now : Nat} (h : Tracks s accepted since)
    (hnow : since ≤ now) (nullifier : String)
    : Tracks { s with
          nullifierAttempts := Map.set s.nullifierAttempts nullifier
            (recentAttempts now (attemptsOf s nullifier) ++ [now]) }
        (fun n => if n = nullifier then accepted n ++ [now] else accepted n) now := by
  refine ⟨h.distinct.set _ _, fun later hlater n => ?_⟩
  have hget : attemptsOf { s with
        nullifierAttempts := Map.set s.nullifierAttempts nullifier
          (recentAttempts now (attemptsOf s nullifier) ++ [now]) } n
      = if n = nullifier then recentAttempts now (attemptsOf s nullifier) ++ [now] else attemptsOf s n := by
    unfold attemptsOf
    simp only
    rw [Map.get_set]
    split <;> rfl
  rw [hget]
  split
  next heq =>
    subst heq
    rw [recentAttempts_append, recentAttempts_append, recentAttempts_recentAttempts hlater,
      h.recent later (Nat.le_trans hnow hlater)]
  next => exact h.recent later (Nat.le_trans hnow hlater) n

theorem Tracks.check {s : Store ρ} {accepted : String → List Nat} {since now : Nat} (h : Tracks s accepted since)
    (hnow : since ≤ now) (nullifier : String)
    : (s.checkRateLimit now nullifier).2
        = decide ((recentAttempts now (accepted nullifier)).length < RATE_LIMIT_MAX_ATTEMPTS)
      ∧ Tracks (s.checkRateLimit now nullifier).1
        (fun n => if n = nullifier ∧ (s.checkRateLimit now nullifier).2 = true then accepted n ++ [now]
          else accepted n) now := by
  have hdecision := s.checkRateLimit_allowed now nullifier
  change _ = decide ((recentAttempts now (attemptsOf s nullifier)).length < _) at hdecision
  refine ⟨by rw [hdecision, h.recent now hnow], ?_⟩
  unfold checkRateLimit
  simp only
  split
  . simp only [Bool.false_eq_true, and_false, if_false]
    exact ⟨h.distinct, fun later hlater => h.recent later (Nat.le_trans hnow hlater)⟩
  . simp only [and_true]
    split
    . exact (h.accept hnow nullifier).cleanup (Nat.le_refl _)
    . exact h.accept hnow nullifier

theorem rateRun_concat (events : List RateEvent) (event : RateEvent)
    : rateRun ρ (events ++ [event])
      = ((rateStep ρ (rateRun ρ events).1 event).1,
          (rateRun ρ events).2 ++ (rateStep ρ (rateRun ρ events).1 event).2) := by
  unfold rateRun
  rw [List.foldl_append]
  rfl

theorem acceptedTimes_concat (nullifier : String) (decisions : List Decision) (d : Decision)
    : acceptedTimes nullifier (decisions ++ [d])
      = if nullifier = d.nullifier ∧ d.accepted = true then acceptedTimes nullifier decisions ++ [d.time]
        else acceptedTimes nullifier decisions := by
  unfold acceptedTimes
  rw [List.filter_append, List.map_append, List.filter_singleton]
  by_cases hd : nullifier = d.nullifier ∧ d.accepted = true
  . simp [hd]
  . rw [if_neg hd]
    by_cases hn : nullifier = d.nullifier
    . simp [hn, show d.accepted = false by simpa [hn] using hd]
    . simp [Ne.symm hn]

theorem rateRun_tracks {events : List RateEvent} (hclock : ClockRuns events) {since : Nat}
    (hsince : ∀ event ∈ events, event.time ≤ since)
    : Tracks (rateRun ρ events).1 (fun n => acceptedTimes n (rateRun ρ events).2) since := by
  induction events using List.reverseRecOn generalizing since with
  | nil => exact ⟨List.nodup_nil, fun _ _ _ => rfl⟩
  | append_singleton events event ih =>
    obtain ⟨hbefore, -, hlast⟩ := List.pairwise_append.mp hclock
    have htracks := ih hbefore fun e he => hlast e he event (List.mem_singleton_self _)
    have htime : event.time ≤ since := hsince event (by simp)
    have hlater {s : Store ρ} {accepted : String → List Nat} (h : Tracks s accepted event.time)
        : Tracks s accepted since :=
      ⟨h.distinct, fun now hnow => h.recent now (Nat.le_trans htime hnow)⟩
    rw [rateRun_concat]
    apply hlater
    cases event with
    | cleanup now =>
      unfold rateStep
      simp only [List.append_nil]
      exact htracks.cleanup (Nat.le_refl _)
    | check nullifier now =>
      unfold rateStep
      simp only [acceptedTimes_concat]
      exact (htracks.check (Nat.le_refl _) nullifier).2

/-- The decisions of the store are those of the window. -/
theorem decisions_eq_slidingWindow {events : List RateEvent} (hclock : ClockRuns events)
    : decisions ρ events = slidingWindow (checks events) := by
  unfold decisions
  induction events using List.reverseRecOn with
  | nil => rfl
  | append_singleton events event ih =>
    obtain ⟨hbefore, -, hlast⟩ := List.pairwise_append.mp hclock
    have htracks := rateRun_tracks (ρ := ρ) hbefore fun e he => hlast e he event (List.mem_singleton_self _)
    rw [rateRun_concat]
    cases event with
    | cleanup now =>
      have hsame : checks (events ++ [.cleanup now]) = checks events := by simp [checks]
      unfold rateStep
      simp only [List.append_nil]
      rw [hsame, ih hbefore]
    | check nullifier now =>
      have hsnoc : checks (events ++ [.check nullifier now]) = checks events ++ [(nullifier, now)] := by
        simp [checks]
      have hdecision : ((rateRun ρ events).1.checkRateLimit now nullifier).2
          = decide ((recentAttempts now (acceptedTimes nullifier (rateRun ρ events).2)).length
            < RATE_LIMIT_MAX_ATTEMPTS) := (htracks.check (Nat.le_refl _) nullifier).1
      unfold rateStep
      simp only
      rw [hsnoc, hdecision, ih hbefore]
      unfold slidingWindow
      rw [List.foldl_append]
      rfl

end Tracks

section Window

theorem slidingWindow_concat (calls : List (String × Nat)) (nullifier : String) (now : Nat)
    : slidingWindow (calls ++ [(nullifier, now)])
      = slidingWindow calls ++ [⟨nullifier, now,
          (recentAttempts now (acceptedTimes nullifier (slidingWindow calls))).length < RATE_LIMIT_MAX_ATTEMPTS⟩] := by
  unfold slidingWindow
  rw [List.foldl_append]
  rfl

def decisionsOn (nullifier : String) (decisions : List Decision) : List Decision :=
  decisions.filter (·.nullifier = nullifier)

theorem acceptedTimes_decisionsOn (nullifier : String) (decisions : List Decision)
    : acceptedTimes nullifier (decisionsOn nullifier decisions) = acceptedTimes nullifier decisions := by
  unfold acceptedTimes decisionsOn
  rw [List.filter_filter]
  congr 1
  apply List.filter_congr
  intro d _
  by_cases hd : d.nullifier = nullifier <;> simp [hd]

/-- They are those of its own calls. -/
theorem decisionsOn_slidingWindow (nullifier : String) (calls : List (String × Nat))
    : decisionsOn nullifier (slidingWindow calls) = slidingWindow (calls.filter (·.1 = nullifier)) := by
  induction calls using List.reverseRecOn with
  | nil => rfl
  | append_singleton calls call ih =>
    obtain ⟨n, now⟩ := call
    have hon (ds : List Decision) (d : Decision) : decisionsOn nullifier (ds ++ [d])
        = decisionsOn nullifier ds ++ (if d.nullifier = nullifier then [d] else []) := by
      unfold decisionsOn
      rw [List.filter_append, List.filter_singleton]
      simp
    rw [slidingWindow_concat, hon, ih, List.filter_append, List.filter_singleton]
    by_cases heq : n = nullifier
    . subst heq
      simp only [if_true, decide_true, cond_true]
      rw [slidingWindow_concat, ← ih, acceptedTimes_decisionsOn]
    . simp [heq]

/-- How many of some times lie in the window that begins at `t`. -/
def inWindow (t : Nat) (times : List Nat) : List Nat :=
  times.filter fun a => t ≤ a && a < t + RATE_LIMIT_WINDOW_MS

theorem inWindow_acceptedTimes_le (nullifier : String) (calls : List (String × Nat)) (t : Nat)
    : (inWindow t (acceptedTimes nullifier (slidingWindow calls))).length ≤ RATE_LIMIT_MAX_ATTEMPTS := by
  induction calls using List.reverseRecOn with
  | nil => exact Nat.zero_le _
  | append_singleton calls call ih =>
    obtain ⟨n, now⟩ := call
    rw [slidingWindow_concat, acceptedTimes_concat]
    simp only [decide_eq_true_eq]
    split
    next haccepted =>
      obtain ⟨rfl, hfew⟩ := haccepted
      have happend : inWindow t (acceptedTimes nullifier (slidingWindow calls) ++ [now])
          = inWindow t (acceptedTimes nullifier (slidingWindow calls)) ++ inWindow t [now] := List.filter_append ..
      rw [happend, List.length_append]
      by_cases hin : t ≤ now ∧ now < t + RATE_LIMIT_WINDOW_MS
      . -- whatever else is in the window still counted when this one was accepted
        have hsub : (inWindow t (acceptedTimes nullifier (slidingWindow calls))).length
            ≤ (recentAttempts now (acceptedTimes nullifier (slidingWindow calls))).length := by
          apply List.Sublist.length_le
          apply List.monotone_filter_right
          intro a ha
          simp only [Bool.and_eq_true, decide_eq_true_eq] at ha ⊢
          omega
        have hone : (inWindow t [now]).length ≤ 1 := List.length_filter_le ..
        omega
      . have hnone : inWindow t [now] = [] := by
          unfold inWindow
          rw [List.filter_eq_nil_iff]
          simpa using hin
        rw [hnone]
        exact ih
    next => exact ih

end Window

section Exact

variable {ρ : Type}

theorem acceptedTimes_le {events : List RateEvent} {now : Nat} (h : ∀ event ∈ events, event.time ≤ now)
    (nullifier : String) : ∀ a ∈ acceptedTimes nullifier (slidingWindow (checks events)), a ≤ now := by
  have hcalls (calls : List (String × Nat)) (hall : ∀ call ∈ calls, call.2 ≤ now)
      : ∀ a ∈ acceptedTimes nullifier (slidingWindow calls), a ≤ now := by
    induction calls using List.reverseRecOn with
    | nil => simp [slidingWindow, acceptedTimes]
    | append_singleton calls call ih =>
      have hbefore := ih fun c hc => hall c (List.mem_append_left _ hc)
      rw [slidingWindow_concat, acceptedTimes_concat]
      split
      . intro a ha
        rcases List.mem_append.mp ha with ha | ha
        . exact hbefore a ha
        . rw [List.mem_singleton.mp ha]
          exact hall call (by simp)
      . exact hbefore
  apply hcalls
  intro call hcall
  unfold checks at hcall
  obtain ⟨event, hevent, hcheck⟩ := List.mem_filterMap.mp hcall
  cases event with
  | cleanup t => simp at hcheck
  | check n t =>
    simp only [Option.some.injEq] at hcheck
    subst hcheck
    exact h _ hevent

/-- Never more than three of the accepted attempts are recent. -/
theorem recentAttempts_acceptedTimes_le {events : List RateEvent} {now : Nat}
    (h : ∀ event ∈ events, event.time ≤ now) (nullifier : String)
    : (recentAttempts now (acceptedTimes nullifier (slidingWindow (checks events)))).length
      ≤ RATE_LIMIT_MAX_ATTEMPTS := by
  refine Nat.le_trans ?_ (inWindow_acceptedTimes_le nullifier (checks events) (now + 1 - RATE_LIMIT_WINDOW_MS))
  -- the recent ones are those in the window that ends now
  have hwindow : recentAttempts now (acceptedTimes nullifier (slidingWindow (checks events)))
      = inWindow (now + 1 - RATE_LIMIT_WINDOW_MS) (acceptedTimes nullifier (slidingWindow (checks events))) := by
    apply List.filter_congr
    intro a ha
    have hle := acceptedTimes_le h nullifier a ha
    simp only [← Bool.decide_and, decide_eq_decide]
    unfold RATE_LIMIT_WINDOW_MS
    omega
  exact Nat.le_of_eq (by rw [hwindow])

theorem checkRateLimit_exact {events : List RateEvent} (hclock : ClockRuns events)
    : (∀ nullifier t, (inWindow t (acceptedTimes nullifier (decisions ρ events))).length ≤ 3)
      ∧ (∀ earlier nullifier now later, events = earlier ++ .check nullifier now :: later →
          (((rateRun ρ earlier).1.checkRateLimit now nullifier).2 = false
            ↔ (recentAttempts now (acceptedTimes nullifier (decisions ρ earlier))).length = 3))
      ∧ (∀ nullifier events', ClockRuns events' →
          (checks events').filter (·.1 = nullifier) = (checks events).filter (·.1 = nullifier) →
          decisionsOn nullifier (decisions ρ events') = decisionsOn nullifier (decisions ρ events))
      ∧ ∀ events', ClockRuns events' → checks events' = checks events →
          decisions ρ events' = decisions ρ events := by
  refine ⟨fun nullifier t => ?_, ?_, fun nullifier events' hclock' hcalls => ?_, fun events' hclock' hcalls => ?_⟩
  . rw [decisions_eq_slidingWindow hclock]
    exact inWindow_acceptedTimes_le nullifier _ t
  . rintro earlier nullifier now later rfl
    obtain ⟨hearlier, -, hlast⟩ := List.pairwise_append.mp hclock
    have hbefore : ∀ event ∈ earlier, event.time ≤ now :=
      fun event hevent => hlast event hevent (.check nullifier now) (by simp)
    have hdecision := ((rateRun_tracks (ρ := ρ) hearlier hbefore).check (Nat.le_refl now) nullifier).1
    have hle := recentAttempts_acceptedTimes_le hbefore nullifier
    rw [← decisions_eq_slidingWindow (ρ := ρ) hearlier] at hle
    rw [hdecision]
    unfold decisions at hle ⊢
    unfold RATE_LIMIT_MAX_ATTEMPTS at hle ⊢
    simp only [decide_eq_false_iff_not]
    omega
  . rw [decisions_eq_slidingWindow hclock, decisions_eq_slidingWindow hclock', decisionsOn_slidingWindow,
      decisionsOn_slidingWindow, hcalls]
  . rw [decisions_eq_slidingWindow hclock, decisions_eq_slidingWindow hclock', hcalls]

/-- Four calls at once and one a window later, with a cleanup in between. -/
def exampleEvents : List RateEvent :=
  [.check "7" 0, .check "7" 0, .check "7" 0, .check "7" 0, .cleanup 30000, .check "8" 59999, .check "7" 60000]

theorem checkRateLimit_exact_example
    : ClockRuns exampleEvents
      ∧ (decisions Unit exampleEvents).map Decision.accepted = [true, true, true, false, true, true]
      ∧ (inWindow 0 (acceptedTimes "7" (decisions Unit exampleEvents))).length ≤ 3 := by
  have hclock : ClockRuns exampleEvents := by
    unfold ClockRuns
    decide
  exact ⟨hclock, by decide +kernel, (checkRateLimit_exact hclock).1 "7" 0⟩

end Exact

end Store
end Server
end Longjing
