import Longjing.Js.Map

/-!
This module contains `nullifier-store.service.ts`: the table of spent nullifiers, the responses kept
for a retry and the attempts per nullifier.
-/

namespace Longjing
namespace Server

open Js

/-- An RLN signal (x, y) stored under its nullifier N, in decimal. -/
structure StoredSignal where
  x : String
  y : String
deriving DecidableEq, Repr

structure CachedResponse (ρ : Type) where
  signal : StoredSignal
  response : ρ
  expiresAt : Nat

/-- `nullifiers` is the SQLite table, the rest is in memory. -/
structure Store (ρ : Type) where
  nullifiers : Map String StoredSignal
  responses : Map String (CachedResponse ρ)
  nullifierAttempts : Map String (List Nat)

namespace Store

variable {ρ : Type}

def RATE_LIMIT_WINDOW_MS : Nat := 60000
def RATE_LIMIT_MAX_ATTEMPTS : Nat := 3
def RESPONSE_TTL_MS : Nat := 10 * 60 * 1000

def empty : Store ρ := ⟨[], [], []⟩

def get (s : Store ρ) (nullifier : String) : Option StoredSignal :=
  Map.get s.nullifiers nullifier

/-- One transaction: the stored signal, or `none` when this call recorded it. -/
def checkAndSet (s : Store ρ) (nullifier : String) (signal : StoredSignal)
    : Store ρ × Option StoredSignal :=
  match s.get nullifier with
  | some existing => (s, some existing)
  | none => ({ s with nullifiers := s.nullifiers ++ [(nullifier, signal)] }, none)

def rememberResponse (s : Store ρ) (now : Nat) (nullifier : String) (signal : StoredSignal)
    (response : ρ) : Store ρ :=
  { s with responses := Map.set s.responses nullifier ⟨signal, response, now + RESPONSE_TTL_MS⟩ }

def recallResponse (s : Store ρ) (now : Nat) (nullifier : String) (signal : StoredSignal)
    : Option ρ :=
  match Map.get s.responses nullifier with
  | none => none
  | some cached =>
    if cached.expiresAt ≤ now then none
    else if cached.signal.x ≠ signal.x ∨ cached.signal.y ≠ signal.y then none
    else some cached.response

def recentAttempts (now : Nat) (attempts : List Nat) : List Nat :=
  attempts.filter (now - · < RATE_LIMIT_WINDOW_MS)

def cleanupRateLimitMap (s : Store ρ) (now : Nat) : Store ρ :=
  { s with
    nullifierAttempts := s.nullifierAttempts.filterMap fun (nullifier, attempts) =>
      let recent := recentAttempts now attempts
      if recent.length = 0 then none else some (nullifier, recent) }

def cleanupResponses (s : Store ρ) (now : Nat) : Store ρ :=
  { s with responses := s.responses.filter fun (_, cached) => ¬ cached.expiresAt ≤ now }

/-- Whether the attempt is within the limit; one that is not is not recorded. -/
def checkRateLimit (s : Store ρ) (now : Nat) (nullifier : String) : Store ρ × Bool :=
  let recent := recentAttempts now ((Map.get s.nullifierAttempts nullifier).getD [])
  if RATE_LIMIT_MAX_ATTEMPTS ≤ recent.length then
    (s, false)
  else
    let s := { s with nullifierAttempts := Map.set s.nullifierAttempts nullifier (recent ++ [now]) }
    (if 1000 < s.nullifierAttempts.length then s.cleanupRateLimitMap now else s, true)

/-- A restart: the table is on disk, the maps are not. -/
def restart (s : Store ρ) : Store ρ := { s with responses := [], nullifierAttempts := [] }

@[simp]
theorem checkRateLimit_nullifiers (s : Store ρ) (now : Nat) (nullifier : String)
    : (s.checkRateLimit now nullifier).1.nullifiers = s.nullifiers := by
  unfold checkRateLimit
  simp only
  split
  . rfl
  . split <;> rfl

@[simp]
theorem checkRateLimit_responses (s : Store ρ) (now : Nat) (nullifier : String)
    : (s.checkRateLimit now nullifier).1.responses = s.responses := by
  unfold checkRateLimit
  simp only
  split
  . rfl
  . split <;> rfl

theorem checkRateLimit_allowed (s : Store ρ) (now : Nat) (nullifier : String)
    : (s.checkRateLimit now nullifier).2
      = decide ((recentAttempts now ((Map.get s.nullifierAttempts nullifier).getD [])).length
          < RATE_LIMIT_MAX_ATTEMPTS) := by
  unfold checkRateLimit
  simp only
  split
  next h => simp [Nat.not_lt_of_le h]
  next h => simp [Nat.lt_of_not_le h]

theorem checkRateLimit_fresh {s : Store ρ} {nullifier : String} (now : Nat)
    (h : Map.get s.nullifierAttempts nullifier = none) : (s.checkRateLimit now nullifier).2 = true := by
  rw [checkRateLimit_allowed, h]
  rfl

theorem checkAndSet_some {s : Store ρ} {nullifier : String} {existing : StoredSignal}
    (signal : StoredSignal) (h : s.get nullifier = some existing)
    : s.checkAndSet nullifier signal = (s, some existing) := by
  simp [checkAndSet, h]

theorem checkAndSet_none {s : Store ρ} {nullifier : String} (signal : StoredSignal)
    (h : s.get nullifier = none)
    : s.checkAndSet nullifier signal
      = ({ s with nullifiers := s.nullifiers ++ [(nullifier, signal)] }, none) := by
  simp [checkAndSet, h]

end Store
end Server
end Longjing
