import Mathlib.Data.List.Basic
import Mathlib.Data.List.Induction
import Mathlib.Tactic.Common

/-!
Logs that only grow: entries that are justified by the entries before them, induction along such a log,
and the indices that a log uses in order.
-/

namespace Log

variable {α κ : Type} {J J' : List α → α → Prop} {log new : List α} {e : α}

/-- Every entry is justified by the entries before it. -/
def Justified (J : List α → α → Prop) (log : List α) : Prop :=
  ∀ pre e post, log = pre ++ e :: post → J pre e

theorem justified_nil : Justified J [] := by
  intro pre e post h
  simp at h

theorem Justified.append (h : Justified J log)
    (hnew : ∀ pre e post, new = pre ++ e :: post → J (log ++ pre) e) : Justified J (log ++ new) := by
  intro pre e post heq
  rcases List.append_eq_append_iff.mp heq with ⟨mid, rfl, hmid⟩ | ⟨mid, rfl, hmid⟩
  . exact hnew mid e post hmid
  . cases mid with
    | nil =>
      have hsecond := hnew [] e post (by simpa using hmid.symm)
      simpa using hsecond
    | cons e' mid =>
      obtain ⟨rfl, -⟩ := List.cons.inj hmid
      exact h pre e mid rfl

theorem justified_concat : Justified J (log ++ [e]) ↔ Justified J log ∧ J log e := by
  constructor
  . intro h
    refine ⟨?_, h log e [] rfl⟩
    intro pre e' post heq
    exact h pre e' (post ++ [e]) (by simp [heq])
  . rintro ⟨hlog, he⟩
    refine hlog.append ?_
    intro pre e' post heq
    cases pre with
    | nil =>
      obtain ⟨rfl, -⟩ := List.cons.inj heq
      simpa using he
    | cons a pre => simp at heq

theorem Justified.and (h : Justified J log) (h' : Justified J' log)
    : Justified (fun pre e => J pre e ∧ J' pre e) log :=
  fun pre e post heq => ⟨h pre e post heq, h' pre e post heq⟩

/-- Induction along the log: what holds of an entry may use that it holds of the entries before it. -/
theorem Justified.induction {Q : α → Prop} (h : Justified J log)
    (hstep : ∀ pre e, J pre e → (∀ e' ∈ pre, Q e') → Q e) : ∀ e ∈ log, Q e := by
  induction log using List.reverseRecOn with
  | nil => simp
  | append_singleton log e ih =>
    obtain ⟨hlog, he⟩ := justified_concat.mp h
    intro e' he'
    rcases List.mem_append.mp he' with hold | hlast
    . exact ih hlog e' hold
    . rw [List.mem_singleton.mp hlast]
      exact hstep log e he (ih hlog)

/-- Where an entry uses one index of an owner at most, and an index after the first only once its
predecessor was used, the indices in use are an initial segment. -/
theorem exists_initialSegment {use : α → κ → Nat → Prop} (k : κ)
    (hone : ∀ e i j, use e k i → use e k j → i = j)
    (h : Justified (fun pre e => ∀ i, use e k (i + 1) → ∃ e' ∈ pre, use e' k i) log)
    : ∃ n, ∀ i, (∃ e ∈ log, use e k i) ↔ i < n := by
  induction log using List.reverseRecOn with
  | nil => exact ⟨0, by simp⟩
  | append_singleton log e ih =>
    obtain ⟨hlog, he⟩ := justified_concat.mp h
    obtain ⟨n, hn⟩ := ih hlog
    have hsplit (i : Nat) : (∃ e' ∈ log ++ [e], use e' k i) ↔ (∃ e' ∈ log, use e' k i) ∨ use e k i := by
      simp [or_and_right, exists_or]
    by_cases huses : ∃ i, use e k i
    . obtain ⟨i, hi⟩ := huses
      -- the predecessor was used, so the new index is at most the first free one
      have hle : i ≤ n := by
        cases i with
        | zero => exact Nat.zero_le n
        | succ i => exact (hn i).mp (he i hi)
      refine ⟨max n (i + 1), fun j => ?_⟩
      rw [hsplit, hn]
      constructor
      . rintro (hj | hj)
        . omega
        . have := hone e i j hi hj
          omega
      . intro hj
        rcases Nat.lt_or_ge j n with hlt | hge
        . exact Or.inl hlt
        . have hji : j = i := by omega
          exact Or.inr (hji ▸ hi)
    . refine ⟨n, fun j => ?_⟩
      rw [hsplit, hn]
      constructor
      . rintro (hj | hj)
        . exact hj
        . exact absurd ⟨j, hj⟩ huses
      . exact Or.inl

end Log
