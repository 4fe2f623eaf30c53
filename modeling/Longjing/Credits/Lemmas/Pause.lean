import Longjing.Credits.Lemmas.Ledger
import Mathlib.Algebra.BigOperators.Intervals

/-!
Pauses and expiry: the contract's bookkeeping of paused time against the seconds during which the
contract really was paused.
-/

namespace Longjing
namespace Credits

open Fallible

def secondsPaused (pausedSecond : Nat → Bool) (t t' : Nat) : Nat :=
  ((Finset.Ico t t').filter (fun u => pausedSecond u = true)).card

section SecondsPaused

variable {f g : Nat → Bool} {t t' t'' : Nat}

theorem secondsPaused_add (h : t ≤ t') (h' : t' ≤ t'')
    : secondsPaused f t t' + secondsPaused f t' t'' = secondsPaused f t t'' := by
  simp only [secondsPaused, Finset.card_filter]
  exact Finset.sum_Ico_consecutive _ h h'

theorem secondsPaused_congr (h : ∀ u, t ≤ u → u < t' → f u = g u)
    : secondsPaused f t t' = secondsPaused g t t' := by
  unfold secondsPaused
  congr 1
  apply Finset.filter_congr
  intro u hu
  rw [Finset.mem_Ico] at hu
  rw [h u hu.1 hu.2]

theorem secondsPaused_const (b : Bool)
    : secondsPaused (fun _ => b) t t' = if b then t' - t else 0 := by
  cases b <;> simp [secondsPaused]

theorem secondsPaused_le (f : Nat → Bool) (t t' : Nat) : secondsPaused f t t' ≤ t' - t := by
  have := Finset.card_filter_le (Finset.Ico t t') (fun u => f u = true)
  simpa [secondsPaused] using this

theorem secondsPaused_compl (f : Nat → Bool) (t t' : Nat)
    : secondsPaused f t t' + secondsPaused (fun u => !f u) t t' = t' - t := by
  have := Finset.card_filter_add_card_filter_not (s := Finset.Ico t t') (fun u => f u = true)
  simpa [secondsPaused] using this

end SecondsPaused

/--
The accumulated total, the open interval and the snapshots of the notes against the seconds during
which the contract was paused.
-/
structure PauseClock (pausedSecond : Nat → Bool) (now : Nat) (s : State) : Prop where
  pausedAt : s.paused = true → s.pausedAt ≤ now
  total : s.totalPausedTime + (if s.paused then now - s.pausedAt else 0)
    = secondsPaused pausedSecond 0 now
  note : ∀ c, (s.notes c).status ≠ .none →
    (s.notes c).depositedAt ≤ now
      ∧ s.pausedTimeAtDeposit c = secondsPaused pausedSecond 0 (s.notes c).depositedAt

namespace PauseClock

variable {f : Nat → Bool} {d : Deployment} {env : Env} {s s' : State}

theorem congr {now : Nat} (h : PauseClock f now s) (hpaused : s'.paused = s.paused)
    (hpausedAt : s'.pausedAt = s.pausedAt) (htotal : s'.totalPausedTime = s.totalPausedTime)
    (hat : s'.pausedTimeAtDeposit = s.pausedTimeAtDeposit)
    (hnotes : ∀ c, (s'.notes c).status ≠ .none →
      (s.notes c).status ≠ .none ∧ (s'.notes c).depositedAt = (s.notes c).depositedAt)
    : PauseClock f now s' := by
  constructor
  . rw [hpaused, hpausedAt]
    exact h.pausedAt
  . rw [hpaused, hpausedAt, htotal]
    exact h.total
  . intro c hc
    obtain ⟨hnone, hdeposited⟩ := hnotes c hc
    rw [hat, hdeposited]
    exact h.note c hnone

theorem update_status {now c : Nat} {status : Status} (h : PauseClock f now s)
    (hpaused : s'.paused = s.paused) (hpausedAt : s'.pausedAt = s.pausedAt)
    (htotal : s'.totalPausedTime = s.totalPausedTime)
    (hat : s'.pausedTimeAtDeposit = s.pausedTimeAtDeposit)
    (hnotes : s'.notes = Function.update s.notes c { s.notes c with status := status })
    (hc : (s.notes c).status ≠ .none) : PauseClock f now s' := by
  apply h.congr hpaused hpausedAt htotal hat
  intro c' hc'
  rw [hnotes] at hc' ⊢
  by_cases heq : c' = c
  . subst heq
    rw [Function.update_self]
    exact ⟨hc, rfl⟩
  . rw [Function.update_of_ne heq] at hc' ⊢
    exact ⟨hc', rfl⟩

theorem effect {call : Option Call} (h : PauseClock f env.timestamp s)
    (heffect : Effect d env s call s') : PauseClock f env.timestamp s' := by
  cases heffect with
  | deposit c _ hpaused =>
    have htotal := h.total
    simp only [hpaused, Bool.false_eq_true, if_false, Nat.add_zero] at htotal
    refine ⟨h.pausedAt, h.total, ?_⟩
    intro c' hc'
    simp only [leave, emit, updateLeaf, pushRoot] at hc' ⊢
    by_cases heq : c' = c
    . subst heq
      rw [Function.update_self, Function.update_self]
      exact ⟨Nat.le_refl _, htotal⟩
    . rw [Function.update_of_ne heq] at hc'
      rw [Function.update_of_ne heq, Function.update_of_ne heq]
      exact h.note c' hc'
  | initiateWithdrawal args _ _ hactive =>
    exact h.update_status rfl rfl rfl rfl rfl (by simp [hactive])
  | finalizeWithdrawal c _ hexiting =>
    exact h.update_status rfl rfl rfl rfl rfl (by simp [hexiting])
  | slashActive secretKey _ _ hactive =>
    exact h.update_status rfl rfl rfl rfl rfl (by simp [hactive])
  | slashExiting secretKey _ _ hexiting =>
    exact h.update_status rfl rfl rfl rfl rfl (by simp [hexiting])
  | claimExpired c _ _ _ hactive =>
    exact h.update_status rfl rfl rfl rfl rfl (by simp [hactive])
  | pause _ hpaused =>
    have htotal := h.total
    simp only [hpaused, Bool.false_eq_true, if_false, Nat.add_zero] at htotal
    refine ⟨fun _ => Nat.le_refl _, ?_, h.note⟩
    simp [htotal]
  | unpause _ hpaused =>
    have htotal := h.total
    simp only [hpaused, if_true] at htotal
    refine ⟨fun hfalse => ?_, ?_, h.note⟩
    . cases hfalse
    . simp [htotal]
  | executeChange target =>
    cases target <;> exact h.congr rfl rfl rfl rfl (fun _ hc => ⟨hc, rfl⟩)
  | _ => exact h.congr rfl rfl rfl rfl (fun _ hc => ⟨hc, rfl⟩)

/--
Time passes with the contract paused or not, and the new seconds are recorded accordingly.
-/
theorem wait {now seconds : Nat} (h : PauseClock f now s)
    : PauseClock (fun u => if now ≤ u ∧ u < now + seconds then s.paused else f u) (now + seconds)
        s := by
  have hbefore : ∀ {t}, t ≤ now →
      secondsPaused (fun u => if now ≤ u ∧ u < now + seconds then s.paused else f u) 0 t
        = secondsPaused f 0 t := by
    intro t ht
    apply secondsPaused_congr
    intro u _ hu
    rw [if_neg (by omega)]
  have hwindow : secondsPaused (fun u => if now ≤ u ∧ u < now + seconds then s.paused else f u) now
      (now + seconds) = if s.paused then seconds else 0 := by
    rw [secondsPaused_congr (g := fun _ => s.paused), secondsPaused_const]
    . simp
    . intro u hu hu'
      rw [if_pos ⟨hu, hu'⟩]
  constructor
  . intro hpaused
    have := h.pausedAt hpaused
    omega
  . rw [← secondsPaused_add (Nat.zero_le now) (Nat.le_add_right now seconds), hbefore (Nat.le_refl _),
      hwindow, ← h.total]
    split
    . next hpaused =>
      have := h.pausedAt hpaused
      omega
    . rfl
  . intro c hc
    obtain ⟨hdeposited, hat⟩ := h.note c hc
    rw [hbefore hdeposited]
    exact ⟨by omega, hat⟩

end PauseClock

theorem run_pauseClock (d : Deployment) (actions : List Action)
    : PauseClock (run d actions).pausedSecond (run d actions).now (run d actions).state
        ∧ ∀ frame ∈ (run d actions).stack,
            PauseClock (run d actions).pausedSecond (run d actions).now frame.snapshot := by
  induction actions using List.reverseRecOn with
  | nil =>
    constructor
    . constructor
      . intro hpaused
        cases hpaused
      . simp [deploy, constructor, pushRoot, emit, secondsPaused]
      . intro c hc
        exact absurd rfl hc
    . intro frame hframe
      cases hframe
  | append_singleton actions a ih =>
    rw [run_concat]
    generalize run d actions = m at ih
    obtain ⟨hstate, hstack⟩ := ih
    have hstep := Machine.step_sound d m a
    generalize m.step d a = m' at hstep ⊢
    cases hstep with
    | stutter => exact ⟨hstate, hstack⟩
    | effect caller call s heffect =>
      exact ⟨hstate.effect heffect, hstack⟩
    | enter caller call s payment heffect =>
      constructor
      . exact hstate.effect heffect
      . intro frame hframe
        cases hframe with
        | head => exact hstate
        | tail _ hframe => exact hstack frame hframe
    | leave frame stack hcons =>
      constructor
      . exact @hstate.effect _ d (.idle m.now) _ _ _ (.resume frame.payment)
      . intro f hf
        exact hstack f (by simp [hcons, hf])
    -- the snapshot kept the clock too
    | revert frame stack hcons =>
      constructor
      . exact hstack frame (by simp [hcons])
      . intro f hf
        exact hstack f (by simp [hcons, hf])
    | forceSend amount =>
      exact ⟨@hstate.effect _ d (.idle m.now) _ _ _ (.forceSend amount), hstack⟩
    | wait seconds hnil hnow =>
      constructor
      . exact hstate.wait
      . intro frame hframe
        dsimp at hframe
        rw [hnil] at hframe
        cases hframe

theorem run_now_lt (d : Deployment) (actions : List Action) : (run d actions).now < 2 ^ 64 := by
  induction actions using List.reverseRecOn with
  | nil => exact d.deployedAt_lt
  | append_singleton actions a ih =>
    rw [run_concat]
    generalize run d actions = m at ih
    have hstep := Machine.step_sound d m a
    generalize m.step d a = m' at hstep ⊢
    cases hstep with
    | wait seconds hnil hnow => exact hnow
    | _ => exact ih

theorem run_past (d : Deployment) (actions more : List Action)
    : (run d actions).now ≤ (run d (actions ++ more)).now
        ∧ ∀ u, u < (run d actions).now →
            (run d (actions ++ more)).pausedSecond u = (run d actions).pausedSecond u := by
  induction more using List.reverseRecOn with
  | nil => simp
  | append_singleton more a ih =>
    rw [← List.append_assoc, run_concat]
    generalize run d (actions ++ more) = m at ih
    obtain ⟨hnow, hpast⟩ := ih
    have hstep := Machine.step_sound d m a
    generalize m.step d a = m' at hstep ⊢
    cases hstep with
    | wait seconds hnil hlt =>
      dsimp
      refine ⟨by omega, ?_⟩
      intro u hu
      rw [if_neg (by omega)]
      exact hpast u hu
    | _ => exact ⟨hnow, hpast⟩

theorem noteExpiry_eq {d : Deployment} {actions : List Action} {env : Env} {c : Nat}
    (htime : env.timestamp = (run d actions).now)
    (hdeposited : ((run d actions).state.notes c).status ≠ .none)
    : noteExpiry env c (run d actions).state
        = .ok (((run d actions).state.notes c).depositedAt + NOTE_TTL
            + secondsPaused (run d actions).pausedSecond
                ((run d actions).state.notes c).depositedAt (run d actions).now) := by
  have hclock := (run_pauseClock d actions).1
  have hnow := run_now_lt d actions
  generalize run d actions = m at *
  obtain ⟨hle, hat⟩ := hclock.note c hdeposited
  have htotal := hclock.total
  have hadd := secondsPaused_add (f := m.pausedSecond) (Nat.zero_le _) hle
  have hbound := secondsPaused_le m.pausedSecond 0 m.now
  have hpaused : pausedTime env m.state = .ok (secondsPaused m.pausedSecond 0 m.now) := by
    unfold pausedTime
    split
    . next h =>
      have hpausedAt := hclock.pausedAt h
      simp only [h, if_true] at htotal
      simp only [bind_eq_ok, checkedAdd_eq_ok, checkedSub_eq_ok]
      refine ⟨_, ⟨?_, rfl⟩, ?_, ?_⟩
      . omega
      . omega
      . omega
    . next h =>
      simp only [Bool.not_eq_true] at h
      simp only [h, Bool.false_eq_true, if_false, Nat.add_zero] at htotal
      rw [htotal]
      rfl
  simp only [noteExpiry, bind_eq_ok, revertIf_eq_ok, checkedAdd_eq_ok, checkedSub_eq_ok, hpaused, hat,
    NOTE_TTL]
  refine ⟨(), hdeposited, _, ⟨?_, rfl⟩, _, rfl, _, ⟨?_, rfl⟩, ?_, ?_⟩
  . omega
  . omega
  . omega
  . omega

/--
`noteExpiry` counts the paused seconds since the deposit, never decreases, and `claimExpired` needs
a full unpaused lifetime.
-/
theorem run_noteExpiry (d : Deployment) (actions : List Action) (c : Nat)
    : (∀ env : Env, env.timestamp = (run d actions).now →
        ((run d actions).state.notes c).status ≠ .none →
        noteExpiry env c (run d actions).state
          = .ok (((run d actions).state.notes c).depositedAt + NOTE_TTL
              + secondsPaused (run d actions).pausedSecond
                  ((run d actions).state.notes c).depositedAt (run d actions).now))
      ∧ (∀ (more : List Action) (env env' : Env), env.timestamp = (run d actions).now →
          env'.timestamp = (run d (actions ++ more)).now →
          ((run d actions).state.notes c).status ≠ .none →
          ∃ expiry expiry', noteExpiry env c (run d actions).state = .ok expiry
            ∧ noteExpiry env' c (run d (actions ++ more)).state = .ok expiry'
            ∧ expiry ≤ expiry')
      ∧ (∀ (env : Env) (s : State), env.timestamp = (run d actions).now →
          claimExpired d env c (run d actions).state = .ok s →
          env.sender = (run d actions).state.serverAddress
            ∧ ((run d actions).state.notes c).status = .active
            ∧ (run d actions).state.paused = false
            ∧ NOTE_TTL ≤ secondsPaused (fun u => !(run d actions).pausedSecond u)
                ((run d actions).state.notes c).depositedAt (run d actions).now) := by
  refine ⟨?_, ?_, ?_⟩
  . intro env htime hdeposited
    exact noteExpiry_eq htime hdeposited
  . intro more env env' htime htime' hdeposited
    obtain ⟨hdeposited', hkept⟩ := run_note_kept d actions more hdeposited
    have hat : ((run d (actions ++ more)).state.notes c).depositedAt
        = ((run d actions).state.notes c).depositedAt := by
      rw [hkept]
    obtain ⟨hnow, hpast⟩ := run_past d actions more
    have hle := ((run_pauseClock d actions).1.note c hdeposited).1
    refine ⟨_, _, noteExpiry_eq htime hdeposited, noteExpiry_eq htime' hdeposited', ?_⟩
    rw [hat, ← secondsPaused_add (f := (run d (actions ++ more)).pausedSecond) hle hnow,
      secondsPaused_congr (g := (run d actions).pausedSecond) (fun u _ hu => hpast u hu)]
    omega
  . intro env s htime hclaim
    obtain ⟨-, hpaused, hsender, hactive, ⟨expiry, hexpiry, hle⟩, -⟩ := claimExpired_eq_ok.mp hclaim
    refine ⟨hsender, hactive, hpaused, ?_⟩
    rw [noteExpiry_eq htime (by simp [hactive])] at hexpiry
    cases hexpiry
    have hcompl := secondsPaused_compl (run d actions).pausedSecond
      ((run d actions).state.notes c).depositedAt (run d actions).now
    omega

end Credits
end Longjing
