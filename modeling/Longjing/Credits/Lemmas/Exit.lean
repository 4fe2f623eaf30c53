import Longjing.Credits.Lemmas.Ledger

/-!
Exits: what `initiateWithdrawal` recorded stays, and nobody can keep it from being paid.
-/

namespace Longjing
namespace Credits

open Fallible

/--
What came in through `deposit` fits into as many deposits as the tree has leaves.
-/
structure Capacity (s : State) : Prop where
  leaves : s.leaves.length ≤ 2 ^ TREE_DEPTH
  balance : s.balance ≤ s.forced + s.leaves.length * 2 ^ 128

namespace Capacity

variable {d : Deployment} {env : Env} {s s' : State}

theorem congr (h : Capacity s) (hleaves : s'.leaves.length = s.leaves.length)
    (hbalance : s'.balance ≤ s.balance) (hforced : s'.forced = s.forced) : Capacity s' := by
  have hle := h.balance
  constructor
  . rw [hleaves]
    exact h.leaves
  . rw [hleaves, hforced]
    omega

theorem effect {call : Option Call} (h : Capacity s) (heffect : Effect d env s call s')
    : Capacity s' := by
  have hleaves := h.leaves
  have hbalance := h.balance
  cases heffect with
  | deposit c _ _ _ hmax _ _ hfull =>
    have hlength : (s.leaves ++ [d.poseidon.hash2 c env.value]).length = s.leaves.length + 1 := by
      simp
    constructor
    . show (s.leaves ++ [d.poseidon.hash2 c env.value]).length ≤ 2 ^ TREE_DEPTH
      omega
    . show s.balance + env.value
        ≤ s.forced + (s.leaves ++ [d.poseidon.hash2 c env.value]).length * 2 ^ 128
      omega
  | initiateWithdrawal => exact h.congr List.length_set (Nat.le_refl _) rfl
  | slashActive => exact h.congr List.length_set (Nat.sub_le _ _) rfl
  | claimExpired => exact h.congr List.length_set (Nat.le_refl _) rfl
  | finalizeWithdrawal => exact h.congr rfl (Nat.sub_le _ _) rfl
  | slashExiting => exact h.congr rfl (Nat.sub_le _ _) rfl
  | withdrawOperatorBalance => exact h.congr rfl (Nat.sub_le _ _) rfl
  | executeChange target => cases target <;> exact h.congr rfl (Nat.le_refl _) rfl
  | forceSend amount =>
    refine ⟨hleaves, ?_⟩
    dsimp
    omega
  | _ => exact h.congr rfl (Nat.le_refl _) rfl

theorem invariant (d : Deployment) : Machine.Invariant d (fun _ s => Capacity s) where
  init := ⟨Nat.zero_le _, Nat.zero_le _⟩
  mono := fun _ h => h
  effect := effect

end Capacity

/--
The x of every announced exit is the one of its recipient.
-/
def AnnouncedExits (d : Deployment) (s : State) : Prop :=
  ∀ t c exit, ⟨t, .withdrawalInitiated c exit⟩ ∈ s.logs → exit.signalX = withdrawalSignalX d exit.recipient

theorem AnnouncedExits.effect {d : Deployment} {env : Env} {s s' : State} {call : Option Call}
    (h : AnnouncedExits d s) (heffect : Effect d env s call s') : AnnouncedExits d s' := by
  intro t c exit hmem
  cases heffect with
  | initiateWithdrawal args =>
    simp only [leave, emit, updateLeaf, pushRoot, List.mem_cons, Log.mk.injEq,
      Event.withdrawalInitiated.injEq, reduceCtorEq, and_false, false_or] at hmem
    rcases hmem with ⟨-, -, rfl⟩ | hold
    . rfl
    . exact h t c exit hold
  | executeChange target => cases target <;> exact h t c exit (by simpa [emit, installChange] using hmem)
  | resume payment =>
    cases payment <;> exact h t c exit (by simpa [Payment.resume, Payment.event, leave] using hmem)
  | _ => exact h t c exit (by simpa [leave, emit, updateLeaf, pushRoot, slashedState, Payment.transfer] using hmem)

theorem AnnouncedExits.invariant (d : Deployment) : Machine.Invariant d (fun _ s => AnnouncedExits d s) where
  init := by
    intro t c exit hmem
    simp [constructor, pushRoot, emit] at hmem
  mono := fun _ h => h
  effect := AnnouncedExits.effect

/--
The deposit of a live note and the operator's balance together are covered and far from overflow.
-/
theorem amount_le_balance {d : Deployment} {s : State} {c : Nat} (haccounting : Accounting d s)
    (hcapacity : Capacity s) (hlive : (s.notes c).Live)
    : s.operatorBalance + (s.notes c).amount ≤ s.balance - s.forced
        ∧ s.operatorBalance + (s.notes c).amount < 2 ^ 256 := by
  obtain ⟨total, ⟨live, hmem, rfl⟩, hbalance⟩ := haccounting.solvent
  have hle : (s.notes c).amount ≤ ∑ c' ∈ live, (s.notes c').amount :=
    Finset.single_le_sum (f := fun c' => (s.notes c').amount) (fun _ _ => Nat.zero_le _)
      ((hmem c).mpr hlive)
  have hleaves := hcapacity.leaves
  have hbound := hcapacity.balance
  have hpow : s.leaves.length * 2 ^ 128 ≤ 2 ^ TREE_DEPTH * 2 ^ 128 :=
    Nat.mul_le_mul_right _ hleaves
  simp only [TREE_DEPTH] at hpow
  omega

/--
Once a note left the tree for good, the record of its exit stays as it is.
-/
def ExitKept (s s' : State) : Prop :=
  ∀ c, (s.notes c).status ≠ .none → (s.notes c).status ≠ .active →
    s'.exits c = s.exits c ∧ (s'.notes c).status ≠ .none ∧ (s'.notes c).status ≠ .active

theorem ExitKept.refl (s : State) : ExitKept s s :=
  fun _ hnone hactive => ⟨rfl, hnone, hactive⟩

theorem ExitKept.trans {s t u : State} (hst : ExitKept s t) (htu : ExitKept t u)
    : ExitKept s u := by
  intro c hnone hactive
  obtain ⟨hexit, hnone', hactive'⟩ := hst c hnone hactive
  obtain ⟨hexit', hnone'', hactive''⟩ := htu c hnone' hactive'
  exact ⟨hexit'.trans hexit, hnone'', hactive''⟩

theorem ExitKept.update {s s' : State} {c : Nat} {note : Note}
    (hnotes : s'.notes = Function.update s.notes c note) (hexits : s'.exits = s.exits)
    (hstatus : note.status ≠ .none ∧ note.status ≠ .active ∨ (s.notes c).status = .none)
    : ExitKept s s' := by
  intro c' hnone hactive
  rw [hnotes, hexits]
  refine ⟨rfl, ?_⟩
  by_cases heq : c' = c
  . subst heq
    rw [Function.update_self]
    rcases hstatus with hstatus | hstatus
    . exact hstatus
    . exact absurd hstatus hnone
  . rw [Function.update_of_ne heq]
    exact ⟨hnone, hactive⟩

theorem Effect.exitKept {d : Deployment} {env : Env} {call : Option Call} {s s' : State}
    (h : Effect d env s call s') : ExitKept s s' := by
  cases h with
  | deposit c _ _ _ _ _ hnone => exact .update rfl rfl (.inr hnone)
  | initiateWithdrawal args _ _ hactive =>
    intro c hnone' hactive'
    have hne : c ≠ args.commitment := by
      rintro rfl
      exact hactive' hactive
    refine ⟨Function.update_of_ne hne _ _, ?_⟩
    simp only [leave, emit, updateLeaf, pushRoot, Function.update_of_ne hne]
    exact ⟨hnone', hactive'⟩
  | finalizeWithdrawal => exact .update rfl rfl (.inl (by simp))
  | slashActive => exact .update rfl rfl (.inl (by simp))
  | slashExiting => exact .update rfl rfl (.inl (by simp))
  | claimExpired => exact .update rfl rfl (.inl (by simp))
  | executeChange target => cases target <;> exact .refl _
  | _ => exact .refl _

theorem Effect.exiting {d : Deployment} {env : Env} {call : Option Call} {s s' : State} {c : Nat}
    (h : Effect d env s call s') (hexiting : (s.notes c).status = .exiting)
    (hne : (s'.notes c).status ≠ .exiting)
    : (call = some (.finalizeWithdrawal c) ∧ (s.exits c).exitAt ≤ env.timestamp
          ∧ (s'.notes c).status = .closed)
      ∨ ∃ secretKey, call = some (.slash secretKey) ∧ d.poseidon.hash1 secretKey = c
          ∧ (s'.notes c).status = .slashed := by
  -- a call changes the status of one note only, so it is about this one
  have hother : ∀ {c' note}, s'.notes = Function.update s.notes c' note → c' = c := by
    intro c' note hnotes
    by_contra hc
    rw [hnotes, Function.update_of_ne (Ne.symm hc)] at hne
    exact hne hexiting
  cases h with
  | deposit c' _ _ _ _ _ hnone =>
    have := hother rfl
    subst this
    rw [hnone] at hexiting
    cases hexiting
  | initiateWithdrawal args _ _ hactive =>
    have := hother rfl
    subst this
    rw [hactive] at hexiting
    cases hexiting
  | finalizeWithdrawal c' _ _ hexitAt =>
    have := hother rfl
    subst this
    exact .inl ⟨rfl, hexitAt, by simp⟩
  | slashActive secretKey _ _ hactive =>
    have := hother rfl
    subst this
    rw [hactive] at hexiting
    cases hexiting
  | slashExiting secretKey =>
    have := hother rfl
    subst this
    exact .inr ⟨secretKey, rfl, rfl, by simp [Payment.transfer, slashedState]⟩
  | claimExpired c' _ _ _ hactive =>
    have := hother rfl
    subst this
    rw [hactive] at hexiting
    cases hexiting
  | executeChange target => cases target <;> exact absurd hexiting hne
  | _ => exact absurd hexiting hne

theorem Effect.exiting_of_entered {d : Deployment} {env : Env} {call : Option Call} {s s' : State}
    {c : Nat} (h : Effect d env s call s') (hentered : s.entered = true)
    (hexiting : (s'.notes c).status = .exiting) : (s.notes c).status = .exiting := by
  cases h with
  | deposit _ hfalse => simp [hentered] at hfalse
  | initiateWithdrawal _ hfalse => simp [hentered] at hfalse
  | finalizeWithdrawal _ hfalse => simp [hentered] at hfalse
  | slashActive _ hfalse => simp [hentered] at hfalse
  | slashExiting _ hfalse => simp [hentered] at hfalse
  | claimExpired _ hfalse => simp [hentered] at hfalse
  | executeChange target => cases target <;> exact hexiting
  | _ => exact hexiting

/--
The payments before which a note can be exiting leave every other exit alone.
-/
theorem Effect.exiting_of_pays {d : Deployment} {env : Env} {call : Option Call} {s s' : State}
    {c : Nat} (h : Effect d env s call s') (hafter : s'.entered = true)
    (hexiting : (s'.notes c).status = .exiting) : (s.notes c).status = .exiting := by
  have hother : ∀ {c' note}, s'.notes = Function.update s.notes c' note →
      note.status ≠ .exiting → (s.notes c).status = .exiting := by
    intro c' note hnotes hnote
    by_cases heq : c = c'
    . subst heq
      rw [hnotes, Function.update_self] at hexiting
      exact absurd hexiting hnote
    . rw [hnotes, Function.update_of_ne heq] at hexiting
      exact hexiting
  cases h with
  | deposit => simp [Credits.leave] at hafter
  | initiateWithdrawal => simp [Credits.leave] at hafter
  | finalizeWithdrawal => exact hother rfl (by simp)
  | slashActive => exact hother rfl (by simp)
  | slashExiting => exact hother rfl (by simp)
  | claimExpired => simp [Credits.leave] at hafter
  | executeChange target => cases target <;> exact hexiting
  | _ => exact hexiting

theorem run_exiting_snapshot {d : Deployment} (actions : List Action) {frame : Frame} {c : Nat}
    (hframe : frame ∈ (run d actions).stack)
    (hexiting : ((run d actions).state.notes c).status = .exiting)
    : (frame.snapshot.notes c).status = .exiting := by
  induction actions using List.reverseRecOn generalizing frame with
  | nil => cases hframe
  | append_singleton actions a ih =>
    have hentered := Machine.run_entered d actions
    rw [run_concat] at hframe hexiting
    generalize run d actions = m at ih hframe hexiting hentered
    have hstep := Machine.step_sound d m a
    generalize m.step d a = m' at hstep hframe hexiting
    cases hstep with
    | stutter => exact ih hframe hexiting
    | effect caller call s heffect =>
      apply ih hframe
      rcases hentered with ⟨hnil, -⟩ | ⟨f, -, htrue, -⟩
      . dsimp at hframe
        rw [hnil] at hframe
        cases hframe
      . exact heffect.exiting_of_entered htrue hexiting
    | enter caller call s payment heffect hbefore hafter =>
      have hstate := heffect.exiting_of_pays hafter hexiting
      cases hframe with
      | head => exact hstate
      | tail _ hframe => exact ih hframe hstate
    | leave f stack hcons => exact ih (by simp [hcons, hframe]) hexiting
    | revert f stack hcons =>
      rcases hentered with ⟨hnil, -⟩ | ⟨f', hf', -, -⟩
      . rw [hnil] at hcons
        cases hcons
      . rw [hf'] at hcons
        cases hcons
        cases hframe
    | forceSend amount => exact ih hframe hexiting
    | wait seconds hnil hnow => exact ih hframe hexiting

/--
While a payee runs and until it returns, its call stays the only one in flight, and notes that
ended stay ended.
-/
theorem run_inner {d : Deployment} {actions : List Action} {frame : Frame} {c : Nat}
    (hstack : (run d actions).stack = [frame])
    (hended : ((run d actions).state.notes c).status.Terminal) (inner : List Action)
    (hinner : ∀ a ∈ inner, ∀ success, a ≠ .payeeReturn success)
    : (run d (actions ++ inner)).stack = [frame]
        ∧ (run d (actions ++ inner)).state.notes c = (run d actions).state.notes c := by
  induction inner using List.reverseRecOn with
  | nil => simp [hstack]
  | append_singleton inner a ih =>
    obtain ⟨ihstack, ihnote⟩ := ih (fun a' ha' => hinner a' (by simp [ha']))
    have ha := hinner a (by simp)
    have hentered := Machine.run_entered d (actions ++ inner)
    rw [← List.append_assoc, run_concat]
    generalize run d (actions ++ inner) = m at ihstack ihnote hentered
    have hstep := Machine.step_sound d m a
    generalize m.step d a = m' at hstep
    have hkept : ∀ {env call s}, Effect d env m.state call s →
        s.notes c = (run d actions).state.notes c := by
      intro env call s heffect
      rw [← ihnote] at hended ⊢
      exact (heffect.later c).ended hended
    cases hstep with
    | stutter => exact ⟨ihstack, ihnote⟩
    | effect caller call s heffect => exact ⟨ihstack, hkept heffect⟩
    | enter caller call s payment heffect hbefore =>
      rcases hentered with ⟨hnil, -⟩ | ⟨f, -, htrue, -⟩
      . rw [hnil] at ihstack
        cases ihstack
      . rw [htrue] at hbefore
        cases hbefore
    | leave => exact absurd rfl (ha true)
    | revert => exact absurd rfl (ha false)
    | forceSend amount => exact ⟨ihstack, ihnote⟩
    | wait seconds hnil hnow => exact ⟨ihstack, ihnote⟩

/--
A top level `finalizeWithdrawal` of an exit whose window is over reaches its payee with the payout.
-/
theorem run_finalize {d : Deployment} {actions : List Action} {caller : Caller} {c : Nat}
    (hstack : (run d actions).stack = []) (hexiting : ((run d actions).state.notes c).status = .exiting)
    (htime : ((run d actions).state.exits c).exitAt ≤ (run d actions).now)
    (hvalue : caller.value = 0) (hself : ((run d actions).state.exits c).recipient ≠ d.self)
    : (run d (actions ++ [.call caller (.finalizeWithdrawal c)])).stack
          = [⟨(run d actions).state, .finalize c ((run d actions).state.exits c).recipient
              ((run d actions).state.exits c).payout⟩]
        ∧ (run d (actions ++ [.call caller (.finalizeWithdrawal c)])).state.balance
            + ((run d actions).state.exits c).payout = (run d actions).state.balance
        ∧ (run d (actions ++ [.call caller (.finalizeWithdrawal c)])).state.ledger
            = .paid c ((run d actions).state.exits c).recipient
                ((run d actions).state.exits c).payout
              :: .credited c (((run d actions).state.notes c).amount
                  - ((run d actions).state.exits c).payout)
              :: (run d actions).state.ledger
        ∧ ((run d (actions ++ [.call caller (.finalizeWithdrawal c)])).state.notes c).status
            = .closed := by
  have haccounting := (Machine.run_invariant (Accounting.invariant d) actions).1
  have hcapacity := (Machine.run_invariant (Capacity.invariant d) actions).1
  have hentered := Machine.run_entered d actions
  rw [run_concat]
  generalize run d actions = m at hstack hexiting htime hself haccounting hcapacity hentered ⊢
  have hfree : m.state.entered = false := by
    rcases hentered with ⟨-, hfalse⟩ | ⟨f, hf, -, -⟩
    . exact hfalse
    . rw [hstack] at hf
      cases hf
  have hpayout : (m.state.exits c).payout ≤ (m.state.notes c).amount := by
    have haccount := haccounting.account c
    simp only [Account, hexiting] at haccount
    exact haccount.2
  obtain ⟨hcovered, hoverflow⟩ := amount_le_balance haccounting hcapacity (.inr hexiting)
  -- nothing reverts in front of the payment, which the account covers
  have hexec : exec d (caller.env m.now) (.finalizeWithdrawal c) m.state
      = .ok ({ m.state with
          entered := true
          notes := Function.update m.state.notes c { m.state.notes c with status := .closed }
          operatorBalance := m.state.operatorBalance
            + ((m.state.notes c).amount - (m.state.exits c).payout)
          ledger := .credited c ((m.state.notes c).amount - (m.state.exits c).payout)
            :: m.state.ledger },
        some (.finalize c (m.state.exits c).recipient (m.state.exits c).payout)) := by
    simp only [exec, bind_eq_ok, revertIf_eq_ok, pure_eq_ok, Prod.mk.injEq]
    refine ⟨(), ?_, (_, _), finalizeWithdrawal_eq_ok.mpr ⟨hfree, hexiting, htime, hpayout, ?_, rfl, rfl⟩,
      rfl, rfl⟩
    . simp [Caller.env, hvalue]
    . omega
  have hbalance : (m.state.exits c).payout ≤ m.state.balance := by
    omega
  rw [Machine.step_call_pay hexec hself hbalance]
  refine ⟨?_, ?_, rfl, ?_⟩
  . simp [hstack]
  . simp only [Payment.transfer, Payment.amount]
    omega
  . simp [Payment.transfer]

theorem run_finalize_revert {d : Deployment} {actions : List Action} {caller : Caller} {c : Nat}
    (hstack : (run d actions).stack = [])
    : run d (actions ++ [.call caller (.finalizeWithdrawal c)]) = run d actions
        ∨ ((run d (actions ++ [.call caller (.finalizeWithdrawal c)])).stack
              = [⟨(run d actions).state, .finalize c ((run d actions).state.exits c).recipient
                ((run d actions).state.exits c).payout⟩]
          ∧ ((run d (actions ++ [.call caller (.finalizeWithdrawal c)])).state.notes c).status
              = .closed) := by
  rw [run_concat]
  generalize run d actions = m at hstack ⊢
  simp only [Machine.step]
  split
  . exact .inl rfl
  . next s hexec =>
    simp only [exec, bind_eq_ok, revertIf_eq_ok, pure_eq_ok, Prod.mk.injEq, reduceCtorEq, and_false,
      exists_false] at hexec
  . next s payment hexec =>
    unfold Machine.pay
    split
    . simp only [exec, bind_eq_ok, revertIf_eq_ok, pure_eq_ok, Prod.mk.injEq,
        Option.some.injEq] at hexec
      obtain ⟨_, -, ⟨s₁, p⟩, hfinalize, rfl, rfl⟩ := hexec
      obtain ⟨-, -, -, -, -, rfl, rfl⟩ := finalizeWithdrawal_eq_ok.mp hfinalize
      right
      simp [hstack, Payment.transfer]
    . exact .inl rfl

theorem run_payeeReturn {d : Deployment} {actions : List Action} {frame : Frame}
    (hstack : (run d actions).stack = [frame])
    : (run d (actions ++ [.payeeReturn true])).stack = []
        ∧ (run d (actions ++ [.payeeReturn true])).state.notes = (run d actions).state.notes
        ∧ (run d (actions ++ [.payeeReturn false])).stack = []
        ∧ (run d (actions ++ [.payeeReturn false])).state = frame.snapshot := by
  rw [run_concat, run_concat]
  simp only [Machine.step, hstack]
  exact ⟨rfl, rfl, rfl, rfl⟩

theorem step_exiting {d : Deployment} {actions : List Action} {a : Action} {c : Nat}
    (hexiting : ((run d actions).state.notes c).status = .exiting)
    (hne : ((run d (actions ++ [a])).state.notes c).status ≠ .exiting)
    : (∃ caller, a = .call caller (.finalizeWithdrawal c)
          ∧ ((run d actions).state.exits c).exitAt ≤ (run d actions).now
          ∧ ((run d (actions ++ [a])).state.notes c).status = .closed)
        ∨ ∃ caller secretKey, a = .call caller (.slash secretKey)
            ∧ d.poseidon.hash1 secretKey = c
            ∧ ((run d (actions ++ [a])).state.notes c).status = .slashed := by
  have hsnapshot := @run_exiting_snapshot d actions
  rw [run_concat] at hne ⊢
  generalize run d actions = m at hexiting hne hsnapshot ⊢
  have hstep := Machine.step_sound d m a
  generalize m.step d a = m' at hstep hne ⊢
  have hcall : ∀ {caller call s}, Effect d (caller.env m.now) m.state (some call) s →
      (s.notes c).status ≠ .exiting →
      (∃ caller', Action.call caller call = .call caller' (.finalizeWithdrawal c)
        ∧ (m.state.exits c).exitAt ≤ m.now ∧ (s.notes c).status = .closed)
      ∨ ∃ caller' secretKey, Action.call caller call = .call caller' (.slash secretKey)
          ∧ d.poseidon.hash1 secretKey = c ∧ (s.notes c).status = .slashed := by
    intro caller call s heffect hs
    rcases heffect.exiting hexiting hs with ⟨heq, hrest⟩ | ⟨secretKey, heq, hrest⟩
    . cases heq
      exact .inl ⟨caller, rfl, hrest⟩
    . cases heq
      exact .inr ⟨caller, secretKey, rfl, hrest⟩
  cases hstep with
  | effect caller call s heffect => exact hcall heffect hne
  | enter caller call s payment heffect => exact hcall heffect hne
  | revert frame stack hcons => exact absurd (hsnapshot (by simp [hcons]) hexiting) hne
  | stutter => exact absurd hexiting hne
  | leave => exact absurd hexiting hne
  | forceSend => exact absurd hexiting hne
  | wait => exact absurd hexiting hne

theorem run_exit_final (d : Deployment) (actions : List Action)
    : (∀ (caller : Caller) (args : WithdrawalArgs) (s : State),
        initiateWithdrawal d (caller.env (run d actions).now) args (run d actions).state = .ok s →
        (s.notes args.commitment).status = .exiting
          ∧ s.exits args.commitment = newExit d (caller.env (run d actions).now) args)
      ∧ (∀ (c : Nat) (more : List Action), ((run d actions).committed.notes c).status = .exiting →
          (run d (actions ++ more)).committed.exits c = (run d actions).committed.exits c
          ∧ (run d (actions ++ more)).state.exits c = (run d actions).committed.exits c)
      ∧ (∀ (c : Nat) (caller : Caller) (inner : List Action),
          (run d actions).stack = [] →
          ((run d actions).state.notes c).status = .exiting →
          ((run d actions).state.exits c).exitAt ≤ (run d actions).now →
          caller.value = 0 →
          ((run d actions).state.exits c).recipient ≠ d.self →
          (∀ a ∈ inner, ∀ success, a ≠ .payeeReturn success) →
          (run d (actions ++ [.call caller (.finalizeWithdrawal c)])).state.balance
              + ((run d actions).state.exits c).payout = (run d actions).state.balance
          ∧ (run d (actions ++ [.call caller (.finalizeWithdrawal c)])).state.ledger
              = .paid c ((run d actions).state.exits c).recipient
                  ((run d actions).state.exits c).payout
                :: .credited c (((run d actions).state.notes c).amount
                    - ((run d actions).state.exits c).payout)
                :: (run d actions).state.ledger
          ∧ (run d (actions ++ [.call caller (.finalizeWithdrawal c)] ++ inner
              ++ [.payeeReturn true])).stack = []
          ∧ ((run d (actions ++ [.call caller (.finalizeWithdrawal c)] ++ inner
              ++ [.payeeReturn true])).state.notes c).status = .closed)
      ∧ (∀ (c : Nat) (caller : Caller) (inner : List Action),
          (run d actions).stack = [] →
          (∀ a ∈ inner, ∀ success, a ≠ .payeeReturn success) →
          run d (actions ++ [.call caller (.finalizeWithdrawal c)]) = run d actions
          ∨ ((run d (actions ++ [.call caller (.finalizeWithdrawal c)] ++ inner
                ++ [.payeeReturn false])).stack = []
            ∧ (run d (actions ++ [.call caller (.finalizeWithdrawal c)] ++ inner
                ++ [.payeeReturn false])).state = (run d actions).state))
      ∧ (∀ (a : Action) (c : Nat),
          ((run d actions).state.notes c).status = .exiting →
          ((run d (actions ++ [a])).state.notes c).status ≠ .exiting →
          (∃ caller, a = .call caller (.finalizeWithdrawal c)
            ∧ ((run d actions).state.exits c).exitAt ≤ (run d actions).now
            ∧ ((run d (actions ++ [a])).state.notes c).status = .closed)
          ∨ ∃ caller secretKey, a = .call caller (.slash secretKey)
              ∧ d.poseidon.hash1 secretKey = c
              ∧ ((run d (actions ++ [a])).state.notes c).status = .slashed) := by
  have hkept : ∀ {env call s s'}, Accounting d s → Effect d env s call s' → ExitKept s s' :=
    fun _ h => h.exitKept
  refine ⟨?_, ?_, ?_, ?_, ?_⟩
  -- what is recorded
  . intro caller args s h
    obtain ⟨-, -, -, -, -, -, -, -, rfl⟩ := initiateWithdrawal_eq_ok.mp h
    simp [leave, emit, updateLeaf, pushRoot]
  -- it stays as it is, between transactions and inside one
  . intro c more hexiting
    have hnone : ((run d actions).committed.notes c).status ≠ .none := by simp [hexiting]
    have hactive : ((run d actions).committed.notes c).status ≠ .active := by simp [hexiting]
    have hcommitted := Machine.run_committed (Accounting.invariant d) ExitKept.refl ExitKept.trans
      hkept actions more
    have hstate := Machine.run_committed_state (Accounting.invariant d) ExitKept.refl
      ExitKept.trans hkept (actions ++ more)
    exact ⟨(hcommitted c hnone hactive).1,
      ((ExitKept.trans hcommitted hstate) c hnone hactive).1⟩
  -- its finalization pays, whatever the payee does before it returns
  . intro c caller inner hstack hexiting htime hvalue hself hinner
    obtain ⟨hframe, hbalance, hledger, hclosed⟩ :=
      run_finalize hstack hexiting htime hvalue hself
    obtain ⟨hframe', hnote⟩ := run_inner hframe (.inl hclosed) inner hinner
    obtain ⟨hdone, hnotes, -, -⟩ := run_payeeReturn hframe'
    refine ⟨hbalance, hledger, hdone, ?_⟩
    rw [hnotes, hnote]
    exact hclosed
  -- one that fails is undone as a whole
  . intro c caller inner hstack hinner
    rcases @run_finalize_revert d actions caller c hstack with hsame | ⟨hframe, hclosed⟩
    . exact .inl hsame
    . obtain ⟨hframe', -⟩ := run_inner hframe (.inl hclosed) inner hinner
      obtain ⟨-, -, hdone, hstate⟩ := run_payeeReturn hframe'
      exact .inr ⟨hdone, hstate⟩
  -- and nothing else but a slash ends it
  . intro a c hexiting hne
    exact step_exiting hexiting hne

end Credits
end Longjing
