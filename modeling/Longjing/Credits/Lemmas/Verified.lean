import Longjing.Credits.Lemmas.Exit
import Longjing.Credits.SettlementVerifier
import Longjing.Field.Basic

/-!
Every exit that the contract announces passed the verifier in the same run.
-/

namespace Longjing
namespace Credits

theorem status_initiateWithdrawal {d : Deployment} {env : Env} {args : WithdrawalArgs} {s s' : State}
    (h : initiateWithdrawal d env args s = .ok s') : (s'.notes args.commitment).status = .exiting := by
  obtain ⟨-, -, -, -, -, -, -, -, rfl⟩ := initiateWithdrawal_eq_ok.mp h
  simp [leave, emit, updateLeaf, pushRoot]

/--
What holds of a state together with the actions that led to it.
-/
structure Traced (d : Deployment) (P : List Action → State → Prop) : Prop where
  init : P [] (constructor d)
  append : ∀ {actions s}, P actions s → ∀ a, P (actions ++ [a]) s
  call : ∀ {actions caller call now s s'}, P actions s → Effect d (Caller.env caller now) s (some call) s' →
    P (actions ++ [.call caller call]) s'
  idle : ∀ {actions now s s'}, P actions s → Effect d (.idle now) s none s' → P actions s'

namespace Traced

variable {d : Deployment} {P : List Action → State → Prop}

theorem run (h : Traced d P) (actions : List Action)
    : P actions (run d actions).state ∧ ∀ frame ∈ (run d actions).stack, P actions frame.snapshot := by
  induction actions using List.reverseRecOn with
  | nil => exact ⟨h.init, fun frame hframe => by cases hframe⟩
  | append_singleton actions a ih =>
    rw [run_concat]
    generalize Credits.run d actions = m at ih
    have hstate := h.append ih.1 a
    have hstack (frame : Frame) (hframe : frame ∈ m.stack) := h.append (ih.2 frame hframe) a
    have hstep := Machine.step_sound d m a
    generalize m.step d a = m' at hstep
    cases hstep with
    | stutter => exact ⟨hstate, hstack⟩
    | effect caller call s heffect => exact ⟨h.call ih.1 heffect, hstack⟩
    | enter caller call s payment heffect =>
      refine ⟨h.call ih.1 heffect, ?_⟩
      intro frame hframe
      cases hframe with
      | head => exact hstate
      | tail _ hframe => exact hstack frame hframe
    | leave frame stack hcons =>
      exact ⟨h.idle hstate (.resume frame.payment), fun f hf => hstack f (by simp [hcons, hf])⟩
    | revert frame stack hcons => exact ⟨hstack frame (by simp [hcons]), fun f hf => hstack f (by simp [hcons, hf])⟩
    | forceSend amount => exact ⟨@h.idle _ m.now _ _ hstate (.forceSend amount), hstack⟩
    | wait seconds hnil => exact ⟨hstate, hstack⟩

theorem run_committed (h : Traced d P) (actions : List Action) : P actions (Credits.run d actions).committed := by
  obtain ⟨hstate, hstack⟩ := h.run actions
  unfold Machine.committed
  split
  . exact hstate
  . next frame hframe => exact hstack frame (List.mem_of_getLast? hframe)

end Traced

/--
A call of the run announced the exit, and the verifier accepted its proof for the exit's signals.
-/
def ExitVerified (d : Deployment) (actions : List Action) (c : Nat) (exit : Exit) : Prop :=
  ∃ (caller : Caller) (args : WithdrawalArgs) (verifier amount : Nat),
    .call caller (.initiateWithdrawal args) ∈ actions
      ∧ exit.signalX = withdrawalSignalX d exit.recipient
      ∧ caller.verifySettlementProof verifier args.proof
        (settlementSignals d c exit.recipient args.refundKey exit.nullifier exit.signalY exit.payout amount) = true

def ExitsVerified (d : Deployment) (actions : List Action) (logs : List Log) : Prop :=
  ∀ t c exit, ⟨t, .withdrawalInitiated c exit⟩ ∈ logs → ExitVerified d actions c exit

theorem ExitsVerified.append {d : Deployment} {actions : List Action} {logs : List Log}
    (h : ExitsVerified d actions logs) (a : Action) : ExitsVerified d (actions ++ [a]) logs := by
  intro t c exit hmem
  obtain ⟨caller, args, verifier, amount, hcall, hrest⟩ := h t c exit hmem
  exact ⟨caller, args, verifier, amount, List.mem_append_left _ hcall, hrest⟩

/--
Only `initiateWithdrawal` announces an exit, the one of its arguments.
-/
theorem Effect.announced {d : Deployment} {env : Env} {call : Option Call} {s s' : State}
    (h : Effect d env s call s') {t c : Nat} {exit : Exit}
    (hmem : ⟨t, .withdrawalInitiated c exit⟩ ∈ s'.logs)
    : ⟨t, .withdrawalInitiated c exit⟩ ∈ s.logs
      ∨ ∃ args, call = some (.initiateWithdrawal args) ∧ c = args.commitment ∧ exit = newExit d env args
        ∧ env.verifySettlementProof s.settlementVerifier args.proof
          (settlementSignals d args.commitment args.recipient args.refundKey args.nullifier args.signalY args.payout
            (s.notes args.commitment).amount) = true := by
  cases h with
  | initiateWithdrawal args _ _ _ _ _ hproof =>
    simp only [leave, emit, updateLeaf, pushRoot, List.mem_cons, Log.mk.injEq, Event.withdrawalInitiated.injEq,
      reduceCtorEq, and_false, false_or] at hmem
    rcases hmem with ⟨-, rfl, rfl⟩ | hold
    . exact .inr ⟨args, rfl, rfl, rfl, hproof⟩
    . exact .inl hold
  | executeChange target => cases target <;> exact .inl (by simpa [emit, installChange] using hmem)
  | resume payment => cases payment <;> exact .inl (by simpa [Payment.resume, Payment.event, leave] using hmem)
  | _ => exact .inl (by simpa [leave, emit, updateLeaf, pushRoot, slashedState, Payment.transfer] using hmem)

theorem ExitsVerified.traced (d : Deployment) : Traced d (fun actions s => ExitsVerified d actions s.logs) where
  init := by
    intro t c exit hmem
    simp [constructor, pushRoot, emit] at hmem
  append h a := h.append a
  call := by
    intro actions caller call now s s' h heffect t c exit hmem
    rcases heffect.announced hmem with hold | ⟨args, hargs, rfl, rfl, hproof⟩
    . exact h.append _ t c exit hold
    . obtain rfl := Option.some.inj hargs
      exact ⟨caller, args, s.settlementVerifier, (s.notes args.commitment).amount, by simp, rfl, hproof⟩
  idle := by
    intro actions now s s' h heffect t c exit hmem
    rcases heffect.announced hmem with hold | ⟨args, hargs, -⟩
    . exact h t c exit hold
    . cases hargs

theorem run_committed_exitsVerified (d : Deployment) (actions : List Action)
    : ExitsVerified d actions (run d actions).committed.logs :=
  (ExitsVerified.traced d).run_committed actions

/--
The contract that the exits of the run are checked by is always the generated one.
-/
def CallsSettlementVerifier (pre : SettlementVerifier.Precompiles) (actions : List Action) : Prop :=
  ∀ caller args, .call caller (.initiateWithdrawal args) ∈ actions →
    ∀ verifier, caller.verifySettlementProof verifier = SettlementVerifier.verifySettlementProof pre

/--
The signals of an announced exit are field elements in their only representation.
-/
theorem exit_lt_of_verified {d : Deployment} {pre : SettlementVerifier.Precompiles} {actions : List Action}
    (hverifier : CallsSettlementVerifier pre actions) {c : Nat} {exit : Exit} (h : ExitVerified d actions c exit)
    : exit.nullifier < FIELD_MODULUS ∧ exit.signalX < FIELD_MODULUS ∧ exit.signalY < FIELD_MODULUS
      ∧ exit.payout < FIELD_MODULUS ∧ c < FIELD_MODULUS ∧ exit.recipient < FIELD_MODULUS := by
  obtain ⟨caller, args, verifier, amount, hcall, hsignalX, hproof⟩ := h
  rw [hverifier caller args hcall] at hproof
  have hlt (s : Nat) (hs : s ∈ settlementSignals d c exit.recipient args.refundKey exit.nullifier exit.signalY
      exit.payout amount) : s < FIELD_MODULUS :=
    (SettlementVerifier.canonical_of_verifySettlementProof hproof).2 s hs
  unfold settlementSignals at hlt
  simp only [List.mem_cons, List.not_mem_nil, or_false] at hlt
  rw [hsignalX]
  exact ⟨hlt _ (by simp), hlt _ (by simp), hlt _ (by simp), hlt _ (by simp), hlt _ (by simp), hlt _ (by simp)⟩

end Credits
end Longjing
