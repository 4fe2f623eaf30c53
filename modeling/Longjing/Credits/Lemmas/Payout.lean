import Longjing.Credits.Lemmas.Settle
import Longjing.Credits.Lemmas.Verified

/-!
What becomes of a note whose key nobody uses: an exit that was announced is paid.
-/

namespace Longjing
namespace Credits

open Fallible

/--
A call of the run slashed with a key of the note.
-/
def SlashCalled (d : Deployment) (actions : List Action) (c : Nat) : Prop :=
  ∃ caller secretKey, .call caller (.slash secretKey) ∈ actions ∧ secretKey < FIELD_MODULUS
    ∧ d.poseidon.hash1 secretKey = c

theorem SlashCalled.append {d : Deployment} {actions : List Action} {c : Nat} (h : SlashCalled d actions c) (a : Action)
    : SlashCalled d (actions ++ [a]) c := by
  obtain ⟨caller, secretKey, hcall, hrest⟩ := h
  exact ⟨caller, secretKey, List.mem_append_left _ hcall, hrest⟩

theorem Effect.slashed {d : Deployment} {env : Env} {call : Option Call} {s s' : State} {c : Nat}
    (h : Effect d env s call s') (hslashed : (s'.notes c).status = .slashed)
    : (s.notes c).status = .slashed
      ∨ ∃ secretKey, call = some (.slash secretKey) ∧ secretKey < FIELD_MODULUS
        ∧ d.poseidon.hash1 secretKey = c := by
  have hupdate {c' : Nat} {note : Note} (hnotes : s'.notes = Function.update s.notes c' note)
      : (s.notes c).status = .slashed ∨ c = c' ∧ note.status = .slashed := by
    by_cases heq : c = c'
    . subst heq
      rw [hnotes, Function.update_self] at hslashed
      exact .inr ⟨rfl, hslashed⟩
    . rw [hnotes, Function.update_of_ne heq] at hslashed
      exact .inl hslashed
  cases h with
  | slashActive secretKey _ hkey => exact (hupdate rfl).imp_right fun ⟨heq, _⟩ => ⟨secretKey, rfl, hkey, heq.symm⟩
  | slashExiting secretKey _ hkey => exact (hupdate rfl).imp_right fun ⟨heq, _⟩ => ⟨secretKey, rfl, hkey, heq.symm⟩
  | deposit => exact .inl ((hupdate rfl).resolve_right (by simp))
  | initiateWithdrawal => exact .inl ((hupdate rfl).resolve_right (by simp))
  | finalizeWithdrawal => exact .inl ((hupdate rfl).resolve_right (by simp))
  | claimExpired => exact .inl ((hupdate rfl).resolve_right (by simp))
  | executeChange target => cases target <;> exact .inl hslashed
  | _ => exact .inl hslashed

/--
A note is only slashed by a call with its key.
-/
theorem slashed_traced (d : Deployment)
    : Traced d fun actions s => ∀ c, (s.notes c).status = .slashed → SlashCalled d actions c where
  init := by
    intro c hslashed
    simp [constructor, pushRoot, emit] at hslashed
  append h a c hslashed := (h c hslashed).append a
  call := by
    intro actions caller call now s s' h heffect c hslashed
    rcases heffect.slashed hslashed with hold | ⟨secretKey, hcall, hrest⟩
    . exact (h c hold).append _
    . obtain rfl := Option.some.inj hcall
      exact ⟨caller, secretKey, by simp, hrest⟩
  idle := by
    intro actions now s s' h heffect c hslashed
    rcases heffect.slashed hslashed with hold | ⟨secretKey, hcall, -⟩
    . exact h c hold
    . cases hcall

/--
An exit that was announced is the one that is recorded, and its note is on its way out.
-/
def ExitRecorded (s : State) : Prop :=
  ∀ t c exit, ⟨t, .withdrawalInitiated c exit⟩ ∈ s.logs →
    s.exits c = exit
      ∧ ((s.notes c).status = .exiting ∨ (s.notes c).status = .closed ∨ (s.notes c).status = .slashed)

theorem Status.Move.leaving {status status' : Status} (h : Move status status')
    (hleaving : status = .exiting ∨ status = .closed ∨ status = .slashed)
    : status' = .exiting ∨ status' = .closed ∨ status' = .slashed := by
  cases h <;> simp_all

theorem Note.Later.leaving {note note' : Note} (h : note.Later note')
    (hleaving : note.status = .exiting ∨ note.status = .closed ∨ note.status = .slashed)
    : note'.status = .exiting ∨ note'.status = .closed ∨ note'.status = .slashed := by
  have hmoves := h.moves
  generalize note'.status = status at hmoves ⊢
  induction hmoves with
  | refl => exact hleaving
  | tail _ hmove ih => exact hmove.leaving ih

theorem ExitRecorded.effect {d : Deployment} {env : Env} {s s' : State} {call : Option Call}
    (h : ExitRecorded s) (heffect : Effect d env s call s') : ExitRecorded s' := by
  intro t c exit hmem
  rcases heffect.announced hmem with hold | ⟨args, rfl, rfl, rfl, -⟩
  . obtain ⟨hexit, hleaving⟩ := h t c exit hold
    have hactive : (s.notes c).status ≠ .active := by
      rcases hleaving with heq | heq | heq <;> simp [heq]
    have hnone : (s.notes c).status ≠ .none := by
      rcases hleaving with heq | heq | heq <;> simp [heq]
    exact ⟨(heffect.exitKept c hnone hactive).1.trans hexit, (heffect.later c).leaving hleaving⟩
  . cases heffect with
    | initiateWithdrawal => simp [leave, emit, updateLeaf, pushRoot]

theorem ExitRecorded.invariant (d : Deployment) : Machine.Invariant d (fun _ s => ExitRecorded s) where
  init := by
    intro t c exit hmem
    simp [constructor, pushRoot, emit] at hmem
  mono := fun _ h => h
  effect := ExitRecorded.effect

/--
The account of a note whose exit was paid.
-/
def closedAccount (note : Note) (exit : Exit) (c : Nat) : List LedgerEntry :=
  [.paid c exit.recipient exit.payout, .credited c (note.amount - exit.payout), .deposited c note.amount]

/--
A finalization, with everything that happens until its payee returns.
-/
def finalizeActions (caller : Caller) (c : Nat) (inner : List Action) : List Action :=
  .call caller (.finalizeWithdrawal c) :: (inner ++ [.payeeReturn true])

/--
Anybody can have an exit paid when its window is over, whatever the payee does before it returns, and nothing
else is ever paid for the note.
-/
theorem run_finalize_settles {d : Deployment} {actions : List Action} {caller : Caller} {c : Nat}
    (hstack : (run d actions).stack = []) (hexiting : ((run d actions).state.notes c).status = .exiting)
    (htime : ((run d actions).state.exits c).exitAt ≤ (run d actions).now) (hvalue : caller.value = 0)
    (hself : ((run d actions).state.exits c).recipient ≠ d.self) (inner more : List Action)
    (hinner : ∀ a ∈ inner, ∀ success, a ≠ .payeeReturn success)
    : (run d (actions ++ finalizeActions caller c inner)).stack = []
      ∧ ((run d (actions ++ finalizeActions caller c inner ++ more)).state.notes c).status = .closed
      ∧ accountOf c (run d (actions ++ finalizeActions caller c inner ++ more)).state.ledger
        = closedAccount ((run d actions).state.notes c) ((run d actions).state.exits c) c := by
  have haccount := (Machine.run_invariant (Accounting.invariant d) actions).1.account c
  simp only [Account, hexiting] at haccount
  obtain ⟨hframe, -, hledger, hclosed⟩ := run_finalize hstack hexiting htime hvalue hself
  have hsplit : actions ++ finalizeActions caller c inner
      = actions ++ [.call caller (.finalizeWithdrawal c)] ++ inner ++ [.payeeReturn true] := by
    simp [finalizeActions]
  obtain ⟨hdone, hnote, haccount'⟩ := run_ended hframe (.inl hclosed) inner more hinner
  rw [hsplit]
  refine ⟨hdone, by rw [hnote, hclosed], haccount'.trans ?_⟩
  rw [hledger, accountOf_cons_self _ rfl, accountOf_cons_self _ rfl, haccount.1]
  rfl

end Credits
end Longjing
