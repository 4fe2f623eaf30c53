import Longjing.Credits.Lemmas.Effect
import Mathlib.Algebra.BigOperators.Group.Finset.Basic
import Mathlib.Algebra.Order.BigOperators.Group.Finset
import Mathlib.Logic.Relation

/-!
The contract's account: what it holds, what it owes, and what became of each note's deposit.
-/

namespace Longjing
namespace Credits

/--
A note that is still owed its deposit.
-/
def Note.Live (note : Note) : Prop :=
  note.status = .active ∨ note.status = .exiting

/--
`total` is the sum of the amounts of all live notes.
-/
def LiveSum (notes : Nat → Note) (total : Nat) : Prop :=
  ∃ live : Finset Nat,
    (∀ c, c ∈ live ↔ (notes c).Live) ∧ total = ∑ c ∈ live, (notes c).amount

section LiveSum

variable {notes : Nat → Note} {total c : Nat}

theorem LiveSum.open (h : LiveSum notes total) (note : Note) (hc : ¬(notes c).Live)
    (hnote : note.Live)
    : LiveSum (Function.update notes c note) (total + note.amount) := by
  obtain ⟨live, hlive, rfl⟩ := h
  have hmem : c ∉ live := by
    rw [hlive]
    exact hc
  refine ⟨insert c live, ?_, ?_⟩
  . intro c'
    rw [Finset.mem_insert, hlive]
    by_cases heq : c' = c
    . subst heq
      simp [hnote]
    . simp [heq]
  . rw [Finset.sum_insert hmem, Function.update_self, Nat.add_comm]
    congr 1
    apply Finset.sum_congr rfl
    intro c' hc'
    rw [Function.update_of_ne]
    rintro rfl
    exact hmem hc'

theorem LiveSum.keep {note : Note} (h : LiveSum notes total) (hc : (notes c).Live)
    (hnote : note.Live) (hamount : note.amount = (notes c).amount) : LiveSum (Function.update notes c note) total := by
  obtain ⟨live, hlive, rfl⟩ := h
  refine ⟨live, ?_, ?_⟩
  . intro c'
    rw [hlive]
    by_cases heq : c' = c
    . subst heq
      simp [hnote, hc]
    . simp [heq]
  . apply Finset.sum_congr rfl
    intro c' _
    by_cases heq : c' = c
    . subst heq
      rw [Function.update_self, hamount]
    . rw [Function.update_of_ne heq]

theorem LiveSum.close (h : LiveSum notes total) (note : Note) (hc : (notes c).Live)
    (hnote : ¬note.Live)
    : ∃ rest, total = rest + (notes c).amount ∧ LiveSum (Function.update notes c note) rest := by
  obtain ⟨live, hlive, rfl⟩ := h
  have hmem : c ∈ live := by
    rw [hlive]
    exact hc
  refine ⟨∑ c' ∈ live.erase c, (notes c').amount, ?_, live.erase c, ?_, ?_⟩
  . rw [Finset.sum_erase_add live _ hmem]
  . intro c'
    rw [Finset.mem_erase, hlive]
    by_cases heq : c' = c
    . subst heq
      simp [hnote]
    . simp [heq]
  . apply Finset.sum_congr rfl
    intro c' hc'
    rw [Function.update_of_ne (Finset.ne_of_mem_erase hc')]

end LiveSum

namespace LedgerEntry

def commitment? : LedgerEntry → Option Nat
  | deposited c _ => some c
  | credited c _ => some c
  | paid c _ _ => some c
  | operatorPaid _ _ => none

end LedgerEntry

/--
The entries about one note, newest first.
-/
def accountOf (c : Nat) (ledger : List LedgerEntry) : List LedgerEntry :=
  ledger.filter (fun e => e.commitment? == some c)

theorem accountOf_cons_of_ne {c : Nat} {e : LedgerEntry} (ledger : List LedgerEntry)
    (h : e.commitment? ≠ some c) : accountOf c (e :: ledger) = accountOf c ledger := by
  simp [accountOf, h]

/--
The entries a note has accumulated when it is in its status: the deposit once, and at its end one
credit to the operator and what was paid out, which add up to the deposit.
-/
def Account (d : Deployment) (note : Note) (exit : Exit) (c : Nat) (account : List LedgerEntry)
    : Prop :=
  match note.status with
  | .none => account = []
  | .active => account = [.deposited c note.amount]
  | .exiting => account = [.deposited c note.amount] ∧ exit.payout ≤ note.amount
  | .closed =>
    account =
      [.paid c exit.recipient exit.payout, .credited c (note.amount - exit.payout),
        .deposited c note.amount]
      ∧ exit.payout ≤ note.amount
  | .slashed =>
    ∃ slasher, account =
      [.paid c slasher (bountyOf d note), .credited c (note.amount - bountyOf d note),
        .deposited c note.amount]
  | .expired => account = [.credited c note.amount, .deposited c note.amount]

/--
Every note's account is in order, and the balance is exactly what the contract owes plus what was
forced into it.
-/
structure Accounting (d : Deployment) (s : State) : Prop where
  account : ∀ c, Account d (s.notes c) (s.exits c) c (accountOf c s.ledger)
  solvent : ∃ total, LiveSum s.notes total ∧ s.balance = s.operatorBalance + total + s.forced

namespace Accounting

variable {d : Deployment} {s s' : State}

/--
The accounting reads six fields of the state.
-/
theorem congr (h : Accounting d s) (hnotes : s'.notes = s.notes) (hexits : s'.exits = s.exits)
    (hledger : s'.ledger = s.ledger) (hbalance : s'.balance = s.balance)
    (hoperator : s'.operatorBalance = s.operatorBalance) (hforced : s'.forced = s.forced)
    : Accounting d s' := by
  constructor
  . rw [hnotes, hexits, hledger]
    exact h.account
  . rw [hnotes, hbalance, hoperator, hforced]
    exact h.solvent

theorem account_update {notes : Nat → Note} {exits : Nat → Exit} {ledger : List LedgerEntry}
    {c : Nat} {note : Note} {exit : Exit} (entries : List LedgerEntry)
    (h : ∀ c, Account d (notes c) (exits c) c (accountOf c ledger))
    (hentries : ∀ e ∈ entries, e.commitment? = some c)
    (hc : Account d note exit c (entries ++ accountOf c ledger))
    : ∀ c', Account d (Function.update notes c note c') (Function.update exits c exit c') c'
        (accountOf c' (entries ++ ledger)) := by
  intro c'
  by_cases heq : c' = c
  . subst heq
    rw [Function.update_self, Function.update_self]
    have : accountOf c' (entries ++ ledger) = entries ++ accountOf c' ledger := by
      unfold accountOf
      rw [List.filter_append, List.filter_eq_self.mpr]
      intro e he
      simp [hentries e he]
    rw [this]
    exact hc
  . rw [Function.update_of_ne heq, Function.update_of_ne heq]
    have : accountOf c' (entries ++ ledger) = accountOf c' ledger := by
      unfold accountOf
      rw [List.filter_append, List.filter_eq_nil_iff.mpr, List.nil_append]
      intro e he
      simp [hentries e he, Ne.symm heq]
    rw [this]
    exact h c'

theorem account_update_note {c : Nat} {note : Note} (entries : List LedgerEntry)
    (h : Accounting d s) (hentries : ∀ e ∈ entries, e.commitment? = some c)
    (hc : Account d note (s.exits c) c (entries ++ accountOf c s.ledger))
    : ∀ c', Account d (Function.update s.notes c note c') (s.exits c') c'
        (accountOf c' (entries ++ s.ledger)) := by
  have := account_update entries h.account hentries hc
  rwa [Function.update_eq_self] at this

theorem slash {c slasher : Nat} (h : Accounting d s) (hlive : (s.notes c).Live)
    (hpaid : bountyOf d (s.notes c) ≤ s.balance)
    (hnotes : s'.notes = Function.update s.notes c { s.notes c with status := .slashed })
    (hexits : s'.exits = s.exits)
    (hledger : s'.ledger =
      [.paid c slasher (bountyOf d (s.notes c)),
        .credited c ((s.notes c).amount - bountyOf d (s.notes c))] ++ s.ledger)
    (hbalance : s'.balance = s.balance - bountyOf d (s.notes c))
    (hoperator : s'.operatorBalance =
      s.operatorBalance + ((s.notes c).amount - bountyOf d (s.notes c)))
    (hforced : s'.forced = s.forced)
    : Accounting d s' := by
  have hdeposited : accountOf c s.ledger = [.deposited c (s.notes c).amount] := by
    have haccount := h.account c
    rcases hlive with hactive | hexiting
    . simpa only [Account, hactive] using haccount
    . simp only [Account, hexiting] at haccount
      exact haccount.1
  have hbounty := bountyOf_le d (s.notes c)
  obtain ⟨total, hsum, hsolvent⟩ := h.solvent
  constructor
  . rw [hnotes, hexits, hledger]
    apply account_update_note _ h
    . simp [LedgerEntry.commitment?]
    . refine ⟨slasher, ?_⟩
      rw [hdeposited]
      rfl
  . obtain ⟨rest, rfl, hrest⟩ := hsum.close { s.notes c with status := .slashed } hlive
      (by simp [Note.Live])
    rw [hnotes, hbalance, hoperator, hforced]
    refine ⟨rest, hrest, ?_⟩
    omega

theorem effect {env : Env} {call : Option Call} (h : Accounting d s)
    (heffect : Effect d env s call s') : Accounting d s' := by
  cases heffect with
  -- a call that moves value has one note whose account changes, and with it the sum over the live notes
  | deposit c _ _ _ _ _ hnone =>
    have haccount := h.account c
    simp only [Account, hnone] at haccount
    obtain ⟨total, hsum, hbalance⟩ := h.solvent
    constructor
    . apply account_update_note [.deposited c env.value] h
      . simp [LedgerEntry.commitment?]
      . simp [Account, haccount]
    . refine ⟨total + env.value, hsum.open ⟨_, _, _, .active⟩ ?_ (.inl rfl), ?_⟩
      . simp [Note.Live, hnone]
      . show s.balance + env.value = s.operatorBalance + (total + env.value) + s.forced
        omega
  | initiateWithdrawal args _ _ hactive _ hpayout =>
    have haccount := h.account args.commitment
    simp only [Account, hactive] at haccount
    obtain ⟨total, hsum, hbalance⟩ := h.solvent
    constructor
    . apply account_update [] h.account
      . simp
      . simp [Account, haccount, newExit, hpayout]
    . exact ⟨total, hsum.keep (.inl hactive) (.inr rfl) rfl, hbalance⟩
  | finalizeWithdrawal c _ hexiting _ hpayout hpaid =>
    have haccount := h.account c
    simp only [Account, hexiting] at haccount
    obtain ⟨total, hsum, hbalance⟩ := h.solvent
    constructor
    . apply account_update_note [.paid _ _ _, .credited _ _] h
      . simp [LedgerEntry.commitment?]
      . simp [Account, haccount]
    . obtain ⟨rest, rfl, hrest⟩ := hsum.close { s.notes c with status := .closed }
        (.inr hexiting) (by simp [Note.Live])
      refine ⟨rest, hrest, ?_⟩
      dsimp
      omega
  | slashActive secretKey _ _ hactive _ hpaid =>
    exact h.slash (.inl hactive) hpaid rfl rfl rfl rfl rfl rfl
  | slashExiting secretKey _ _ hexiting hpaid =>
    exact h.slash (.inr hexiting) hpaid rfl rfl rfl rfl rfl rfl
  | claimExpired c _ _ _ hactive =>
    have haccount := h.account c
    simp only [Account, hactive] at haccount
    obtain ⟨total, hsum, hbalance⟩ := h.solvent
    constructor
    . apply account_update_note [.credited _ _] h
      . simp [LedgerEntry.commitment?]
      . simp [Account, haccount]
    . obtain ⟨rest, rfl, hrest⟩ := hsum.close { s.notes c with status := .expired }
        (.inl hactive) (by simp [Note.Live])
      refine ⟨rest, hrest, ?_⟩
      show s.balance = s.operatorBalance + (s.notes c).amount + rest + s.forced
      omega
  -- its entry is on no note's account
  | withdrawOperatorBalance =>
    obtain ⟨total, hsum, hbalance⟩ := h.solvent
    constructor
    . intro c
      dsimp
      rw [accountOf_cons_of_ne _ (by simp [LedgerEntry.commitment?])]
      exact h.account c
    . refine ⟨total, hsum, ?_⟩
      dsimp
      omega
  | executeChange target => cases target <;> exact h.congr rfl rfl rfl rfl rfl rfl
  | forceSend amount =>
    obtain ⟨total, hsum, hbalance⟩ := h.solvent
    refine ⟨h.account, total, hsum, ?_⟩
    dsimp
    omega
  | proposeChange => exact h.congr rfl rfl rfl rfl rfl rfl
  | proposeRefundKey => exact h.congr rfl rfl rfl rfl rfl rfl
  | cancelChange => exact h.congr rfl rfl rfl rfl rfl rfl
  | pause => exact h.congr rfl rfl rfl rfl rfl rfl
  | unpause => exact h.congr rfl rfl rfl rfl rfl rfl
  | transferOwnership => exact h.congr rfl rfl rfl rfl rfl rfl
  | renounceOwnership => exact h.congr rfl rfl rfl rfl rfl rfl
  | resume => exact h.congr rfl rfl rfl rfl rfl rfl

theorem init (d : Deployment) : Accounting d (constructor d) := by
  constructor
  . intro c
    rfl
  . refine ⟨0, ⟨∅, ?_, rfl⟩, rfl⟩
    intro c
    simp [Note.Live, constructor, pushRoot, emit]

theorem invariant (d : Deployment) : Machine.Invariant d (fun _ s => Accounting d s) where
  init := init d
  mono := fun _ h => h
  effect := effect

end Accounting

inductive Status.Move : Status → Status → Prop where
  | deposit : Move .none .active
  | initiateWithdrawal : Move .active .exiting
  | slashActive : Move .active .slashed
  | claimExpired : Move .active .expired
  | finalizeWithdrawal : Move .exiting .closed
  | slashExiting : Move .exiting .slashed

def Status.Terminal (status : Status) : Prop :=
  status = .closed ∨ status = .slashed ∨ status = .expired

/--
A later version of a note: its status moved on, a note that exists changes nothing but its status,
and a note that ended is the same record.
-/
structure Note.Later (note note' : Note) : Prop where
  moves : Relation.ReflTransGen Status.Move note.status note'.status
  kept : note.status ≠ .none → note' = { note with status := note'.status }
  ended : note.status.Terminal → note' = note

namespace Note.Later

theorem refl (note : Note) : Later note note :=
  ⟨.refl, fun _ => rfl, fun _ => rfl⟩

theorem none {a b : Note} (h : Later a b) (hb : b.status = .none) : a.status = .none := by
  have hmoves := h.moves
  rw [hb] at hmoves
  cases hmoves.cases_tail with
  | inl heq => exact heq.symm
  | inr hmove =>
    obtain ⟨_, _, hmove⟩ := hmove
    cases hmove

theorem trans {a b c : Note} (hab : Later a b) (hbc : Later b c) : Later a c where
  moves := hab.moves.trans hbc.moves
  kept := by
    intro h
    have hb := hab.kept h
    rw [hbc.kept (fun hnone => h (hab.none hnone)), hb]
  ended := by
    intro h
    have := hab.ended h
    subst this
    exact hbc.ended h

theorem of_move {note note' : Note} (h : Status.Move note.status note'.status)
    (hkept : note.status ≠ .none → note' = { note with status := note'.status })
    : Later note note' where
  moves := .single h
  kept := hkept
  ended := by
    intro hended
    rcases hended with hstatus | hstatus | hstatus
    all_goals
      rw [hstatus] at h
      cases h

end Note.Later

theorem later_update {notes : Nat → Note} {c : Nat} {note : Note} (h : (notes c).Later note)
    (c' : Nat) : (notes c').Later (Function.update notes c note c') := by
  by_cases heq : c' = c
  . subst heq
    rw [Function.update_self]
    exact h
  . rw [Function.update_of_ne heq]
    exact .refl _

theorem Effect.later {d : Deployment} {env : Env} {call : Option Call} {s s' : State}
    (h : Effect d env s call s') (c : Nat)
    : (s.notes c).Later (s'.notes c) := by
  -- each call moves the note that it is about, if it is about one
  cases h with
  | deposit c' _ _ _ _ _ hnone =>
    apply later_update
    apply Note.Later.of_move
    . rw [hnone]
      exact .deposit
    . simp [hnone]
  | initiateWithdrawal args _ _ hactive =>
    apply later_update
    refine Note.Later.of_move ?_ (fun _ => rfl)
    rw [hactive]
    exact .initiateWithdrawal
  | finalizeWithdrawal c' _ hexiting =>
    apply later_update
    refine Note.Later.of_move ?_ (fun _ => rfl)
    rw [hexiting]
    exact .finalizeWithdrawal
  | slashActive secretKey _ _ hactive =>
    apply later_update
    refine Note.Later.of_move ?_ (fun _ => rfl)
    rw [hactive]
    exact .slashActive
  | slashExiting secretKey _ _ hexiting =>
    apply later_update
    refine Note.Later.of_move ?_ (fun _ => rfl)
    rw [hexiting]
    exact .slashExiting
  | claimExpired c' _ _ _ hactive =>
    apply later_update
    refine Note.Later.of_move ?_ (fun _ => rfl)
    rw [hactive]
    exact .claimExpired
  | executeChange target => cases target <;> exact .refl _
  | withdrawOperatorBalance => exact .refl _
  | proposeChange => exact .refl _
  | proposeRefundKey => exact .refl _
  | cancelChange => exact .refl _
  | pause => exact .refl _
  | unpause => exact .refl _
  | transferOwnership => exact .refl _
  | renounceOwnership => exact .refl _
  | resume => exact .refl _
  | forceSend => exact .refl _

def Deposited (d : Deployment) (s : State) : Prop :=
  ∀ c, (s.notes c).status ≠ .none →
    c < FIELD_MODULUS ∧ d.cMax ≤ (s.notes c).amount ∧ (s.notes c).amount < 2 ^ 128

theorem Deposited.effect {d : Deployment} {env : Env} {call : Option Call} {s s' : State}
    (h : Deposited d s) (heffect : Effect d env s call s') : Deposited d s' := by
  intro c hc
  by_cases hold : (s.notes c).status = .none
  -- a note that did not exist is a new one, and `deposit` has checked it
  . cases heffect with
    | deposit c' _ _ hmin hmax hcommitment hnone =>
      simp only [leave, emit, updateLeaf, pushRoot] at hc ⊢
      by_cases heq : c = c'
      . subst heq
        rw [Function.update_self]
        exact ⟨hcommitment, hmin, hmax⟩
      . rw [Function.update_of_ne heq] at hc
        exact absurd hold hc
    | initiateWithdrawal args _ _ hactive =>
      have hne : c ≠ args.commitment := by
        rintro rfl
        simp [hold] at hactive
      simp only [leave, emit, updateLeaf, pushRoot, Function.update_of_ne hne] at hc
      exact absurd hold hc
    | finalizeWithdrawal c' _ hexiting =>
      have hne : c ≠ c' := by
        rintro rfl
        simp [hold] at hexiting
      simp only [Function.update_of_ne hne] at hc
      exact absurd hold hc
    | slashActive secretKey _ _ hactive =>
      have hne : c ≠ d.poseidon.hash1 secretKey := by
        rintro rfl
        simp [hold] at hactive
      simp only [Payment.transfer, slashedState, updateLeaf, pushRoot, emit,
        Function.update_of_ne hne] at hc
      exact absurd hold hc
    | slashExiting secretKey _ _ hexiting =>
      have hne : c ≠ d.poseidon.hash1 secretKey := by
        rintro rfl
        simp [hold] at hexiting
      simp only [Payment.transfer, slashedState, Function.update_of_ne hne] at hc
      exact absurd hold hc
    | claimExpired c' _ _ _ hactive =>
      have hne : c ≠ c' := by
        rintro rfl
        simp [hold] at hactive
      simp only [leave, emit, updateLeaf, pushRoot, Function.update_of_ne hne] at hc
      exact absurd hold hc
    | executeChange target => cases target <;> exact absurd hold hc
    | _ => exact absurd hold hc
  . have hkept := (heffect.later c).kept hold
    rw [hkept]
    exact h c hold

theorem Deposited.invariant (d : Deployment) : Machine.Invariant d (fun _ s => Deposited d s) where
  init := fun _ hc => absurd rfl hc
  mono := fun _ h => h
  effect := fun h heffect => h.effect heffect

theorem run_later_state (d : Deployment) (actions : List Action) (c : Nat)
    : ((run d actions).committed.notes c).Later ((run d actions).state.notes c) :=
  Machine.run_committed_state (R := fun s s' => (s.notes c).Later (s'.notes c))
    (Accounting.invariant d) (fun _ => .refl _) (fun h h' => h.trans h') (fun _ h => h.later c)
    actions

theorem run_later (d : Deployment) (actions more : List Action) (c : Nat)
    : ((run d actions).committed.notes c).Later ((run d (actions ++ more)).committed.notes c) :=
  Machine.run_committed (R := fun s s' => (s.notes c).Later (s'.notes c))
    (Accounting.invariant d) (fun _ => .refl _) (fun h h' => h.trans h') (fun _ h => h.later c)
    actions more

theorem Effect.none_of_entered {d : Deployment} {env : Env} {call : Option Call} {s s' : State}
    {c : Nat} (h : Effect d env s call s') (hentered : s.entered = true ∨ s'.entered = true)
    (hnone : (s.notes c).status = .none) : (s'.notes c).status = .none := by
  have hother : ∀ {c' note}, s'.notes = Function.update s.notes c' note →
      (s.notes c').status ≠ .none → (s'.notes c).status = .none := by
    intro c' note hnotes hc'
    have hne : c ≠ c' := by
      rintro rfl
      exact hc' hnone
    rw [hnotes, Function.update_of_ne hne]
    exact hnone
  cases h with
  | deposit _ hfalse => simp [hfalse, leave] at hentered
  | initiateWithdrawal _ _ _ hactive => exact hother rfl (by simp [hactive])
  | finalizeWithdrawal _ _ hexiting => exact hother rfl (by simp [hexiting])
  | slashActive _ _ _ hactive => exact hother rfl (by simp [hactive])
  | slashExiting _ _ _ hexiting => exact hother rfl (by simp [hexiting])
  | claimExpired _ _ _ _ hactive => exact hother rfl (by simp [hactive])
  | executeChange target => cases target <;> exact hnone
  | _ => exact hnone

theorem run_committed_none (d : Deployment) (actions : List Action) {c : Nat}
    (hnone : ((run d actions).committed.notes c).status = .none)
    : ((run d actions).state.notes c).status = .none := by
  induction actions using List.reverseRecOn with
  | nil => exact hnone
  | append_singleton actions a ih =>
    have hentered := Machine.run_entered d actions
    rw [run_concat] at hnone ⊢
    generalize run d actions = m at ih hentered hnone ⊢
    have hstep := Machine.step_sound d m a
    generalize m.step d a = m' at hstep hnone ⊢
    cases hstep with
    | stutter => exact ih hnone
    -- a call inside another one cannot deposit, as the guard is entered
    | effect caller call s heffect =>
      rcases hentered with ⟨hnil, -⟩ | ⟨f, hf, htrue, -⟩
      . simp only [Machine.committed, hnil] at hnone
        exact hnone
      . refine heffect.none_of_entered (.inl htrue) (ih ?_)
        simp only [Machine.committed, hf] at hnone ⊢
        exact hnone
    | enter caller call s payment heffect hbefore hafter =>
      rcases hentered with ⟨hnil, -⟩ | ⟨f, -, htrue, -⟩
      . refine heffect.none_of_entered (.inr hafter) ?_
        simp only [Machine.committed, hnil] at hnone
        exact hnone
      . rw [htrue] at hbefore
        cases hbefore
    | leave frame stack hcons =>
      rcases hentered with ⟨hnil, -⟩ | ⟨f, hf, -, -⟩
      . rw [hnil] at hcons
        cases hcons
      . rw [hf] at hcons
        cases hcons
        exact hnone
    -- the snapshot is the state that was committed
    | revert frame stack hcons =>
      rcases hentered with ⟨hnil, -⟩ | ⟨f, hf, -, -⟩
      . rw [hnil] at hcons
        cases hcons
      . rw [hf] at hcons
        cases hcons
        exact hnone
    | forceSend amount =>
      rcases hentered with ⟨hnil, -⟩ | ⟨f, hf, -, -⟩
      . simp only [Machine.committed, hnil] at hnone
        exact hnone
      . apply ih
        simp only [Machine.committed, hf] at hnone ⊢
        exact hnone
    | wait seconds hnil hnow => exact ih hnone

/--
A note that exists in a run changes nothing but its status for the rest of the run.
-/
theorem run_note_kept (d : Deployment) (actions more : List Action) {c : Nat}
    (hdeposited : ((run d actions).state.notes c).status ≠ .none)
    : ((run d (actions ++ more)).state.notes c).status ≠ .none
        ∧ (run d (actions ++ more)).state.notes c
            = { (run d actions).state.notes c with
                status := ((run d (actions ++ more)).state.notes c).status } := by
  have hexists : ((run d actions).committed.notes c).status ≠ .none :=
    fun hnone => hdeposited (run_committed_none d actions hnone)
  have hstate := run_later_state d actions c
  have hmore := (run_later d actions more c).trans (run_later_state d (actions ++ more) c)
  constructor
  . intro hnone
    exact hexists (hmore.none hnone)
  . rw [hstate.kept hexists]
    exact hmore.kept hexists

/--
Without forced transfers the balance came in through `deposit` alone.
-/
theorem run_forced {d : Deployment} (actions : List Action)
    (h : ∀ amount, .forceSend amount ∈ actions → amount = 0)
    : (run d actions).state.forced = 0 ∧ ∀ frame ∈ (run d actions).stack, frame.snapshot.forced = 0 := by
  induction actions using List.reverseRecOn with
  | nil =>
    refine ⟨rfl, ?_⟩
    intro frame hframe
    cases hframe
  | append_singleton actions a ih =>
    obtain ⟨hstate, hstack⟩ := ih (fun amount hamount => h amount (by simp [hamount]))
    rw [run_concat]
    generalize run d actions = m at hstate hstack
    cases a with
    | call caller call =>
      simp only [Machine.step]
      split
      . exact ⟨hstate, hstack⟩
      . next s hexec =>
        exact ⟨(frame_of_exec hexec).2.trans hstate, hstack⟩
      . next s payment hexec =>
        unfold Machine.pay
        split
        . refine ⟨(frame_of_exec_pay hexec).2.2.trans hstate, ?_⟩
          intro frame hframe
          cases hframe with
          | head => exact hstate
          | tail _ hframe => exact hstack frame hframe
        . exact ⟨hstate, hstack⟩
    | payeeReturn success =>
      simp only [Machine.step]
      split
      . exact ⟨hstate, hstack⟩
      . next frame stack hcons =>
        have hrest : ∀ f ∈ stack, f.snapshot.forced = 0 := by
          intro f hf
          exact hstack f (by simp [hcons, hf])
        split
        . exact ⟨hstate, hrest⟩
        . exact ⟨hstack frame (by simp [hcons]), hrest⟩
    | forceSend amount =>
      have hamount := h amount (by simp)
      subst hamount
      exact ⟨hstate, hstack⟩
    | wait seconds =>
      simp only [Machine.step]
      split <;> exact ⟨hstate, hstack⟩

namespace LedgerEntry

def paidAmount : LedgerEntry → Nat
  | paid _ _ amount => amount
  | _ => 0

def creditedAmount : LedgerEntry → Nat
  | credited _ amount => amount
  | _ => 0

def isDeposit : LedgerEntry → Bool
  | deposited _ _ => true
  | _ => false

def isCredit : LedgerEntry → Bool
  | credited _ _ => true
  | _ => false

end LedgerEntry

/--
What became of the deposit of a note that ended: `amount` came in once, one share went to the
operator, the rest was paid out.
-/
structure Settled (c amount : Nat) (ledger : List LedgerEntry) : Prop where
  deposit : (accountOf c ledger).filter LedgerEntry.isDeposit = [.deposited c amount]
  credit : ((accountOf c ledger).filter LedgerEntry.isCredit).length = 1
  split : ((accountOf c ledger).map LedgerEntry.paidAmount).sum
    + ((accountOf c ledger).map LedgerEntry.creditedAmount).sum = amount

theorem Settled.of_paid {c payee amount share : Nat} {ledger : List LedgerEntry}
    (h : accountOf c ledger =
      [.paid c payee share, .credited c (amount - share), .deposited c amount])
    (hshare : share ≤ amount) : Settled c amount ledger := by
  constructor
  . rw [h]
    rfl
  . rw [h]
    rfl
  . rw [h]
    simp only [List.map_cons, List.map_nil, List.sum_cons, List.sum_nil, LedgerEntry.paidAmount,
      LedgerEntry.creditedAmount]
    omega

theorem Accounting.settled {d : Deployment} {s : State} (h : Accounting d s) (c : Nat)
    (hended : (s.notes c).status.Terminal) : Settled c (s.notes c).amount s.ledger := by
  have haccount := h.account c
  rcases hended with hstatus | hstatus | hstatus
  . simp only [Account, hstatus] at haccount
    exact .of_paid haccount.1 haccount.2
  . simp only [Account, hstatus] at haccount
    obtain ⟨slasher, haccount⟩ := haccount
    exact .of_paid haccount (bountyOf_le d _)
  . simp only [Account, hstatus] at haccount
    constructor
    . rw [haccount]
      rfl
    . rw [haccount]
      rfl
    . rw [haccount]
      simp only [List.map_cons, List.map_nil, List.sum_cons, List.sum_nil, LedgerEntry.paidAmount,
        LedgerEntry.creditedAmount]
      omega

/--
In every reachable state the contract can pay what it owes, with nothing left over unless ETH was
forced in; a note's status only moves forward and ends for good; and the deposit of a note that
ended was split exactly between its payee and the operator.
-/
theorem run_solvent_and_conserving (d : Deployment) (actions : List Action)
    : (∃ live : Finset Nat,
        (∀ c, c ∈ live ↔ (((run d actions).state.notes c).status = .active
            ∨ ((run d actions).state.notes c).status = .exiting))
        ∧ (run d actions).state.operatorBalance + ∑ c ∈ live, ((run d actions).state.notes c).amount
            ≤ (run d actions).state.balance
        ∧ ((∀ amount, .forceSend amount ∈ actions → amount = 0)
            → (run d actions).state.balance
                = (run d actions).state.operatorBalance
                  + ∑ c ∈ live, ((run d actions).state.notes c).amount))
      ∧ (∀ c, ((run d actions).state.notes c).status.Terminal
          → Settled c ((run d actions).state.notes c).amount (run d actions).state.ledger)
      ∧ (∀ c, ((run d actions).committed.notes c).Later ((run d actions).state.notes c))
      ∧ (∀ more c, ((run d actions).committed.notes c).Later
          ((run d (actions ++ more)).committed.notes c)) := by
  have haccounting := (Machine.run_invariant (Accounting.invariant d) actions).1
  refine ⟨?_, ?_, ?_, ?_⟩
  . obtain ⟨total, ⟨live, hlive, rfl⟩, hbalance⟩ := haccounting.solvent
    refine ⟨live, hlive, by omega, ?_⟩
    intro hforce
    have hforced := (@run_forced d actions hforce).1
    omega
  . exact haccounting.settled
  . exact run_later_state d actions
  . exact run_later d actions

end Credits
end Longjing
