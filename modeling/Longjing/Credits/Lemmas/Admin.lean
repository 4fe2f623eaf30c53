import Longjing.Credits.Lemmas.Effect

/-!
The timelock. What is pending and what is installed are both functions of the emitted events, so
that every guarantee can be read off the log of a state.
-/

namespace Longjing
namespace Credits

/--
The value of a timelocked setting; `value` is unused for the refund key, `key` for the others.
-/
structure Setting where
  value : Nat
  key : EdDSAPublicKey
  deriving DecidableEq, Repr

def State.setting (s : State) : Target → Setting
  | .settlementVerifier => ⟨s.settlementVerifier, ⟨0, 0⟩⟩
  | .serverAddress => ⟨s.serverAddress, ⟨0, 0⟩⟩
  | .refundKey => ⟨0, s.serverPublicKey⟩

namespace Event

/--
The target whose pending change an event opens or ends.
-/
def target? : Event → Option Target
  | changeProposed target _ _ => some target
  | refundKeyProposed _ _ _ => some .refundKey
  | changeExecuted target _ => some target
  | changeCancelled target _ => some target
  | _ => none

def proposed? : Event → Option Setting
  | changeProposed _ value _ => some ⟨value, ⟨0, 0⟩⟩
  | refundKeyProposed x y _ => some ⟨0, ⟨x, y⟩⟩
  | _ => none

end Event

/--
The open proposal for a target and its time: the newest event about the target, if that is a
proposal.
-/
def openProposal (target : Target) : List Log → Option (Nat × Setting)
  | [] => none
  | log :: logs =>
    if log.event.target? = some target then
      log.event.proposed?.map (fun setting => (log.timestamp, setting))
    else
      openProposal target logs

/--
The installed value of a target: each execution installs the proposal that was open.
-/
def installed (d : Deployment) (target : Target) : List Log → Setting
  | [] => (constructor d).setting target
  | ⟨_, .changeExecuted target' _⟩ :: logs =>
    if target' = target then
      ((openProposal target logs).map Prod.snd).getD (installed d target logs)
    else
      installed d target logs
  | _ :: logs => installed d target logs

/--
Every execution in the log came at least `ADMIN_DELAY` after the proposal that was open.
-/
def Timelocked (target : Target) : List Log → Prop
  | [] => True
  | ⟨t, .changeExecuted target' _⟩ :: logs =>
    (target' = target → ∃ t₀ setting, openProposal target logs = some (t₀, setting)
      ∧ t₀ + ADMIN_DELAY ≤ t)
    ∧ Timelocked target logs
  | _ :: logs => Timelocked target logs

section Log

variable {d : Deployment} {target : Target} {log : Log} {logs : List Log}

theorem installed_cons_of_ne (h : ∀ value, log.event ≠ .changeExecuted target value)
    : installed d target (log :: logs) = installed d target logs := by
  obtain ⟨t, event⟩ := log
  cases event with
  | changeExecuted target' value =>
    have hne : target' ≠ target := by
      rintro rfl
      exact h value rfl
    simp [installed, hne]
  | _ => rfl

theorem timelocked_cons_of_ne (h : ∀ value, log.event ≠ .changeExecuted target value)
    : Timelocked target (log :: logs) ↔ Timelocked target logs := by
  obtain ⟨t, event⟩ := log
  cases event with
  | changeExecuted target' value =>
    have hne : target' ≠ target := by
      rintro rfl
      exact h value rfl
    simp [Timelocked, hne]
  | _ => rfl

theorem openProposal_cons_of_ne (h : log.event.target? ≠ some target)
    : openProposal target (log :: logs) = openProposal target logs := by
  simp [openProposal, h]

theorem ne_executed_of_target (h : log.event.target? ≠ some target) (value : Nat)
    : log.event ≠ .changeExecuted target value := by
  intro heq
  rw [heq] at h
  exact h rfl

theorem split_of_openProposal {t₀ : Nat} {setting : Setting}
    (h : openProposal target logs = some (t₀, setting))
    : ∃ newer event older,
        logs = newer ++ ⟨t₀, event⟩ :: older
        ∧ event.target? = some target
        ∧ event.proposed? = some setting
        ∧ ∀ log ∈ newer, log.event.target? ≠ some target := by
  induction logs with
  | nil => cases h
  | cons log logs ih =>
    unfold openProposal at h
    split at h
    . next htarget =>
      simp only [Option.map_eq_some_iff, Prod.mk.injEq] at h
      obtain ⟨setting', hproposed, rfl, rfl⟩ := h
      refine ⟨[], log.event, logs, rfl, htarget, hproposed, ?_⟩
      intro log' hlog'
      cases hlog'
    . next htarget =>
      obtain ⟨newer, event, older, rfl, h1, h2, h3⟩ := ih h
      refine ⟨log :: newer, event, older, rfl, h1, h2, ?_⟩
      intro log' hlog'
      cases hlog' with
      | head => exact htarget
      | tail _ hlog' => exact h3 log' hlog'

/--
In a log that runs backwards in time, no proposal for the target is younger than the open one.
-/
theorem le_openProposal {t₀ : Nat} {setting : Setting}
    (hsorted : logs.Pairwise (fun newer older => older.timestamp ≤ newer.timestamp))
    (h : openProposal target logs = some (t₀, setting)) (hlog : log ∈ logs)
    (htarget : log.event.target? = some target) : log.timestamp ≤ t₀ := by
  induction logs with
  | nil => cases hlog
  | cons first logs ih =>
    rw [List.pairwise_cons] at hsorted
    unfold openProposal at h
    split at h
    . simp only [Option.map_eq_some_iff, Prod.mk.injEq] at h
      obtain ⟨setting', -, rfl, -⟩ := h
      cases hlog with
      | head => exact Nat.le_refl _
      | tail _ hlog => exact hsorted.1 log hlog
    . next hfirst =>
      cases hlog with
      | head => exact absurd htarget hfirst
      | tail _ hlog => exact ih hsorted.2 h hlog

/--
Within `ADMIN_DELAY` of a proposal nothing is installed, whatever is logged after it.
-/
theorem installed_append {newer : List Log} {now : Nat}
    (hsorted : (newer ++ logs).Pairwise (fun newer older => older.timestamp ≤ newer.timestamp))
    (hlocked : Timelocked target (newer ++ logs))
    (hnow : ∀ log ∈ newer, log.timestamp ≤ now) (hlog : log ∈ logs)
    (htarget : log.event.target? = some target)
    (hdelay : now < log.timestamp + ADMIN_DELAY)
    : installed d target (newer ++ logs) = installed d target logs := by
  induction newer with
  | nil => rfl
  | cons first newer ih =>
    rw [List.cons_append, List.pairwise_cons] at hsorted
    have hfirst : ∀ value, first.event ≠ .changeExecuted target value := by
      intro value heq
      obtain ⟨t, event⟩ := first
      cases heq
      obtain ⟨t₀, setting, hopen, ht₀⟩ := hlocked.1 rfl
      have hle := le_openProposal hsorted.2 hopen (List.mem_append_right newer hlog) htarget
      have := hnow _ List.mem_cons_self
      dsimp at this
      omega
    rw [List.cons_append] at hlocked ⊢
    rw [timelocked_cons_of_ne hfirst] at hlocked
    rw [installed_cons_of_ne hfirst]
    exact ih hsorted.2 hlocked (fun log hlog => hnow log (List.mem_cons_of_mem _ hlog))

end Log

def pendingOf : Option (Nat × Setting) → PendingChange
  | none => ⟨0, 0, 0, 0⟩
  | some (t₀, setting) => ⟨setting.value, setting.key.x, setting.key.y, t₀ + ADMIN_DELAY⟩

/--
What holds of the timelock in every state.
-/
structure Timelock (d : Deployment) (now : Nat) (s : State) : Prop where
  time : ∀ log ∈ s.logs, log.timestamp ≤ now
  sorted : s.logs.Pairwise (fun newer older => older.timestamp ≤ newer.timestamp)
  pending : ∀ target, s.pendingChanges target = pendingOf (openProposal target s.logs)
  -- The pending refund key is stored in the key fields, every other pending change in `value`.
  kind : ∀ target t₀ setting, openProposal target s.logs = some (t₀, setting) →
    if target = .refundKey then setting.value = 0 else setting.key = ⟨0, 0⟩
  setting : ∀ target, s.setting target = installed d target s.logs
  locked : ∀ target, Timelocked target s.logs
  accepted : s.acceptedRefundKeys (refundKeyId d s.serverPublicKey) = true
  exit : ∀ t c exit, ⟨t, .withdrawalInitiated c exit⟩ ∈ s.logs →
    exit.exitAt = t + CHALLENGE_WINDOW

/--
The part of the state the timelock guards.
-/
def State.admin (s : State) : (Target → PendingChange) × (Nat × Nat × EdDSAPublicKey) × (Nat → Bool) :=
  (s.pendingChanges, (s.settlementVerifier, s.serverAddress, s.serverPublicKey),
    s.acceptedRefundKeys)

theorem setting_eq_of_admin {s s' : State} (h : s'.admin = s.admin) : s'.setting = s.setting := by
  simp only [State.admin, Prod.mk.injEq] at h
  obtain ⟨-, ⟨h1, h2, h3⟩, -⟩ := h
  funext target
  cases target <;> simp [State.setting, h1, h2, h3]

namespace Timelock

variable {d : Deployment} {env : Env} {now : Nat} {s s' : State}

theorem init (d : Deployment) : Timelock d d.deployedAt (constructor d) where
  time := by
    intro log hlog
    cases hlog with
    | head => exact Nat.le_refl _
    | tail _ hlog => cases hlog
  sorted := List.pairwise_singleton _ _
  pending := fun _ => rfl
  kind := by
    intro target t₀ setting hopen
    cases hopen
  setting := fun _ => rfl
  locked := fun _ => trivial
  accepted := by simp [constructor, pushRoot, emit]
  exit := by
    intro t c exit hmem
    simp [constructor, pushRoot, emit] at hmem

theorem mono {now' : Nat} (hle : now ≤ now') (h : Timelock d now s) : Timelock d now' s where
  time := fun log hlog => Nat.le_trans (h.time log hlog) hle
  sorted := h.sorted
  pending := h.pending
  kind := h.kind
  setting := h.setting
  locked := h.locked
  accepted := h.accepted
  exit := h.exit

theorem congr (h : Timelock d now s) (hadmin : s'.admin = s.admin) (hlogs : s'.logs = s.logs)
    : Timelock d now s' := by
  have hsetting := setting_eq_of_admin hadmin
  simp only [State.admin, Prod.mk.injEq] at hadmin
  obtain ⟨h1, ⟨-, -, h2⟩, h3⟩ := hadmin
  constructor
  . simpa only [hlogs] using h.time
  . simpa only [hlogs] using h.sorted
  . simpa only [hlogs, h1] using h.pending
  . simpa only [hlogs] using h.kind
  . simpa only [hlogs, hsetting] using h.setting
  . simpa only [hlogs] using h.locked
  . simpa only [h2, h3] using h.accepted
  . simpa only [hlogs] using h.exit

/--
An event that is about no target and announces no exit but one of full length.
-/
theorem emit_quiet (h : Timelock d env.timestamp s) (event : Event) (hevent : event.target? = none)
    (hexit : ∀ c exit, event = .withdrawalInitiated c exit →
      exit.exitAt = env.timestamp + CHALLENGE_WINDOW)
    : Timelock d env.timestamp (emit env event s) := by
  have hne : ∀ target, event.target? ≠ some target := by
    simp [hevent]
  constructor
  . intro log hlog
    cases hlog with
    | head => exact Nat.le_refl _
    | tail _ hlog => exact h.time log hlog
  . exact List.pairwise_cons.mpr ⟨h.time, h.sorted⟩
  . intro target
    simp only [emit]
    rw [openProposal_cons_of_ne (hne target)]
    exact h.pending target
  . intro target t₀ setting hopen
    simp only [emit] at hopen
    rw [openProposal_cons_of_ne (hne target)] at hopen
    exact h.kind target t₀ setting hopen
  . intro target
    simp only [emit]
    rw [installed_cons_of_ne (ne_executed_of_target (hne target))]
    exact h.setting target
  . intro target
    simp only [emit]
    rw [timelocked_cons_of_ne (ne_executed_of_target (hne target))]
    exact h.locked target
  . exact h.accepted
  . intro t c exit hmem
    simp only [emit, List.mem_cons, Log.mk.injEq] at hmem
    rcases hmem with ⟨rfl, heq⟩ | hmem
    . exact hexit c exit heq.symm
    . exact h.exit t c exit hmem

theorem updateLeaf (h : Timelock d env.timestamp s) (leafIndex : Nat)
    : Timelock d env.timestamp (updateLeaf d env leafIndex s) := by
  unfold Credits.updateLeaf pushRoot
  apply emit_quiet
  . exact h.congr rfl rfl
  . rfl
  . intro c exit heq
    cases heq

theorem leave (h : Timelock d now s) : Timelock d now (leave s) :=
  h.congr rfl rfl

theorem credited {operatorBalance : Nat} {ledger : List LedgerEntry} (h : Timelock d now s)
    : Timelock d now { s with operatorBalance := operatorBalance, ledger := ledger } :=
  h.congr rfl rfl

theorem slashed {payment : Payment} {note : Note} {c : Nat} (h : Timelock d now s)
    : Timelock d now (payment.transfer (slashedState d note c s)) :=
  h.congr rfl rfl

/--
An event that opens or ends the pending change of one target and installs nothing.
-/
theorem emit_pending {event : Event} {target : Target} {change : PendingChange}
    (h : Timelock d env.timestamp s) (htarget : event.target? = some target)
    (hexecuted : ∀ value, event ≠ .changeExecuted target value)
    (hchange : change
      = pendingOf (event.proposed?.map (fun setting => (env.timestamp, setting))))
    (hkind : ∀ setting, event.proposed? = some setting →
      if target = .refundKey then setting.value = 0 else setting.key = ⟨0, 0⟩)
    : Timelock d env.timestamp
        (emit env event
          { s with pendingChanges := Function.update s.pendingChanges target change }) := by
  -- to any other target the event says nothing
  have hne : ∀ {other}, other ≠ target → event.target? ≠ some other := by
    intro other hother heq
    rw [htarget] at heq
    exact hother (Option.some.inj heq).symm
  have hquiet : ∀ other value, event ≠ .changeExecuted other value := by
    intro other value heq
    by_cases hother : other = target
    . subst hother
      exact hexecuted value heq
    . rw [heq] at htarget
      exact hother (Option.some.inj htarget)
  constructor
  . intro log hlog
    cases hlog with
    | head => exact Nat.le_refl _
    | tail _ hlog => exact h.time log hlog
  . exact List.pairwise_cons.mpr ⟨h.time, h.sorted⟩
  . intro other
    simp only [emit]
    by_cases hother : other = target
    . subst hother
      simp [openProposal, htarget, hchange]
    . rw [Function.update_of_ne hother, openProposal_cons_of_ne (hne hother)]
      exact h.pending other
  . intro other t₀ setting hopen
    simp only [emit] at hopen
    by_cases hother : other = target
    . subst hother
      simp only [openProposal, htarget, if_true, Option.map_eq_some_iff, Prod.mk.injEq] at hopen
      obtain ⟨setting', hproposed, -, rfl⟩ := hopen
      exact hkind setting' hproposed
    . rw [openProposal_cons_of_ne (hne hother)] at hopen
      exact h.kind other t₀ setting hopen
  . intro other
    simp only [emit]
    rw [installed_cons_of_ne (hquiet other)]
    exact h.setting other
  . intro other
    simp only [emit]
    rw [timelocked_cons_of_ne (hquiet other)]
    exact h.locked other
  . exact h.accepted
  . intro t c exit hmem
    simp only [emit, List.mem_cons, Log.mk.injEq] at hmem
    rcases hmem with ⟨-, heq⟩ | hmem
    . rw [← heq] at htarget
      cases htarget
    . exact h.exit t c exit hmem

theorem open_of_pending {target : Target} (h : Timelock d now s)
    (hpending : (s.pendingChanges target).eta ≠ 0)
    : ∃ t₀ setting, openProposal target s.logs = some (t₀, setting)
        ∧ s.pendingChanges target
            = ⟨setting.value, setting.key.x, setting.key.y, t₀ + ADMIN_DELAY⟩ := by
  have hpend := h.pending target
  cases hopen : openProposal target s.logs with
  | none =>
    rw [hpend, hopen] at hpending
    exact absurd rfl hpending
  | some proposal =>
    obtain ⟨t₀, setting⟩ := proposal
    rw [hopen] at hpend
    exact ⟨t₀, setting, rfl, hpend⟩

theorem execute {target : Target} {value t₀ : Nat} {setting : Setting} (h : Timelock d now s)
    (hopen : openProposal target s.logs = some (t₀, setting)) (hdelay : t₀ + ADMIN_DELAY ≤ now)
    (hpending : s'.pendingChanges = Function.update s.pendingChanges target ⟨0, 0, 0, 0⟩)
    (hlogs : s'.logs = ⟨now, .changeExecuted target value⟩ :: s.logs)
    (hself : s'.setting target = setting)
    (hother : ∀ other, other ≠ target → s'.setting other = s.setting other)
    (haccepted : s'.acceptedRefundKeys (refundKeyId d s'.serverPublicKey) = true)
    : Timelock d now s' := by
  -- the target has no open proposal any more, the others keep theirs
  have hne : ∀ {other}, other ≠ target →
      (Event.changeExecuted target value).target? ≠ some other := by
    intro other hother heq
    exact hother (Option.some.inj heq).symm
  constructor
  . rw [hlogs]
    intro log hlog
    cases hlog with
    | head => exact Nat.le_refl _
    | tail _ hlog => exact h.time log hlog
  . rw [hlogs]
    exact List.pairwise_cons.mpr ⟨h.time, h.sorted⟩
  . intro other
    rw [hpending, hlogs]
    by_cases heq : other = target
    . subst heq
      simp [openProposal, Event.target?, Event.proposed?, pendingOf]
    . rw [Function.update_of_ne heq, openProposal_cons_of_ne (hne heq)]
      exact h.pending other
  . intro other t₁ setting₁ hopen₁
    rw [hlogs] at hopen₁
    by_cases heq : other = target
    . subst heq
      simp [openProposal, Event.target?, Event.proposed?] at hopen₁
    . rw [openProposal_cons_of_ne (hne heq)] at hopen₁
      exact h.kind other t₁ setting₁ hopen₁
  . intro other
    rw [hlogs]
    by_cases heq : other = target
    . subst heq
      simp [installed, hopen, hself]
    . rw [hother other heq, installed_cons_of_ne (ne_executed_of_target (hne heq))]
      exact h.setting other
  . intro other
    rw [hlogs]
    by_cases heq : other = target
    . subst heq
      exact ⟨fun _ => ⟨t₀, setting, hopen, hdelay⟩, h.locked other⟩
    . rw [timelocked_cons_of_ne (ne_executed_of_target (hne heq))]
      exact h.locked other
  . exact haccepted
  . intro t c exit hmem
    simp only [hlogs, List.mem_cons, Log.mk.injEq, reduceCtorEq, and_false, false_or] at hmem
    exact h.exit t c exit hmem

theorem effect {call : Option Call} (h : Timelock d env.timestamp s)
    (heffect : Effect d env s call s') : Timelock d env.timestamp s' := by
  cases heffect with
  -- the calls that change leaves log nothing about a target
  | deposit c =>
    apply leave
    apply emit_quiet
    . apply updateLeaf
      exact h.congr rfl rfl
    . rfl
    . intro c exit heq
      cases heq
  | initiateWithdrawal args =>
    apply leave
    apply emit_quiet
    . apply updateLeaf
      exact h.congr rfl rfl
    . rfl
    . intro c exit heq
      cases heq
      rfl
  | slashActive secretKey =>
    apply slashed
    apply updateLeaf
    exact h.congr rfl rfl
  | claimExpired c =>
    apply leave
    apply emit_quiet
    . apply credited
      apply updateLeaf
      exact h.congr rfl rfl
    . rfl
    . intro c exit heq
      cases heq
  -- a proposal or its cancellation replaces the pending change of its own target
  | proposeChange target value _ htarget =>
    apply h.emit_pending rfl
    . simp
    . rfl
    . intro setting hsetting
      cases hsetting
      simp [htarget]
  | proposeRefundKey x y =>
    apply h.emit_pending rfl
    . simp
    . rfl
    . intro setting hsetting
      cases hsetting
      rfl
  | cancelChange target =>
    apply h.emit_pending rfl
    . simp
    . rfl
    . intro setting hsetting
      cases hsetting
  -- what an execution installs is the open proposal
  | executeChange target _ hpending heta =>
    obtain ⟨t₀, setting, hopen, hchange⟩ := h.open_of_pending hpending
    have hkind := h.kind target t₀ setting hopen
    rw [hchange] at heta ⊢
    obtain ⟨value, key⟩ := setting
    cases target with
    | settlementVerifier =>
      cases hkind
      apply h.execute hopen heta rfl rfl rfl
      . intro other hother
        cases other <;> first | rfl | exact absurd rfl hother
      . exact h.accepted
    | serverAddress =>
      cases hkind
      have hupdated := h.emit_quiet (.serverAddressUpdated s.serverAddress value) rfl
        (by simp)
      apply hupdated.execute hopen heta rfl rfl rfl
      . intro other hother
        cases other <;> first | rfl | exact absurd rfl hother
      . exact h.accepted
    | refundKey =>
      cases hkind
      have hupdated := h.emit_quiet (.refundKeyUpdated key.x key.y) rfl (by simp)
      apply hupdated.execute hopen heta rfl rfl rfl
      . intro other hother
        cases other <;> first | rfl | exact absurd rfl hother
      . exact Function.update_self _ _ _
  | resume payment =>
    refine (h.emit_quiet (payment.event s) ?_ ?_).congr rfl rfl
    . cases payment <;> rfl
    . intro c exit heq
      cases payment <;> cases heq
  | finalizeWithdrawal => exact h.congr rfl rfl
  | slashExiting => exact h.congr rfl rfl
  | withdrawOperatorBalance => exact h.congr rfl rfl
  | pause => exact h.congr rfl rfl
  | unpause => exact h.congr rfl rfl
  | transferOwnership => exact h.congr rfl rfl
  | renounceOwnership => exact h.congr rfl rfl
  | forceSend => exact h.congr rfl rfl

theorem invariant (d : Deployment) : Machine.Invariant d (Timelock d) where
  init := init d
  mono := mono
  effect := effect

end Timelock

/--
`setting` may land on `target` now: it is the value of the open proposal, which was made at least
`ADMIN_DELAY` ago and not later than any exit whose window is still open.
-/
def Landing (now : Nat) (s : State) (target : Target) (setting : Setting) : Prop :=
  ∃ t₀ event newer older,
    s.logs = newer ++ ⟨t₀, event⟩ :: older
    ∧ (∀ log ∈ newer, log.event.target? ≠ some target)
    ∧ event.target? = some target
    ∧ event.proposed? = some setting
    ∧ t₀ + ADMIN_DELAY ≤ now
    ∧ ∀ t c exit, ⟨t, .withdrawalInitiated c exit⟩ ∈ s.logs → t ≤ t₀ → exit.exitAt < now

theorem Effect.landing {d : Deployment} {env : Env} {call : Option Call} {s s' : State}
    {target : Target} (hlock : Timelock d env.timestamp s) (h : Effect d env s call s')
    (hne : s'.setting target ≠ s.setting target)
    : call = some (.executeChange target)
        ∧ Landing env.timestamp s target (s'.setting target) := by
  cases h with
  | executeChange target' _ hpending heta =>
    by_cases heq : target = target'
    . subst heq
      refine ⟨rfl, ?_⟩
      obtain ⟨t₀, setting, hopen, hchange⟩ := hlock.open_of_pending hpending
      obtain ⟨newer, event, older, hlogs, htarget, hproposed, hnewer⟩ := split_of_openProposal hopen
      have hkind := hlock.kind target t₀ setting hopen
      rw [hchange] at heta ⊢
      refine ⟨t₀, event, newer, older, hlogs, hnewer, htarget, ?_, heta, ?_⟩
      . rw [hproposed]
        obtain ⟨value, key⟩ := setting
        cases target <;> cases hkind <;> rfl
      . intro t c exit hmem hle
        have hexit := hlock.exit t c exit hmem
        simp only [CHALLENGE_WINDOW, ADMIN_DELAY] at hexit heta
        omega
    . cases target' <;> cases target <;> first | exact absurd rfl hne | exact absurd rfl heq
  | _ => exact absurd rfl hne

theorem Effect.logs_suffix {d : Deployment} {env : Env} {call : Option Call} {s s' : State}
    (h : Effect d env s call s') : s.logs <:+ s'.logs := by
  cases h with
  | deposit => exact (List.suffix_cons _ _).trans (List.suffix_cons _ _)
  | initiateWithdrawal => exact (List.suffix_cons _ _).trans (List.suffix_cons _ _)
  | claimExpired => exact (List.suffix_cons _ _).trans (List.suffix_cons _ _)
  | executeChange target =>
    cases target with
    | settlementVerifier => exact List.suffix_cons _ _
    | serverAddress => exact (List.suffix_cons _ _).trans (List.suffix_cons _ _)
    | refundKey => exact (List.suffix_cons _ _).trans (List.suffix_cons _ _)
  | slashActive => exact List.suffix_cons _ _
  | proposeChange => exact List.suffix_cons _ _
  | proposeRefundKey => exact List.suffix_cons _ _
  | cancelChange => exact List.suffix_cons _ _
  | resume => exact List.suffix_cons _ _
  | _ => exact List.suffix_refl _

theorem Effect.accepted {d : Deployment} {env : Env} {call : Option Call} {s s' : State}
    {key : Nat} (h : Effect d env s call s') (hkey : s.acceptedRefundKeys key = true)
    : s'.acceptedRefundKeys key = true := by
  cases h with
  | executeChange target =>
    cases target with
    | refundKey =>
      simp only [emit, installChange, Function.update_apply]
      split
      . rfl
      . exact hkey
    | _ => exact hkey
  | _ => exact hkey

/--
A step that changes a setting executes the open proposal, or rolls back a transaction in flight.
-/
theorem step_landing {d : Deployment} {actions : List Action} {a : Action} {target : Target}
    (hne : (run d (actions ++ [a])).state.setting target ≠ (run d actions).state.setting target)
    : (a = .payeeReturn false ∧ (run d (actions ++ [a])).state = (run d actions).committed)
      ∨ (∃ caller, a = .call caller (.executeChange target))
        ∧ Landing (run d actions).now (run d actions).state target
            ((run d (actions ++ [a])).state.setting target) := by
  have hlock := (Machine.run_invariant (Timelock.invariant d) actions).1
  have hentered := Machine.run_entered d actions
  rw [run_concat] at hne ⊢
  generalize run d actions = m at hne hlock hentered ⊢
  have hstep := Machine.step_sound d m a
  generalize m.step d a = m' at hne hstep ⊢
  cases hstep with
  | effect caller call s heffect =>
    obtain ⟨hcall, hlanding⟩ := heffect.landing hlock hne
    cases hcall
    exact .inr ⟨⟨caller, rfl⟩, hlanding⟩
  | enter caller call s payment heffect =>
    obtain ⟨hcall, hlanding⟩ := heffect.landing hlock hne
    cases hcall
    exact .inr ⟨⟨caller, rfl⟩, hlanding⟩
  | revert frame stack hcons =>
    refine .inl ⟨rfl, ?_⟩
    rcases hentered with ⟨hnil, -⟩ | ⟨f, hf, -, -⟩
    . rw [hnil] at hcons
      cases hcons
    . rw [hf] at hcons
      cases hcons
      simp [Machine.committed, hf]
  | stutter => exact absurd rfl hne
  | leave => exact absurd rfl hne
  | forceSend => exact absurd rfl hne
  | wait => exact absurd rfl hne

/--
A proposal in the history of two states of a run, less than `ADMIN_DELAY` ago in the later one: the
setting is the same in both.
-/
theorem run_setting_eq {d : Deployment} {actions more : List Action} {log : Log} {target : Target}
    (hsuffix : (run d actions).state.logs <:+ (run d (actions ++ more)).state.logs)
    (hlog : log ∈ (run d actions).state.logs) (htarget : log.event.target? = some target)
    (hdelay : (run d (actions ++ more)).now < log.timestamp + ADMIN_DELAY)
    : (run d (actions ++ more)).state.setting target = (run d actions).state.setting target := by
  have hlock := (Machine.run_invariant (Timelock.invariant d) actions).1
  have hlock' := (Machine.run_invariant (Timelock.invariant d) (actions ++ more)).1
  obtain ⟨newer, hnewer⟩ := hsuffix
  rw [hlock.setting, hlock'.setting, ← hnewer]
  apply installed_append
  . rw [hnewer]
    exact hlock'.sorted
  . rw [hnewer]
    exact hlock'.locked target
  . intro log hlog
    apply hlock'.time
    rw [← hnewer]
    exact List.mem_append_left _ hlog
  . exact hlog
  . exact htarget
  . exact hdelay

/--
A proposal changes the pending change of its own target and nothing else.
-/
theorem step_propose (d : Deployment) (m : Machine) (caller : Caller) (call : Call)
    (target : Target)
    (hcall : (∃ value, call = .proposeChange target value)
      ∨ (target = .refundKey ∧ ∃ x y, call = .proposeRefundKey x y))
    : (m.step d (.call caller call)).state.setting = m.state.setting
        ∧ ∀ other, other ≠ target →
            (m.step d (.call caller call)).state.pendingChanges other
              = m.state.pendingChanges other := by
  have hstep := Machine.step_sound d m (.call caller call)
  generalize m.step d (.call caller call) = m' at hstep ⊢
  have heffect : ∀ {s}, Effect d (caller.env m.now) m.state (some call) s →
      s.setting = m.state.setting
        ∧ ∀ other, other ≠ target → s.pendingChanges other = m.state.pendingChanges other := by
    intro s h
    rcases hcall with ⟨value, rfl⟩ | ⟨rfl, x, y, rfl⟩
    . cases h
      exact ⟨rfl, fun other hother => Function.update_of_ne hother _ _⟩
    . cases h
      exact ⟨rfl, fun other hother => Function.update_of_ne hother _ _⟩
  cases hstep with
  | stutter => exact ⟨rfl, fun _ _ => rfl⟩
  | effect _ _ s h => exact heffect h
  | enter _ _ s payment h => exact heffect h

theorem run_timelock (d : Deployment) (actions : List Action)
    : (∀ a target,
        (run d (actions ++ [a])).state.setting target ≠ (run d actions).state.setting target →
        (a = .payeeReturn false ∧ (run d (actions ++ [a])).state = (run d actions).committed)
        ∨ (∃ caller, a = .call caller (.executeChange target))
          ∧ Landing (run d actions).now (run d actions).state target
              ((run d (actions ++ [a])).state.setting target))
      ∧ (∀ more log target,
          (run d actions).state.logs <:+ (run d (actions ++ more)).state.logs →
          log ∈ (run d actions).state.logs →
          log.event.target? = some target → log.event.proposed?.isSome →
          (run d (actions ++ more)).now < log.timestamp + ADMIN_DELAY →
          (run d (actions ++ more)).state.setting target = (run d actions).state.setting target)
      ∧ (∀ more, (run d actions).committed.logs <:+ (run d (actions ++ more)).committed.logs
          ∧ (run d actions).committed.logs <:+ (run d actions).state.logs)
      ∧ (∀ caller call target,
          ((∃ value, call = .proposeChange target value)
            ∨ (target = .refundKey ∧ ∃ x y, call = .proposeRefundKey x y)) →
          (run d (actions ++ [.call caller call])).state.setting = (run d actions).state.setting
          ∧ ∀ other, other ≠ target →
              (run d (actions ++ [.call caller call])).state.pendingChanges other
                = (run d actions).state.pendingChanges other)
      ∧ (∀ more key, (run d actions).committed.acceptedRefundKeys key = true →
          (run d (actions ++ more)).committed.acceptedRefundKeys key = true)
      ∧ (∀ more, (run d (actions ++ more)).committed.acceptedRefundKeys
          (refundKeyId d (run d actions).committed.serverPublicKey) = true)
      ∧ (run d actions).state.acceptedRefundKeys
          (refundKeyId d (run d actions).state.serverPublicKey) = true := by
  have hsuffix : ∀ {env call s s'}, Timelock d env.timestamp s → Effect d env s call s' →
      s.logs <:+ s'.logs := fun _ h => h.logs_suffix
  have haccepted : ∀ more key, (run d actions).committed.acceptedRefundKeys key = true →
      (run d (actions ++ more)).committed.acceptedRefundKeys key = true := by
    intro more
    exact Machine.run_committed (R := fun s s' => ∀ key, s.acceptedRefundKeys key = true →
      s'.acceptedRefundKeys key = true) (Timelock.invariant d) (fun _ _ h => h)
      (fun h h' key hkey => h' key (h key hkey)) (fun _ h key hkey => h.accepted hkey) actions more
  refine ⟨?_, ?_, ?_, ?_, haccepted, ?_, ?_⟩
  -- a setting changes by an execution of its own target, or back by a revert
  . intro a target hne
    exact step_landing hne
  -- a proposal leaves the time of the delay to see it
  . intro more log target hsuff hlog htarget _ hdelay
    exact run_setting_eq hsuff hlog htarget hdelay
  -- the log only grows
  . intro more
    constructor
    . exact Machine.run_committed (R := fun s s' => s.logs <:+ s'.logs) (Timelock.invariant d)
        (fun _ => List.suffix_refl _) (fun h h' => h.trans h') hsuffix actions more
    . exact Machine.run_committed_state (R := fun s s' => s.logs <:+ s'.logs) (Timelock.invariant d)
        (fun _ => List.suffix_refl _) (fun h h' => h.trans h') hsuffix actions
  . intro caller call target hcall
    rw [run_concat]
    exact step_propose d (run d actions) caller call target hcall
  -- a key that was registered once is accepted from then on
  . intro more
    apply haccepted
    exact (Machine.run_invariant_committed (Timelock.invariant d) actions).accepted
  . exact (Machine.run_invariant (Timelock.invariant d) actions).1.accepted

end Credits
end Longjing
