import Longjing.Credits.Lemmas.Admin
import Longjing.Credits.Lemmas.Ledger
import Longjing.Credits.Lemmas.Tree

/-!
The history of roots: a window counted in pushes, against finality, which is counted in seconds.
-/

namespace Longjing
namespace Credits

open Fallible

namespace Event

def root? : Event → Option Nat
  | merkleRootUpdated newRoot _ => some newRoot
  | _ => none

def isExitOf (c : Nat) : Event → Bool
  | withdrawalInitiated c' _ => c' == c
  | _ => false

end Event

/--
The roots that were pushed, newest first.
-/
def pushedRoots (logs : List Log) : List Nat :=
  logs.filterMap (fun log => log.event.root?)

/--
The number of roots that were pushed since the leaf of an exiting note was removed, counting the
root of that removal.
-/
def pushesSinceExit (c : Nat) : List Log → Nat
  | [] => 0
  | log :: logs =>
    if log.event.isExitOf c then
      1
    else
      (if log.event.root?.isSome then 1 else 0) + pushesSinceExit c logs

theorem pushesSinceExit_cons_root {c t root leafCount : Nat} {logs : List Log}
    : pushesSinceExit c (⟨t, .merkleRootUpdated root leafCount⟩ :: logs)
        = pushesSinceExit c logs + 1 :=
  Nat.add_comm 1 _

theorem pushesSinceExit_cons_quiet {c : Nat} {log : Log} {logs : List Log}
    (hexit : log.event.isExitOf c = false) (hroot : log.event.root? = none)
    : pushesSinceExit c (log :: logs) = pushesSinceExit c logs := by
  simp [pushesSinceExit, hexit, hroot]

/--
The ring buffer holds the last pushed roots, and 0 where nothing was pushed yet.
-/
structure RootHistory (s : State) : Prop where
  index_lt : s.currentRootIndex < ROOT_HISTORY_SIZE
  slot : ∀ k, k < ROOT_HISTORY_SIZE →
    s.roots ((s.currentRootIndex + ROOT_HISTORY_SIZE - k) % ROOT_HISTORY_SIZE)
      = (pushedRoots s.logs).getD k 0

namespace RootHistory

variable {d : Deployment} {env : Env} {s s' : State}

theorem push {root : Nat} (h : RootHistory s) : RootHistory (pushRoot env root s) := by
  have hlt := h.index_lt
  constructor
  . exact Nat.mod_lt _ (by simp [ROOT_HISTORY_SIZE])
  . intro k hk
    simp only [pushRoot, emit, pushedRoots, List.filterMap_cons, Event.root?]
    cases k with
    | zero =>
      have hself : ((s.currentRootIndex + 1) % ROOT_HISTORY_SIZE + ROOT_HISTORY_SIZE - 0)
          % ROOT_HISTORY_SIZE = (s.currentRootIndex + 1) % ROOT_HISTORY_SIZE := by
        simp
      rw [hself, Function.update_self, List.getD_cons_zero]
    | succ k =>
      have hslot : ((s.currentRootIndex + 1) % ROOT_HISTORY_SIZE + ROOT_HISTORY_SIZE - (k + 1))
          % ROOT_HISTORY_SIZE
          = (s.currentRootIndex + ROOT_HISTORY_SIZE - k) % ROOT_HISTORY_SIZE := by
        simp only [ROOT_HISTORY_SIZE] at *
        omega
      have hne : (s.currentRootIndex + ROOT_HISTORY_SIZE - k) % ROOT_HISTORY_SIZE
          ≠ (s.currentRootIndex + 1) % ROOT_HISTORY_SIZE := by
        simp only [ROOT_HISTORY_SIZE] at *
        omega
      rw [hslot, Function.update_of_ne hne, List.getD_cons_succ]
      exact h.slot k (by omega)

theorem congr (h : RootHistory s) (hindex : s'.currentRootIndex = s.currentRootIndex)
    (hroots : s'.roots = s.roots) (hlogs : pushedRoots s'.logs = pushedRoots s.logs)
    : RootHistory s' := by
  constructor
  . rw [hindex]
    exact h.index_lt
  . rw [hindex, hroots, hlogs]
    exact h.slot

/--
`isKnownRoot` finds exactly the last `ROOT_HISTORY_SIZE` roots.
-/
theorem isKnownRoot_eq_true (h : RootHistory s) {root : Nat} (hknown : isKnownRoot s root = true)
    : root ∈ (pushedRoots s.logs).take ROOT_HISTORY_SIZE := by
  have hlt := h.index_lt
  unfold isKnownRoot at hknown
  split at hknown
  . cases hknown
  . next hne =>
    simp only [List.any_eq_true, List.mem_range, beq_iff_eq] at hknown
    obtain ⟨i, hi, rfl⟩ := hknown
    have hslot := h.slot ((s.currentRootIndex + ROOT_HISTORY_SIZE - i) % ROOT_HISTORY_SIZE)
      (Nat.mod_lt _ (by simp [ROOT_HISTORY_SIZE]))
    have hback : (s.currentRootIndex + ROOT_HISTORY_SIZE
        - (s.currentRootIndex + ROOT_HISTORY_SIZE - i) % ROOT_HISTORY_SIZE) % ROOT_HISTORY_SIZE
        = i := by
      simp only [ROOT_HISTORY_SIZE] at *
      omega
    rw [hback] at hslot
    rw [hslot] at hne ⊢
    have hk : (s.currentRootIndex + ROOT_HISTORY_SIZE - i) % ROOT_HISTORY_SIZE < ROOT_HISTORY_SIZE :=
      Nat.mod_lt _ (by simp [ROOT_HISTORY_SIZE])
    generalize (s.currentRootIndex + ROOT_HISTORY_SIZE - i) % ROOT_HISTORY_SIZE = k at hne hk ⊢
    rw [List.getD_eq_getElem?_getD] at hne ⊢
    cases hget : (pushedRoots s.logs)[k]? with
    | none =>
      rw [hget] at hne
      exact absurd rfl hne
    | some root =>
      apply List.mem_of_getElem? (i := k)
      rw [List.getElem?_take_of_lt hk, hget]
      rfl

theorem isKnownRoot_of_getD (h : RootHistory s) {root k : Nat} (hroot : root ≠ 0)
    (hk : k < ROOT_HISTORY_SIZE) (hget : (pushedRoots s.logs).getD k 0 = root)
    : isKnownRoot s root = true := by
  unfold isKnownRoot
  rw [if_neg hroot, List.any_eq_true]
  refine ⟨(s.currentRootIndex + ROOT_HISTORY_SIZE - k) % ROOT_HISTORY_SIZE, ?_, ?_⟩
  . rw [List.mem_range]
    exact Nat.mod_lt _ (by simp [ROOT_HISTORY_SIZE])
  . rw [h.slot k hk, hget, beq_iff_eq]

theorem init (d : Deployment) : RootHistory (constructor d) := by
  apply push
  constructor
  . simp [ROOT_HISTORY_SIZE]
  . intro k _
    simp [pushedRoots]

theorem updateLeaf {leafIndex : Nat} (h : RootHistory s)
    : RootHistory (updateLeaf d env leafIndex s) := by
  unfold Credits.updateLeaf
  apply push
  exact h.congr rfl rfl rfl

theorem emit {event : Event} (h : RootHistory s) (hevent : event.root? = none)
    : RootHistory (emit env event s) := by
  refine congr h rfl rfl ?_
  simp [Credits.emit, pushedRoots, hevent]

theorem leave (h : RootHistory s) : RootHistory (leave s) :=
  h.congr rfl rfl rfl

theorem credited {operatorBalance : Nat} {ledger : List LedgerEntry} (h : RootHistory s)
    : RootHistory { s with operatorBalance := operatorBalance, ledger := ledger } :=
  h.congr rfl rfl rfl

theorem slashed {payment : Payment} {note : Note} {c : Nat} (h : RootHistory s)
    : RootHistory (payment.transfer (slashedState d note c s)) :=
  h.congr rfl rfl rfl

theorem effect {call : Option Call} (h : RootHistory s) (heffect : Effect d env s call s')
    : RootHistory s' := by
  cases heffect with
  | deposit =>
    apply leave
    apply emit _ rfl
    apply updateLeaf
    exact h.congr rfl rfl rfl
  | initiateWithdrawal =>
    apply leave
    apply emit _ rfl
    apply updateLeaf
    exact h.congr rfl rfl rfl
  | slashActive =>
    apply slashed
    apply updateLeaf
    exact h.congr rfl rfl rfl
  | claimExpired =>
    apply leave
    apply emit _ rfl
    apply credited
    apply updateLeaf
    exact h.congr rfl rfl rfl
  | executeChange target => cases target <;> exact h.congr rfl rfl rfl
  | resume payment => cases payment <;> exact h.congr rfl rfl rfl
  | _ => exact h.congr rfl rfl rfl

end RootHistory

theorem updateLeaf.go_hash (P : Poseidon) (zeros : Nat → Nat) (remaining level index current : Nat)
    (treeNodes : Nat → Nat → Nat)
    : ∃ a b, (updateLeaf.go P zeros (remaining + 1) level index current treeNodes).2 = P.hash2 a b := by
  induction remaining generalizing level index current treeNodes with
  | zero =>
    simp only [updateLeaf.go]
    split
    . exact ⟨_, _, rfl⟩
    . exact ⟨_, _, rfl⟩
  | succ remaining ih =>
    rw [updateLeaf.go]
    exact ih _ _ _ _

/--
`merkleRoot` is the root that was pushed last, and a hash.
-/
structure LatestRoot (d : Deployment) (s : State) : Prop where
  latest : ∃ older, pushedRoots s.logs = s.merkleRoot :: older
  hash : ∃ a b, s.merkleRoot = d.poseidon.hash2 a b

namespace LatestRoot

variable {d : Deployment} {env : Env} {s s' : State}

theorem lt (h : LatestRoot d s) : s.merkleRoot < FIELD_MODULUS := by
  obtain ⟨a, b, hhash⟩ := h.hash
  rw [hhash]
  exact d.poseidon.hash2_lt a b

theorem congr (h : LatestRoot d s) (hroot : s'.merkleRoot = s.merkleRoot)
    (hlogs : pushedRoots s'.logs = pushedRoots s.logs) : LatestRoot d s' := by
  constructor
  . rw [hroot, hlogs]
    exact h.latest
  . rw [hroot]
    exact h.hash

theorem updateLeaf {leafIndex : Nat} : LatestRoot d (updateLeaf d env leafIndex s) :=
  ⟨⟨pushedRoots s.logs, rfl⟩, updateLeaf.go_hash _ _ _ _ _ _ _⟩

theorem emit {event : Event} (h : LatestRoot d s) (hevent : event.root? = none)
    : LatestRoot d (emit env event s) := by
  refine congr h rfl ?_
  simp [Credits.emit, pushedRoots, hevent]

theorem leave (h : LatestRoot d s) : LatestRoot d (leave s) :=
  h.congr rfl rfl

theorem credited {operatorBalance : Nat} {ledger : List LedgerEntry} (h : LatestRoot d s)
    : LatestRoot d { s with operatorBalance := operatorBalance, ledger := ledger } :=
  h.congr rfl rfl

theorem slashed {payment : Payment} {note : Note} {c : Nat} (h : LatestRoot d s)
    : LatestRoot d (payment.transfer (slashedState d note c s)) :=
  h.congr rfl rfl

theorem effect {call : Option Call} (h : LatestRoot d s) (heffect : Effect d env s call s')
    : LatestRoot d s' := by
  cases heffect with
  | deposit =>
    apply leave
    apply emit _ rfl
    exact updateLeaf
  | initiateWithdrawal =>
    apply leave
    apply emit _ rfl
    exact updateLeaf
  | slashActive =>
    apply slashed
    exact updateLeaf
  | claimExpired =>
    apply leave
    apply emit _ rfl
    apply credited
    exact updateLeaf
  | executeChange target => cases target <;> exact h.congr rfl rfl
  | resume payment => cases payment <;> exact h.congr rfl rfl
  | _ => exact h.congr rfl rfl

theorem init (d : Deployment) : LatestRoot d (constructor d) :=
  ⟨⟨[], rfl⟩, _, _, rfl⟩

end LatestRoot

theorem roots_invariant (d : Deployment)
    : Machine.Invariant d (fun _ s => RootHistory s ∧ LatestRoot d s) where
  init := ⟨RootHistory.init d, LatestRoot.init d⟩
  mono := fun _ h => h
  effect := fun h heffect => ⟨h.1.effect heffect, h.2.effect heffect⟩

/--
The first push is the constructor's, of the root of the empty tree.
-/
theorem pushedRoots_invariant (d : Deployment)
    : Machine.Invariant d (fun _ s => [(constructor d).merkleRoot] <:+ pushedRoots s.logs) where
  init := List.suffix_refl _
  mono := fun _ h => h
  effect := fun h heffect => h.trans (heffect.logs_suffix.filterMap _)

theorem RootHistory.roots_currentRootIndex {d : Deployment} {s : State} (h : RootHistory s)
    (hlatest : LatestRoot d s) : s.roots s.currentRootIndex = s.merkleRoot := by
  obtain ⟨older, hpushed⟩ := hlatest.latest
  have hslot := h.slot 0 (by decide)
  rw [Nat.sub_zero, Nat.add_mod_right, Nat.mod_eq_of_lt h.index_lt, hpushed] at hslot
  exact hslot

/--
A root is known exactly while fewer than `ROOT_HISTORY_SIZE` roots were pushed after it.
-/
theorem RootHistory.isKnownRoot_iff {s : State} (h : RootHistory s) (root : Nat)
    : isKnownRoot s root = true
        ↔ root ≠ 0 ∧ root ∈ (pushedRoots s.logs).take ROOT_HISTORY_SIZE := by
  constructor
  . intro hknown
    refine ⟨?_, h.isKnownRoot_eq_true hknown⟩
    rintro rfl
    simp [isKnownRoot] at hknown
  . rintro ⟨hroot, hmem⟩
    obtain ⟨k, hk⟩ := List.mem_iff_getElem?.mp hmem
    rw [List.getElem?_take] at hk
    split at hk
    . next hlt =>
      apply h.isKnownRoot_of_getD hroot hlt
      rw [List.getD_eq_getElem?_getD, hk]
      rfl
    . contradiction

theorem run_isKnownRoot_iff (d : Deployment) (actions : List Action)
    : (∀ root, isKnownRoot (run d actions).state root = true
          ↔ root ≠ 0 ∧ root ∈ (pushedRoots (run d actions).state.logs).take
              (min ROOT_HISTORY_SIZE (pushedRoots (run d actions).state.logs).length))
        ∧ [(constructor d).merkleRoot] <:+ pushedRoots (run d actions).state.logs
        ∧ (run d actions).state.roots (run d actions).state.currentRootIndex
            = (run d actions).state.merkleRoot := by
  obtain ⟨hhistory, hlatest⟩ := (Machine.run_invariant (roots_invariant d) actions).1
  have hfirst := (Machine.run_invariant (pushedRoots_invariant d) actions).1
  refine ⟨?_, hfirst, hhistory.roots_currentRootIndex hlatest⟩
  intro root
  rw [hhistory.isKnownRoot_iff root, ← List.take_eq_take_min]

/--
A note that left the tree through an exit.
-/
def Note.Exited (note : Note) : Prop :=
  note.status = .exiting ∨ note.status = .closed

/--
Every pushed root is the root over some row of leaves, and since a note's exit these rows are empty
at the note's index.
-/
def RootRows (d : Deployment) (Occurs : (Nat → Nat) → Prop) (s : State) : Prop :=
  ∃ rows : List (Nat → Nat),
    pushedRoots s.logs = rows.map (fun row => Merkle.node d.poseidon.hash2 row TREE_DEPTH 0)
    ∧ (∀ row ∈ rows, Occurs row)
    ∧ ∀ c, (s.notes c).Exited → ∀ row ∈ rows.take (pushesSinceExit c s.logs),
        row (s.notes c).leafIndex = 0

namespace RootRows

variable {d : Deployment} {Occurs : (Nat → Nat) → Prop} {env : Env} {s s' : State}

theorem congr (h : RootRows d Occurs s) (hroots : pushedRoots s'.logs = pushedRoots s.logs)
    (hnotes : ∀ c, (s'.notes c).Exited → (s.notes c).Exited
      ∧ (s'.notes c).leafIndex = (s.notes c).leafIndex
      ∧ pushesSinceExit c s'.logs = pushesSinceExit c s.logs)
    : RootRows d Occurs s' := by
  obtain ⟨rows, hrows, hoccurs, hempty⟩ := h
  refine ⟨rows, hroots.trans hrows, hoccurs, ?_⟩
  intro c hc
  obtain ⟨hc', hindex, hsince⟩ := hnotes c hc
  rw [hindex, hsince]
  exact hempty c hc'

theorem push (h : RootRows d Occurs s) (hoccurs : Occurs (leafAt s')) (hleaves : Leaves d s')
    (hroots : pushedRoots s'.logs
      = Merkle.node d.poseidon.hash2 (leafAt s') TREE_DEPTH 0 :: pushedRoots s.logs)
    (hnotes : ∀ c, (s'.notes c).Exited → pushesSinceExit c s'.logs = 1
      ∨ ((s.notes c).Exited ∧ (s'.notes c).leafIndex = (s.notes c).leafIndex
        ∧ pushesSinceExit c s'.logs = pushesSinceExit c s.logs + 1))
    : RootRows d Occurs s' := by
  obtain ⟨rows, hrows, hall, hempty⟩ := h
  refine ⟨leafAt s' :: rows, ?_, ?_, ?_⟩
  . rw [hroots, hrows, List.map_cons]
  . intro row hrow
    cases hrow with
    | head => exact hoccurs
    | tail _ hrow => exact hall row hrow
  . intro c hc row hrow
    have hgone : leafAt s' (s'.notes c).leafIndex = 0 := by
      rcases hc with hstatus | hstatus
      . exact hleaves.gone c (by simp [hstatus]) (by simp [hstatus])
      . exact hleaves.gone c (by simp [hstatus]) (by simp [hstatus])
    rcases hnotes c hc with hsince | ⟨hc', hindex, hsince⟩
    . rw [hsince, List.take_succ_cons, List.take_zero] at hrow
      cases hrow with
      | head => exact hgone
      | tail _ hrow => cases hrow
    . rw [hsince, List.take_succ_cons] at hrow
      cases hrow with
      | head => exact hgone
      | tail _ hrow =>
        rw [hindex]
        exact hempty c hc' row hrow

theorem exited_update {notes : Nat → Note} {c c' : Nat} {note : Note} (hnote : ¬note.Exited)
    (hc : (Function.update notes c note c').Exited)
    : (notes c').Exited ∧ (Function.update notes c note c').leafIndex = (notes c').leafIndex := by
  by_cases heq : c' = c
  . subst heq
    rw [Function.update_self] at hc
    exact absurd hc hnote
  . rw [Function.update_of_ne heq] at hc ⊢
    exact ⟨hc, rfl⟩

theorem effect {call : Option Call} (h : RootRows d Occurs s) (hoccurs : Occurs (leafAt s'))
    (hleaves : Leaves d s') (htree : Tree d s') (heffect : Effect d env s call s')
    : RootRows d Occurs s' := by
  have hroot := htree.root
  cases heffect with
  -- these push the root over the current leaves; only an exit starts a count of its own
  | deposit c =>
    apply h.push hoccurs hleaves
    . rw [← treeNode, ← hroot]
      rfl
    . intro c' hc'
      obtain ⟨hexited, hindex⟩ := exited_update (by simp [Note.Exited]) hc'
      exact .inr ⟨hexited, hindex,
        (pushesSinceExit_cons_quiet rfl rfl).trans pushesSinceExit_cons_root⟩
  | initiateWithdrawal args _ _ hactive =>
    apply h.push hoccurs hleaves
    . rw [← treeNode, ← hroot]
      rfl
    . intro c' hc'
      by_cases heq : c' = args.commitment
      . left
        subst heq
        simp [leave, emit, pushesSinceExit, Event.isExitOf]
      . right
        simp only [leave, emit, updateLeaf, pushRoot, Function.update_of_ne heq] at hc' ⊢
        refine ⟨hc', trivial, (pushesSinceExit_cons_quiet ?_ rfl).trans pushesSinceExit_cons_root⟩
        simp [Event.isExitOf, Ne.symm heq]
  | slashActive secretKey =>
    apply h.push hoccurs hleaves
    . rw [← treeNode, ← hroot]
      rfl
    . intro c' hc'
      obtain ⟨hexited, hindex⟩ := exited_update (by simp [Note.Exited]) hc'
      exact .inr ⟨hexited, hindex, pushesSinceExit_cons_root⟩
  | claimExpired c =>
    apply h.push hoccurs hleaves
    . rw [← treeNode, ← hroot]
      rfl
    . intro c' hc'
      obtain ⟨hexited, hindex⟩ := exited_update (by simp [Note.Exited]) hc'
      exact .inr ⟨hexited, hindex,
        (pushesSinceExit_cons_quiet rfl rfl).trans pushesSinceExit_cons_root⟩
  -- no root is pushed: the leaf is gone since the exit
  | finalizeWithdrawal c _ hexiting =>
    refine congr h rfl ?_
    intro c' hc'
    by_cases heq : c' = c
    . subst heq
      simp only [Function.update_self]
      exact ⟨.inl hexiting, trivial, trivial⟩
    . simp only [Function.update_of_ne heq] at hc' ⊢
      exact ⟨hc', trivial, trivial⟩
  | slashExiting secretKey =>
    refine congr h rfl ?_
    intro c' hc'
    obtain ⟨hexited, hindex⟩ := exited_update (by simp [Note.Exited]) hc'
    exact ⟨hexited, hindex, rfl⟩
  | executeChange target =>
    cases target with
    | settlementVerifier =>
      exact congr h rfl (fun _ hc => ⟨hc, rfl, pushesSinceExit_cons_quiet rfl rfl⟩)
    | serverAddress =>
      exact congr h rfl (fun _ hc => ⟨hc, rfl, (pushesSinceExit_cons_quiet rfl rfl).trans
        (pushesSinceExit_cons_quiet rfl rfl)⟩)
    | refundKey =>
      exact congr h rfl (fun _ hc => ⟨hc, rfl, (pushesSinceExit_cons_quiet rfl rfl).trans
        (pushesSinceExit_cons_quiet rfl rfl)⟩)
  | resume payment =>
    cases payment <;>
      exact congr h rfl (fun _ hc => ⟨hc, rfl, pushesSinceExit_cons_quiet rfl rfl⟩)
  | proposeChange => exact congr h rfl (fun _ hc => ⟨hc, rfl, pushesSinceExit_cons_quiet rfl rfl⟩)
  | proposeRefundKey =>
    exact congr h rfl (fun _ hc => ⟨hc, rfl, pushesSinceExit_cons_quiet rfl rfl⟩)
  | cancelChange => exact congr h rfl (fun _ hc => ⟨hc, rfl, pushesSinceExit_cons_quiet rfl rfl⟩)
  | _ => exact congr h rfl (fun _ hc => ⟨hc, rfl, rfl⟩)

end RootRows

/--
The pairs that are hashed for the inner nodes of the trees of a run.
-/
def hashInputs (d : Deployment) (actions : List Action) : Set (Nat × Nat) :=
  { input | ∃ before level i, before <+: actions ∧ level < TREE_DEPTH
      ∧ i < 2 ^ (TREE_DEPTH - (level + 1))
      ∧ input = (treeNode d (run d before).state level (2 * i),
          treeNode d (run d before).state level (2 * i + 1)) }

/--
What is assumed of `Poseidon` on the values of a run: no collision among the inner nodes, and no
hash that the contract would take for an empty node.
-/
structure HashesApart (d : Deployment) (actions : List Action) : Prop where
  collisionFree : (hashInputs d actions).InjOn (fun input => d.poseidon.hash2 input.1 input.2)
  node_ne_zero : ∀ before, before <+: actions → NoZeroNode d (run d before).state
  leaf_ne_zero : ∀ before c, before <+: actions →
    ((run d before).state.notes c).status = .active →
    d.poseidon.hash2 c ((run d before).state.notes c).amount ≠ 0

/--
A call of `finalizeWithdrawal` that passes its checks and has somebody to pay.
-/
structure Finalizes (d : Deployment) (m : Machine) (caller : Caller) (c : Nat) : Prop where
  nonPayable : caller.value = 0
  free : m.state.entered = false
  exiting : (m.state.notes c).status = .exiting
  windowOver : (m.state.exits c).exitAt ≤ m.now
  payee : (m.state.exits c).recipient ≠ d.self

/--
How the payee of a call returned that these actions followed, `none` while it still runs.
-/
def payeeReturned : List Action → Option Bool
  | [] => none
  | .payeeReturn success :: _ => some success
  | _ :: actions => payeeReturned actions

/--
Every exit whose finalization succeeds, or still runs, is finalized only after its removal was
followed by a full history of roots.
-/
def FinalizedLate (d : Deployment) (actions : List Action) : Prop :=
  ∀ before caller c after, actions = before ++ .call caller (.finalizeWithdrawal c) :: after →
    Finalizes d (run d before) caller c → payeeReturned after ≠ some false →
    ROOT_HISTORY_SIZE ≤ pushesSinceExit c (run d before).state.logs

theorem pushesSinceExit_append {c : Nat} {newer logs : List Log}
    (h : ∀ log ∈ newer, log.event.isExitOf c = false)
    : pushesSinceExit c logs ≤ pushesSinceExit c (newer ++ logs) := by
  induction newer with
  | nil => exact Nat.le_refl _
  | cons log newer ih =>
    have hlog := h log List.mem_cons_self
    have := ih (fun log' hlog' => h log' (List.mem_cons_of_mem _ hlog'))
    simp only [List.cons_append, pushesSinceExit, hlog, Bool.false_eq_true, if_false]
    omega

theorem payeeReturned_append (actions more : List Action)
    : payeeReturned (actions ++ more) = (payeeReturned actions).or (payeeReturned more) := by
  induction actions with
  | nil => rfl
  | cons a actions ih =>
    cases a with
    | payeeReturn success => rfl
    | _ => exact ih

/--
What closes a note: nothing but a `finalizeWithdrawal` of it. The roots pushed since the exit of a
closed note only get more.
-/
theorem closed_effect {d : Deployment} {env : Env} {call : Option Call} {s s' : State}
    (heffect : Effect d env s call s') {c : Nat} (hclosed : (s'.notes c).status = .closed)
    : pushesSinceExit c s.logs ≤ pushesSinceExit c s'.logs
        ∧ ((s.notes c).status = .closed
          ∨ call = some (.finalizeWithdrawal c) ∧ (s.notes c).status = .exiting ∧ s'.entered = true) := by
  -- only an exit restarts a count, and it is not the exit of a closed note
  have hquiet : ∀ (newer : List Log), s'.logs = newer ++ s.logs →
      ((s'.notes c).status = .closed → (s.notes c).status = .closed
        ∧ ∀ log ∈ newer, log.event.isExitOf c = false) →
      pushesSinceExit c s.logs ≤ pushesSinceExit c s'.logs
        ∧ ((s.notes c).status = .closed
          ∨ call = some (.finalizeWithdrawal c) ∧ (s.notes c).status = .exiting ∧ s'.entered = true) := by
    intro newer hlogs hc
    obtain ⟨hbefore, hnewer⟩ := hc hclosed
    rw [hlogs]
    exact ⟨pushesSinceExit_append hnewer, .inl hbefore⟩
  have hupdate : ∀ {c₀ note}, note.status ≠ .closed →
      (Function.update s.notes c₀ note c).status = .closed → (s.notes c).status = .closed := by
    intro c₀ note hnote hc
    by_cases heq : c = c₀
    . subst heq
      rw [Function.update_self] at hc
      exact absurd hc hnote
    . rwa [Function.update_of_ne heq] at hc
  cases heffect with
  | deposit c₀ =>
    refine hquiet [_, _] rfl (fun hc => ⟨hupdate (by simp) hc, ?_⟩)
    simp [Event.isExitOf]
  | initiateWithdrawal args _ _ hactive =>
    refine hquiet [_, _] rfl ?_
    intro hc
    have hbefore := hupdate (by simp) hc
    -- the exit is of an active note, not of a closed one
    have hne : args.commitment ≠ c := by
      rintro rfl
      rw [hactive] at hbefore
      cases hbefore
    refine ⟨hbefore, ?_⟩
    simp [Event.isExitOf, hne]
  | slashActive secretKey =>
    refine hquiet [_] rfl (fun hc => ⟨hupdate (by simp) hc, ?_⟩)
    simp [Event.isExitOf]
  | slashExiting secretKey =>
    exact hquiet [] rfl (fun hc => ⟨hupdate (by simp) hc, by simp⟩)
  | claimExpired c₀ =>
    refine hquiet [_, _] rfl (fun hc => ⟨hupdate (by simp) hc, ?_⟩)
    simp [Event.isExitOf]
  | finalizeWithdrawal c₀ _ hexiting =>
    refine ⟨Nat.le_refl _, ?_⟩
    by_cases heq : c = c₀
    . subst heq
      exact .inr ⟨rfl, hexiting, rfl⟩
    . left
      dsimp at hclosed
      rwa [Function.update_of_ne heq] at hclosed
  | executeChange target =>
    cases target with
    | settlementVerifier => exact hquiet [_] rfl (fun hc => ⟨hc, by simp [Event.isExitOf]⟩)
    | serverAddress => exact hquiet [_, _] rfl (fun hc => ⟨hc, by simp [Event.isExitOf]⟩)
    | refundKey => exact hquiet [_, _] rfl (fun hc => ⟨hc, by simp [Event.isExitOf]⟩)
  | resume payment =>
    refine hquiet [_] rfl (fun hc => ⟨hc, ?_⟩)
    cases payment <;> simp [Event.isExitOf, Payment.event]
  | proposeChange => exact hquiet [_] rfl (fun hc => ⟨hc, by simp [Event.isExitOf]⟩)
  | proposeRefundKey => exact hquiet [_] rfl (fun hc => ⟨hc, by simp [Event.isExitOf]⟩)
  | cancelChange => exact hquiet [_] rfl (fun hc => ⟨hc, by simp [Event.isExitOf]⟩)
  | _ => exact hquiet [] rfl (fun hc => ⟨hc, by simp⟩)

theorem step_finalizes {d : Deployment} {m : Machine} {caller : Caller} {c : Nat}
    : m.step d (.call caller (.finalizeWithdrawal c)) = m ∨ Finalizes d m caller c := by
  simp only [Machine.step]
  split
  . exact .inl rfl
  . next s hexec =>
    simp only [exec, bind_eq_ok, revertIf_eq_ok, pure_eq_ok, Prod.mk.injEq, reduceCtorEq, and_false,
      exists_false] at hexec
  . next s payment hexec =>
    simp only [exec, bind_eq_ok, revertIf_eq_ok, pure_eq_ok, Prod.mk.injEq, Option.some.injEq] at hexec
    obtain ⟨_, hvalue, ⟨s₁, p⟩, hfinalize, rfl, rfl⟩ := hexec
    obtain ⟨hfree, hexiting, hexitAt, -, -, rfl, -⟩ := finalizeWithdrawal_eq_ok.mp hfinalize
    unfold Machine.pay
    split
    . next hpaid =>
      exact .inr ⟨by simpa [Call.payable, Caller.env] using hvalue, hfree, hexiting, hexitAt, hpaid.1⟩
    . exact .inl rfl

/--
A `finalizeWithdrawal` of the run closed the note, with its payee in a state that `returned` allows.
-/
def ClosedBy (d : Deployment) (actions : List Action) (c : Nat) (logs : List Log)
    (returned : Option Bool → Prop) : Prop :=
  ∃ before caller after, actions = before ++ .call caller (.finalizeWithdrawal c) :: after
    ∧ Finalizes d (run d before) caller c ∧ returned (payeeReturned after)
    ∧ pushesSinceExit c (run d before).state.logs ≤ pushesSinceExit c logs

theorem ClosedBy.concat {d : Deployment} {actions : List Action} {c : Nat} {logs logs' : List Log}
    {returned returned' : Option Bool → Prop} (h : ClosedBy d actions c logs returned) (a : Action)
    (hlogs : pushesSinceExit c logs ≤ pushesSinceExit c logs')
    (hreturned : ∀ r, returned r → returned' (r.or (payeeReturned [a])))
    : ClosedBy d (actions ++ [a]) c logs' returned' := by
  obtain ⟨before, caller, after, rfl, hfinalizes, hr, hle⟩ := h
  refine ⟨before, caller, after ++ [a], by simp, hfinalizes, ?_, hle.trans hlogs⟩
  rw [payeeReturned_append]
  exact hreturned _ hr

/--
Every closed note of a state goes back to its `finalizeWithdrawal`. Between transactions, and in what
a revert restores, that call has succeeded.
-/
structure ClosedTraced (d : Deployment) (actions : List Action) (m : Machine) : Prop where
  state : ∀ c, (m.state.notes c).status = .closed →
    ClosedBy d actions c m.state.logs (fun r => r = some true ∨ r = none ∧ m.stack ≠ [])
  snapshot : ∀ frame ∈ m.stack, ∀ c, (frame.snapshot.notes c).status = .closed →
    ClosedBy d actions c frame.snapshot.logs (· = some true)

theorem ClosedTraced.call {d : Deployment} {actions : List Action} {caller : Caller} {call : Call}
    (h : ClosedTraced d actions (run d actions))
    : ClosedTraced d (actions ++ [.call caller call]) ((run d actions).step d (.call caller call)) := by
  have hentered := Machine.run_entered d actions
  have hfinalize : ∀ c, call = .finalizeWithdrawal c →
      (run d actions).step d (.call caller call) = run d actions ∨ Finalizes d (run d actions) caller c := by
    rintro c rfl
    exact step_finalizes
  have hown : ∀ c (logs : List Log) (returned : Option Bool → Prop), call = .finalizeWithdrawal c →
      Finalizes d (run d actions) caller c → returned none →
      pushesSinceExit c (run d actions).state.logs ≤ pushesSinceExit c logs →
      ClosedBy d (actions ++ [.call caller call]) c logs returned := by
    rintro c logs returned rfl hfinalizes hreturned hle
    exact ⟨actions, caller, [], rfl, hfinalizes, hreturned, hle⟩
  generalize run d actions = m at h hentered hfinalize hown ⊢
  have hstep := Machine.step_sound d m (.call caller call)
  have hkept : ∀ (r : Option Bool) (p : Prop), r = some true ∨ r = none ∧ p →
      r.or (payeeReturned [.call caller call]) = some true
        ∨ r.or (payeeReturned [.call caller call]) = none ∧ p := by
    rintro r p (rfl | ⟨rfl, hp⟩)
    . exact .inl rfl
    . exact .inr ⟨rfl, hp⟩
  have hsettled : ∀ r : Option Bool, r = some true →
      r.or (payeeReturned [.call caller call]) = some true := by
    rintro r rfl
    rfl
  generalize hm' : m.step d (.call caller call) = m' at hstep hfinalize ⊢
  cases hstep with
  | stutter =>
    constructor
    . exact fun c hc => (h.state c hc).concat _ (Nat.le_refl _) (fun r hr => hkept r _ hr)
    . exact fun frame hf c hc => (h.snapshot frame hf c hc).concat _ (Nat.le_refl _) hsettled
  | effect _ _ s heffect hsame =>
    refine ⟨fun c hc => ?_, fun frame hf c hc => (h.snapshot frame hf c hc).concat _ (Nat.le_refl _) hsettled⟩
    obtain ⟨hle, hbefore | ⟨hcall, hexiting, htrue⟩⟩ := closed_effect heffect hc
    . exact (h.state c hbefore).concat _ hle (fun r hr => hkept r _ hr)
    . -- the call would have entered the guard
      rcases hfinalize c (Option.some.inj hcall) with heq | hfinalizes
      . have hs : s = m.state := congrArg Machine.state heq
        rw [hs, hexiting] at hc
        cases hc
      . have hfree := hfinalizes.free
        rw [← hsame, htrue] at hfree
        cases hfree
  | enter _ _ s payment heffect hfree =>
    have hnil : m.stack = [] := by
      rcases hentered with ⟨hnil, -⟩ | ⟨frame, -, htrue, -⟩
      . exact hnil
      . rw [hfree] at htrue
        cases htrue
    have hbefore : ∀ c, (m.state.notes c).status = .closed → ∀ logs,
        pushesSinceExit c m.state.logs ≤ pushesSinceExit c logs →
        ClosedBy d (actions ++ [.call caller call]) c logs (· = some true) := by
      intro c hc logs hle
      refine (h.state c hc).concat _ hle ?_
      rintro r (rfl | ⟨-, hstack⟩)
      . rfl
      . exact absurd hnil hstack
    constructor
    . intro c hc
      obtain ⟨hle, hclosed | ⟨hcall, hexiting, -⟩⟩ := closed_effect heffect hc
      . obtain ⟨before, caller', after, heq, hfinalizes, hr, hle⟩ := hbefore c hclosed _ hle
        exact ⟨before, caller', after, heq, hfinalizes, .inl hr, hle⟩
      . rcases hfinalize c (Option.some.inj hcall) with heq | hfinalizes
        . have hs : s = m.state := congrArg Machine.state heq
          rw [hs, hexiting] at hc
          cases hc
        . exact hown c _ _ (Option.some.inj hcall) hfinalizes (.inr ⟨rfl, by simp⟩) hle
    . intro frame hf c hc
      rw [hnil, List.mem_singleton] at hf
      subst hf
      exact hbefore c hc _ (Nat.le_refl _)

theorem run_closedTraced (d : Deployment) (actions : List Action)
    : ClosedTraced d actions (run d actions) := by
  induction actions using List.reverseRecOn with
  | nil =>
    constructor
    . intro c hc
      cases hc
    . intro frame hframe
      cases hframe
  | append_singleton actions a ih =>
    rw [run_concat]
    cases a with
    | call caller call => exact ih.call
    | payeeReturn success =>
      generalize run d actions = m at ih ⊢
      obtain ⟨hstate, hsnapshot⟩ := ih
      simp only [Machine.step]
      cases hstack : m.stack with
      | nil =>
        -- nothing waits for the payee
        dsimp only
        constructor
        . intro c hc
          refine (hstate c hc).concat _ (Nat.le_refl _) ?_
          rintro r (rfl | ⟨-, hne⟩)
          . exact .inl rfl
          . exact absurd hstack hne
        . intro frame hframe
          rw [hstack] at hframe
          cases hframe
      | cons frame stack =>
        have hrest : ∀ f ∈ stack, ∀ c, (f.snapshot.notes c).status = .closed →
            ClosedBy d (actions ++ [.payeeReturn success]) c f.snapshot.logs (· = some true) := by
          intro f hf c hc
          refine (hsnapshot f (by simp [hstack, hf]) c hc).concat _ (Nat.le_refl _) ?_
          rintro r rfl
          rfl
        cases success with
        | true =>
          refine ⟨fun c hc => ?_, hrest⟩
          obtain ⟨hle, hbefore | ⟨hcall, -⟩⟩ := closed_effect (@Effect.resume d (.idle m.now) _ frame.payment) hc
          . refine (hstate c hbefore).concat _ hle ?_
            rintro r (rfl | ⟨rfl, -⟩)
            . exact .inl rfl
            . exact .inl rfl
          . cases hcall
        | false =>
          refine ⟨fun c hc => ?_, hrest⟩
          refine (hsnapshot frame (by simp [hstack]) c hc).concat _ (Nat.le_refl _) ?_
          rintro r rfl
          exact .inl rfl
    | forceSend amount =>
      constructor
      . intro c hc
        refine (ih.state c hc).concat _ (Nat.le_refl _) ?_
        rintro r (rfl | ⟨rfl, hne⟩)
        . exact .inl rfl
        . exact .inr ⟨rfl, hne⟩
      . intro frame hframe c hc
        refine (ih.snapshot frame hframe c hc).concat _ (Nat.le_refl _) ?_
        rintro r rfl
        rfl
    | wait seconds =>
      have hsame : ((run d actions).step d (.wait seconds)).state = (run d actions).state
          ∧ ((run d actions).step d (.wait seconds)).stack = (run d actions).stack := by
        simp only [Machine.step]
        split <;> exact ⟨rfl, rfl⟩
      constructor
      . intro c hc
        rw [hsame.1] at hc ⊢
        rw [hsame.2]
        refine (ih.state c hc).concat _ (Nat.le_refl _) ?_
        rintro r (rfl | ⟨rfl, hne⟩)
        . exact .inl rfl
        . exact .inr ⟨rfl, hne⟩
      . intro frame hframe c hc
        rw [hsame.2] at hframe
        refine (ih.snapshot frame hframe c hc).concat _ (Nat.le_refl _) ?_
        rintro r rfl
        rfl

theorem run_closedLate {d : Deployment} {actions : List Action} (h : FinalizedLate d actions)
    : ∀ c, ((run d actions).state.notes c).status = .closed →
        ROOT_HISTORY_SIZE ≤ pushesSinceExit c (run d actions).state.logs := by
  intro c hclosed
  obtain ⟨before, caller, after, hsplit, hfinalizes, hreturned, hle⟩ := (run_closedTraced d actions).state c hclosed
  refine (h before caller c after hsplit hfinalizes ?_).trans hle
  rcases hreturned with hreturned | ⟨hreturned, -⟩ <;> simp [hreturned]

theorem roots_invariantOn (d : Deployment) (Occurs : (Nat → Nat) → Prop)
    : Machine.InvariantOn d (fun s => NoZeroNode d s ∧ Occurs (leafAt s))
        (fun _ s => (Leaves d s ∧ Tree d s) ∧ RootHistory s ∧ RootRows d Occurs s) where
  init := by
    intro hgood
    refine ⟨⟨Leaves.init d, Tree.init d⟩, RootHistory.init d, [leafAt (constructor d)], ?_, ?_, ?_⟩
    . rw [List.map_singleton, ← treeNode, ← (Tree.init d).root]
      rfl
    . intro row hrow
      cases hrow with
      | head => exact hgood.2
      | tail _ hrow => cases hrow
    . intro c hc
      rcases hc with hstatus | hstatus <;> cases hstatus
  mono := fun _ h => h
  effect := by
    intro env call s s' h _ hgood heffect
    have hleaves := h.1.1.effect heffect
    have htree := h.1.2.effect h.1.1 hgood.1 heffect
    exact ⟨⟨hleaves, htree⟩, h.2.1.effect heffect, h.2.2.effect hgood.2 hleaves htree heffect⟩

theorem HashesApart.leafAt_eq {d : Deployment} {actions before before' : List Action} {j : Nat}
    (h : HashesApart d actions) (hb : before <+: actions) (hb' : before' <+: actions)
    (hroot : treeNode d (run d before).state TREE_DEPTH 0
      = treeNode d (run d before').state TREE_DEPTH 0) (hj : j < 2 ^ TREE_DEPTH)
    : leafAt (run d before).state j = leafAt (run d before').state j := by
  apply Merkle.leaf_eq_of_node_eq _ hroot j (Nat.div_eq_of_lt hj)
  intro l k hl hk heq
  have hlt : k < 2 ^ (TREE_DEPTH - (l + 1)) := by
    rw [Nat.div_eq_zero_iff] at hk
    rcases hk with hk | hk
    . exact absurd hk (Nat.two_pow_pos _).ne'
    . exact hk
  have hpair := h.collisionFree ⟨before, l, k, hb, hl, hlt, rfl⟩ ⟨before', l, k, hb', hl, hlt, rfl⟩ heq
  rw [Prod.mk.injEq] at hpair
  exact hpair

/--
In a run in which no exit is finalized before a full history of roots has passed, no root under which
a closed note was active is known any more.
-/
theorem run_closed_root_unknown (d : Deployment) (actions : List Action)
    (hapart : HashesApart d actions) (hlate : FinalizedLate d actions)
    : ∀ c, ((run d actions).state.notes c).status = .closed →
        ∀ before, before <+: actions → ((run d before).state.notes c).status = .active →
          isKnownRoot (run d actions).state (run d before).state.merkleRoot = false := by
  intro c hclosed before hbefore hactive
  have hgood : ∀ before, before <+: actions → NoZeroNode d (run d before).state
      ∧ ∃ before', before' <+: actions ∧ leafAt (run d before).state = leafAt (run d before').state :=
    fun before hb => ⟨hapart.node_ne_zero before hb, before, hb, rfl⟩
  have hinv := roots_invariantOn d
    (fun row => ∃ before', before' <+: actions ∧ row = leafAt (run d before').state)
  obtain ⟨⟨hleaves, -⟩, hhistory, rows, hrows, hoccurs, hempty⟩ :=
    (Machine.run_invariantOn hinv actions hgood).1
  obtain ⟨⟨hleaves', htree'⟩, -⟩ :=
    (Machine.run_invariantOn hinv before (fun b hb => hgood b (hb.trans hbefore))).1
  by_contra hknown
  rw [Bool.not_eq_false] at hknown
  -- The known root is the root over a row that was pushed after the exit.
  have hmem := hhistory.isKnownRoot_eq_true hknown
  rw [hrows, ← List.map_take, List.mem_map] at hmem
  obtain ⟨row, hrow, hroot⟩ := hmem
  have hrow' : row ∈ rows.take (pushesSinceExit c (run d actions).state.logs) :=
    (List.take_subset_take_left rows (run_closedLate hlate c hclosed)) hrow
  have hzero := hempty c (.inr hclosed) row hrow'
  obtain ⟨before', hbefore', rfl⟩ := hoccurs row (List.mem_of_mem_take hrow)
  -- Under the root of `before` that row would hold the note's leaf.
  rw [htree'.root] at hroot
  have hdeposited : ((run d before).state.notes c).status ≠ .none := by simp [hactive]
  have hindex : ((run d actions).state.notes c).leafIndex
      = ((run d before).state.notes c).leafIndex := by
    obtain ⟨more, rfl⟩ := hbefore
    rw [(run_note_kept d before more hdeposited).2]
  have hlt : ((run d before).state.notes c).leafIndex < 2 ^ TREE_DEPTH :=
    Nat.lt_of_lt_of_le (hleaves'.index_lt c hdeposited) hleaves'.length_le
  have hleaf := hapart.leafAt_eq hbefore' hbefore hroot hlt
  rw [← hindex, hzero, hindex, hleaves'.active c hactive] at hleaf
  exact hapart.leaf_ne_zero before c hbefore hactive hleaf.symm

/-! # A note that exits alone, and one that exits with neighbours -/

/--
The commitments of 15 more notes.
-/
def neighbours : List Nat :=
  [
    8645981980787649023086883978738420856660271013038108762834452721572614684349,
    6018413527099068561047958932369318610297162528491556075919075208700178480084,
    9900412353875306532763997210486973311966982345069434572804920993370933366268,
    19065150524771031435284970883882288895168425523179566388456001105768498065277,
    4204312525841135841975512941763794313765175850880841168060295322266705003157,
    7061949393491957813657776856458368574501817871421526214197139795307327923534,
    8761383103374198182292249284037598775384145428470309206166618811601037048804,
    5199363853932272446084541931873785938987820779897294035064941545455873932186,
    17853941289740592551682164141790101668489478619664963356488634739728685875777,
    1979475358490882782695234604362398132934050455360496620085373760138828661113,
    19104626566001952573667666924569656871967113105870778077087237826253896482830,
    6928845888259828909669604846312404956207203455827329923165310408530846220384,
    19546568483915283810550809554580464477113083030130342494947037538790150540493,
    17064854037562012747959882209803135369966977028940686905541119837393082414095,
    12180272036175378465127050718855266296032402528610876763493526272972494216626
  ]

/--
The nodes over the leaf of each of them, from the leaf up to the root, when all other leaves are empty.
-/
def neighbourPaths : List (List Nat) :=
  [
    [
      1718170426189756660835366346414323744461028737730238208155081904252758427053,
      7679297096220830438044022776680169850715422614992583017830936603563446080570,
      10351515467700028506859041948644597939205673401456713004142968664320258778514,
      4477546955680872593888175292777485378995010328765102144474744639308007006654,
      9235688870009212450948226488196133443621539744084895103423046524132871696850,
      11554840692751518322634256181236273560679884068243168643984370361025722364298,
      5542108075589059276044071628741658533328439190510231132479900476948156113988,
      14509732354528135813325638372609814886878645840410533202950574470112897834375,
      6323149171417223842966237253568959153056850286684557890345401484939918373136,
      6638342445811708908290984681036413078076991547651411810691253205369011322089,
      16410206039176648854792520248263709626698170227190674472711525452443425123847,
      10878323144612796735250645583319322552199028678239523377036339457033570410569,
      20086850142876932316988729409429905949698692894929795861942533285289410014991,
      8638263613395759848178561997163550202074687108841597261191496116555237156072,
      10272193352989644586182340451321821149738374785556457136900594124214695410134,
      6748789209512363842866262602907126592905036371188446717099683287437919481329,
      2315406790443556048806439543371608140463747053873597276560402309410743702124,
      9958179075886355947275884011215687014673158442779044948755480857306738243369,
      9797983601977892195950516524976139415344163093702494343614099361054850527783,
      2479737427535731988915948811444760536813888807943289881102822101788875174960,
      2694938950539767777390211624372438129971605888880786872857371467716064175639
    ],
    [
      14913785348355340926319299110388122730597597475781638895609861984716222431371,
      21272275050315709394289884219088851948053989407862316877265770713763642433862,
      11539872735891833379992527381330941523319574394704764015865436513380442789224,
      3749840945916501120436751838648094186227034918576253731595144032263196584597,
      11193274587357538377518679671731633639558924603248645745110671627290270451886,
      478990956854971761514863242984325837493861386334039235982505702182170004485,
      2856047368409599087871932188201181881111472225628724301252952480946895150602,
      256301119404057364838740287352600942249121059974424405208063051953266062247,
      13980661106007943327681342108340354805397703392108246698928946300305662880066,
      17631025039274027910787409046091736746038357847706504198121250655694198049597,
      2092163223652725709829321380000315107785432882851949092386500520556340800073,
      10351901032362040438486293112496382858904691635787587456394885490798842875807,
      17303750710054302074818812399105735691091330741965967424196797599098009874291,
      16718500710426001486049385970160405547219796209881344463679394574552674255761,
      19620303277040091860457950161905375261431091251649704611993827991482540224509,
      1982779437592102009081097527999491411945845899831393130364210063639961950404,
      1897751601955286833237940416113449995236684648318200345458243088609760914690,
      13859754488788895502205467167744637635489820718672212072245905680104618570505,
      13951951622971594366796875657297163862818782869579675415517181112950640012272,
      7904169370320711658876373648366994065585062987997653011032904500017445400640,
      15006959652548632830444036739327309950580583232797301354853973943714698945983
    ],
    [
      14924899284047762392262950912303710286020280036422407058460348451607772979214,
      20346938794040153055849585482293023140860674607008133717487606517108261752763,
      9673342676429671029460917517362845972749004582355085817691382460497333541091,
      5905965619985272340821668654020856527193248501038879179624730955322101055684,
      219368352973088775252501316691749294434610127760579378449367618163185376494,
      3180580385844223546420183578802931626784144541776052163026311183884246727233,
      8276541682937082219471635523632705971732766890379108297984420269189437943122,
      1912979241504040228673431721350099241987661834030658879882124152982240398252,
      16934077293397561839585628384916200058696473280110813405982171362100432063520,
      15922958021180802504164361936647625515810191475712733549954494711629195310957,
      21709909882415763720499429073943996613756239576307342333388465930244628669872,
      17583382105071293836704226401015495771956755376669632636333703912440519387550,
      11362788936331780850945788389810401152901324465558933102134448465259238265432,
      13211179446080659756081683796142771995517792175582599169460966720516797358793,
      16320762641354503384330842263184531095485162798553466419768247047787359664007,
      1419196279325902717312191839431912391138191801310736414317392433188660268493,
      14292660665211361113933073745707216638813598550909300230475366719024751086380,
      20558575472273359979052191531526614366206889055120056740061233775691237859282,
      18739984913312338937138473838376522936605820062559119306600811061962643490308,
      20213446928174454171626668101695433267090283343549336870663238098695094478570,
      10225549125430987879467529909696301102216633091507465605657223445423905604460
    ],
    [
      2243409930193859671504927048122246176173981768767640971375618751474100042156,
      5475176691633911352920224268870485491137370484724394594553877558430278691888,
      18090393315013501916579778339633873615759038387012528655942944441670294144232,
      16494389396978612879621502635127154364970194010844636353815568572227866611088,
      10603667765405742840649095088039523462035483082020556223213198532309292354712,
      19754338395236024252386347350162544688759251919710249339647439197129331675335,
      14783906906020623374262156792195697860576416345320760953363929096890073844619,
      1866497607480220749250686602229017899618089903013708955716729143384900952906,
      8283474849619373520111639290948778055740535451559827828611068441549842206477,
      3880273072231023130469236633517466365914263001797784885044412825988662422474,
      3563093830101506822072738005760581606598463698482031067906098115899933596371,
      15634875312263370719791924754216582241206682397115198450715598904805040997913,
      16981858948281700094438427129708849252574113021643927025001109711319224759528,
      6947446024470384894332725453156204963522782431905762219822931168895637684934,
      20810684868465744971140900144536972746783737226940435598601063992825569529658,
      14565501131294148620339657528775102817040744819555630821076694756777258920667,
      2424330744975104182053329751128025833085043451132953451593867455534744539987,
      6870658288805512469757760581066572921663614668807902565101928797369497162039,
      5271159712667603150363769232338218416840197830321209545499019415152149973445,
      14397646284950154663246972826170074540900428417701046871946135055564149391969,
      9401570220127183744119516987174232665748475886609478081017702114361535671987
    ],
    [
      17985961702676769617498557729171832402732660742852956192378033982118558677039,
      15657210094855125546197409856978291344777118609011625108697588981896048056519,
      15058238894156189346218828073309897699824896548798230519358038408919611644706,
      12594084731940693338262650871826947370034419824140289075380304976960453754551,
      6001835961815715875947373589503613297790629832519197854019708696495166103597,
      8575174740147915609375613534798603701981650976509594159368132476665139588226,
      14386215692737131364105493887336838462700804035790019403964715396088553753932,
      326797756321622104817279242502095276876464365303169643789356669822034842610,
      3714773522323609896538568979612275344013426984426727878227120517367945540346,
      8048024573796964370298283079069689627077959489233559718746679807151485573568,
      17268700519315573228647500065448580573319875872304974780022785830259740452918,
      19571590707239386127287142333086229075804763149635251602848151596108106524821,
      16285131355655111760983603263307591353964807056761141211580122048821406608697,
      18556701745068708003080738586345079480005162810122980793395864294447628695566,
      5835495331786756142759157830548801422445953895260255302436985679942866026005,
      21399099284566943204531343294678941710407233155450020468925682000604205857939,
      21140936787572323089781627492825034128226283386254148663355371609265695780651,
      2009213661106159179160082301995895379928900911373621780569721728160992745442,
      625522897062550932571862705259794139123028755053948498860681765439056509724,
      12735310973446026808904906342266897040866523655487197904282595251835860934868,
      9311700893614071696811030080383892310536547482618126480036568558333371648596
    ],
    [
      8709317897567933706577077942119514415457344748946357625475260675248613129356,
      12534894508931832889822131392219095647281131301752201797433412214302128421215,
      18019976844551977785485938230359693446969711061091133348285614958102983629387,
      13987519189377406494882811712059487827444181511305847551259633464009764854060,
      21161464270976417733856147268678078816937001861060795501528447850305167396090,
      13500570543712243682009807606487086890827729196975575881431156295302265200245,
      12154583488999283127501080535042484165417100467034230657742985485506026400115,
      13641445226820748641487471133868004382901508956438242834385530872437285706747,
      2383855563759900897961517277597865262562793074703413443736677084857325059003,
      4921851083014016561513995515648473860648687575406414899364138454041826061379,
      5674850056806225022499388192836871695423848024295936592759277404639833535229,
      11786850948002180522781314037021958043905490711069707735307967576765765335823,
      10075080892331617306888541853597338620969828995030778207338113900629679763590,
      17490660546027580831237829902600133553627340701376624701816655169326591867826,
      11355129880937985680866464180562435825080965710631654486333974733110334061289,
      3313328152359785255794613647558502773058605362720398627160117151223737975254,
      5216233644592127501715037412288779705703393419858648348485953921918815065470,
      13613491661422780086307657318897599045510803708569059036525382472561474963869,
      20840381363902186537116526731649462317730207623815370965132242828134022618929,
      11794795863244211948898247717641714558093737699469614704536775290847221488887,
      12508916556241373682174846053821608977925817377324178467419732034753261780135
    ],
    [
      15474384840411428167207372507842167009148226321610914101647532126691852206084,
      854300155409136482413118795853956200578122836256392771615900567089953275353,
      16854682740626853194173214589798103978844160600565870357260232065461095974718,
      9893859538072178284637917302431668041050971752027995271442737601662377034437,
      6812544662291089922634542632984502844655099524483881078511488761252827945490,
      11664846998415652893426464309693677453020544601285087314843229510235112076184,
      5291080021175884083774550055785410180348301241429482562458724279740221924463,
      1557748638403741989641429359347491380117422808021259001754502915536552431679,
      1688019495445212402821329728400812288841383881402939180384615844874140578164,
      18834979400711677399317188962414740046619147776524283363950133083918785441366,
      2532800060800662191028003844893230671329019669161912070271724438765054188135,
      4448390550903565829243838490098070459727699252961349084916923046360932638211,
      7961320310427439729311658465474445132473678789677843469513028083364899858413,
      11446983866687292335509641233366472588577348380319899874014692731767698508302,
      4146652796079161894469097771418468124090816887731507385165352060773052451087,
      14804819860711585954076442049880318192410601545938394035034020857386024686503,
      277545889184598439834020856109989379405582484479794315635958531502427790626,
      16938626132253048063666961915389979917654049920056013318323222199414361060953,
      7237180917390342459417739343625882755931248582745928667246236775259624307947,
      14248622965653989114827148329797432764806152238637344123917242937152390543441,
      12877866954643762919549340294116894664928415689537608922226794423363465502216
    ],
    [
      3797817801615037499623418233888925331456740706535696796338706590679052068302,
      18146000525292523991021919843202971597066485329180475545342343278226146683616,
      4900329283232982313473658054277876914890005526941450242039367822488154314929,
      19156766547252725132205913362956071134694756158482204326681949238774863837450,
      1085712447976223752456857707361613089471606747890167032594557642315480916397,
      5143203648527658328753036562664704724355365157603249977937161604524532314774,
      1942442131202356423695388524599909360415095980278176452992669632978864291293,
      15335566862220570374446245324571295531516557120749130735694919726322397182091,
      6635796820705930939502585058942823909253477902642061791100163089565265735760,
      5845949563720203738486617754384930014062985336027683569915792450421393600221,
      16296661370755609876461360629510523757218543813978153666260768607913600002686,
      3812283447423271361213634166333291806475716421924234354767277053845185321180,
      20417246008859098021879639644466621318012397183458556860747900699338809961734,
      5455478631785924659436922900546906417241097071997109432011340063447830677257,
      1405034695425801254212633095508512560529690171936092759742506737074395243408,
      2336143872754200012546155712876942802243161743203533094033910082133093126092,
      5144931986524041634001713161670581769189601157597497070487406522536146141089,
      1207598283538275144525799053243877993873776787662130568347880416610473426977,
      35648015142611819844395858344391697304259730887293038966142319111483977653,
      1042911303294913235580875794819546733022673901217415304442682157768343173699,
      18885429572930574674416057999528294168688219481264243795504754579766512889354
    ],
    [
      21219430262016942419115536611940819028073170229531312061436560434413860480488,
      222603762541782619689434776412383991548134248102830987929406017932335496376,
      19419240144604203823781927807815511847746986208914336772955862979737229982516,
      2644969218117533527367915724976645204050143827535269015391732237184521662622,
      3873714006626200129473963407277121203753556896108908883621342861468647456318,
      12436419690280149207352618858544880334191435861300368512580523143055849137789,
      1223567257508240853121004524120581809484408213072273286112679798087509056592,
      15922758491671690343230590030476755714749048343442658541870020651532263117934,
      19277027264133039101348632044658578201559827621489135599302333665341858240026,
      3124470777123604294090451211137149942905611510169232167218437904554728060114,
      8868461761554765963588752939535631486328992030943167859989665615114871320887,
      18686039616107720352655273183749481357446806524196625950270071215941545749993,
      8327868825251281965820815859914023638323662363011243136655057021163773662441,
      8705511612120612082374861589963022291011266738082595589911387131443789873076,
      7550415699335911482439351851170116222081773772334623700231943031144725623321,
      17995993136977369868711606624879422045014383631777698312986645706046707201483,
      6686352633452627256944593206193733984906911427068103340735643335193871788689,
      21576174436341877950923731889530235370833597265541745268854581806408540199986,
      4480119010686899964233474571858336688039782655045597551611935855270521077386,
      13938535316434021186923449751033695208114682352146446414649819994757483144562,
      9048427717720619973313433718562571440475073222096531562454571284140455552701
    ],
    [
      8062653644507306786083618148642798253334065886809425339961822930482409945246,
      19833830521134464952231165219601343136145404623961657687067989725278145307954,
      4604550800732343273197466498754498101315511507821840148348406196800268599393,
      16414968360842469663160733247218105705862148739071448443148294979888990957703,
      7420271585661777527877165475634573832599839216403853992356772137314012808173,
      15232412628692250837382202300615371189303175553338665440269207354544217892211,
      11690596321870012283305548888104529874571854712039332016476917971228036185966,
      18171692408605502052754103487429563818151121309449739319791699857060894862747,
      9633939055321968484624075193034232519169010921117865630488009106615989702186,
      15949838916323144687487231232145989031243481535987845984981478853472329361302,
      14939409025072511985832544267869576672364219898004606181584822975137773846596,
      10199672617679132100205123914861014393944838050464291699519218208253969802707,
      13869516423344139169241932603237003182420812012524854514468399171031791240033,
      20439915256696834658454927788829604484569418647276282460315042351293706849721,
      4221882977508725332033390683086227398923366958516722965465229786689001736148,
      19731365794950448032569704887218786864391766047016930182697331444044891980196,
      12279541510002674949779782506151434537279401896260728448778533854944359246780,
      21664665781207062260661890962685381164750422660339184283053779830040629797263,
      8974904162626402778826899735742498650072118382026123709428957458424530736547,
      15473056794628509572484392355188771445941575995277114968421413362613743888670,
      18169677512928647932310442761766620688746371660705639497343873659025605299186
    ],
    [
      220298107272958957245361920741846308557587881314366518826748751122441196851,
      6274434606675662913354747412634111060681010394494507339642105771619349813727,
      8600585719085731559213349592202172495669706573486964801056521799676488266094,
      8741170215738895063846237821980744514510558961096125510199811294278255712581,
      13928355372149066598278337814313076538930661258861612775795530377764773280514,
      19181491427428123942739049300677277118241300104848459502922002301273986234959,
      3836313303554779533826962188127962576413537133218739156256485026700592968204,
      732517709748851362652470516892496067754222514154713653990305142875484580900,
      14172862997618769559162888610405934708169780080666117809360373200096362889727,
      346434858881343737155264007601674989237319135608095063844058505798270877693,
      11677707559378553286688447711224908529566036258853188798409052572547951070270,
      11349357340260498213396114275070683542561495334196775889985618137367958021832,
      6829539754269938272378863006941568067432359187139968985836346945195636329353,
      7633808258665567362417287985647919672500672640311515567894548534244996885687,
      10387388505980750873883588865279970360597864625367731997586202737592498999486,
      17390266007061154776717695582276445871852500311247081996792561045172481874772,
      16026260442207647992249237529065085250578413381833673957785867071906061441569,
      19054127245266860975704617906407711546131483632858266405480434442259100599739,
      10451548308911651841102157474390253955982402728347653880774276395420843646260,
      20631507277631886792531404309163964413762513767665410277300377475909798657092,
      14864542946166988817208947135752686967107669923246777190099411939017845590823
    ],
    [
      282887520799971667504289659685552221891822956525236945979731196465332098785,
      17954537077190110439782852435730095739518122679532534040326767730620591024949,
      622223429306825260173731680132317759632325282142720598550366933993500307041,
      17083393057414143173727973053707126636073699950926150215989123790959106997216,
      14858963399564768121499730639161987730956617923399275676876607658183707715769,
      4412750934251307698729996570051022621520537888511522989069621174804196650832,
      17338430944486041845640960806127498436497515841530618501001551458460340556836,
      2654660243390427235785450120000808745052627557546425806238607662703987849505,
      4028903942439737479323338304052205846940537363694640321693680800671151636342,
      939115951219983368278660061325211780305373147369908757055014773150059041888,
      10200336095983113414582173271051543546071480975534593062003400315821445208807,
      5660522755598754010095139848031271704105555620856444289925790164592562808550,
      5518243143243818245498664840991822234212197828917442323322250625373933364003,
      2969584131124992583759236807549666387861223883631179300057444312601736421366,
      14925988155658326666768427372265670489993678767162613615664675569849945239589,
      667931181789113273534806250574381592000028391235301676675151377672021549032,
      8806629669956234032485166197954837456537922096008277202821218897209155615117,
      9936767146452409039093438897963162260469633025147034765546210939329063784290,
      13170645236544975197418314566772779926761556376678835862346024051646317185728,
      17960570099152137548309252306164531864607662380482721133047971655290568583287,
      4268114832485453248118937081595817741306094884965294098581126516523551381669
    ],
    [
      12770302773453693592637187597647538042914837812417184543053230681028464098329,
      12532991925439008274833979740871000994277337089830693235160704431277156035158,
      13610689384274304160788568162515304108061967071273873014572346203285033899802,
      21106387937794320878952675657950288589429443729931760212051251946729796632080,
      6959309759078826890866972810982086913657702237438899528351847678596167702862,
      19081580576987827351391450919066554042821815572964244305050466024605061127211,
      2656056273462491400729370842527113438425087885297215132296012346776685096475,
      24879892997061443394854009916109736686229143782841329921115995792178116851,
      15932162972134133906020123248035715613415841966481911607906892075789843865041,
      1342197939276862164553546699249370308548702386144505910368149308614733822594,
      11135045920561667638336253308701590914092728619110248046059268636427267779147,
      857124073309150298838848743704490820662707758535904305955999546591833990300,
      13472760310879346567130384770616579623523025025582722846633528367752995899868,
      13621147554586690429862200473401703884237540979232864527449143403766310091040,
      6286816349925067076754201148013704962552100923670868127651817036969634702644,
      12399613013813999417256301182666734940968440284940456767277088634429091460160,
      3571752521930156739002351084955686867310784384200674746261574501870019003475,
      19694992223215738712543855572622189139834514393772393006494139468222265788096,
      11953453838324338049335514614598866128499379879340995497560762047153470902061,
      17209657921814925750520351695713901514963636630533224100670299028715408655283,
      4143376840313433617175239612526548811810234005001363184320326572741624096486
    ],
    [
      10238918724728783178406996293510510885407142762468450054040794502338080379628,
      17240210677911538503059246623566944179397712792934900755613467800522174102038,
      2462702237664360070524852643606081691238428824630768784812581223735365467081,
      14573071643906190985398235858938482173423951404627268714725641169031119448744,
      19182753396831712718307063136384302966163576116142122890919099461576226117130,
      10257270497806237441541904510567309144596944309115579805877959392327269984253,
      4063181976432406405177843485031328442800142077694501842429499854955291721988,
      1900396002868685651749963420426006586907519672364233756732598790478628362685,
      9938266659145172975669412741287481551674654403591231606955347677431521084339,
      11400154303868206693474122900814859273507011275186924881447345836188854151603,
      8528250697424344436775678024778481063002713859037072774945184324318406322934,
      6344729211438894650372439277589450959668937085156161780265945767976413956286,
      11208717936621351646890577314147375532950987865387261464533115893160366088424,
      15902557417133404909081453730869076887653064970388255803852655049921318700845,
      14445300212778883133346518654584798936263355676506234001413462134826173950980,
      12699342469872521872650573941558476256103397167479975414199155567696865640707,
      18268764908669909073572471407840573265646986128776896349318041293738565160935,
      18298523789771576692566632052357586088715117865961783422011186642809146935773,
      6340796965637034527099023127029934586335660378182707442222507052488668476667,
      7256547459961818562166825242008345214368568281959202347150279251790398893764,
      1847591449204636792788751986881842555593899091713064187075312325631921213559
    ],
    [
      5907238559695527175837338472434227232483922296571203613205603144353101286060,
      6659820869525997811905362666803781551155679200493529708598813473308108920362,
      11429198074078179772340945332066882948896140045116251364407169561560076397378,
      17585425495604530972063896098098351843668688740880269154161075652202738651162,
      19282045352757355846823623120583666190222281204065145837942619943745421837729,
      765831123703092185178272828248124863236465328269320650013176620706937228965,
      12192453948898522086454616363926679714685136529123718494966565151619428058300,
      5997394329607759657896727649300477486084181590789886887673214004570513665119,
      10614862486335511724194466395910916197949488655255855544725047038693964710082,
      2078198176274190726066607992510498362223309027334009913044139928487662134768,
      3584632412200979719029432589075782043779587741199223948957832131847060976547,
      14446819769091903598088409745986865289594268227287162457488933586280342717253,
      14108768265190691422141484363280336704740031351568576921109831041477494552317,
      17698388523031425043425531854620275894741381136019316927838999726178504348835,
      18550449307634052713504100395125059189064953793297914785749068953172049324648,
      16310810499806168139246939763285633499790435001339049819182040903410613648489,
      18378131276231892311821371953380043706928605685322464239859458985038582754594,
      15725724477373657129211196272008603691061795377741725388889717640454237574154,
      14702882850348807493579557468781428740533740519350104082874461546758348251226,
      4464608805855580784773788931016694387114409058489544011575803267321817840036,
      204272986700697784360679462467582300028380772756492330014373404592499800410
    ]
  ]

/--
The node over the leaf at `index` when all other leaves are empty.
-/
def pathNode (index level : Nat) : Nat :=
  ((firstDepositTable.map Prod.snd :: neighbourPaths).getD index []).getD level 0

/--
The root of an empty subtree.
-/
def emptyNode (level : Nat) : Nat := (emptyTreeTable.map (·.1.1)).getD level 0

/--
The two children of that node, of which the other one is empty.
-/
def pathPair (index level : Nat) : Nat × Nat :=
  if index / 2 ^ level % 2 = 0 then
    (pathNode index level, emptyNode level)
  else
    (emptyNode level, pathNode index level)

/--
`Poseidon` on the way up from the leaves of the neighbours.
-/
def neighbourTable : List ((Nat × Nat) × Nat) :=
  (neighbours.zipIdx 1).flatMap fun (commitment, index) =>
    ((commitment, 1000000000000000000), pathNode index 0)
      :: (List.range TREE_DEPTH).map fun level => (pathPair index level, pathNode index (level + 1))

def exitTable : List ((Nat × Nat) × Nat) := firstTable ++ neighbourTable

def exitDeployment : Deployment := { firstDeployment with poseidon := .ofTable [(1, firstCommitment)] exitTable }

/--
No number of the list is equal to a later one.
-/
def pairwiseDistinct : List Nat → Bool
  | [] => true
  | n :: ns => ns.all (fun n' => !Nat.beq n n') && pairwiseDistinct ns

/--
No number of the list occurs twice. Only numbers with one remainder are compared.
-/
def allDistinct (ns : List Nat) : Bool :=
  (List.range 32).all fun r => pairwiseDistinct (ns.filter fun n => Nat.beq (n % 32) r)

theorem nodup_of_pairwiseDistinct {ns : List Nat} (h : pairwiseDistinct ns = true) : ns.Nodup := by
  induction ns with
  | nil => exact List.nodup_nil
  | cons n ns ih =>
    simp only [pairwiseDistinct, Bool.and_eq_true, List.all_eq_true] at h
    refine List.nodup_cons.mpr ⟨fun hmem => ?_, ih h.2⟩
    have := h.1 n hmem
    simp at this

theorem nodup_of_allDistinct {ns : List Nat} (h : allDistinct ns = true) : ns.Nodup := by
  rw [List.nodup_iff_count_le_one]
  intro n
  have hclass := List.all_eq_true.mp h (n % 32) (List.mem_range.mpr (Nat.mod_lt n (by decide)))
  have hcount := List.nodup_iff_count_le_one.mp (nodup_of_pairwiseDistinct hclass) n
  rwa [List.count_filter (by simp)] at hcount

/--
The entries of the table are below the modulus, with no input or hash twice, and the paths stand in it.
-/
theorem exitTable_facts
    : allDistinct (exitTable.map fun entry => entry.1.1 + FIELD_MODULUS * entry.1.2) = true
      ∧ allDistinct (exitTable.map Prod.snd) = true
      ∧ (∀ entry ∈ exitTable, entry.1.1 % FIELD_MODULUS = entry.1.1 ∧ entry.1.2 % FIELD_MODULUS = entry.1.2
          ∧ entry.2 % FIELD_MODULUS = entry.2)
      ∧ (∀ entry ∈ exitTable, entry.2 % FIELD_MODULUS ≠ 0)
      ∧ (∀ level < TREE_DEPTH, (emptyNode level, emptyNode level) ∈ exitTable.map Prod.fst)
      ∧ (∀ level < TREE_DEPTH - 1, ((emptyNode level, emptyNode level), emptyNode (level + 1)) ∈ exitTable)
      ∧ ∀ level < TREE_DEPTH, (pathPair 0 level, pathNode 0 (level + 1)) ∈ firstDepositTable := by
  decide +kernel

theorem hash2_exitTable {input : Nat × Nat} {hash : Nat} (h : (input, hash) ∈ exitTable)
    : exitDeployment.poseidon.hash2 input.1 input.2 = hash := by
  obtain ⟨hkeys, -, hreduced, -⟩ := exitTable_facts
  have hnodup : (exitTable.map Prod.fst).Nodup := by
    apply List.Nodup.of_map (fun input => input.1 + FIELD_MODULUS * input.2)
    rw [List.map_map]
    exact nodup_of_allDistinct hkeys
  obtain ⟨hleft, hright, hhash⟩ := hreduced _ h
  exact Poseidon.ofTable_hash2_of_mem hnodup h hleft hright hhash

theorem empty_eq_emptyNode {level : Nat} (hlevel : level < TREE_DEPTH)
    : Merkle.empty exitDeployment.poseidon.hash2 0 level = emptyNode level := by
  obtain ⟨-, -, -, -, -, hstep, -⟩ := exitTable_facts
  induction level with
  | zero => rfl
  | succ level ih =>
    rw [Merkle.empty, ih (Nat.lt_of_succ_lt hlevel)]
    exact hash2_exitTable (hstep level (Nat.lt_sub_of_add_lt hlevel))

theorem mem_exitTable_pathPair {index level : Nat} (hindex : index < 16) (hlevel : level < TREE_DEPTH)
    : (pathPair index level, pathNode index (level + 1)) ∈ exitTable := by
  cases index with
  | zero =>
    obtain ⟨-, -, -, -, -, -, hfirst⟩ := exitTable_facts
    simp only [exitTable, firstTable, List.mem_append]
    exact .inl (.inl (.inr (hfirst level hlevel)))
  | succ index =>
    have hlt : index < neighbours.length := Nat.lt_of_succ_lt_succ hindex
    refine List.mem_append_right _ (List.mem_flatMap.mpr ⟨(neighbours[index], index + 1), ?_, ?_⟩)
    . rw [List.mem_zipIdx_iff_le_and_getElem?_sub]
      simp [hlt]
    . exact List.mem_cons_of_mem _ (List.mem_map.mpr ⟨level, List.mem_range.mpr hlevel, rfl⟩)

theorem treeNode_path {s : State} {index : Nat} (hindex : index < 16) (hleaf : leafAt s index = pathNode index 0)
    (hempty : ∀ j, j ≠ index → leafAt s j = 0) {level : Nat} (hlevel : level < TREE_DEPTH) (i : Nat)
    : treeNode exitDeployment s level i
        = if i = index / 2 ^ level then pathNode index level else emptyNode level := by
  induction level generalizing i with
  | zero =>
    simp only [treeNode, Merkle.node, Nat.pow_zero, Nat.div_one]
    split
    . next hi => rw [hi, hleaf]
    . next hi => exact hempty i hi
  | succ level ih =>
    have hhalf : index / 2 ^ (level + 1) = index / 2 ^ level / 2 := by
      rw [Nat.pow_succ, Nat.div_div_eq_div_mul]
    have hpath := hash2_exitTable (mem_exitTable_pathPair hindex (Nat.lt_of_succ_lt hlevel))
    have hnone := (empty_eq_emptyNode hlevel).symm
    rw [Merkle.empty, empty_eq_emptyNode (Nat.lt_of_succ_lt hlevel)] at hnone
    have ih := ih (Nat.lt_of_succ_lt hlevel)
    simp only [treeNode, Merkle.node, pathPair] at ih hpath ⊢
    rw [ih, ih, hhalf]
    generalize index / 2 ^ level = k at hpath
    by_cases hi : i = k / 2
    . rcases Nat.mod_two_eq_zero_or_one k with hk | hk
      . rw [if_pos hk] at hpath
        rw [if_pos (by omega : 2 * i = k), if_neg (by omega : ¬2 * i + 1 = k), if_pos hi, ← hpath]
      . rw [if_neg (by omega)] at hpath
        rw [if_neg (by omega : ¬2 * i = k), if_pos (by omega : 2 * i + 1 = k), if_pos hi, ← hpath]
    . rw [if_neg (by omega : ¬2 * i = k), if_neg (by omega : ¬2 * i + 1 = k), if_neg hi, hnone]

/--
All leaves are empty, but perhaps the last one.
-/
def exitRows : List (List Nat) :=
  (List.range 16).flatMap fun index =>
    [List.replicate index 0, List.replicate index 0 ++ [pathNode index 0], List.replicate (index + 1) 0]

theorem mem_exitRows {row : List Nat} (h : row ∈ exitRows)
    : (∀ j, row.getD j 0 = 0)
        ∨ ∃ index < 16, row.getD index 0 = pathNode index 0 ∧ ∀ j, j ≠ index → row.getD j 0 = 0 := by
  obtain ⟨index, hindex, hrow⟩ := List.mem_flatMap.mp h
  have hempty : ∀ n j, (List.replicate n 0).getD j 0 = 0 := by
    intro n j
    rw [List.getD_eq_getElem?_getD, List.getElem?_replicate]
    split <;> rfl
  simp only [List.mem_cons, List.not_mem_nil, or_false] at hrow
  rcases hrow with rfl | rfl | rfl
  . exact .inl (hempty _)
  . refine .inr ⟨index, List.mem_range.mp hindex, by simp [List.getD_eq_getElem?_getD], ?_⟩
    intro j hj
    rw [List.getD_eq_getElem?_getD]
    rcases Nat.lt_or_gt_of_ne hj with hlt | hgt
    . rw [List.getElem?_append_left (by simpa using hlt), ← List.getD_eq_getElem?_getD, hempty]
    . rw [List.getElem?_eq_none (by simpa using hgt)]
      rfl
  . exact .inl (hempty _)

theorem mem_exitTable {s : State} (hleaves : s.leaves ∈ exitRows) {level i : Nat} (hlevel : level < TREE_DEPTH)
    : ∃ hash, ((treeNode exitDeployment s level (2 * i), treeNode exitDeployment s level (2 * i + 1)), hash)
        ∈ exitTable := by
  have hzero : ∃ hash, ((emptyNode level, emptyNode level), hash) ∈ exitTable := by
    obtain ⟨-, -, -, -, hall, -⟩ := exitTable_facts
    obtain ⟨⟨input, hash⟩, hmem, hinput⟩ := List.mem_map.mp (hall level hlevel)
    dsimp only at hinput
    exact ⟨hash, hinput ▸ hmem⟩
  rcases mem_exitRows hleaves with hempty | ⟨index, hindex, hleaf, hempty⟩
  . have hnode : ∀ k, treeNode exitDeployment s level k = emptyNode level := by
      intro k
      rw [← empty_eq_emptyNode hlevel]
      exact Merkle.node_eq_empty fun j _ => hempty j
    rwa [hnode, hnode]
  . have hpair := mem_exitTable_pathPair hindex hlevel
    rw [treeNode_path hindex hleaf hempty hlevel, treeNode_path hindex hleaf hempty hlevel]
    simp only [pathPair] at hpair
    generalize index / 2 ^ level = k at hpair ⊢
    by_cases hi : i = k / 2
    . rcases Nat.mod_two_eq_zero_or_one k with hk | hk
      . rw [if_pos hk] at hpair
        rw [if_pos (by omega : 2 * i = k), if_neg (by omega : ¬2 * i + 1 = k)]
        exact ⟨_, hpair⟩
      . rw [if_neg (by omega)] at hpair
        rw [if_neg (by omega : ¬2 * i = k), if_pos (by omega : 2 * i + 1 = k)]
        exact ⟨_, hpair⟩
    . rwa [if_neg (by omega : ¬2 * i = k), if_neg (by omega : ¬2 * i + 1 = k)]

theorem hashesApart_exit {actions : List Action}
    (hleaves : ∀ before, before <+: actions → (run exitDeployment before).state.leaves ∈ exitRows)
    : HashesApart exitDeployment actions := by
  obtain ⟨-, hdistinct, -, hentries, -⟩ := exitTable_facts
  have hnonzero : ∀ a b, exitDeployment.poseidon.hash2 a b ≠ 0 := Poseidon.ofTable_hash2_ne_zero hentries
  have hnodup : (exitTable.map Prod.snd).Nodup := nodup_of_allDistinct hdistinct
  constructor
  . rintro input ⟨before, level, i, hb, hlevel, -, rfl⟩ input' ⟨before', level', i', hb', hlevel', -, rfl⟩ heq
    obtain ⟨hash, hmem⟩ := mem_exitTable (hleaves before hb) (i := i) hlevel
    obtain ⟨hash', hmem'⟩ := mem_exitTable (hleaves before' hb') (i := i') hlevel'
    have hsame : hash = hash' := by
      rw [← hash2_exitTable hmem, ← hash2_exitTable hmem']
      exact heq
    exact congrArg Prod.fst (List.inj_on_of_nodup_map hnodup hmem hmem' hsame)
  . exact fun before _ => noZeroNode_of_hash2_ne_zero hnonzero _
  . exact fun before c _ _ => hnonzero _ _

def depositOf (c : Nat) : Action :=
  .call ⟨2008, 1000000000000000000, fun _ _ _ => false⟩ (.deposit c)

/--
The exit of a note to the recipient 2009, with the proof accepted by the verifier.
-/
def initiateOf (c : Nat) : Action :=
  .call ⟨2008, 0, fun _ _ _ => true⟩ (.initiateWithdrawal ⟨c, 2009, ⟨6, 7⟩, [], 10, 11, 500000000000000000⟩)

def finalizeOf (c : Nat) : Action := .call ⟨2008, 0, fun _ _ _ => false⟩ (.finalizeWithdrawal c)

def firstExit : List Action :=
  [depositOf firstCommitment, initiateOf firstCommitment, .wait CHALLENGE_WINDOW, finalizeOf firstCommitment,
    .payeeReturn true]

theorem firstExit_facts
    : (∀ n < 6, (run exitDeployment (firstExit.take n)).state.leaves ∈ exitRows)
      ∧ ((run exitDeployment firstExit).state.notes firstCommitment).status = .closed
      ∧ ((run exitDeployment [depositOf firstCommitment]).state.notes firstCommitment).status = .active
      ∧ isKnownRoot (run exitDeployment firstExit).state
          (run exitDeployment [depositOf firstCommitment]).state.merkleRoot = true := by
  decide +kernel

theorem firstExit_leaves (before : List Action) (h : before <+: firstExit)
    : (run exitDeployment before).state.leaves ∈ exitRows := by
  rw [List.prefix_iff_eq_take.mp h]
  exact firstExit_facts.1 _ (Nat.lt_succ_of_le h.length_le)

/--
Three days after its removal a note is closed, and the root of its deposit is still known.
-/
theorem firstExit_root_known
    : HashesApart exitDeployment firstExit
        ∧ ((run exitDeployment firstExit).state.notes firstCommitment).status = .closed
        ∧ [depositOf firstCommitment] <+: firstExit
        ∧ ((run exitDeployment [depositOf firstCommitment]).state.notes firstCommitment).status = .active
        ∧ isKnownRoot (run exitDeployment firstExit).state
            (run exitDeployment [depositOf firstCommitment]).state.merkleRoot = true := by
  obtain ⟨-, hclosed, hactive, hknown⟩ := firstExit_facts
  exact ⟨hashesApart_exit firstExit_leaves, hclosed, List.prefix_append _ _, hactive, hknown⟩

/--
After the first note has left, 15 others come and go before its exit is finalized.
-/
def lateStart : List Action :=
  depositOf firstCommitment :: initiateOf firstCommitment
    :: neighbours.flatMap (fun c => [depositOf c, initiateOf c]) ++ [.wait CHALLENGE_WINDOW]

def lateExit : List Action := lateStart ++ finalizeOf firstCommitment :: [.payeeReturn true]

theorem lateExit_facts
    : (∀ n < 36, (run exitDeployment (lateExit.take n)).state.leaves ∈ exitRows)
      ∧ ROOT_HISTORY_SIZE ≤ pushesSinceExit firstCommitment (run exitDeployment lateStart).state.logs
      ∧ ((run exitDeployment lateExit).state.notes firstCommitment).status = .closed := by
  decide +kernel

theorem lateExit_leaves (before : List Action) (h : before <+: lateExit)
    : (run exitDeployment before).state.leaves ∈ exitRows := by
  rw [List.prefix_iff_eq_take.mp h]
  exact lateExit_facts.1 _ (Nat.lt_succ_of_le h.length_le)

theorem lateExit_finalizedLate : FinalizedLate exitDeployment lateExit := by
  obtain ⟨-, hpushes, -⟩ := lateExit_facts
  rintro before caller c after hsplit - -
  -- there is one finalization in the run
  have hstart : ∀ caller c, .call caller (.finalizeWithdrawal c) ∉ lateStart := by
    simp [lateStart, neighbours, depositOf, initiateOf]
  rcases List.append_eq_append_iff.mp hsplit with ⟨as, hbefore, has⟩ | ⟨as, hlate, has⟩
  . cases as with
    | nil =>
      rw [List.append_nil] at hbefore
      rw [hbefore]
      simp only [finalizeOf, List.nil_append, List.cons.injEq, Action.call.injEq, Call.finalizeWithdrawal.injEq]
        at has
      rw [← has.1.2]
      exact hpushes
    | cons a as =>
      rw [List.cons_append, List.cons.injEq] at has
      have hmem : .call caller (.finalizeWithdrawal c) ∈ [Action.payeeReturn true] := by
        rw [has.2]
        exact List.mem_append_right as List.mem_cons_self
      simp at hmem
  . cases as with
    | nil =>
      rw [List.append_nil] at hlate
      rw [← hlate]
      simp only [finalizeOf, List.nil_append, List.cons.injEq, Action.call.injEq, Call.finalizeWithdrawal.injEq]
        at has
      rw [has.1.2]
      exact hpushes
    | cons a as =>
      rw [List.cons_append, List.cons.injEq] at has
      have hmem : .call caller (.finalizeWithdrawal c) ∈ lateStart := by
        rw [hlate, has.1]
        exact List.mem_append_right before List.mem_cons_self
      exact absurd hmem (hstart caller c)

theorem run_closed_root_unknown_lateExit
    : ((run exitDeployment lateExit).state.notes firstCommitment).status = .closed
        ∧ ((run exitDeployment [depositOf firstCommitment]).state.notes firstCommitment).status = .active
        ∧ isKnownRoot (run exitDeployment lateExit).state
            (run exitDeployment [depositOf firstCommitment]).state.merkleRoot = false := by
  obtain ⟨-, -, hclosed⟩ := lateExit_facts
  obtain ⟨-, -, hactive, -⟩ := firstExit_facts
  exact ⟨hclosed, hactive, run_closed_root_unknown exitDeployment lateExit (hashesApart_exit lateExit_leaves)
    lateExit_finalizedLate firstCommitment hclosed [depositOf firstCommitment] (List.prefix_append _ _) hactive⟩

end Credits
end Longjing
