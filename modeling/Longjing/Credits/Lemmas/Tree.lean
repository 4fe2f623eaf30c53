import Longjing.Credits.Lemmas.Effect
import Longjing.Lib.Merkle

/-!
The incremental Merkle tree of the contract against the tree over its leaves.
-/

namespace Longjing
namespace Credits

/--
The leaves as an unbounded row.
-/
def leafAt (s : State) (j : Nat) : Nat :=
  s.leaves.getD j 0

def treeNode (d : Deployment) (s : State) (level i : Nat) : Nat :=
  Merkle.node d.poseidon.hash2 (leafAt s) level i

/--
No hash in the tree is 0, which `_node` would read as an empty subtree.
-/
def NoZeroNode (d : Deployment) (s : State) : Prop :=
  ∀ level i, 0 < level → level ≤ TREE_DEPTH → i < 2 ^ (TREE_DEPTH - level) →
    treeNode d s level i ≠ 0

/--
What is stored for a node is the node, and what was never stored stands for an empty subtree.
-/
structure NodeOk (P : Poseidon) (zeros : Nat → Nat) (treeNodes : Nat → Nat → Nat)
    (leaf : Nat → Nat) (level i : Nat) : Prop where
  stored : treeNodes level i ≠ 0 → treeNodes level i = Merkle.node P.hash2 leaf level i
  absent : treeNodes level i = 0 → level < TREE_DEPTH →
    zeros level = Merkle.node P.hash2 leaf level i

section NodeOk

variable {P : Poseidon} {zeros : Nat → Nat} {treeNodes : Nat → Nat → Nat} {leaf : Nat → Nat}
variable {level i : Nat}

theorem NodeOk.node_eq (h : NodeOk P zeros treeNodes leaf level i) (hlevel : level < TREE_DEPTH)
    : node zeros treeNodes level i = Merkle.node P.hash2 leaf level i := by
  unfold node
  split
  . next hstored => exact h.stored hstored
  . next habsent =>
    rw [not_not] at habsent
    exact h.absent habsent hlevel

theorem NodeOk.congr {treeNodes' : Nat → Nat → Nat} {leaf' : Nat → Nat}
    (h : NodeOk P zeros treeNodes leaf level i) (hnodes : treeNodes' level i = treeNodes level i)
    (hleaf : Merkle.node P.hash2 leaf' level i = Merkle.node P.hash2 leaf level i)
    : NodeOk P zeros treeNodes' leaf' level i := by
  constructor
  . rw [hnodes, hleaf]
    exact h.stored
  . rw [hnodes, hleaf]
    exact h.absent

@[simp]
theorem setNode_self (treeNodes : Nat → Nat → Nat) (level i value : Nat)
    : setNode treeNodes level i value level i = value := by
  simp [setNode]

theorem setNode_of_ne {level' i' value : Nat} (h : ¬(level' = level ∧ i' = i))
    : setNode treeNodes level i value level' i' = treeNodes level' i' := by
  unfold setNode
  by_cases hlevel : level' = level
  . subst hlevel
    have hi : i' ≠ i := fun heq => h ⟨rfl, heq⟩
    simp [hi]
  . simp [hlevel]

theorem NodeOk.setNode (hzero : Merkle.node P.hash2 leaf level i = 0 → zeros level = 0)
    : NodeOk P zeros (setNode treeNodes level i (Merkle.node P.hash2 leaf level i)) leaf level i := by
  constructor
  . intro _
    rw [setNode_self]
  . intro h _
    rw [setNode_self] at h
    rw [hzero h, h]

theorem NodeOk.setNode_of_ne {level' i' value : Nat} (h : NodeOk P zeros treeNodes leaf level' i')
    (hne : ¬(level' = level ∧ i' = i))
    : NodeOk P zeros (Credits.setNode treeNodes level i value) leaf level' i' :=
  h.congr (Credits.setNode_of_ne hne) rfl

end NodeOk

/--
The loop of `_updateLeaf` on the path above leaf `j`: it finds the nodes beside the path in order,
and leaves the whole tree in order.
-/
theorem updateLeaf.go_spec {P : Poseidon} {zeros leaf : Nat → Nat} {j : Nat} (remaining : Nat)
    {level : Nat} {treeNodes : Nat → Nat → Nat} (hdepth : level + remaining = TREE_DEPTH)
    (hbeside : ∀ l i, l ≤ TREE_DEPTH → i ≠ j / 2 ^ l → NodeOk P zeros treeNodes leaf l i)
    (hbelow : ∀ l, l ≤ level → NodeOk P zeros treeNodes leaf l (j / 2 ^ l))
    (hnonzero : ∀ l, level < l → l ≤ TREE_DEPTH → Merkle.node P.hash2 leaf l (j / 2 ^ l) ≠ 0)
    : (∀ l i, l ≤ TREE_DEPTH →
        NodeOk P zeros
          (go P zeros remaining level (j / 2 ^ level)
            (Merkle.node P.hash2 leaf level (j / 2 ^ level)) treeNodes).1 leaf l i)
      ∧ (go P zeros remaining level (j / 2 ^ level)
          (Merkle.node P.hash2 leaf level (j / 2 ^ level)) treeNodes).2
        = Merkle.node P.hash2 leaf TREE_DEPTH (j / 2 ^ TREE_DEPTH) := by
  -- on the levels that are left: all nodes beside the path are in order, and those of the path up to `level`
  induction remaining generalizing level treeNodes with
  | zero =>
    rw [Nat.add_zero] at hdepth
    simp only [go]
    constructor
    . intro l i hl
      by_cases hi : i = j / 2 ^ l
      . subst hi
        exact hbelow l (by omega)
      . exact hbeside l i hl hi
    . rw [hdepth]
  | succ remaining ih =>
    have hsibling : node zeros treeNodes level (sibling (j / 2 ^ level))
        = Merkle.node P.hash2 leaf level (Merkle.sibling (j / 2 ^ level)) := by
      apply NodeOk.node_eq
      . exact hbeside level _ (by omega) (Merkle.sibling_ne _)
      . omega
    have hparent := Merkle.combine_sibling P.hash2 leaf level (j / 2 ^ level)
    have hcurrent : (if j / 2 ^ level % 2 = 0 then
          P.hash2 (Merkle.node P.hash2 leaf level (j / 2 ^ level))
            (node zeros treeNodes level (sibling (j / 2 ^ level)))
        else
          P.hash2 (node zeros treeNodes level (sibling (j / 2 ^ level)))
            (Merkle.node P.hash2 leaf level (j / 2 ^ level)))
        = Merkle.node P.hash2 leaf (level + 1) (j / 2 ^ (level + 1)) := by
      rw [Merkle.div_pow_succ, ← hparent, hsibling, Merkle.combine]
      rcases Nat.mod_two_eq_zero_or_one (j / 2 ^ level) with heven | hodd
      . simp [heven]
      . simp [hodd]
    simp only [go]
    rw [hcurrent, ← Merkle.div_pow_succ]
    apply ih
    . omega
    -- the written node is on the path
    . intro l i hl hi
      apply (hbeside l i hl hi).setNode_of_ne
      rintro ⟨rfl, rfl⟩
      exact hi rfl
    . intro l hl
      by_cases hl' : l = level + 1
      . subst hl'
        apply NodeOk.setNode
        intro hzero
        exact absurd hzero (hnonzero _ (by omega) (by omega))
      . apply (hbelow l (by omega)).setNode_of_ne
        rintro ⟨rfl, -⟩
        exact hl' rfl
    . intro l hl
      exact hnonzero l (by omega)

structure Tree (d : Deployment) (s : State) : Prop where
  zeros : ∀ level, level < TREE_DEPTH → s.zeros level = Merkle.empty d.poseidon.hash2 0 level
  nodes : ∀ level i, level ≤ TREE_DEPTH →
    NodeOk d.poseidon s.zeros s.treeNodes (leafAt s) level i
  root : s.merkleRoot = treeNode d s TREE_DEPTH 0

namespace Tree

variable {d : Deployment} {env : Env} {s s' : State}

theorem congr (h : Tree d s) (hzeros : s'.zeros = s.zeros) (hnodes : s'.treeNodes = s.treeNodes)
    (hleaves : s'.leaves = s.leaves) (hroot : s'.merkleRoot = s.merkleRoot) : Tree d s' := by
  have hleaf : leafAt s' = leafAt s := by
    funext j
    simp [leafAt, hleaves]
  constructor
  . rw [hzeros]
    exact h.zeros
  . rw [hzeros, hnodes, hleaf]
    exact h.nodes
  . rw [hroot, treeNode, hleaf]
    exact h.root

/--
`_updateLeaf` brings the tree up to date with leaves that changed at one index.
-/
theorem updateLeaf {j : Nat} (h : Tree d s) (hzeros : s'.zeros = s.zeros)
    (hnodes : s'.treeNodes = s.treeNodes) (hj : j < 2 ^ TREE_DEPTH)
    (hleaf : ∀ j', j' ≠ j → leafAt s' j' = leafAt s j') (hnonzero : NoZeroNode d s')
    : Tree d (updateLeaf d env j s') := by
  have hspec := @updateLeaf.go_spec d.poseidon s'.zeros (leafAt s') j TREE_DEPTH 0
    (setNode s'.treeNodes 0 j (leafAt s' j)) (Nat.zero_add _) ?_ ?_ ?_
  . rw [Nat.pow_zero, Nat.div_one, Nat.div_eq_of_lt hj] at hspec
    constructor
    . intro level hlevel
      rw [← h.zeros level hlevel, ← hzeros]
      rfl
    . exact fun level i hlevel => hspec.1 level i hlevel
    . exact hspec.2
  . intro l i hl hi
    have hold : NodeOk d.poseidon s'.zeros s'.treeNodes (leafAt s') l i := by
      rw [hzeros, hnodes]
      apply (h.nodes l i hl).congr rfl
      apply Merkle.node_congr
      intro j' hj'
      apply hleaf
      rintro rfl
      exact hi hj'.symm
    apply hold.setNode_of_ne
    rintro ⟨rfl, rfl⟩
    simp at hi
  . intro l hl
    obtain rfl : l = 0 := by omega
    rw [Nat.pow_zero, Nat.div_one]
    apply @NodeOk.setNode d.poseidon _ _ (leafAt s')
    intro _
    rw [hzeros]
    exact h.zeros 0 (by simp [TREE_DEPTH])
  . intro l hl hl'
    apply hnonzero l _ hl hl'
    rw [Nat.div_lt_iff_lt_mul (Nat.two_pow_pos l), ← Nat.pow_add, Nat.sub_add_cancel hl']
    exact hj

end Tree

/--
Which note stands behind which leaf.
-/
structure Leaves (d : Deployment) (s : State) : Prop where
  length_le : s.leaves.length ≤ 2 ^ TREE_DEPTH
  index_lt : ∀ c, (s.notes c).status ≠ .none → (s.notes c).leafIndex < s.leaves.length
  index_inj : ∀ c c', (s.notes c).status ≠ .none → (s.notes c').status ≠ .none →
    (s.notes c).leafIndex = (s.notes c').leafIndex → c = c'
  active : ∀ c, (s.notes c).status = .active →
    leafAt s (s.notes c).leafIndex = d.poseidon.hash2 c (s.notes c).amount
  gone : ∀ c, (s.notes c).status ≠ .none → (s.notes c).status ≠ .active →
    leafAt s (s.notes c).leafIndex = 0
  owner : ∀ j, j < s.leaves.length → ∃ c, (s.notes c).status ≠ .none ∧ (s.notes c).leafIndex = j

namespace Leaves

variable {d : Deployment} {env : Env} {s s' : State}

theorem leafAt_set_self {leaves : List Nat} {j : Nat} (hj : j < leaves.length)
    : (leaves.set j 0).getD j 0 = 0 := by
  simp [List.getD_eq_getElem?_getD, hj]

theorem leafAt_set_of_ne {leaves : List Nat} {j j' : Nat} (hne : j' ≠ j)
    : (leaves.set j 0).getD j' 0 = leaves.getD j' 0 := by
  simp [List.getD_eq_getElem?_getD, List.getElem?_set_ne (Ne.symm hne)]

/--
The leaves of a state whose notes only changed in status, without an active note coming or going.
-/
theorem congr (h : Leaves d s) (hleaves : s'.leaves = s.leaves)
    (hnotes : ∀ c, (s'.notes c).leafIndex = (s.notes c).leafIndex
      ∧ (s'.notes c).amount = (s.notes c).amount
      ∧ ((s'.notes c).status = .none ↔ (s.notes c).status = .none)
      ∧ ((s'.notes c).status = .active ↔ (s.notes c).status = .active)) : Leaves d s' := by
  have hleaf : leafAt s' = leafAt s := by
    funext j
    simp [leafAt, hleaves]
  constructor
  . rw [hleaves]
    exact h.length_le
  . intro c hc
    obtain ⟨hindex, -, hnone, -⟩ := hnotes c
    rw [hindex, hleaves]
    exact h.index_lt c (mt hnone.mpr hc)
  . intro c c' hc hc' heq
    rw [(hnotes c).1, (hnotes c').1] at heq
    exact h.index_inj c c' (mt (hnotes c).2.2.1.mpr hc) (mt (hnotes c').2.2.1.mpr hc') heq
  . intro c hc
    obtain ⟨hindex, hamount, -, hactive⟩ := hnotes c
    rw [hleaf, hindex, hamount]
    exact h.active c (hactive.mp hc)
  . intro c hc hc'
    obtain ⟨hindex, -, hnone, hactive⟩ := hnotes c
    rw [hleaf, hindex]
    exact h.gone c (mt hnone.mpr hc) (mt hactive.mpr hc')
  . intro j hj
    rw [hleaves] at hj
    obtain ⟨c, hc, hindex⟩ := h.owner j hj
    exact ⟨c, mt (hnotes c).2.2.1.mp hc, (hnotes c).1.trans hindex⟩

/--
An active note leaves the tree: its leaf is cleared and its status moves on.
-/
theorem remove {c : Nat} {status : Status} (h : Leaves d s) (hactive : (s.notes c).status = .active)
    (hleaves : s'.leaves = s.leaves.set (s.notes c).leafIndex 0)
    (hnotes : s'.notes = Function.update s.notes c { s.notes c with status := status })
    (hnone : status ≠ .none) (hnot : status ≠ .active) : Leaves d s' := by
  have hc : (s.notes c).status ≠ .none := by simp [hactive]
  have hkeep : ∀ c', (s'.notes c').leafIndex = (s.notes c').leafIndex
      ∧ (s'.notes c').amount = (s.notes c').amount
      ∧ ((s'.notes c').status ≠ .none ↔ (s.notes c').status ≠ .none) := by
    intro c'
    rw [hnotes]
    by_cases heq : c' = c
    . subst heq
      simp [hnone, hc]
    . simp [heq]
  -- no other note stands behind the leaf that is cleared
  have hleaf : ∀ c', c' ≠ c → (s.notes c').status ≠ .none →
      leafAt s' (s.notes c').leafIndex = leafAt s (s.notes c').leafIndex := by
    intro c' hne hc'
    rw [leafAt, hleaves]
    exact leafAt_set_of_ne (fun heq => hne (h.index_inj c' c hc' hc heq))
  constructor
  . rw [hleaves, List.length_set]
    exact h.length_le
  . intro c' hc'
    rw [(hkeep c').1, hleaves, List.length_set]
    exact h.index_lt c' ((hkeep c').2.2.mp hc')
  . intro c₁ c₂ h₁ h₂ heq
    rw [(hkeep c₁).1, (hkeep c₂).1] at heq
    exact h.index_inj c₁ c₂ ((hkeep c₁).2.2.mp h₁) ((hkeep c₂).2.2.mp h₂) heq
  . intro c' hc'
    have hne : c' ≠ c := by
      rintro rfl
      rw [hnotes, Function.update_self] at hc'
      exact hnot hc'
    have hold : (s.notes c').status = .active := by
      rwa [hnotes, Function.update_of_ne hne] at hc'
    rw [(hkeep c').1, (hkeep c').2.1, hleaf c' hne (by simp [hold])]
    exact h.active c' hold
  . intro c' hc' hc''
    rw [(hkeep c').1]
    by_cases heq : c' = c
    . subst heq
      rw [leafAt, hleaves]
      exact leafAt_set_self (h.index_lt c' hc)
    . rw [hnotes, Function.update_of_ne heq] at hc' hc''
      rw [hleaf c' heq hc']
      exact h.gone c' hc' hc''
  . intro j hj
    rw [hleaves, List.length_set] at hj
    obtain ⟨c', hc', hindex⟩ := h.owner j hj
    exact ⟨c', (hkeep c').2.2.mpr hc', (hkeep c').1.trans hindex⟩

theorem deposit {c : Nat} {note : Note} (h : Leaves d s) (hc : (s.notes c).status = .none)
    (hfull : s.leaves.length ≠ 2 ^ TREE_DEPTH)
    (hleaves : s'.leaves = s.leaves ++ [d.poseidon.hash2 c note.amount])
    (hnotes : s'.notes = Function.update s.notes c note) (hindex : note.leafIndex = s.leaves.length)
    (hactive : note.status = .active) : Leaves d s' := by
  have hlength : s'.leaves.length = s.leaves.length + 1 := by
    simp [hleaves]
  have hself : s'.notes c = note := by
    rw [hnotes, Function.update_self]
  have hother : ∀ c', c' ≠ c → s'.notes c' = s.notes c' := by
    intro c' hne
    rw [hnotes, Function.update_of_ne hne]
  have hleaf : ∀ j, j < s.leaves.length → leafAt s' j = leafAt s j := by
    intro j hj
    simp [leafAt, hleaves, List.getD_eq_getElem?_getD, List.getElem?_append_left hj]
  have hold : ∀ c', c' ≠ c → (s'.notes c').status ≠ .none →
      (s.notes c').leafIndex < s.leaves.length := by
    intro c' hne hc'
    rw [hother c' hne] at hc'
    exact h.index_lt c' hc'
  constructor
  . have := h.length_le
    omega
  . intro c' hc'
    by_cases heq : c' = c
    . subst heq
      rw [hself, hindex]
      omega
    . rw [hother c' heq]
      have := hold c' heq hc'
      omega
  -- the new index is beyond all others
  . intro c₁ c₂ h₁ h₂ heq
    by_cases heq₁ : c₁ = c
    . by_cases heq₂ : c₂ = c
      . rw [heq₁, heq₂]
      . have hlt := hold c₂ heq₂ h₂
        rw [heq₁, hself, hindex, hother c₂ heq₂] at heq
        omega
    . have hlt := hold c₁ heq₁ h₁
      by_cases heq₂ : c₂ = c
      . rw [heq₂, hself, hindex, hother c₁ heq₁] at heq
        omega
      . rw [hother c₁ heq₁] at h₁ heq
        rw [hother c₂ heq₂] at h₂ heq
        exact h.index_inj c₁ c₂ h₁ h₂ heq
  . intro c' hc'
    by_cases heq : c' = c
    . subst heq
      rw [hself, hindex]
      simp [leafAt, hleaves, List.getD_eq_getElem?_getD]
    . have hlt := hold c' heq (by simp [hc'])
      rw [hother c' heq] at hc' ⊢
      rw [hleaf _ hlt]
      exact h.active c' hc'
  . intro c' hc' hc''
    by_cases heq : c' = c
    . subst heq
      rw [hself] at hc''
      exact absurd hactive hc''
    . have hlt := hold c' heq hc'
      rw [hother c' heq] at hc' hc'' ⊢
      rw [hleaf _ hlt]
      exact h.gone c' hc' hc''
  . intro j hj
    by_cases hlast : j = s.leaves.length
    . refine ⟨c, ?_, ?_⟩
      . simp [hself, hactive]
      . rw [hself, hindex, hlast]
    . obtain ⟨c', hc', hj'⟩ := h.owner j (by omega)
      have hne : c' ≠ c := by
        rintro rfl
        exact hc' hc
      exact ⟨c', by rwa [hother c' hne], by rwa [hother c' hne]⟩

/--
The status of an exiting note moves on; its leaf is gone already.
-/
theorem finish {c : Nat} {status : Status} (h : Leaves d s)
    (hexiting : (s.notes c).status = .exiting) (hleaves : s'.leaves = s.leaves)
    (hnotes : s'.notes = Function.update s.notes c { s.notes c with status := status })
    (hnone : status ≠ .none) (hnot : status ≠ .active) : Leaves d s' := by
  apply h.congr hleaves
  intro c'
  rw [hnotes]
  by_cases heq : c' = c
  . subst heq
    simp [hexiting, hnone, hnot]
  . simp [heq]

theorem effect {call : Option Call} (h : Leaves d s) (heffect : Effect d env s call s')
    : Leaves d s' := by
  cases heffect with
  | deposit c _ _ _ _ _ hnone hfull => exact h.deposit hnone hfull rfl rfl rfl rfl
  | initiateWithdrawal args _ _ hactive => exact h.remove hactive rfl rfl (by simp) (by simp)
  | slashActive secretKey _ _ hactive => exact h.remove hactive rfl rfl (by simp) (by simp)
  | claimExpired c _ _ _ hactive => exact h.remove hactive rfl rfl (by simp) (by simp)
  | finalizeWithdrawal c _ hexiting => exact h.finish hexiting rfl rfl (by simp) (by simp)
  | slashExiting secretKey _ _ hexiting => exact h.finish hexiting rfl rfl (by simp) (by simp)
  | executeChange target => cases target <;> exact h.congr rfl (fun _ => ⟨rfl, rfl, .rfl, .rfl⟩)
  | _ => exact h.congr rfl (fun _ => ⟨rfl, rfl, .rfl, .rfl⟩)

theorem init (d : Deployment) : Leaves d (constructor d) where
  length_le := Nat.zero_le _
  index_lt := fun _ hc => absurd rfl hc
  index_inj := fun _ _ hc => absurd rfl hc
  active := by
    intro c hc
    cases hc
  gone := fun _ hc => absurd rfl hc
  owner := by
    intro j hj
    cases hj

theorem invariant (d : Deployment) : Machine.Invariant d (fun _ s => Leaves d s) where
  init := init d
  mono := fun _ h => h
  effect := effect

end Leaves

theorem emptySubtrees_spec (P : Poseidon) (levels : Nat)
    : (∀ level, level < levels → (emptySubtrees P levels).1 level = Merkle.empty P.hash2 0 level)
        ∧ (emptySubtrees P levels).2 = Merkle.empty P.hash2 0 levels := by
  induction levels with
  | zero =>
    refine ⟨?_, rfl⟩
    intro level hlevel
    cases hlevel
  | succ levels ih =>
    obtain ⟨hzeros, hcurrent⟩ := ih
    simp only [emptySubtrees]
    constructor
    . intro level hlevel
      by_cases heq : level = levels
      . subst heq
        rw [Function.update_self, hcurrent]
      . rw [Function.update_of_ne heq]
        exact hzeros level (by omega)
    . rw [hcurrent]
      rfl

namespace Tree

variable {d : Deployment} {env : Env} {s s' : State}

theorem init (d : Deployment) : Tree d (constructor d) := by
  obtain ⟨hzeros, hcurrent⟩ := emptySubtrees_spec d.poseidon TREE_DEPTH
  have hempty : ∀ level i, Merkle.node d.poseidon.hash2 (leafAt (constructor d)) level i
      = Merkle.empty d.poseidon.hash2 0 level := by
    intro level i
    apply Merkle.node_eq_empty
    intro j _
    rfl
  constructor
  . exact hzeros
  . intro level i _
    constructor
    . intro hstored
      exact absurd rfl hstored
    . intro _ hlevel
      rw [hempty]
      exact hzeros level hlevel
  . rw [treeNode, hempty]
    exact hcurrent

theorem leave (h : Tree d s) : Tree d (leave s) :=
  h.congr rfl rfl rfl rfl

theorem emit {event : Event} (h : Tree d s) : Tree d (emit env event s) :=
  h.congr rfl rfl rfl rfl

theorem credited {operatorBalance : Nat} {ledger : List LedgerEntry} (h : Tree d s)
    : Tree d { s with operatorBalance := operatorBalance, ledger := ledger } :=
  h.congr rfl rfl rfl rfl

theorem slashed {payment : Payment} {note : Note} {c : Nat} (h : Tree d s)
    : Tree d (payment.transfer (slashedState d note c s)) :=
  h.congr rfl rfl rfl rfl

theorem effect {call : Option Call} (h : Tree d s) (hleaves : Leaves d s)
    (hnonzero : NoZeroNode d s') (heffect : Effect d env s call s') : Tree d s' := by
  have hindex : ∀ {c}, (s.notes c).status = .active → (s.notes c).leafIndex < 2 ^ TREE_DEPTH := by
    intro c hactive
    exact Nat.lt_of_lt_of_le (hleaves.index_lt c (by simp [hactive])) hleaves.length_le
  cases heffect with
  | deposit c _ _ _ _ _ _ hfull =>
    apply leave
    apply emit
    refine h.updateLeaf rfl rfl ?_ ?_ hnonzero
    . exact Nat.lt_of_le_of_ne hleaves.length_le hfull
    . intro j hj
      simp only [leafAt, List.getD_eq_getElem?_getD, List.getElem?_append]
      split
      . rfl
      . next hge =>
        rw [List.getElem?_eq_none (by simp; omega), List.getElem?_eq_none (by omega)]
  | initiateWithdrawal args _ _ hactive =>
    apply leave
    apply emit
    exact h.updateLeaf rfl rfl (hindex hactive) (fun _ => Leaves.leafAt_set_of_ne) hnonzero
  | slashActive secretKey _ _ hactive =>
    apply slashed
    exact h.updateLeaf rfl rfl (hindex hactive) (fun _ => Leaves.leafAt_set_of_ne) hnonzero
  | claimExpired c _ _ _ hactive =>
    apply leave
    apply emit
    apply credited
    exact h.updateLeaf rfl rfl (hindex hactive) (fun _ => Leaves.leafAt_set_of_ne) hnonzero
  | executeChange target => cases target <;> exact h.congr rfl rfl rfl rfl
  | _ => exact h.congr rfl rfl rfl rfl

theorem invariantOn (d : Deployment)
    : Machine.InvariantOn d (NoZeroNode d) (fun _ s => Leaves d s ∧ Tree d s) where
  init := fun _ => ⟨Leaves.init d, init d⟩
  mono := fun _ h => h
  effect := by
    intro env call s s' h _ hnonzero heffect
    exact ⟨h.1.effect heffect, h.2.effect h.1 hnonzero heffect⟩

end Tree

/--
The stored tree is the tree over a row of leaves that holds the hash of each active note at its
index and 0 elsewhere.
-/
structure MerkleRepresentation (d : Deployment) (s : State) (leaf : Nat → Nat) : Prop where
  active : ∀ c, (s.notes c).status = .active →
    leaf (s.notes c).leafIndex = d.poseidon.hash2 c (s.notes c).amount
  inactive : ∀ j, (∀ c, (s.notes c).status = .active → (s.notes c).leafIndex ≠ j) → leaf j = 0
  root : s.merkleRoot = Merkle.node d.poseidon.hash2 leaf TREE_DEPTH 0
  index_ne : ∀ c c', (s.notes c).status ≠ .none → (s.notes c').status ≠ .none → c ≠ c' →
    (s.notes c).leafIndex ≠ (s.notes c').leafIndex
  index_lt : ∀ c, (s.notes c).status ≠ .none → (s.notes c).leafIndex < s.leaves.length
  stored : ∀ level i, level ≤ TREE_DEPTH → s.treeNodes level i ≠ 0 →
    s.treeNodes level i = Merkle.node d.poseidon.hash2 leaf level i
  absent : ∀ level i, level < TREE_DEPTH → s.treeNodes level i = 0 →
    s.zeros level = Merkle.node d.poseidon.hash2 leaf level i
      ∧ s.zeros level = Merkle.empty d.poseidon.hash2 0 level

theorem merkleRepresentation {d : Deployment} {s : State} (hleaves : Leaves d s) (htree : Tree d s)
    : MerkleRepresentation d s (leafAt s) where
  active := hleaves.active
  inactive := by
    intro j hj
    by_cases hlt : j < s.leaves.length
    . obtain ⟨c, hc, rfl⟩ := hleaves.owner j hlt
      exact hleaves.gone c hc (fun hactive => hj c hactive rfl)
    . simp [leafAt, List.getD_eq_getElem?_getD, List.getElem?_eq_none (Nat.not_lt.mp hlt)]
  root := htree.root
  index_ne := fun c c' hc hc' hne heq => hne (hleaves.index_inj c c' hc hc' heq)
  index_lt := hleaves.index_lt
  stored := fun level i hlevel => (htree.nodes level i hlevel).stored
  absent := fun level i hlevel habsent =>
    ⟨(htree.nodes level i (Nat.le_of_lt hlevel)).absent habsent hlevel, htree.zeros level hlevel⟩

theorem run_merkleRepresentation (d : Deployment) (actions : List Action)
    (hnonzero : ∀ before, before <+: actions → NoZeroNode d (run d before).state)
    : ∃ leaf, MerkleRepresentation d (run d actions).state leaf := by
  obtain ⟨hleaves, htree⟩ := (Machine.run_invariantOn (Tree.invariantOn d) actions hnonzero).1
  exact ⟨_, merkleRepresentation hleaves htree⟩

theorem noZeroNode_of_hash2_ne_zero {d : Deployment} (h : ∀ a b, d.poseidon.hash2 a b ≠ 0)
    (s : State) : NoZeroNode d s := by
  intro level i hlevel _ _
  cases level with
  | zero => cases hlevel
  | succ level => exact h _ _

/--
`Poseidon` on the empty subtrees, from the leaves up.
-/
def emptyTreeTable : List ((Nat × Nat) × Nat) :=
  [
    ((0,
      0),
      14744269619966411208579211824598458697587494354926760081771325075741142829156),
    ((14744269619966411208579211824598458697587494354926760081771325075741142829156,
      14744269619966411208579211824598458697587494354926760081771325075741142829156),
      7423237065226347324353380772367382631490014989348495481811164164159255474657),
    ((7423237065226347324353380772367382631490014989348495481811164164159255474657,
      7423237065226347324353380772367382631490014989348495481811164164159255474657),
      11286972368698509976183087595462810875513684078608517520839298933882497716792),
    ((11286972368698509976183087595462810875513684078608517520839298933882497716792,
      11286972368698509976183087595462810875513684078608517520839298933882497716792),
      3607627140608796879659380071776844901612302623152076817094415224584923813162),
    ((3607627140608796879659380071776844901612302623152076817094415224584923813162,
      3607627140608796879659380071776844901612302623152076817094415224584923813162),
      19712377064642672829441595136074946683621277828620209496774504837737984048981),
    ((19712377064642672829441595136074946683621277828620209496774504837737984048981,
      19712377064642672829441595136074946683621277828620209496774504837737984048981),
      20775607673010627194014556968476266066927294572720319469184847051418138353016),
    ((20775607673010627194014556968476266066927294572720319469184847051418138353016,
      20775607673010627194014556968476266066927294572720319469184847051418138353016),
      3396914609616007258851405644437304192397291162432396347162513310381425243293),
    ((3396914609616007258851405644437304192397291162432396347162513310381425243293,
      3396914609616007258851405644437304192397291162432396347162513310381425243293),
      21551820661461729022865262380882070649935529853313286572328683688269863701601),
    ((21551820661461729022865262380882070649935529853313286572328683688269863701601,
      21551820661461729022865262380882070649935529853313286572328683688269863701601),
      6573136701248752079028194407151022595060682063033565181951145966236778420039),
    ((6573136701248752079028194407151022595060682063033565181951145966236778420039,
      6573136701248752079028194407151022595060682063033565181951145966236778420039),
      12413880268183407374852357075976609371175688755676981206018884971008854919922),
    ((12413880268183407374852357075976609371175688755676981206018884971008854919922,
      12413880268183407374852357075976609371175688755676981206018884971008854919922),
      14271763308400718165336499097156975241954733520325982997864342600795471836726),
    ((14271763308400718165336499097156975241954733520325982997864342600795471836726,
      14271763308400718165336499097156975241954733520325982997864342600795471836726),
      20066985985293572387227381049700832219069292839614107140851619262827735677018),
    ((20066985985293572387227381049700832219069292839614107140851619262827735677018,
      20066985985293572387227381049700832219069292839614107140851619262827735677018),
      9394776414966240069580838672673694685292165040808226440647796406499139370960),
    ((9394776414966240069580838672673694685292165040808226440647796406499139370960,
      9394776414966240069580838672673694685292165040808226440647796406499139370960),
      11331146992410411304059858900317123658895005918277453009197229807340014528524),
    ((11331146992410411304059858900317123658895005918277453009197229807340014528524,
      11331146992410411304059858900317123658895005918277453009197229807340014528524),
      15819538789928229930262697811477882737253464456578333862691129291651619515538),
    ((15819538789928229930262697811477882737253464456578333862691129291651619515538,
      15819538789928229930262697811477882737253464456578333862691129291651619515538),
      19217088683336594659449020493828377907203207941212636669271704950158751593251),
    ((19217088683336594659449020493828377907203207941212636669271704950158751593251,
      19217088683336594659449020493828377907203207941212636669271704950158751593251),
      21035245323335827719745544373081896983162834604456827698288649288827293579666),
    ((21035245323335827719745544373081896983162834604456827698288649288827293579666,
      21035245323335827719745544373081896983162834604456827698288649288827293579666),
      6939770416153240137322503476966641397417391950902474480970945462551409848591),
    ((6939770416153240137322503476966641397417391950902474480970945462551409848591,
      6939770416153240137322503476966641397417391950902474480970945462551409848591),
      10941962436777715901943463195175331263348098796018438960955633645115732864202),
    ((10941962436777715901943463195175331263348098796018438960955633645115732864202,
      10941962436777715901943463195175331263348098796018438960955633645115732864202),
      15019797232609675441998260052101280400536945603062888308240081994073687793470)
  ]

/--
`Poseidon` on the leaf of a first deposit of 1 ETH for the commitment `Poseidon(1)`, and on the path
above it.
-/
def firstDepositTable : List ((Nat × Nat) × Nat) :=
  [
    ((18586133768512220936620570745912940619677854269274689475585506675881198879027,
      1000000000000000000),
      11729616872758983915241961793694703202575813064202979702900320362547841053573),
    ((11729616872758983915241961793694703202575813064202979702900320362547841053573,
      0),
      6486606039256380294100328083692954604586615512675632126967303364597951060549),
    ((6486606039256380294100328083692954604586615512675632126967303364597951060549,
      14744269619966411208579211824598458697587494354926760081771325075741142829156),
      16553770563006791099954541695043013659862872640369512458294945723770847965326),
    ((16553770563006791099954541695043013659862872640369512458294945723770847965326,
      7423237065226347324353380772367382631490014989348495481811164164159255474657),
      18126606799349958400409732250474709112296583087153222792400885628596013670292),
    ((18126606799349958400409732250474709112296583087153222792400885628596013670292,
      11286972368698509976183087595462810875513684078608517520839298933882497716792),
      1022691226675163459034607738561934652042514786430380590391268349857356112175),
    ((1022691226675163459034607738561934652042514786430380590391268349857356112175,
      3607627140608796879659380071776844901612302623152076817094415224584923813162),
      2894293487497115503417032365036813662223223997623805325884795307155823625787),
    ((2894293487497115503417032365036813662223223997623805325884795307155823625787,
      19712377064642672829441595136074946683621277828620209496774504837737984048981),
      15935020740060160211760141327454914577791204580766884124904047188074317797078),
    ((15935020740060160211760141327454914577791204580766884124904047188074317797078,
      20775607673010627194014556968476266066927294572720319469184847051418138353016),
      14837417767109231244638299432730085703525758898659162138156811549592148953850),
    ((14837417767109231244638299432730085703525758898659162138156811549592148953850,
      3396914609616007258851405644437304192397291162432396347162513310381425243293),
      5559414040639118238886998050459690840671866741866382116625198176594033060159),
    ((5559414040639118238886998050459690840671866741866382116625198176594033060159,
      21551820661461729022865262380882070649935529853313286572328683688269863701601),
      20078826929857538128222444213500544797577760476995058336706781244046789985276),
    ((20078826929857538128222444213500544797577760476995058336706781244046789985276,
      6573136701248752079028194407151022595060682063033565181951145966236778420039),
      5679299432963888792303347389665810223603880612092156315522935224563090639141),
    ((5679299432963888792303347389665810223603880612092156315522935224563090639141,
      12413880268183407374852357075976609371175688755676981206018884971008854919922),
      4949176474829020845718153703819177448100839261459394408092012555697845683718),
    ((4949176474829020845718153703819177448100839261459394408092012555697845683718,
      14271763308400718165336499097156975241954733520325982997864342600795471836726),
      9917426685006725913565226386915551726197450329024668800540233630675730641051),
    ((9917426685006725913565226386915551726197450329024668800540233630675730641051,
      20066985985293572387227381049700832219069292839614107140851619262827735677018),
      2383261960684966565518297091953308435132104843627242833642924240719481760478),
    ((2383261960684966565518297091953308435132104843627242833642924240719481760478,
      9394776414966240069580838672673694685292165040808226440647796406499139370960),
      19903465579694856122266371892139859655020883905545826939920142326611263597279),
    ((19903465579694856122266371892139859655020883905545826939920142326611263597279,
      11331146992410411304059858900317123658895005918277453009197229807340014528524),
      17356969482401223017455902262535651723716134271928170022274338199728164975654),
    ((17356969482401223017455902262535651723716134271928170022274338199728164975654,
      15819538789928229930262697811477882737253464456578333862691129291651619515538),
      7235671461892827861120462977355229240567991028855007020697411639547473853970),
    ((7235671461892827861120462977355229240567991028855007020697411639547473853970,
      19217088683336594659449020493828377907203207941212636669271704950158751593251),
      594392490575229578560217492584883200206811381573555740147678335882303853329),
    ((594392490575229578560217492584883200206811381573555740147678335882303853329,
      21035245323335827719745544373081896983162834604456827698288649288827293579666),
      8780632013104428159759592108239567903372397967007678202529643810531637654100),
    ((8780632013104428159759592108239567903372397967007678202529643810531637654100,
      6939770416153240137322503476966641397417391950902474480970945462551409848591),
      12820364145111256277728013993006109090625258168322595836105189417077971342055),
    ((12820364145111256277728013993006109090625258168322595836105189417077971342055,
      10941962436777715901943463195175331263348098796018438960955633645115732864202),
      17454506811893722681514566783908886827029281456593906685493564958307081731212)
  ]

/--
`Poseidon` on the signal of an exit to the recipient 2009.
-/
def firstExitTable : List ((Nat × Nat) × Nat) :=
  [
    ((2009, 1), 15600984122727233681241698694271821390845873511335667224757055276774824194324),
    ((15600984122727233681241698694271821390845873511335667224757055276774824194324, 2002),
      2486899623513102516735140155180667020944358839105328729944722408375970436858)
  ]

/--
The commitment to the key 1.
-/
def firstCommitment : Nat :=
  18586133768512220936620570745912940619677854269274689475585506675881198879027

def firstTable : List ((Nat × Nat) × Nat) :=
  emptyTreeTable ++ firstDepositTable ++ firstExitTable

def firstDeployment : Deployment where
  poseidon := .ofTable [(1, firstCommitment)] firstTable
  keccak := fun x y => x + y
  chainId := 1
  self := 2002
  deployer := 2003
  verifier := 2004
  serverAddress := 2005
  serverPublicKey := ⟨6, 7⟩
  cMax := 1000000000000000
  slashBounty := 10000000000000000
  deployedAt := 1700000000
  serverAddress_ne_zero := by decide
  deployedAt_lt := by decide

def firstDeposit : Action :=
  .call ⟨2008, 1000000000000000000, fun _ _ _ => false⟩ (.deposit firstCommitment)

theorem run_merkleRepresentation_firstDeposit
    : (∀ before, before <+: [firstDeposit] → NoZeroNode firstDeployment (run firstDeployment before).state)
        ∧ (run firstDeployment [firstDeposit]).state.leaves.length = 1
        ∧ ∃ leaf, MerkleRepresentation firstDeployment (run firstDeployment [firstDeposit]).state leaf := by
  have hnonzero : ∀ a b, firstDeployment.poseidon.hash2 a b ≠ 0 :=
    Poseidon.ofTable_hash2_ne_zero (by decide +kernel)
  have hrun : ∀ before, before <+: [firstDeposit] →
      NoZeroNode firstDeployment (run firstDeployment before).state :=
    fun before _ => noZeroNode_of_hash2_ne_zero hnonzero _
  refine ⟨hrun, ?_, run_merkleRepresentation firstDeployment [firstDeposit] hrun⟩
  decide +kernel

end Credits
end Longjing
