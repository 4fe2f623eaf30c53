import Longjing.Circuit.Request
import Longjing.Credits.Lemmas.Roots

/-!
The tree of the contract against the membership check of the request circuit, in both directions.
-/

namespace Longjing
namespace Circuit

open Credits (Deployment TREE_DEPTH Action Leaves Tree Deposited LatestRoot NoZeroNode getMerkleProof hashInputs
  leafAt pushedRoots run treeNode)

def pathSignals (path : List (Nat × Nat)) : List (F × F) :=
  path.map fun (element, index) => ((element : F), (index : F))

def leafSignal (s : Credits.State) (j : Nat) : F := (leafAt s j : F)

section Path

variable {d : Deployment} {s : Credits.State}

theorem cast_hash2 (P : Poseidon) (a b : Nat) : ((P.hash2 a b : Nat) : F) = P.sig2 (a : F) (b : F) :=
  (P.sig2_cast a b).symm

theorem cast_treeNode (level i : Nat)
    : ((treeNode d s level i : Nat) : F) = Merkle.node d.poseidon.sig2 (leafSignal s) level i :=
  Merkle.node_map (cast_hash2 d.poseidon) level i

/-- The loop of `getMerkleProof` collects the siblings of the tree over the leaves. -/
theorem getMerkleProof_go (htree : Tree d s) {remaining level i : Nat} (h : level + remaining = TREE_DEPTH)
    : getMerkleProof.go s.zeros s.treeNodes remaining level i
      = (Merkle.path d.poseidon.hash2 (leafAt s) remaining level i).map
          fun entry => (entry.1, entry.2.toNat) := by
  induction remaining generalizing level i with
  | zero => rfl
  | succ remaining ih =>
    have hsibling : Credits.node s.zeros s.treeNodes level (Credits.sibling i)
        = Merkle.node d.poseidon.hash2 (leafAt s) level (Merkle.sibling i) :=
      (htree.nodes level _ (by omega)).node_eq (by omega)
    simp only [getMerkleProof.go, Merkle.path, List.map_cons]
    rw [hsibling, ih (by omega)]
    rcases Nat.mod_two_eq_zero_or_one i with heven | hodd
    . simp [heven]
    . simp [hodd]

theorem selectors_pathSignals (path : List (Nat × Bool))
    : (∀ step ∈ pathSignals (path.map fun entry => (entry.1, entry.2.toNat)), step.2 = 0 ∨ step.2 = 1)
      ∧ selectors (pathSignals (path.map fun entry => (entry.1, entry.2.toNat)))
        = path.map fun entry => ((entry.1 : F), entry.2) := by
  induction path with
  | nil => simp [pathSignals, selectors]
  | cons entry path ih =>
    obtain ⟨element, right⟩ := entry
    obtain ⟨hbits, hselectors⟩ := ih
    simp only [pathSignals, List.map_cons, List.map_map] at hbits hselectors ⊢
    rw [selectors_cons, hselectors, List.forall_mem_cons]
    refine ⟨⟨?_, hbits⟩, ?_⟩
    . cases right <;> simp
    . cases right <;> simp

/-- The path of a leaf climbs to the root, whichever note it belongs to. -/
theorem climb_getMerkleProof (hleaves : Leaves d s) (htree : Tree d s) {leafIndex : Nat}
    (hindex : leafIndex < s.leaves.length)
    : ∃ path, getMerkleProof s leafIndex = .ok path ∧ path.length = TREE_DEPTH
        ∧ (∀ step ∈ pathSignals path, step.2 = 0 ∨ step.2 = 1)
        ∧ Merkle.climb d.poseidon.sig2 (leafSignal s leafIndex) (selectors (pathSignals path))
          = (s.merkleRoot : F) := by
  have hgo : getMerkleProof.go s.zeros s.treeNodes TREE_DEPTH 0 leafIndex
      = (Merkle.path d.poseidon.hash2 (leafAt s) TREE_DEPTH 0 leafIndex).map
          fun entry => (entry.1, entry.2.toNat) := getMerkleProof_go htree (Nat.zero_add _)
  have hroot : leafIndex / 2 ^ TREE_DEPTH = 0 :=
    Nat.div_eq_of_lt (Nat.lt_of_lt_of_le hindex hleaves.length_le)
  refine ⟨getMerkleProof.go s.zeros s.treeNodes TREE_DEPTH 0 leafIndex, ?_, ?_, ?_, ?_⟩
  . simp [getMerkleProof, Credits.revertIf, Nat.not_le.mpr hindex, bind, Except.bind, pure, Except.pure]
  . rw [hgo, List.length_map, Merkle.length_path]
  . rw [hgo]
    exact (selectors_pathSignals _).1
  . have hclimb := Merkle.climb_path d.poseidon.hash2 (leafAt s) TREE_DEPTH 0 leafIndex
    rw [hroot, Nat.zero_add] at hclimb
    rw [hgo, (selectors_pathSignals _).2, htree.root, treeNode, ← hclimb,
      Merkle.climb_map (cast_hash2 d.poseidon)]
    rfl

end Path

variable (d : Deployment) (lib : Circomlib) (actions : List Action)

/-- The pairs the circuit hashes for the membership of a note. -/
def RequestInputs.pairs (P : Poseidon) {depth : Nat} (i : RequestInputs depth) : List (F × F) :=
  (P.sig1 i.secretKey, i.deposit)
    :: Merkle.climbInputs P.sig2 (P.sig2 (P.sig1 i.secretKey) i.deposit) (selectors i.merklePath)

/-- The pairs the contract hashes in a run: for the inner nodes of its trees and for the leaves of its
active notes. -/
def runPairs : Set (F × F) :=
  { pair | (∃ input ∈ hashInputs d actions, pair = ((input.1 : F), (input.2 : F)))
      ∨ ∃ before c, before <+: actions ∧ ((run d before).state.notes c).status = .active
          ∧ pair = ((c : F), (((run d before).state.notes c).amount : F)) }

/-- A pair of the witness and another pair of the run have one hash. -/
def Collides (pairs : List (F × F)) : Prop :=
  ∃ u ∈ pairs, ∃ v ∈ runPairs d actions, u ≠ v
    ∧ d.poseidon.sig2 u.1 u.2 = d.poseidon.sig2 v.1 v.2

/-- A pair of the witness or of the run hashes to 0. -/
def ZeroPreimage (pairs : List (F × F)) : Prop :=
  ∃ u, (u ∈ pairs ∨ u ∈ runPairs d actions) ∧ d.poseidon.sig2 u.1 u.2 = 0

def PushedAt (before : List Action) (root : Nat) : Prop :=
  (before = [] ∧ pushedRoots (run d []).state.logs = [root])
    ∨ ∃ earlier a, before = earlier ++ [a]
      ∧ pushedRoots (run d before).state.logs = root :: pushedRoots (run d earlier).state.logs

variable {d lib actions}

theorem PushedAt.merkleRoot {before : List Action} {root : Nat} (h : PushedAt d before root)
    : (run d before).state.merkleRoot = root := by
  obtain ⟨older, hlatest⟩ := (Credits.Machine.run_invariant (Credits.roots_invariant d) before).1.2.latest
  rcases h with ⟨rfl, hroots⟩ | ⟨earlier, a, -, hroots⟩
  . rw [hroots] at hlatest
    exact (List.cons.inj hlatest).1.symm
  . rw [hroots] at hlatest
    exact (List.cons.inj hlatest).1.symm

theorem mem_runPairs {before : List Action} {level i : Nat} (hbefore : before <+: actions)
    (hlevel : level < TREE_DEPTH) (hi : i < 2 ^ (TREE_DEPTH - (level + 1)))
    : (Merkle.node d.poseidon.sig2 (leafSignal (run d before).state) level (2 * i),
        Merkle.node d.poseidon.sig2 (leafSignal (run d before).state) level (2 * i + 1))
      ∈ runPairs d actions := by
  refine Or.inl ⟨_, ⟨before, level, i, hbefore, hlevel, hi, rfl⟩, ?_⟩
  rw [cast_treeNode, cast_treeNode]

theorem noZeroNode_of_not_zeroPreimage {pairs : List (F × F)} (h : ¬ ZeroPreimage d actions pairs)
    {before : List Action} (hbefore : before <+: actions) : NoZeroNode d (run d before).state := by
  intro level i hpos hle hi hzero
  obtain ⟨level, rfl⟩ := Nat.exists_eq_succ_of_ne_zero (Nat.pos_iff_ne_zero.mp hpos)
  refine h ⟨_, Or.inr (mem_runPairs hbefore hle hi), ?_⟩
  have hcast := congrArg (Nat.cast : Nat → F) hzero
  rw [cast_treeNode, Nat.cast_zero] at hcast
  exact hcast

/-- Without a zero in its trees, the contract keeps the tree over its leaves. -/
theorem run_tree {pairs : List (F × F)} (h : ¬ ZeroPreimage d actions pairs) {before : List Action}
    (hbefore : before <+: actions)
    : Leaves d (run d before).state ∧ Tree d (run d before).state :=
  (Credits.Machine.run_invariantOn (Tree.invariantOn d) before
    fun _ hearlier => noZeroNode_of_not_zeroPreimage h (hearlier.trans hbefore)).1

/-- Every leaf passes the membership check with the path the contract gives for it, and with no other
root. -/
theorem checker_getMerkleProof {s : Credits.State} (hleaves : Leaves d s) (htree : Tree d s)
    {leafIndex : Nat} (hindex : leafIndex < s.leaves.length)
    : ∃ path, getMerkleProof s leafIndex = .ok path ∧ path.length = TREE_DEPTH
        ∧ ∀ root, MerkleTreeChecker d.poseidon lib (leafSignal s leafIndex) (pathSignals path) root ↔
            root = (s.merkleRoot : F) := by
  obtain ⟨path, hpath, hlength, hbits, hclimb⟩ := climb_getMerkleProof hleaves htree hindex
  refine ⟨path, hpath, hlength, ?_⟩
  intro root
  rw [merkleTreeChecker_iff, hclimb]
  exact ⟨fun h => h.2, fun h => ⟨hbits, h⟩⟩

/-- A witness whose root is the root of a state found the leaf of an active note of that state. -/
theorem active_of_request {i : RequestInputs TREE_DEPTH} (hfacts : RequestFacts d.poseidon lib i)
    {before : List Action} (hbefore : before <+: actions)
    (hroot : (run d before).state.merkleRoot = i.merkleRoot.val)
    (hcollides : ¬ Collides d actions (i.pairs d.poseidon))
    (hzero : ¬ ZeroPreimage d actions (i.pairs d.poseidon))
    : ((run d before).state.notes (d.poseidon.hash1 i.secretKey.val)).status = .active
      ∧ ((run d before).state.notes (d.poseidon.hash1 i.secretKey.val)).amount = i.deposit.val := by
  obtain ⟨hleaves, htree⟩ := run_tree hzero hbefore
  have hdeposited := (Credits.Machine.run_invariant (Deposited.invariant d) before).1
  have hlength : (selectors i.merklePath).length = TREE_DEPTH := by
    rw [selectors, List.length_map, i.length_merklePath]
  have hclimb : Merkle.climb d.poseidon.sig2 (d.poseidon.sig2 (d.poseidon.sig1 i.secretKey) i.deposit)
      (selectors i.merklePath)
      = Merkle.node d.poseidon.sig2 (leafSignal (run d before).state)
          (0 + (selectors i.merklePath).length) 0 := by
    rw [hfacts.root, hlength, Nat.zero_add, ← cast_treeNode, ← htree.root, hroot, F.cast_val]
  rcases Merkle.eq_node_of_climb hclimb with hleaf | ⟨u, hu, level, j, -, hlevel, hj, hhash, hne⟩
  -- the witness starts from a leaf of the contract's tree
  . rw [Nat.mul_zero, Nat.add_zero] at hleaf
    generalize Merkle.position (selectors i.merklePath) = j at hleaf
    have hrow : Merkle.node d.poseidon.sig2 (leafSignal (run d before).state) 0 j
        = (leafAt (run d before).state j : F) := rfl
    rw [hrow] at hleaf
    by_cases howner : ∃ c, ((run d before).state.notes c).status = .active
        ∧ ((run d before).state.notes c).leafIndex = j
    . obtain ⟨c, hactive, rfl⟩ := howner
      rw [hleaves.active c hactive, cast_hash2] at hleaf
      obtain ⟨hc, -, hamount⟩ := hdeposited c (by simp [hactive])
      have hpair : (d.poseidon.sig1 i.secretKey, i.deposit)
          = ((c : F), (((run d before).state.notes c).amount : F)) := by
        by_contra hne
        exact hcollides ⟨_, List.mem_cons_self, _, Or.inr ⟨before, c, hbefore, hactive, rfl⟩, hne, hleaf⟩
      obtain ⟨hkey, hdeposit⟩ := Prod.mk.inj hpair
      have hcommitment : d.poseidon.hash1 i.secretKey.val = c := by
        rw [← d.poseidon.sig1_val, hkey, F.val_cast_of_lt hc]
      rw [hcommitment, hdeposit,
        F.val_cast_of_lt (Nat.lt_of_lt_of_le hamount (two_pow_le (by decide)))]
      exact ⟨hactive, rfl⟩
    . -- an empty leaf: the witness found a preimage of 0
      have hempty := (Credits.merkleRepresentation hleaves htree).inactive j
        (fun c hc hindex => howner ⟨c, hc, hindex⟩)
      rw [hempty, Nat.cast_zero] at hleaf
      exact absurd ⟨_, Or.inl List.mem_cons_self, hleaf⟩ hzero
  -- or it collides with one of the hashes of the run
  . rw [Nat.zero_add, hlength] at hlevel hj
    have hlt : j < 2 ^ (TREE_DEPTH - (level + 1)) :=
      (Nat.div_eq_zero_iff.mp hj).resolve_left (Nat.two_pow_pos _).ne'
    exact absurd ⟨u, List.mem_cons_of_mem _ hu, _, mem_runPairs hbefore hlevel hlt, hne, hhash⟩ hcollides

/-- The contract's tree and the circuit's membership check agree: honest paths are accepted with the
current root and no other, and a witness under a root that was ever pushed shows a note that was active
then, up to a collision or a zero preimage of the hash. -/
theorem run_membership (d : Deployment) (lib : Circomlib) (actions : List Action)
    : (∀ leafIndex < (run d actions).state.leaves.length,
        (∃ path, getMerkleProof (run d actions).state leafIndex = .ok path ∧ path.length = TREE_DEPTH
          ∧ ∀ root, MerkleTreeChecker d.poseidon lib (leafSignal (run d actions).state leafIndex)
              (pathSignals path) root ↔ root = ((run d actions).state.merkleRoot : F))
        ∨ ZeroPreimage d actions [])
      ∧ ∀ (i : RequestInputs TREE_DEPTH) (o : RequestOutputs), Request d.poseidon lib i o →
          ∀ before, before <+: actions → PushedAt d before i.merkleRoot.val →
            (((run d before).state.notes (d.poseidon.hash1 i.secretKey.val)).status = .active
              ∧ ((run d before).state.notes (d.poseidon.hash1 i.secretKey.val)).amount = i.deposit.val)
            ∨ Collides d actions (i.pairs d.poseidon)
            ∨ ZeroPreimage d actions (i.pairs d.poseidon) := by
  constructor
  . intro leafIndex hindex
    by_cases hzero : ZeroPreimage d actions []
    . exact Or.inr hzero
    . obtain ⟨hleaves, htree⟩ := run_tree hzero (List.prefix_refl _)
      exact Or.inl (checker_getMerkleProof hleaves htree hindex)
  . intro i o hrequest before hbefore hpushed
    by_cases hcollides : Collides d actions (i.pairs d.poseidon)
    . exact Or.inr (Or.inl hcollides)
    . by_cases hzero : ZeroPreimage d actions (i.pairs d.poseidon)
      . exact Or.inr (Or.inr hzero)
      . exact Or.inl (active_of_request (requestFacts_of hrequest).1 hbefore hpushed.merkleRoot hcollides
          hzero)

end Circuit
end Longjing
