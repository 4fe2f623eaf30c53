import Mathlib.Tactic.Common
import Mathlib.Algebra.Order.Group.Nat

/-!
Merkle trees over an arbitrary hash of two inputs: the nodes over an unbounded row of leaves,
authentication paths from a leaf upwards, and what a path that reaches a node says about its leaf.
-/

namespace Merkle

variable {α β : Type}

/--
The node at height `level` and position `i`.
-/
def node (h : α → α → α) (leaf : Nat → α) : (level i : Nat) → α
  | 0, i => leaf i
  | level + 1, i => h (node h leaf level (2 * i)) (node h leaf level (2 * i + 1))

/--
The node at height `level` over leaves that are all `z`.
-/
def empty (h : α → α → α) (z : α) : (level : Nat) → α
  | 0 => z
  | level + 1 => h (empty h z level) (empty h z level)

def sibling (i : Nat) : Nat :=
  if i % 2 = 0 then i + 1 else i - 1

/--
The parent of a node and its sibling, `right` telling on which side the node is.
-/
def combine (h : α → α → α) (right : Bool) (current other : α) : α :=
  if right then h other current else h current other

/--
The siblings on the way up from position `i` at height `level`, and the sides of the climb.
-/
def path (h : α → α → α) (leaf : Nat → α) : (remaining level i : Nat) → List (α × Bool)
  | 0, _, _ => []
  | remaining + 1, level, i =>
    (node h leaf level (sibling i), decide (i % 2 = 1))
      :: path h leaf remaining (level + 1) (i / 2)

/--
Hashes upwards along a path.
-/
def climb (h : α → α → α) : (current : α) → (path : List (α × Bool)) → α
  | current, [] => current
  | current, (other, right) :: path => climb h (combine h right current other) path

/--
The pairs that are hashed during a climb.
-/
def climbInputs (h : α → α → α) : (current : α) → (path : List (α × Bool)) → List (α × α)
  | _, [] => []
  | current, (other, right) :: path =>
    (if right then (other, current) else (current, other))
      :: climbInputs h (combine h right current other) path

/--
The position a path starts from, relative to the subtree it climbs out of.
-/
def position : List (α × Bool) → Nat
  | [] => 0
  | (_, right) :: path => right.toNat + 2 * position path

section Node

variable {h : α → α → α} {leaf leaf' : Nat → α}

theorem div_pow_succ (j level : Nat) : j / 2 ^ (level + 1) = j / 2 ^ level / 2 := by
  rw [Nat.pow_succ, Nat.div_div_eq_div_mul]

theorem node_congr {level i : Nat} (hleaf : ∀ j, j / 2 ^ level = i → leaf j = leaf' j)
    : node h leaf level i = node h leaf' level i := by
  induction level generalizing i with
  | zero => exact hleaf i (by simp)
  | succ level ih =>
    simp only [node]
    rw [ih, ih]
    . intro j hj
      apply hleaf
      rw [div_pow_succ]
      omega
    . intro j hj
      apply hleaf
      rw [div_pow_succ]
      omega

theorem node_eq_empty {z : α} {level i : Nat} (hleaf : ∀ j, j / 2 ^ level = i → leaf j = z)
    : node h leaf level i = empty h z level := by
  induction level generalizing i with
  | zero => exact hleaf i (by simp)
  | succ level ih =>
    simp only [node, empty]
    rw [ih, ih]
    . intro j hj
      apply hleaf
      rw [div_pow_succ]
      omega
    . intro j hj
      apply hleaf
      rw [div_pow_succ]
      omega

theorem node_map {f : α → β} {h' : β → β → β} (hf : ∀ a b, f (h a b) = h' (f a) (f b))
    (level i : Nat) : f (node h leaf level i) = node h' (fun j => f (leaf j)) level i := by
  induction level generalizing i with
  | zero => rfl
  | succ level ih =>
    simp only [node]
    rw [hf, ih, ih]

theorem sibling_ne (i : Nat) : sibling i ≠ i := by
  unfold sibling
  split <;> omega

theorem combine_sibling (h : α → α → α) (leaf : Nat → α) (level i : Nat)
    : combine h (decide (i % 2 = 1)) (node h leaf level i) (node h leaf level (sibling i))
        = node h leaf (level + 1) (i / 2) := by
  unfold combine sibling
  simp only [node]
  rcases Nat.mod_two_eq_zero_or_one i with heven | hodd
  . have hi : 2 * (i / 2) = i := by omega
    simp [heven, hi]
  . have hi : i - 1 + 1 = i := by omega
    have hs : 2 * (i / 2) = i - 1 := by omega
    simp [hodd, hs, hi]

theorem climb_path (h : α → α → α) (leaf : Nat → α) (remaining level i : Nat)
    : climb h (node h leaf level i) (path h leaf remaining level i)
        = node h leaf (level + remaining) (i / 2 ^ remaining) := by
  induction remaining generalizing level i with
  | zero => simp [path, climb]
  | succ remaining ih =>
    simp only [path, climb]
    rw [combine_sibling, ih, div_pow_succ, Nat.div_div_eq_div_mul, Nat.div_div_eq_div_mul,
      Nat.mul_comm 2, Nat.add_assoc, Nat.add_comm 1]

/--
Trees that agree in a node agree in the leaves below it, as long as no two of their inner nodes at
the same place collide.
-/
theorem leaf_eq_of_node_eq {level i : Nat}
    (hfree : ∀ l k, l < level → k / 2 ^ (level - (l + 1)) = i →
      node h leaf (l + 1) k = node h leaf' (l + 1) k →
      node h leaf l (2 * k) = node h leaf' l (2 * k)
        ∧ node h leaf l (2 * k + 1) = node h leaf' l (2 * k + 1))
    (heq : node h leaf level i = node h leaf' level i) (j : Nat) (hj : j / 2 ^ level = i)
    : leaf j = leaf' j := by
  induction level generalizing i with
  | zero =>
    obtain rfl : j = i := by simpa using hj
    exact heq
  | succ level ih =>
    obtain ⟨hleft, hright⟩ := hfree level i (by omega) (by simp) heq
    rw [div_pow_succ] at hj
    have hchild : j / 2 ^ level = 2 * i ∨ j / 2 ^ level = 2 * i + 1 := by omega
    have hbelow : ∀ {i'}, i' / 2 = i → ∀ l k, l < level → k / 2 ^ (level - (l + 1)) = i' →
        node h leaf (l + 1) k = node h leaf' (l + 1) k →
        node h leaf l (2 * k) = node h leaf' l (2 * k)
          ∧ node h leaf l (2 * k + 1) = node h leaf' l (2 * k + 1) := by
      intro i' hi' l k hl hk
      apply hfree l k (by omega)
      have hsucc : level + 1 - (l + 1) = level - (l + 1) + 1 := by omega
      rw [hsucc, div_pow_succ, hk, hi']
    rcases hchild with hchild | hchild
    . exact ih (hbelow (by omega)) hleft hchild
    . exact ih (hbelow (by omega)) hright hchild

end Node

theorem climb_map {f : α → β} {h : α → α → α} {h' : β → β → β} (hf : ∀ a b, f (h a b) = h' (f a) (f b))
    (x : α) (path : List (α × Bool))
    : f (climb h x path) = climb h' (f x) (path.map fun entry => (f entry.1, entry.2)) := by
  induction path generalizing x with
  | nil => rfl
  | cons entry path ih =>
    obtain ⟨other, right⟩ := entry
    simp only [climb, List.map_cons]
    rw [ih]
    cases right <;> simp [combine, hf]

theorem length_path (h : α → α → α) (leaf : Nat → α) (remaining level i : Nat)
    : (path h leaf remaining level i).length = remaining := by
  induction remaining generalizing level i with
  | zero => rfl
  | succ remaining ih => simp [path, ih]

theorem position_lt (path : List (α × Bool)) : position path < 2 ^ path.length := by
  induction path with
  | nil => simp [position]
  | cons entry path ih =>
    obtain ⟨other, right⟩ := entry
    have hright := right.toNat_lt
    simp only [position, List.length_cons, Nat.pow_succ]
    omega

/--
Some pair of `inputs` has the hash of a node between the heights `level` and `top` below position `i`,
and is not the pair of its children.
-/
def Collision (h : α → α → α) (leaf : Nat → α) (inputs : List (α × α)) (level top i : Nat) : Prop :=
  ∃ input ∈ inputs, ∃ l j, level ≤ l ∧ l < top ∧ j / 2 ^ (top - (l + 1)) = i
    ∧ h input.1 input.2 = node h leaf (l + 1) j
    ∧ input ≠ (node h leaf l (2 * j), node h leaf l (2 * j + 1))

/--
A climb that reaches a node of the tree started from the tree's own node, or it collides.
-/
theorem eq_node_of_climb [DecidableEq α] {h : α → α → α} {leaf : Nat → α} {x : α}
    {path : List (α × Bool)} {level i : Nat}
    (hclimb : climb h x path = node h leaf (level + path.length) i)
    : x = node h leaf level (position path + 2 ^ path.length * i)
        ∨ Collision h leaf (climbInputs h x path) level (level + path.length) i := by
  -- on the path: the climb from the parent reaches the node, or collides above
  induction path generalizing x level with
  | nil =>
    left
    simpa [climb, position] using hclimb
  | cons entry path ih =>
    obtain ⟨other, right⟩ := entry
    simp only [climb, List.length_cons] at hclimb
    have hlevel : level + (path.length + 1) = (level + 1) + path.length := by omega
    rw [hlevel] at hclimb
    rcases ih hclimb with hparent | ⟨input, hinput, l, j, hl, htop, hbelow, hcollision⟩
    . generalize hj : position path + 2 ^ path.length * i = j at hparent
      have hstart : position ((other, right) :: path) + 2 ^ ((other, right) :: path).length * i
          = right.toNat + 2 * j := by
        simp only [position, List.length_cons, ← hj, Nat.pow_succ]
        rw [Nat.mul_add, Nat.add_assoc, Nat.mul_right_comm, Nat.mul_comm _ 2]
      rw [hstart]
      -- the parent is the tree's own: then its two inputs are its children, or they collide
      by_cases hchildren : (if right then (other, x) else (x, other))
          = (node h leaf level (2 * j), node h leaf level (2 * j + 1))
      . left
        cases right with
        | false =>
          simp only [Bool.false_eq_true, if_false, Prod.mk.injEq] at hchildren
          simpa using hchildren.1
        | true =>
          simp only [if_true, Prod.mk.injEq] at hchildren
          simpa [Nat.add_comm] using hchildren.2
      . right
        have hbelow : j / 2 ^ (level + (path.length + 1) - (level + 1)) = i := by
          have hremaining : level + (path.length + 1) - (level + 1) = path.length := by omega
          rw [hremaining, ← hj, Nat.add_mul_div_left _ _ (Nat.two_pow_pos _),
            Nat.div_eq_of_lt (position_lt path), Nat.zero_add]
        refine ⟨_, List.mem_cons_self, level, j, Nat.le_refl _, ?_, hbelow, ?_, hchildren⟩
        . rw [List.length_cons]
          omega
        . rw [← hparent]
          cases right <;> rfl
    . right
      rw [List.length_cons, hlevel]
      exact ⟨input, List.mem_cons_of_mem _ hinput, l, j, by omega, htop, hbelow, hcollision⟩

end Merkle
