import Longjing.Field.Basic

namespace Longjing

/--
The Poseidon hash with one and with two inputs. Solidity, circomlib and circomlibjs all reduce their
inputs into the field and return a reduced element.
-/
structure Poseidon where
  hash1 : Nat → Nat
  hash2 : Nat → Nat → Nat
  hash1_lt : ∀ a, hash1 a < FIELD_MODULUS
  hash2_lt : ∀ a b, hash2 a b < FIELD_MODULUS
  hash1_mod : ∀ a, hash1 (a % FIELD_MODULUS) = hash1 a
  hash2_mod : ∀ a b, hash2 (a % FIELD_MODULUS) (b % FIELD_MODULUS) = hash2 a b

namespace Poseidon

/--
The hash given by its values on some inputs, and 1 elsewhere.
-/
def ofTable (table1 : List (Nat × Nat)) (table2 : List ((Nat × Nat) × Nat)) : Poseidon where
  hash1 a := (table1.lookup (a % FIELD_MODULUS)).getD 1 % FIELD_MODULUS
  hash2 a b :=
    (table2.lookup (a % FIELD_MODULUS, b % FIELD_MODULUS)).getD 1 % FIELD_MODULUS
  hash1_lt := fun _ => Nat.mod_lt _ FIELD_MODULUS.pos
  hash2_lt := fun _ _ => Nat.mod_lt _ FIELD_MODULUS.pos
  hash1_mod := by simp
  hash2_mod := by simp

theorem lookup_getD_ne_zero {α : Type} [BEq α] {table : List (α × Nat)} (a : α)
    (h : ∀ entry ∈ table, entry.2 % FIELD_MODULUS ≠ 0)
    : (table.lookup a).getD 1 % FIELD_MODULUS ≠ 0 := by
  induction table with
  | nil =>
    rw [List.lookup_nil, Option.getD_none, Nat.mod_eq_of_lt FIELD_MODULUS.one_lt]
    decide
  | cons entry table ih =>
    rw [List.lookup_cons]
    split
    . exact h entry List.mem_cons_self
    . exact ih (fun entry' hentry' => h entry' (List.mem_cons_of_mem _ hentry'))

theorem ofTable_hash2_ne_zero {table1 : List (Nat × Nat)} {table2 : List ((Nat × Nat) × Nat)}
    (h : ∀ entry ∈ table2, entry.2 % FIELD_MODULUS ≠ 0) (a b : Nat)
    : (ofTable table1 table2).hash2 a b ≠ 0 :=
  lookup_getD_ne_zero _ h

theorem ofTable_hash2_of_mem {table1 : List (Nat × Nat)} {table2 : List ((Nat × Nat) × Nat)} {a b hash : Nat}
    (hnodup : (table2.map Prod.fst).Nodup) (h : ((a, b), hash) ∈ table2) (ha : a % FIELD_MODULUS = a)
    (hb : b % FIELD_MODULUS = b) (hhash : hash % FIELD_MODULUS = hash)
    : (ofTable table1 table2).hash2 a b = hash := by
  obtain ⟨before, after, rfl⟩ := List.append_of_mem h
  have hlookup : (before ++ ((a, b), hash) :: after).lookup (a, b) = some hash := by
    refine List.lookup_eq_some_iff.mpr ⟨before, after, rfl, fun entry hentry => ?_⟩
    rw [List.map_append, List.map_cons, List.nodup_append] at hnodup
    rw [bne_iff_ne]
    exact (hnodup.2.2 _ (List.mem_map_of_mem hentry) _ List.mem_cons_self).symm
  simp only [ofTable, ha, hb, hlookup, Option.getD_some, hhash]

theorem ofTable_hash2_eq_one {table1 : List (Nat × Nat)} {table2 : List ((Nat × Nat) × Nat)} {a b : Nat}
    (h : ∀ entry ∈ table2, entry.1 ≠ (a % FIELD_MODULUS, b % FIELD_MODULUS))
    : (ofTable table1 table2).hash2 a b = 1 := by
  have hlookup : table2.lookup (a % FIELD_MODULUS, b % FIELD_MODULUS) = none := by
    rw [List.lookup_eq_none_iff]
    intro entry hentry
    rw [bne_iff_ne]
    exact (h entry hentry).symm
  simp only [ofTable, hlookup, Option.getD_none]
  exact Nat.mod_eq_of_lt FIELD_MODULUS.one_lt

variable (P : Poseidon)

/--
`PoseidonHasher.hash3`.
-/
def hash3 (a b c : Nat) : Nat :=
  P.hash2 (P.hash2 a b) c

/--
The circom template `Poseidon(1)`.
-/
def sig1 (a : F) : F :=
  P.hash1 a.val

/--
The circom template `Poseidon(2)`.
-/
def sig2 (a b : F) : F :=
  P.hash2 a.val b.val

@[simp]
theorem sig1_val (a : F) : (P.sig1 a).val = P.hash1 a.val :=
  F.val_cast_of_lt (P.hash1_lt _)

@[simp]
theorem sig2_val (a b : F) : (P.sig2 a b).val = P.hash2 a.val b.val :=
  F.val_cast_of_lt (P.hash2_lt _ _)

theorem hash1_cast_val (a : Nat) : P.hash1 ((a : F)).val = P.hash1 a := by
  rw [ZMod.val_natCast, hash1_mod]

theorem hash2_cast_val (a b : Nat) : P.hash2 ((a : F)).val ((b : F)).val = P.hash2 a b := by
  rw [ZMod.val_natCast, ZMod.val_natCast, hash2_mod]

theorem sig1_cast (a : Nat) : P.sig1 a = P.hash1 a := by
  unfold sig1
  rw [hash1_cast_val]

theorem sig2_cast (a b : Nat) : P.sig2 a b = P.hash2 a b := by
  unfold sig2
  rw [hash2_cast_val]

end Poseidon
end Longjing
