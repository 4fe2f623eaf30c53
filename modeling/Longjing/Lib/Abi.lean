import Mathlib.Algebra.GroupWithZero.Nat
import Mathlib.Data.List.Forall2
import Mathlib.Tactic.Common

/-!
The contract ABI encoding of words, byte strings, arrays and tuples. What an encoding says is fixed by
its front: it can be told apart from another one of its type whatever follows it.
-/

namespace Abi

/-- The low bytes of a number, most significant first. -/
def bigEndian : Nat → Nat → List UInt8
  | 0, _ => []
  | size + 1, n => bigEndian size (n / 256) ++ [UInt8.ofNat (n % 256)]

/-- A word of 32 bytes, when the number fits in it. -/
def word (n : Nat) : Option (List UInt8) :=
  if n < 2 ^ 256 then some (bigEndian 32 n) else none

/-- Bytes filled up with zeros to whole words. -/
def pad (bytes : List UInt8) : List UInt8 :=
  bytes ++ List.replicate ((32 - bytes.length % 32) % 32) 0

/-- A component of a tuple: a static one stands in the head, a dynamic one in the tail. -/
structure Part where
  dynamic : Bool
  bytes : List UInt8
deriving DecidableEq, Repr

def Part.headLength (p : Part) : Nat := if p.dynamic then 32 else p.bytes.length

/-- The head of a tuple, `offset` is where the next dynamic component starts. -/
def heads (offset : Nat) : List Part → Option (List UInt8)
  | [] => some []
  | p :: ps =>
    if p.dynamic then do
      let head ← word offset
      let rest ← heads (offset + p.bytes.length) ps
      some (head ++ rest)
    else do
      let rest ← heads offset ps
      some (p.bytes ++ rest)

def tails (parts : List Part) : List UInt8 :=
  parts.flatMap fun p => if p.dynamic then p.bytes else []

def pack (parts : List Part) : Option (List UInt8) := do
  let head ← heads (parts.map Part.headLength).sum parts
  some (head ++ tails parts)

def encodeBytes (bytes : List UInt8) : Option (List UInt8) := do
  let length ← word bytes.length
  some (length ++ pad bytes)

def encodeArray (elements : List Part) : Option (List UInt8) := do
  let length ← word elements.length
  let body ← pack elements
  some (length ++ body)

@[simp]
theorem length_bigEndian (size n : Nat) : (bigEndian size n).length = size := by
  induction size generalizing n with
  | zero => rfl
  | succ size ih => simp [bigEndian, ih]

theorem bigEndian_injective {size m n : Nat} (hm : m < 256 ^ size) (hn : n < 256 ^ size)
    (h : bigEndian size m = bigEndian size n) : m = n := by
  induction size generalizing m n with
  | zero => simp at hm hn; omega
  | succ size ih =>
    obtain ⟨hhigh, hlow⟩ := List.append_inj' h rfl
    rw [Nat.pow_succ] at hm hn
    have hdiv := ih (Nat.div_lt_of_lt_mul (by omega)) (Nat.div_lt_of_lt_mul (by omega)) hhigh
    simp only [List.cons.injEq, ← UInt8.toNat_inj, UInt8.toNat_ofNat', and_true] at hlow
    omega

theorem word_eq_some {n : Nat} {bytes : List UInt8}
    : word n = some bytes ↔ n < 2 ^ 256 ∧ bytes = bigEndian 32 n := by
  unfold word
  split
  next h => simp only [Option.some.injEq, h, true_and, eq_comm]
  next h => simp only [reduceCtorEq, h, false_and]

theorem length_of_word {n : Nat} {bytes : List UInt8} (h : word n = some bytes) : bytes.length = 32 := by
  rw [(word_eq_some.mp h).2, length_bigEndian]

theorem word_injective {m n : Nat} {bytes : List UInt8} (hm : word m = some bytes)
    (hn : word n = some bytes) : m = n := by
  rw [word_eq_some] at hm hn
  exact @bigEndian_injective 32 m n (by omega) (by omega) (hm.2.symm.trans hn.2)

theorem encodeBytes_eq_some {bytes encoded : List UInt8} (h : encodeBytes bytes = some encoded)
    : ∃ length, word bytes.length = some length ∧ encoded = length ++ pad bytes := by
  unfold encodeBytes at h
  obtain ⟨length, hlength, hencoded⟩ := Option.bind_eq_some_iff.mp h
  exact ⟨length, hlength, (Option.some.inj hencoded).symm⟩

/-- The length tells where a byte string ends. -/
theorem encodeBytes_append {a b encoded encoded' rest rest' : List UInt8} (ha : encodeBytes a = some encoded)
    (hb : encodeBytes b = some encoded') (h : encoded ++ rest = encoded' ++ rest') : a = b := by
  obtain ⟨length, hlength, rfl⟩ := encodeBytes_eq_some ha
  obtain ⟨length', hlength', rfl⟩ := encodeBytes_eq_some hb
  simp only [pad, List.append_assoc] at h
  obtain ⟨rfl, hbytes⟩ := List.append_inj h (by rw [length_of_word hlength, length_of_word hlength'])
  exact (List.append_inj hbytes (word_injective hlength hlength')).1

theorem encodeBytes_injective {a b encoded : List UInt8} (ha : encodeBytes a = some encoded)
    (hb : encodeBytes b = some encoded) : a = b :=
  encodeBytes_append ha hb (show encoded ++ [] = encoded ++ [] from rfl)

/--
The bytes of two components of one type: they are told apart by their fronts. The bytes of a static type
have one length.
-/
structure Aligned (p q : Part) : Prop where
  dynamic : p.dynamic = q.dynamic
  length : p.dynamic = false → p.bytes.length = q.bytes.length
  delimited : ∀ rest rest', p.bytes ++ rest = q.bytes ++ rest' → p.bytes = q.bytes

theorem Aligned.of_length {a b : List UInt8} (h : a.length = b.length) : Aligned ⟨false, a⟩ ⟨false, b⟩ where
  dynamic := rfl
  length _ := h
  delimited _ _ happend := (List.append_inj happend h).1

theorem Aligned.eq {p q : Part} (h : Aligned p q) (hbytes : p.bytes = q.bytes) : p = q := by
  cases p
  cases q
  cases h.dynamic
  cases hbytes
  rfl

theorem heads_append {ps qs : List Part} (h : List.Forall₂ Aligned ps qs) {m n : Nat}
    {head head' rest rest' : List UInt8} (hp : heads m ps = some head) (hq : heads n qs = some head')
    (happend : head ++ rest = head' ++ rest')
    : List.Forall₂ (fun p q => p.dynamic = false → p = q) ps qs ∧ rest = rest' := by
  induction h generalizing m n head head' with
  | nil =>
    cases hp
    cases hq
    exact ⟨.nil, happend⟩
  | @cons p q ps qs haligned h ih =>
    unfold heads at hp hq
    by_cases hdynamic : p.dynamic = true
    . rw [if_pos hdynamic] at hp
      rw [if_pos (haligned.dynamic ▸ hdynamic)] at hq
      obtain ⟨w, hw, hp⟩ := Option.bind_eq_some_iff.mp hp
      obtain ⟨tail, htail, hp⟩ := Option.bind_eq_some_iff.mp hp
      obtain ⟨w', hw', hq⟩ := Option.bind_eq_some_iff.mp hq
      obtain ⟨tail', htail', hq⟩ := Option.bind_eq_some_iff.mp hq
      cases hp
      cases hq
      rw [List.append_assoc, List.append_assoc] at happend
      have hlater := (List.append_inj happend (by rw [length_of_word hw, length_of_word hw'])).2
      obtain ⟨hstatic, hrest⟩ := ih htail htail' hlater
      exact ⟨.cons (by simp [hdynamic]) hstatic, hrest⟩
    . rw [if_neg hdynamic] at hp
      rw [if_neg (haligned.dynamic ▸ hdynamic)] at hq
      obtain ⟨tail, htail, hp⟩ := Option.bind_eq_some_iff.mp hp
      obtain ⟨tail', htail', hq⟩ := Option.bind_eq_some_iff.mp hq
      cases hp
      cases hq
      rw [List.append_assoc, List.append_assoc] at happend
      obtain ⟨hbytes, hlater⟩ := List.append_inj happend (haligned.length (by simpa using hdynamic))
      obtain ⟨hstatic, hrest⟩ := ih htail htail' hlater
      exact ⟨.cons (fun _ => haligned.eq hbytes) hstatic, hrest⟩

theorem tails_append {ps qs : List Part} (h : List.Forall₂ Aligned ps qs)
    (hstatic : List.Forall₂ (fun p q => p.dynamic = false → p = q) ps qs) {rest rest' : List UInt8}
    (happend : tails ps ++ rest = tails qs ++ rest') : ps = qs := by
  induction h with
  | nil => rfl
  | @cons p q ps qs haligned h ih =>
    obtain ⟨hhead, hlater⟩ := List.forall₂_cons.mp hstatic
    simp only [tails, List.flatMap_cons, List.append_assoc] at happend
    by_cases hdynamic : p.dynamic = true
    . rw [if_pos hdynamic, if_pos (haligned.dynamic ▸ hdynamic)] at happend
      obtain rfl := haligned.eq (haligned.delimited _ _ happend)
      rw [ih hlater (List.append_cancel_left happend)]
    . rw [if_neg hdynamic, if_neg (haligned.dynamic ▸ hdynamic)] at happend
      rw [hhead (by simpa using hdynamic), ih hlater happend]

theorem pack_eq_some {ps : List Part} {encoded : List UInt8} (h : pack ps = some encoded)
    : ∃ head, heads (ps.map Part.headLength).sum ps = some head ∧ encoded = head ++ tails ps := by
  unfold pack at h
  obtain ⟨head, hhead, hencoded⟩ := Option.bind_eq_some_iff.mp h
  exact ⟨head, hhead, (Option.some.inj hencoded).symm⟩

/-- A tuple is read from the front of its encoding, component by component. -/
theorem pack_append {ps qs : List Part} (h : List.Forall₂ Aligned ps qs)
    {encoded encoded' rest rest' : List UInt8} (hp : pack ps = some encoded) (hq : pack qs = some encoded')
    (happend : encoded ++ rest = encoded' ++ rest') : ps = qs := by
  obtain ⟨head, hhead, rfl⟩ := pack_eq_some hp
  obtain ⟨head', hhead', rfl⟩ := pack_eq_some hq
  rw [List.append_assoc, List.append_assoc] at happend
  obtain ⟨hstatic, htails⟩ := heads_append h hhead hhead' happend
  exact tails_append h hstatic htails

theorem pack_injective {ps qs : List Part} (h : List.Forall₂ Aligned ps qs) {encoded : List UInt8}
    (hp : pack ps = some encoded) (hq : pack qs = some encoded) : ps = qs :=
  pack_append h hp hq (show encoded ++ [] = encoded ++ [] from rfl)

theorem encodeArray_append {ps qs : List Part} (h : ∀ p ∈ ps, ∀ q ∈ qs, Aligned p q)
    {encoded encoded' rest rest' : List UInt8} (hp : encodeArray ps = some encoded)
    (hq : encodeArray qs = some encoded') (happend : encoded ++ rest = encoded' ++ rest') : ps = qs := by
  unfold encodeArray at hp hq
  obtain ⟨length, hlength, hp⟩ := Option.bind_eq_some_iff.mp hp
  obtain ⟨body, hbody, hp⟩ := Option.bind_eq_some_iff.mp hp
  obtain ⟨length', hlength', hq⟩ := Option.bind_eq_some_iff.mp hq
  obtain ⟨body', hbody', hq⟩ := Option.bind_eq_some_iff.mp hq
  cases hp
  cases hq
  rw [List.append_assoc, List.append_assoc] at happend
  obtain ⟨rfl, hbodies⟩ := List.append_inj happend (by rw [length_of_word hlength, length_of_word hlength'])
  have haligned : List.Forall₂ Aligned ps qs := by
    rw [List.forall₂_iff_get]
    exact ⟨word_injective hlength hlength', fun i _ _ => h _ (List.get_mem _ _) _ (List.get_mem _ _)⟩
  exact pack_append haligned hbody hbody' hbodies

theorem encodeArray_injective {ps qs : List Part} (h : ∀ p ∈ ps, ∀ q ∈ qs, Aligned p q)
    {encoded : List UInt8} (hp : encodeArray ps = some encoded) (hq : encodeArray qs = some encoded)
    : ps = qs :=
  encodeArray_append h hp hq (show encoded ++ [] = encoded ++ [] from rfl)

theorem Aligned.of_encodeBytes {a b encoded encoded' : List UInt8} (ha : encodeBytes a = some encoded)
    (hb : encodeBytes b = some encoded') : Aligned ⟨true, encoded⟩ ⟨true, encoded'⟩ where
  dynamic := rfl
  length h := by simp at h
  delimited _ _ happend := by
    obtain rfl := encodeBytes_append ha hb happend
    exact Option.some.inj (ha.symm.trans hb)

theorem Aligned.of_encodeArray {ps qs : List Part} (h : ∀ p ∈ ps, ∀ q ∈ qs, Aligned p q)
    {encoded encoded' : List UInt8} (hp : encodeArray ps = some encoded) (hq : encodeArray qs = some encoded')
    : Aligned ⟨true, encoded⟩ ⟨true, encoded'⟩ where
  dynamic := rfl
  length h := by simp at h
  delimited _ _ happend := by
    obtain rfl := encodeArray_append h hp hq happend
    exact Option.some.inj (hp.symm.trans hq)

end Abi
