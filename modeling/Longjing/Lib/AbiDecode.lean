import Longjing.Lib.Abi

/-!
The contract ABI decoding of the arguments of a call, with the bounds a contract checks: what was encoded
is decoded.
-/

namespace Abi

def ofBigEndian (bytes : List UInt8) : Nat := bytes.foldl (fun n b => 256 * n + b.toNat) 0

/-- The word at an offset, if the data has it. -/
def readWord (data : List UInt8) (offset : Nat) : Option (List UInt8) :=
  if offset + 32 ≤ data.length then some ((data.drop offset).take 32) else none

/-- Offsets and lengths above this are refused. -/
def maxOffset : Nat := 0xffffffffffffffff

/-- A `bytes` argument whose offset stands at `head`. -/
def readBytes (data : List UInt8) (head : Nat) : Option (List UInt8) := do
  let offset ← (readWord data head).map ofBigEndian
  if maxOffset < offset then none
  let length ← (readWord data offset).map ofBigEndian
  if maxOffset < length then none
  if data.length < offset + 32 + length then none
  some ((data.drop (offset + 32)).take length)

/-- An `address` argument: the upper bytes of its word are zero. -/
def readAddress (data : List UInt8) (head : Nat) : Option (List UInt8) := do
  let word ← readWord data head
  if word.take 12 = List.replicate 12 0 then some (word.drop 12) else none

theorem ofBigEndian_append (bytes : List UInt8) (b : UInt8)
    : ofBigEndian (bytes ++ [b]) = 256 * ofBigEndian bytes + b.toNat := by
  simp [ofBigEndian, List.foldl_append]

theorem ofBigEndian_bigEndian {size n : Nat} (h : n < 256 ^ size)
    : ofBigEndian (bigEndian size n) = n := by
  induction size generalizing n with
  | zero =>
    simp at h
    simp [bigEndian, ofBigEndian, h]
  | succ size ih =>
    rw [Nat.pow_succ] at h
    rw [bigEndian, ofBigEndian_append, ih (Nat.div_lt_of_lt_mul (by omega)), UInt8.toNat_ofNat']
    omega

theorem ofBigEndian_word {n : Nat} {bytes : List UInt8} (h : word n = some bytes)
    : ofBigEndian bytes = n := by
  have h := word_eq_some.mp h
  have hlt : n < 256 ^ 32 := by omega
  rw [h.2, ofBigEndian_bigEndian hlt]

/-- A word that follows `front`. -/
theorem readWord_append {front bytes rest : List UInt8} (h : bytes.length = 32)
    : readWord (front ++ (bytes ++ rest)) front.length = some bytes := by
  unfold readWord
  rw [if_pos (by simp only [List.length_append, h]; omega), List.drop_left, ← h, List.take_left]

theorem pack_bytes {bytes encoded arguments : List UInt8} (hencoded : encodeBytes bytes = some encoded)
    (h : pack [⟨true, encoded⟩] = some arguments)
    : ∃ offset length, word 32 = some offset ∧ word bytes.length = some length
        ∧ arguments = offset ++ (length ++ (pad bytes ++ [])) := by
  obtain ⟨head, hhead, rfl⟩ := pack_eq_some h
  obtain ⟨length, hlength, rfl⟩ := encodeBytes_eq_some hencoded
  have hhead : (word 32).bind (fun offset => some (offset ++ [])) = some head := hhead
  obtain ⟨offset, hoffset, hhead⟩ := Option.bind_eq_some_iff.mp hhead
  cases hhead
  exact ⟨offset, length, hoffset, hlength, by simp [tails]⟩

/-- A byte string comes out of the arguments as it went in. -/
theorem readBytes_pack {bytes encoded arguments : List UInt8} (hencoded : encodeBytes bytes = some encoded)
    (h : pack [⟨true, encoded⟩] = some arguments) (hlength : bytes.length ≤ maxOffset)
    : readBytes arguments 0 = some bytes := by
  obtain ⟨offset, length, hoffset, hword, rfl⟩ := pack_bytes hencoded h
  have hhead : readWord (offset ++ (length ++ (pad bytes ++ []))) 0 = some offset :=
    @readWord_append [] _ _ (length_of_word hoffset)
  have hlength' : readWord (offset ++ (length ++ (pad bytes ++ []))) 32 = some length := by
    rw [← length_of_word hoffset]
    exact readWord_append (length_of_word hword)
  have hbounds : ¬ (offset ++ (length ++ (pad bytes ++ []))).length < 32 + 32 + bytes.length := by
    simp only [List.length_append, length_of_word hoffset, length_of_word hword, pad]
    omega
  have hdrop : (offset ++ (length ++ (pad bytes ++ []))).drop (32 + 32) = pad bytes := by
    rw [← List.drop_drop]
    nth_rewrite 2 [← length_of_word hoffset]
    rw [List.drop_left, ← length_of_word hword, List.drop_left, List.append_nil]
  unfold readBytes
  rw [hhead]
  simp only [Option.map_some, ofBigEndian_word hoffset, Option.bind_eq_bind, Option.bind_some, hlength',
    ofBigEndian_word hword]
  rw [if_neg (by decide), if_neg (by omega), if_neg hbounds]
  rw [hdrop, pad, List.take_left]

end Abi
