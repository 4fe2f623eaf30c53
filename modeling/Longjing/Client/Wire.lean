import Longjing.Js.BigInt
import Longjing.Server.ProofFormat

/-!
This module contains the proof of a request on its way from the prover to the verifier: the client writes it
as a text, and the server reads it as the prover made it.
-/

namespace Longjing
namespace Client

open JsonText Js
open Server (SnarkjsProof codeUnits readProof)

/-- `JSON.stringify(value)` -/
def stringify (value : Value) : String := String.ofList (write 0 0 value)

theorem parse_stringify (value : Value) : parse (stringify value).toList = some value := by
  have h : parse (write 0 0 value ++ []) = some value := parse_write 0 value (by simp)
  rwa [List.append_nil, ← String.toList_ofList (l := write 0 0 value)] at h

/-- What the prover returns, as far as the client reads it. -/
structure Groth16Proof where
  pi_a : String × String
  pi_b : (String × String) × (String × String)
  pi_c : String × String

namespace Groth16Proof

/-- Projective coordinates, `pi_b` pairs swapped. -/
def wire (proof : Groth16Proof) : Value :=
  .object [
    ("pi_a", .array [.string proof.pi_a.1, .string proof.pi_a.2, .string "1"]),
    ("pi_b", .array [
      .array [.string proof.pi_b.1.2, .string proof.pi_b.1.1, .string "1"],
      .array [.string proof.pi_b.2.2, .string proof.pi_b.2.1, .string "1"]]),
    ("pi_c", .array [.string proof.pi_c.1, .string proof.pi_c.2, .string "1"]),
    ("protocol", .string "groth16")]

/-- The proof as snarkjs made it. -/
def snarkjs (proof : Groth16Proof) : SnarkjsProof where
  pi_a := (some (.string proof.pi_a.1), some (.string proof.pi_a.2))
  pi_b := ((some (.string proof.pi_b.1.1), some (.string proof.pi_b.1.2)),
    (some (.string proof.pi_b.2.1), some (.string proof.pi_b.2.2)))
  pi_c := (some (.string proof.pi_c.1), some (.string proof.pi_c.2))

def coordinates (proof : Groth16Proof) : List String :=
  [proof.pi_a.1, proof.pi_a.2, proof.pi_b.1.1, proof.pi_b.1.2, proof.pi_b.2.1, proof.pi_b.2.2, proof.pi_c.1,
    proof.pi_c.2]

/-- The coordinates are numbers in decimal, of 78 digits at most. -/
def IsDecimal (proof : Groth16Proof) : Prop := ∀ c ∈ proof.coordinates, ∃ n < 10 ^ 78, c = toString n

end Groth16Proof

theorem length_le_codeUnits (s : String) : s.length ≤ (codeUnits s).length := by
  have hunits (cs : List Char)
      : cs.length ≤ (cs.flatMap fun c => if c.toNat < 0x10000 then [c] else ['\uFFFD', '\uFFFD']).length := by
    induction cs with
    | nil => simp
    | cons c cs ih =>
      rw [List.flatMap_cons, List.length_append, List.length_cons]
      split
      . rw [List.length_singleton]
        omega
      . rw [List.length_cons, List.length_singleton]
        omega
  exact hunits s.toList

theorem le_length_wire (proof : Groth16Proof) : 10 ≤ (stringify proof.wire).length := by
  rw [stringify, String.length_ofList]
  exact length_write_object 0 0 "pi_a" _ _

theorem wire_ne_empty (proof : Groth16Proof) : stringify proof.wire ≠ "" := by
  intro hempty
  have hlength := le_length_wire proof
  rw [hempty] at hlength
  exact absurd hlength (by decide)

theorem readProof_wire (proof : Groth16Proof) : readProof (stringify proof.wire) = .ok (some proof.snarkjs) := by
  have hlength := le_length_wire proof
  have hunits := length_le_codeUnits (stringify proof.wire)
  have hshort : ¬ (stringify proof.wire = "" ∨ (codeUnits (stringify proof.wire)).length < 10) := by
    rintro (hempty | hlt)
    . exact wire_ne_empty proof hempty
    . omega
  have hformat : Server.isProofFormat proof.wire = .ok true := by
    simp [Groth16Proof.wire, Server.isProofFormat, Value.get?, Server.isTruthy, Server.hasLength, Server.element?]
    rfl
  have hproof : Server.snarkjsProof proof.wire = proof.snarkjs := by
    simp [Groth16Proof.wire, Groth16Proof.snarkjs, Server.snarkjsProof, Value.get?, Server.element?]
  unfold readProof
  rw [if_neg hshort, parse_stringify]
  simp only [hformat, hproof, Except.map, if_true]

theorem escape_digit {c : Char} (h : c.isDigit = true) : escape c = [c] := by
  have hrange : 48 ≤ c.toNat ∧ c.toNat ≤ 57 := by
    simpa [Char.isDigit, UInt32.le_iff_toNat_le] using h
  have hne (d : Char) (hd : d.toNat < 48 ∨ 57 < d.toNat) : c ≠ d := by
    rintro rfl
    omega
  have hcontrol : ¬ c.toNat < 0x20 := by omega
  simp [escape, hne, hcontrol]

theorem length_quote_repr {n : Nat} (hn : n < 10 ^ 78) : (quote (toString n)).length ≤ 80 := by
  have hescape : (toString n).toList.flatMap escape = (toString n).toList := by
    have hall : ∀ c ∈ (toString n).toList, escape c = [c] := fun c hc => escape_digit (isDigit_of_mem_repr hc)
    generalize (toString n).toList = cs at hall
    induction cs with
    | nil => rfl
    | cons c cs ih =>
      rw [List.flatMap_cons, hall c List.mem_cons_self, ih fun d hd => hall d (List.mem_cons_of_mem _ hd)]
      rfl
  have hlength : (toString n).toList.length ≤ 78 := length_repr_le (by decide) hn
  unfold quote
  rw [hescape, List.length_cons, List.length_append, List.length_singleton]
  omega

/-- The text of a proof is far below what the validation pipe accepts. -/
theorem length_wire {proof : Groth16Proof} (h : proof.IsDecimal) : (stringify proof.wire).length ≤ 1024 := by
  have hquote : ∀ c ∈ proof.coordinates, (quote c).length ≤ 80 := by
    intro c hc
    obtain ⟨n, hn, rfl⟩ := h c hc
    exact length_quote_repr hn
  simp only [Groth16Proof.coordinates, List.mem_cons, List.not_mem_nil, or_false, forall_eq_or_imp, forall_eq] at hquote
  obtain ⟨h1, h2, h3, h4, h5, h6, h7, h8⟩ := hquote
  have hone : (quote "1").length = 3 := by decide
  have hnames : (quote "pi_a").length = 6 ∧ (quote "pi_b").length = 6 ∧ (quote "pi_c").length = 6
      ∧ (quote "protocol").length = 10 ∧ (quote "groth16").length = 9 := by decide
  rw [stringify, String.length_ofList]
  simp only [Groth16Proof.wire, write, writeElements, writeMembers, newline, colon, if_true, List.length_append,
    List.length_cons, List.length_nil, hone, hnames]
  omega

def exampleProof : Groth16Proof := ⟨("1", "2"), (("3", "4"), ("5", "6")), ("7", "8")⟩

theorem isDecimal_exampleProof : exampleProof.IsDecimal := by
  have hdigits : ∀ c ∈ exampleProof.coordinates, ∃ n < 9, c = toString n := by decide
  intro c hc
  obtain ⟨n, hn, heq⟩ := hdigits c hc
  exact ⟨n, Nat.lt_trans hn (by decide), heq⟩

end Client
end Longjing
