import Longjing.Js.Number
import Longjing.Lib.JsonText

/-!
This module contains the proof of a request as a text: what `proof-verifier.service.ts` checks of it before
anything is awaited, and how `snarkjs-proof.service.ts` hands it on.
-/

namespace Longjing
namespace Server

open Js JsonText

/-- A property of `null` or of `undefined` was read. -/
inductive TypeError where
  | mk

/-- The code units of a string. Half of a surrogate pair is no character, U+FFFD stands for it. -/
def codeUnits (s : String) : List Char :=
  s.toList.flatMap fun c => if c.toNat < 0x10000 then [c] else ['\uFFFD', '\uFFFD']

/-!
In what follows `none` is `undefined`.
-/

def isTruthy : Option Value → Bool
  | none => false
  | some .null => false
  | some (.bool b) => b
  | some (.number literal) => toDouble literal.value ≠ some 0
  | some (.string s) => s ≠ ""
  | some (.array _) => true
  | some (.object _) => true

/-- `value.length === n` -/
def hasLength (n : Nat) : Option Value → Except TypeError Bool
  | none => .error .mk
  | some .null => .error .mk
  | some (.array elements) => .ok (elements.length = n)
  | some (.string s) => .ok ((codeUnits s).length = n)
  | some (.object members) =>
    match Value.get? "length" (.object members) with
    | some (.number literal) => .ok (toDouble literal.value = some (n : Rat))
    | _ => .ok false
  | some _ => .ok false

/-- `value[i]`, for a value that is not null. -/
def element? (i : Nat) : Option Value → Option Value
  | some (.array elements) => elements[i]?
  | some (.string s) => (codeUnits s)[i]?.map fun c => .string (String.singleton c)
  | some (.object members) => Value.get? (toString i) (.object members)
  | _ => none

/-- The checks of the parsed proof: three projective coordinates for each point. -/
def isProofFormat (data : Value) : Except TypeError Bool :=
  let pi_a := data.get? "pi_a"
  let pi_b := data.get? "pi_b"
  let pi_c := data.get? "pi_c"
  match data, data.get? "protocol" with
  | .null, _ => .error .mk
  | _, some (.string "groth16") =>
    .ok (isTruthy pi_a && isTruthy pi_b && isTruthy pi_c) <&&> hasLength 3 pi_a <&&> hasLength 2 pi_b
      <&&> hasLength 3 (element? 0 pi_b) <&&> hasLength 3 (element? 1 pi_b) <&&> hasLength 3 pi_c
  | _, _ => .ok false

/-- The proof as `groth16.verify` takes it. -/
structure SnarkjsProof where
  pi_a : Option Value × Option Value
  pi_b : (Option Value × Option Value) × (Option Value × Option Value)
  pi_c : Option Value × Option Value

/-- Affine, and the coordinates of `pi_b` the other way round. -/
def snarkjsProof (data : Value) : SnarkjsProof :=
  let pi_a := data.get? "pi_a"
  let pi_b := data.get? "pi_b"
  let pi_c := data.get? "pi_c"
  {
    pi_a := (element? 0 pi_a, element? 1 pi_a)
    pi_b := ((element? 1 (element? 0 pi_b), element? 0 (element? 0 pi_b)),
      (element? 1 (element? 1 pi_b), element? 0 (element? 1 pi_b)))
    pi_c := (element? 0 pi_c, element? 1 pi_c)
  }

/-- What the text of a proof comes to, `none` when it is refused. -/
def readProof (proof : String) : Except TypeError (Option SnarkjsProof) :=
  if proof = "" ∨ (codeUnits proof).length < 10 then
    .ok none
  else
    match parse proof.toList with
    | none => .ok none
    | some data =>
      (isProofFormat data).map fun isProof => if isProof then some (snarkjsProof data) else none

end Server
end Longjing
