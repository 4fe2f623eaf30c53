import Longjing.Server.Request

/-!
This module contains the body of a request as the validation pipe reads it from the text that reaches the
server.
-/

namespace Longjing
namespace Server

open JsonText

/-- No other properties: `forbidNonWhitelisted`. -/
def hasOnly (names : List String) : Value → Bool
  | .object members => members.all fun member => names.contains member.1
  | _ => false

/-- A property that is a string. -/
def stringField (name : String) (value : Value) : Option String :=
  match value.get? name with
  | some (.string s) => some s
  | _ => none

/-- A property that may be missing, or null. -/
def optionalStringField (name : String) (value : Value) : Option (Option String) :=
  match value.get? name with
  | none => some none
  | some .null => some none
  | some (.string s) => some (some s)
  | _ => none

/-- The properties of `LongjingRequestDto` and their types. -/
def RequestBody.ofJson (value : Value) : Option RequestBody := do
  let payload ← stringField "payload" value
  let nonce ← stringField "nonce" value
  let nullifier ← stringField "nullifier" value
  let signal ← value.get? "signal"
  let signalX ← stringField "x" signal
  let signalY ← stringField "y" signal
  let proof ← stringField "proof" value
  let merkleRoot ← stringField "merkleRoot" value
  let accumulator ← value.get? "accumulator"
  let accumulatorX ← stringField "x" accumulator
  let accumulatorY ← stringField "y" accumulator
  let model ← optionalStringField "model" value
  if hasOnly ["payload", "nonce", "nullifier", "signal", "proof", "merkleRoot", "accumulator", "model"] value
      && hasOnly ["x", "y"] signal && hasOnly ["x", "y"] accumulator then
    some ⟨payload, nonce, nullifier, ⟨signalX, signalY⟩, proof, merkleRoot, ⟨accumulatorX, accumulatorY⟩, model⟩
  else
    none

end Server
end Longjing
