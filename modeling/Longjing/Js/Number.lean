import Mathlib.Algebra.Order.Field.Rat
import Mathlib.Data.Int.Log
import Mathlib.Data.Rat.Floor

/-!
This module contains JavaScript's `number` as far as the TypeScript sources rest on its rounding: the finite
doubles, as the rationals they are.
-/

namespace Longjing
namespace Js

/-- To the nearest integer, halfway to the even one. -/
def roundHalfEven (q : Rat) : Int :=
  if q - q.floor < 1 / 2 ∨ q - q.floor = 1 / 2 ∧ q.floor % 2 = 0 then q.floor else q.floor + 1

/-- The exponent of the last bit of a double next to `q`. -/
def lastBit (q : Rat) : Int := max (Int.log 2 |q| - 52) (-1074)

/-- The double next to a number, `none` when it is infinite. -/
def toDouble (q : Rat) : Option Rat :=
  let rounded : Rat := roundHalfEven (q / 2 ^ lastBit q) * 2 ^ lastBit q
  if |rounded| < 2 ^ 1024 then some rounded else none

end Js
end Longjing
