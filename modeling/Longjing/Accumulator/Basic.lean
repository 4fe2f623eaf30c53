import Longjing.Lib.BinPow
import Longjing.Field.Basic

/-!
This module contains the Baby Jubjub arithmetic of `accumulator.ts`, over unbounded integers as the
source computes it.
-/

namespace Longjing
namespace Accumulator

def SUBGROUP_ORDER : Nat :=
  2736030358979909402780800718157159386076813972158567259200215660948447373041

def A : Int := 168700
def D : Int := 168696

/-- A pair of bigints; nothing keeps it on the curve. -/
abbrev Point := Int × Int

def IDENTITY : Point := (0, 1)

/-- The remainder is JavaScript's, which has the sign of its left operand. -/
def mod (x : Int) : Int :=
  (x.tmod FIELD_MODULUS + FIELD_MODULUS).tmod FIELD_MODULUS

def pow (base exp : Int) : Int :=
  binPow (fun a b => (a * b).tmod FIELD_MODULUS) 1 (mod base) exp.toNat

def inv (x : Int) : Int :=
  pow x (FIELD_MODULUS - 2)

def addPoints (p q : Point) : Point :=
  let (x1, y1) := p
  let (x2, y2) := q
  let k := mod (D * x1 * x2 * y1 * y2)
  (mod ((x1 * y2 + y1 * x2) * inv (1 + k)), mod ((y1 * y2 - A * x1 * x2) * inv (1 - k)))

/-- Double and add while `e > 0n`: a negative scalar gives the identity. -/
def mulPoint (p : Point) (scalar : Int) : Point :=
  binPow addPoints IDENTITY p scalar.toNat

def isOnCurve (p : Point) : Bool :=
  mod (A * p.1 * p.1 + p.2 * p.2) = mod (1 + D * p.1 * p.1 * p.2 * p.2)

def isIdentity (p : Point) : Bool := p.1 = 0 && p.2 = 1

def inSubgroup (p : Point) : Bool := isOnCurve p && isIdentity (mulPoint p SUBGROUP_ORDER)

/-! What `hashToCurve` makes of the seeds, as `accumulator.circom` embeds it. -/

def G : Point :=
  (18891097169288653087893319358176119911434283417707569988321287040614592813441,
    7860657952746490641010431794884102523135412871148967527117598022318856757355)

def J : Point :=
  (9355242946826564246596339623000927660947180691373501561174839848920096889098,
    5781297037533749164671578987434977586939883164721324158318402311010617548447)

def K : Point :=
  (10091301215100818316994948506512801193726841756990533464310239660356987896404,
    18942670726857660232249921857623130179002007525955879997549966126382094771891)

def H : Point :=
  (13556252777791168262952330903992668184110251936673810894841963303519998714808,
    6394268297776531876912426155015605865041308032211543906119719637484169236582)

/-- What an accumulator opens to: refunds, next index, note commitment, blinding. -/
structure Opening where
  refunds : Int
  index : Int
  commitment : Int
  blinding : Int
deriving DecidableEq, Repr

def commit (opening : Opening) : Point :=
  addPoints (addPoints (addPoints (mulPoint G opening.refunds) (mulPoint J opening.index))
    (mulPoint K opening.commitment)) (mulPoint H opening.blinding)

/-- The genesis accumulator c·K, which needs no signature. -/
def genesis (commitment : Int) : Point :=
  commit { refunds := 0, index := 0, commitment, blinding := 0 }

/-- A_pub = A + s'·H, what a request proof reveals. -/
def rerandomize (accumulator : Point) (blinding : Int) : Point :=
  addPoints accumulator (mulPoint H blinding)

/-- A' = A_pub + v·G + J, what the server signs after a request. -/
def applyRefund (accumulator : Point) (refund : Int) : Point :=
  addPoints (addPoints accumulator (mulPoint G refund)) J

end Accumulator
end Longjing
