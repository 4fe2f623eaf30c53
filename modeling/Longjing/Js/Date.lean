import Mathlib.Data.String.Basic

/-!
This module contains JavaScript's `Date` as far as the TypeScript sources use it: the time it holds, and the ISO
text that the database stores and compares.
-/

namespace Longjing
namespace Js

/-- The milliseconds a valid `Date` holds. -/
structure TimeValue where
  ms : Int
  isTime : -8640000000000000 ≤ ms ∧ ms ≤ 8640000000000000
deriving DecidableEq, Repr

/-- `none` is an Invalid Date. -/
abbrev Date := Option TimeValue

namespace TimeValue

/-- 1970-01-01 -/
def epoch : TimeValue := ⟨0, by decide⟩

/-- Later by some milliseconds, and no later than any date can be. -/
def add (t : TimeValue) (ms : Nat) : TimeValue where
  ms := min (t.ms + ms) 8640000000000000
  isTime := by
    have := t.isTime
    omega

theorem le_add (t : TimeValue) (ms : Nat) : t.ms ≤ (t.add ms).ms := by
  have := t.isTime
  simp only [add]
  omega

def MS_PER_DAY : Int := 86400000

/-- Year, month and day. Years are counted from March on, in eras of 400. -/
def calendar (t : TimeValue) : Int × Nat × Nat :=
  let days := t.ms / MS_PER_DAY + 719468
  let day := (days % 146097).toNat
  let year := (day - day / 1460 + day / 36524 - day / 146096) / 365
  let dayOfYear := day - (365 * year + year / 4 - year / 100)
  let month := (5 * dayOfYear + 2) / 153
  let dayOfMonth := dayOfYear - (153 * month + 2) / 5 + 1
  if month < 10 then
    (days / 146097 * 400 + year, month + 3, dayOfMonth)
  else
    (days / 146097 * 400 + year + 1, month - 9, dayOfMonth)

def padded (width n : Nat) : String := String.ofList ((toString n).toList.leftpad width '0')

/-- Years outside 0 to 9999 have a sign and six digits. -/
def yearText (year : Int) : String :=
  if 0 ≤ year ∧ year ≤ 9999 then
    padded 4 year.toNat
  else if 0 ≤ year then
    "+" ++ padded 6 year.toNat
  else
    "-" ++ padded 6 year.natAbs

@[irreducible]
def toISOString (t : TimeValue) : String :=
  let (year, month, day) := t.calendar
  let ms := (t.ms % MS_PER_DAY).toNat
  yearText year ++ "-" ++ padded 2 month ++ "-" ++ padded 2 day ++ "T" ++ padded 2 (ms / 3600000) ++ ":"
    ++ padded 2 (ms / 60000 % 60) ++ ":" ++ padded 2 (ms / 1000 % 60) ++ "." ++ padded 3 (ms % 1000) ++ "Z"

example : toISOString ⟨1709210096789, by decide⟩ = "2024-02-29T12:34:56.789Z" := by decide +kernel

/-- The text of a year past 9999 comes before the text of this century's. -/
example : toISOString ⟨8640000000000000, by decide⟩ < toISOString ⟨1767225600000, by decide⟩ := by decide +kernel

end TimeValue

end Js
end Longjing
