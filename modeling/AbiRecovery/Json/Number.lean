import AbiRecovery.Decimal.Shortest
import AbiRecovery.Json.Value

/-!
# Numbers as they are written

A `Numeral` is the spelling of a number; `Numeral.toNumber?` is its value. An integer that fits 64
bits is exact. Any other numeral is a double: its leading digits, as many as fit 64 bits, are
converted and then scaled by a power of ten with one rounding per step. A numeral beyond the largest
double has no value; one below the smallest is zero. `Number.text` is the way back: the shortest
spelling of a number.
-/

namespace AbiRecovery.Json

/-- Doubles are always written with a point or an exponent; an exponent is written below `1e-5` and
from `1e+16` on. -/
def floatLayout : Decimal.Layout := ⟨-5, 15⟩

/-- The text of a number. -/
def Number.text : Number → String
  | int value => toString value
  | float value => Decimal.render floatLayout value

/-- The exponent part of a numeral. -/
structure Exponent where
  negative : Bool
  digits : List Nat

/-- A number as it is written, with its digits most significant first. -/
structure Numeral where
  negative : Bool := false
  whole : List Nat := []
  fraction : List Nat := []
  exponent : Option Exponent := none

namespace Numeral

/-- The numeral with all its digits in the opposite order. -/
def reverse (numeral : Numeral) : Numeral :=
  { numeral with
    whole := numeral.whole.reverse
    fraction := numeral.fraction.reverse
    exponent := numeral.exponent.map fun part => { part with digits := part.digits.reverse } }

/-- The natural number with the given decimal digits. -/
def ofDigits (digits : List Nat) : Nat :=
  digits.foldl (fun value digit => 10 * value + digit) 0

/-- The significand after the whole digits, and how many of them did not fit 64 bits. -/
def takeWhole (significand : Nat) : List Nat → Nat × Nat
  | [] => (significand, 0)
  | digit :: digits =>
    if 10 * significand + digit < UInt64.size then takeWhole (10 * significand + digit) digits
    else (significand, digits.length + 1)

/-- The significand after the fraction digits, and how many of them were taken. -/
def takeFraction (significand : Nat) : List Nat → Nat × Nat
  | [] => (significand, 0)
  | digit :: digits =>
    if 10 * significand + digit < UInt64.size then
      let (value, taken) := takeFraction (10 * significand + digit) digits
      (value, taken + 1)
    else (significand, 0)

/-- The double nearest to a power of ten. -/
def powerOfTen (exponent : Nat) : Float :=
  Float.ofScientific 1 false exponent

/-- The largest power of ten that is a double. -/
def largestExponent : Nat := 308

/-- Divides by a power of ten, at most by the largest double power at a time. -/
def shrink (value : Float) (exponent : Nat) : Float :=
  if exponent ≤ largestExponent then value / powerOfTen exponent
  else if value == 0 then value
  else shrink (value / powerOfTen largestExponent) (exponent - largestExponent)
termination_by exponent
decreasing_by simp_all only [largestExponent]; omega

/-- Multiplies by a power of ten; none when the result is beyond the doubles. -/
def grow? (value : Float) (exponent : Nat) : Option Float :=
  if exponent ≤ largestExponent then
    let result := value * powerOfTen exponent
    if result.isInf then none else some result
  else if value == 0 then some value
  else none

/-- The value of the exponent part. -/
def exponentValue (numeral : Numeral) : Int :=
  match numeral.exponent with
  | none => 0
  | some part => if part.negative then -(ofDigits part.digits : Int) else ofDigits part.digits

/-- The numeral as a double; none when it is beyond the doubles. -/
def toFloat? (numeral : Numeral) : Option Float :=
  let (leading, dropped) := takeWhole 0 numeral.whole
  let (significand, taken) := takeFraction leading numeral.fraction
  let exponent : Int := (dropped : Int) - taken + numeral.exponentValue
  let value := significand.toUInt64.toFloat
  let scaled :=
    if 0 ≤ exponent then grow? value exponent.toNat else some (shrink value (-exponent).toNat)
  if numeral.negative then scaled.map (fun result => -result) else scaled

/-- The integer that a numeral without fraction and exponent stands for, if it fits 64 bits.
A negative zero is no integer. -/
def toInt? (numeral : Numeral) : Option Int :=
  if numeral.fraction = [] ∧ numeral.exponent.isNone then
    let magnitude := ofDigits numeral.whole
    if numeral.negative then
      if 0 < magnitude ∧ magnitude ≤ UInt64.size / 2 then some (-(magnitude : Int)) else none
    else if magnitude < UInt64.size then some magnitude else none
  else none

/-- The value of a numeral; none when it is beyond the doubles. -/
def toNumber? (numeral : Numeral) : Option Number :=
  match numeral.toInt? with
  | some value => some (.int value)
  | none => numeral.toFloat?.map .float

end Numeral

end AbiRecovery.Json
