/-!
# Shortest decimals of a double

A double stands for all reals that round to it. `Decimal.shortest` selects, of the decimals in that
interval, one with the fewest digits, and of those the nearest to the double; a tie goes to the even
last digit. All arithmetic is exact, on natural numbers.
-/

namespace AbiRecovery.Decimal

/-- A decimal: its digits as a natural number, and the power of ten that they are scaled by. -/
structure Scaled where
  digits : Nat
  exponent : Int

/-- A positive double: the fraction `numerator / denominator`, with the distances to the ends of its
interval, also over `denominator`. The ends belong to the interval when `closed` is true. -/
structure Interval where
  numerator : Nat
  denominator : Nat
  below : Nat
  above : Nat
  closed : Bool

/-- The interval of the finite positive double with the bits `bits`. The distance to the smaller
neighbour is halved at a power of two. -/
def Interval.ofBits (bits : Nat) : Interval :=
  let field := bits / Nat.pow 2 52 % Nat.pow 2 11
  let fraction := bits % Nat.pow 2 52
  let significand := if field = 0 then fraction else fraction + Nat.pow 2 52
  let exponent := max field 1
  -- The value is `significand * 2 ^ (exponent - 1075)`; taken four times, half distances are whole.
  let up := Nat.pow 2 (exponent - 1077)
  let down := Nat.pow 2 (1077 - exponent)
  { numerator := 4 * significand * up
    denominator := down
    below := (if fraction = 0 ∧ 1 < field then 1 else 2) * up
    above := 2 * up
    closed := significand % 2 = 0 }

namespace Interval

/-- Whether `candidate / scale`, over the denominator, lies in the interval. -/
def contains (interval : Interval) (candidate scale : Nat) : Bool :=
  let low := (interval.numerator - interval.below) * scale
  let high := (interval.numerator + interval.above) * scale
  if interval.closed then low ≤ candidate && candidate ≤ high
  else low < candidate && candidate < high

/-- The two neighbours of the double on the grid of the multiples of `10 ^ exponent`, the nearer
one first, as far as they lie in the interval. -/
def onGrid? (interval : Interval) (exponent : Int) : Option Scaled :=
  let scale := Nat.pow 10 (-exponent).toNat
  let unit := interval.denominator * Nat.pow 10 exponent.toNat
  let value := interval.numerator * scale
  let floor := value / unit
  let remainder := value % unit
  let downFirst := 2 * remainder < unit || (2 * remainder == unit && floor % 2 == 0)
  let order := if downFirst then [floor, floor + 1] else [floor + 1, floor]
  (order.find? fun digits => interval.contains (digits * unit) scale).map (⟨·, exponent⟩)

/-- The power of ten of the leading digit, searched downwards from `exponent`. -/
def leading (interval : Interval) : Nat → Int → Int
  | 0, exponent => exponent
  | fuel + 1, exponent =>
    let scale := Nat.pow 10 (-exponent).toNat
    if interval.denominator * Nat.pow 10 exponent.toNat ≤ interval.numerator * scale then exponent
    else leading interval fuel (exponent - 1)

end Interval

/-- The digits of a decimal without the zeros at its end. -/
def Scaled.trim : Nat → Scaled → Scaled
  | 0, decimal => decimal
  | fuel + 1, decimal =>
    if decimal.digits % 10 = 0 then trim fuel ⟨decimal.digits / 10, decimal.exponent + 1⟩
    else decimal

/-- The shortest decimal of the finite positive double with the bits `bits`: the first of the grids
with one to seventeen digits that has a point in the interval. -/
def shortest (bits : Nat) : Scaled :=
  let interval := Interval.ofBits bits
  let leading := interval.leading 700 310
  let found := (List.range 17).findSome? fun (count : Nat) => interval.onGrid? (leading - count)
  (found.getD ⟨0, 0⟩).trim 17

/-- How a decimal is laid out: the powers of ten of the leading digit that are written without an
exponent. -/
structure Layout where
  least : Int
  most : Int

namespace Layout

/-- The exponent part: a sign, and the digits. -/
def exponentPart (exponent : Int) : List Char :=
  'e' :: (if exponent < 0 then '-' else '+') :: Nat.toDigits 10 exponent.natAbs

/-- The text of a decimal, always with a point or an exponent. -/
def render (layout : Layout) (decimal : Scaled) : List Char :=
  let digits := Nat.toDigits 10 decimal.digits
  let leading : Int := decimal.exponent + digits.length - 1
  if layout.least ≤ leading ∧ leading ≤ layout.most then
    if leading < 0 then
      ['0', '.'] ++ List.replicate (-leading - 1).toNat '0' ++ digits
    else
      let whole := leading.toNat + 1
      let padded := digits ++ List.replicate (whole - digits.length) '0'
      let fraction := padded.drop whole
      padded.take whole ++ ['.'] ++ (if fraction = [] then ['0'] else fraction)
  else
    match digits with
    | [single] => single :: exponentPart leading
    | first :: rest => first :: '.' :: rest ++ exponentPart leading
    | [] => []

end Layout

/-- The text of a finite double. -/
def render (layout : Layout) (value : Float) : String :=
  let bits := value.toBits.toNat
  let magnitude := bits % Nat.pow 2 63
  let text := if magnitude = 0 then ['0', '.', '0'] else layout.render (shortest magnitude)
  String.ofList (if bits = magnitude then text else '-' :: text)

end AbiRecovery.Decimal
