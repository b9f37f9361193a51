import AbiRecovery.Text.Digit

/-!
# Integer literals

An integer literal is a run of digits, in decimal or behind the mark of another radix, with
underscores anywhere and possibly the name of an integer type at its end. `Literal.value?` is its
value, if that fits 64 bits.
-/

namespace AbiRecovery.Literal

/-- The suffixes that an integer literal may have. -/
def suffixes : List String :=
  ["u8", "u16", "u32", "u64", "u128", "usize", "i8", "i16", "i32", "i64", "i128", "isize"]

/-- The radix of a literal, and the literal without the mark of the radix. -/
def splitRadix : List Char → Nat × List Char
  | '0' :: 'x' :: rest => (16, rest)
  | '0' :: 'X' :: rest => (16, rest)
  | '0' :: 'o' :: rest => (8, rest)
  | '0' :: 'O' :: rest => (8, rest)
  | '0' :: 'b' :: rest => (2, rest)
  | '0' :: 'B' :: rest => (2, rest)
  | text => (10, text)

/-- Whether a character is a digit in the given radix. -/
def isDigit (radix : Nat) (c : Char) : Bool :=
  (Text.digit? radix c).isSome

/-- The number with the given digits. -/
def numberOf (radix : Nat) (digits : List Char) : Nat :=
  digits.foldl (fun value c => radix * value + (Text.digit? radix c).getD 0) 0

/-- The number that an integer literal stands for: underscores separate, and a suffix may name the
type. A number of more than 64 bits is none. -/
def value? (literal : String) : Option UInt64 :=
  let (radix, text) := splitRadix (literal.toList.filter (· ≠ '_'))
  let digits := text.takeWhile (isDigit radix)
  let suffix := text.dropWhile (isDigit radix)
  if digits = [] ∨ ¬(suffix = [] ∨ String.ofList suffix ∈ suffixes) then none
  else if numberOf radix digits < UInt64.size then some (UInt64.ofNat (numberOf radix digits))
  else none

end AbiRecovery.Literal
