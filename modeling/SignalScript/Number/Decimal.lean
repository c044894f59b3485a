import SignalScript.Number.Double

namespace SignalScript
namespace Number

/-!
Reading decimal literals.

A whole number is the exact value of its digits.  A decimal fraction is read as
the double nearest to its exact value, with a value half-way between two
doubles going to the one with the even significand.  A value beyond the
largest double is read as infinity.
-/

/-- The number that a run of decimal digits denotes. -/
def ofDigits (digits : List Char) : Nat :=
  digits.foldl (fun value c => 10 * value + (c.toNat - '0'.toNat)) 0

/-- The whole number nearest to a quotient, a half going to the even
neighbour. -/
def roundedQuotient (dividend divisor : Nat) : Nat :=
  let whole := dividend / divisor
  let twice := 2 * (dividend % divisor)
  if twice < divisor then whole
  else if divisor < twice then whole + 1
  else whole + whole % 2

/-- The exponent of the leading bit of a positive quotient: the largest `e`
for which `2 ^ e` does not exceed it. -/
def leadingBit (dividend divisor : Nat) : Int :=
  let guess : Int := dividend.log2 - divisor.log2
  if dividend * Nat.pow 2 (-guess).toNat < divisor * Nat.pow 2 guess.toNat then
    guess - 1
  else
    guess

/-- The double nearest to a quotient of natural numbers. -/
def Double.ofQuotient (dividend divisor : Nat) : Double :=
  if dividend = 0 then
    ⟨0⟩
  else
    let scale := (leadingBit dividend divisor + 1022).toNat
    let significand :=
      roundedQuotient (dividend * Nat.pow 2 1074) (divisor * Nat.pow 2 scale)
    ⟨UInt64.ofNat (min (scale * Double.hiddenBit + significand) Double.infinity.word)⟩

/-- The double that a literal such as `12.50` denotes, its digits taken as one
whole number divided by a power of ten. -/
def Double.ofLiteral (literal : List Char) : Double :=
  let whole := literal.takeWhile (· != '.')
  let places := (literal.dropWhile (· != '.')).drop 1
  Double.ofQuotient (ofDigits (whole ++ places)) (Nat.pow 10 places.length)

end Number
end SignalScript
