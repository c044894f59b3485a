namespace SignalScript
namespace Number

/-!
Double-precision numbers, kept as their 64 bits.

A number is stored by its bits so that every payload of a not-a-number value
survives.  The fields below read the bits as natural numbers: a finite number
has the magnitude `significand * 2 ^ scale`, counted in units of the smallest
positive number `2 ^ (-1074)`.
-/

/-- A double-precision number, given by its bits. -/
structure Double where
  bits : UInt64
deriving DecidableEq

namespace Double

/-- The value of the hidden leading bit of a normal significand. -/
def hiddenBit : Nat :=
  0x10000000000000

/-- The bits as one natural number. -/
def word (x : Double) : Nat :=
  x.bits.toNat

/-- The sign bit is set. -/
def isNegative (x : Double) : Bool :=
  decide (0x8000000000000000 ≤ x.word)

/-- The eleven exponent bits. -/
def exponentField (x : Double) : Nat :=
  x.word / hiddenBit % 0x800

/-- The fifty-two fraction bits. -/
def fractionField (x : Double) : Nat :=
  x.word % hiddenBit

/-- A value that is no number at all, whatever its sign and payload. -/
def isNaN (x : Double) : Bool :=
  x.exponentField == 0x7FF && x.fractionField != 0

/-- One of the two infinities. -/
def isInfinite (x : Double) : Bool :=
  x.exponentField == 0x7FF && x.fractionField == 0

/-- One of the two zeros. -/
def isZero (x : Double) : Bool :=
  x.exponentField == 0 && x.fractionField == 0

/-- The whole-number significand, with the hidden leading bit of a normal
number made explicit. -/
def significand (x : Double) : Nat :=
  if x.exponentField = 0 then x.fractionField else hiddenBit + x.fractionField

/-- The power of two that the significand is multiplied by, counted from the
smallest one. -/
def scale (x : Double) : Nat :=
  x.exponentField - 1

/-- Equality of values: a not-a-number value equals nothing, and the two zeros
equal each other. -/
def sameValue (x y : Double) : Bool :=
  !x.isNaN && !y.isNaN && (x.bits == y.bits || x.isZero && y.isZero)

/-- Positive infinity. -/
def infinity : Double :=
  ⟨0x7FF0000000000000⟩

end Double
end Number
end SignalScript
