import SignalScript.Number.Double

namespace SignalScript
namespace Number

/-!
The shortest decimal text of a double.

A decimal reads back as a given double when it lies in the interval of numbers
that round to it.  Among the decimal grids, whose points are the multiples of a
power of ten, the coarsest one that meets this interval gives the fewest
digits, and of the two grid points around the value the nearer one is taken.
The finest grid considered holds the value itself, so the search always ends
with a hit.

The text is positional whatever the magnitude.  It has no exponent, and a
whole number has no decimal point.
-/

/-- The numbers that round to one double.  All three bounds count quarters of
the finest grid, so that the half-way points are whole. -/
structure Interval where
  low : Nat
  value : Nat
  high : Nat
  closed : Bool

namespace Interval

/-- The half-way points themselves belong to the interval when it is
closed. -/
def holds (interval : Interval) (point : Nat) : Bool :=
  if interval.closed then
    decide (interval.low ≤ point) && decide (point ≤ interval.high)
  else
    decide (interval.low < point) && decide (point < interval.high)

/-- The point of a grid that stands for the value: the nearer of its two
neighbours if both lie in the interval, the upper one if they are equally
near. -/
def hit? (interval : Interval) (grid : Nat) : Option Nat :=
  let step := 4 * Nat.pow 10 grid
  let below := interval.value / step
  let fromBelow := interval.value - below * step
  let toAbove := (below + 1) * step - interval.value
  match interval.holds (below * step), interval.holds ((below + 1) * step) with
  | true, true => some (if fromBelow < toAbove then below else below + 1)
  | true, false => some below
  | false, true => some (below + 1)
  | false, false => none

/-- The coarsest grid, from the given one down, that has a hit, with the
hit. -/
def coarsest (interval : Interval) : Nat -> Nat × Nat
  | 0 => (0, interval.value / 4)
  | grid + 1 =>
      match interval.hit? (grid + 1) with
      | some point => (grid + 1, point)
      | none => interval.coarsest grid

end Interval

namespace Double

/-- The number of decimal places in the exact expansion of the unit of a
finite double. -/
def places (x : Double) : Nat :=
  1074 - x.scale

/-- The interval of numbers that round to a positive finite double.  Below a
power of two the next double is only half as far away as above it.  The
half-way points go to the even significand. -/
def interval (x : Double) : Interval :=
  let unit :=
    if 1074 ≤ x.scale then Nat.pow 2 (x.scale - 1074) else Nat.pow 5 x.places
  let gap := if x.significand = hiddenBit ∧ 0 < x.scale then 1 else 2
  { low := (4 * x.significand - gap) * unit
    value := 4 * x.significand * unit
    high := (4 * x.significand + 2) * unit
    closed := x.significand % 2 == 0 }

end Double

/-- The text of `digits * 10 ^ grid / 10 ^ places` with all its digits and, if
the value is not whole, a decimal point. -/
def positional (digits grid places : Nat) : List Char :=
  if places ≤ grid then
    Nat.toDigits 10 digits ++ List.replicate (grid - places) '0'
  else
    let decimals := places - grid
    let shown := Nat.toDigits 10 digits
    let padded := List.replicate (decimals + 1 - shown.length) '0' ++ shown
    let whole := padded.length - decimals
    padded.take whole ++ '.' :: padded.drop whole

/-- The text of the magnitude of a finite double. -/
def Double.magnitudeText (x : Double) : List Char :=
  if x.isZero then
    ['0']
  else
    let interval := x.interval
    let (grid, point) := interval.coarsest (interval.high.log2 / 3 + 1)
    positional point grid x.places

/-- The shortest text of a double that reads back as the same value. -/
def Double.text (x : Double) : List Char :=
  if x.isNaN then
    ['N', 'a', 'N']
  else
    let magnitude := if x.isInfinite then ['i', 'n', 'f'] else x.magnitudeText
    if x.isNegative then '-' :: magnitude else magnitude

end Number
end SignalScript
