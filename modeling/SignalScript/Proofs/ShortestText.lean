import Mathlib
import SignalScript.Number.Decimal
import SignalScript.Number.Shortest

namespace SignalScript
namespace Number

/-!
The text of a double says which double it is.

The magnitude of a finite double is counted by its bits below the sign, so the
magnitudes are the natural numbers up to infinity, in order.  Between two
neighbours lies a half-way point.  The decimal that is shown for a magnitude lies
between the half-way points around it, and at one of them only if the magnitude is
even.  Neighbours differ in parity, so no decimal is shown for two magnitudes.

Bounds are kept whole.  They count quarters of the smallest positive double, and a
decimal is compared with them as the quotient of its digits by a power of ten.
-/

/-! ## Decimals -/

/-- The digits behind the point of a decimal. -/
def decimalsOf (text : List Char) : List Char :=
  (text.dropWhile (· != '.')).drop 1

/-- All digits of a decimal as one number. -/
def digitsOf (text : List Char) : Nat :=
  ofDigits (text.takeWhile (· != '.') ++ decimalsOf text)

theorem ofDigits_append_zeros (digits : List Char) (count : Nat) :
    ofDigits (digits ++ List.replicate count '0') = ofDigits digits * 10 ^ count := by
  change Nat.ofDigitChars 10 _ 0 = Nat.ofDigitChars 10 _ 0 * _
  rw [Nat.ofDigitChars_append, Nat.ofDigitChars_replicate_zero, Nat.mul_comm]

theorem ofDigits_zeros_append (digits : List Char) (count : Nat) :
    ofDigits (List.replicate count '0' ++ digits) = ofDigits digits := by
  change Nat.ofDigitChars 10 _ 0 = Nat.ofDigitChars 10 _ 0
  rw [Nat.ofDigitChars_append, Nat.ofDigitChars_replicate_zero, Nat.mul_zero]

theorem ofDigits_toDigits (n : Nat) : ofDigits (Nat.toDigits 10 n) = n :=
  Nat.ofDigitChars_toDigits (by decide) (by decide)

/-- Every character is a decimal digit. -/
def AllDigits (text : List Char) : Prop :=
  forall c, c ∈ text -> c.isDigit = true

theorem allDigits_toDigits (n : Nat) : AllDigits (Nat.toDigits 10 n) :=
  fun _ member => Nat.isDigit_of_mem_toDigits (by decide) (by decide) member

theorem allDigits_append {first second : List Char} (front : AllDigits first)
    (back : AllDigits second) : AllDigits (first ++ second) := by
  intro c member
  rcases List.mem_append.mp member with earlier | later
  · exact front c earlier
  · exact back c later

theorem allDigits_zeros (count : Nat) : AllDigits (List.replicate count '0') := by
  intro c member
  rw [(List.mem_replicate.mp member).2]
  rfl

theorem AllDigits.takeWhile_append {digits : List Char} (pure : AllDigits digits)
    (rest : List Char) :
    (digits ++ rest).takeWhile (· != '.') = digits ++ rest.takeWhile (· != '.') := by
  refine List.takeWhile_append_of_pos ?_
  intro c member
  have isDigit := pure c member
  rw [bne_iff_ne]
  rintro rfl
  exact absurd isDigit (by decide)

theorem AllDigits.dropWhile_append {digits : List Char} (pure : AllDigits digits)
    (rest : List Char) :
    (digits ++ rest).dropWhile (· != '.') = rest.dropWhile (· != '.') := by
  refine List.dropWhile_append_of_pos ?_
  intro c member
  have isDigit := pure c member
  rw [bne_iff_ne]
  rintro rfl
  exact absurd isDigit (by decide)

theorem decimalsOf_digits {digits : List Char} (pure : AllDigits digits) :
    decimalsOf digits = [] ∧ digitsOf digits = ofDigits digits := by
  have front := pure.takeWhile_append []
  have back := pure.dropWhile_append []
  rw [List.append_nil, List.takeWhile_nil, List.append_nil] at front
  rw [List.append_nil, List.dropWhile_nil] at back
  have none : decimalsOf digits = [] := by rw [decimalsOf, back, List.drop_nil]
  exact ⟨none, by rw [digitsOf, none, front, List.append_nil]⟩

theorem decimalsOf_point {whole : List Char} (pure : AllDigits whole) (places : List Char) :
    decimalsOf (whole ++ '.' :: places) = places ∧
      digitsOf (whole ++ '.' :: places) = ofDigits (whole ++ places) := by
  have front := pure.takeWhile_append ('.' :: places)
  have back := pure.dropWhile_append ('.' :: places)
  have behind : decimalsOf (whole ++ '.' :: places) = places := by
    rw [decimalsOf, back]
    rfl
  refine ⟨behind, ?_⟩
  rw [digitsOf, behind, front]
  simp

/-- The positional text shows the number that it is made for. -/
theorem digitsOf_positional (digits grid places : Nat) :
    digitsOf (positional digits grid places) * 10 ^ places =
      digits * 10 ^ grid * 10 ^ (decimalsOf (positional digits grid places)).length := by
  have shown := allDigits_toDigits digits
  by_cases fine : places ≤ grid
  · rw [positional, if_pos fine]
    rcases decimalsOf_digits (allDigits_append shown (allDigits_zeros (grid - places))) with
      ⟨none, all⟩
    rw [none, all, ofDigits_append_zeros, ofDigits_toDigits, List.length_nil, Nat.pow_zero,
      Nat.mul_one, Nat.mul_assoc, ← Nat.pow_add, Nat.sub_add_cancel fine]
  · rw [positional, if_neg fine]
    simp only
    generalize paddedIs :
      List.replicate (places - grid + 1 - (Nat.toDigits 10 digits).length) '0' ++
        Nat.toDigits 10 digits = padded
    have value : ofDigits padded = digits := by
      rw [← paddedIs, ofDigits_zeros_append, ofDigits_toDigits]
    have pure : AllDigits padded := by
      rw [← paddedIs]
      exact allDigits_append (allDigits_zeros _) shown
    have long : places - grid ≤ padded.length := by
      rw [← paddedIs, List.length_append, List.length_replicate]
      omega
    have front : AllDigits (padded.take (padded.length - (places - grid))) :=
      fun c member => pure c (List.mem_of_mem_take member)
    rcases decimalsOf_point front (padded.drop (padded.length - (places - grid))) with
      ⟨behind, all⟩
    have split : 10 ^ places = 10 ^ grid * 10 ^ (places - grid) := by
      rw [← Nat.pow_add, Nat.add_sub_cancel' (Nat.le_of_not_le fine)]
    have count : padded.length - (padded.length - (places - grid)) = places - grid := by omega
    rw [behind, all, List.take_append_drop, value, List.length_drop, count, split,
      Nat.mul_assoc]

/-! ## Magnitudes -/

/-- The significand that belongs to a magnitude. -/
def significandOf (magnitude : Nat) : Nat :=
  if magnitude / Double.hiddenBit = 0 then magnitude % Double.hiddenBit
  else Double.hiddenBit + magnitude % Double.hiddenBit

/-- The power of two that belongs to a magnitude. -/
def scaleOf (magnitude : Nat) : Nat :=
  magnitude / Double.hiddenBit - 1

/-- The half-way point below a magnitude. -/
def lowerBound (magnitude : Nat) : Nat :=
  (4 * significandOf magnitude -
    if significandOf magnitude = Double.hiddenBit ∧ 0 < scaleOf magnitude then 1 else 2) *
      2 ^ scaleOf magnitude

/-- The half-way point above a magnitude. -/
def upperBound (magnitude : Nat) : Nat :=
  (4 * significandOf magnitude + 2) * 2 ^ scaleOf magnitude

/-- Two neighbours share the half-way point between them. -/
theorem lowerBound_succ (magnitude : Nat) : lowerBound (magnitude + 1) = upperBound magnitude := by
  unfold lowerBound upperBound significandOf scaleOf Double.hiddenBit
  have bound := Nat.mod_lt magnitude (by decide : 0 < 0x10000000000000)
  rcases Nat.lt_or_ge (magnitude % 0x10000000000000 + 1) 0x10000000000000 with inside | carried
  · have field : (magnitude + 1) / 0x10000000000000 = magnitude / 0x10000000000000 := by omega
    have fraction : (magnitude + 1) % 0x10000000000000 = magnitude % 0x10000000000000 + 1 := by
      omega
    rw [field, fraction]
    by_cases small : magnitude / 0x10000000000000 = 0
    · simp only [small, if_true, Nat.zero_sub, Nat.lt_irrefl, and_false, if_false]
      omega
    · simp only [small, if_false]
      rw [if_neg (by omega)]
      congr 1
  · have field : (magnitude + 1) / 0x10000000000000 = magnitude / 0x10000000000000 + 1 := by omega
    have fraction : (magnitude + 1) % 0x10000000000000 = 0 := by omega
    have full : magnitude % 0x10000000000000 = 0xFFFFFFFFFFFFF := by omega
    rw [field, fraction, full]
    -- A carry doubles the unit, and above it the gap is twice the one below.
    cases magnitude / 0x10000000000000 with
    | zero => rfl
    | succ scale =>
        simp only [Nat.add_sub_cancel, Nat.succ_ne_zero, if_false, Nat.add_zero, true_and,
          Nat.succ_pos, if_true, Nat.pow_succ]
        omega

theorem lowerBound_lt_upperBound (magnitude : Nat) :
    lowerBound magnitude < upperBound magnitude := by
  refine Nat.mul_lt_mul_of_pos_right ?_ (Nat.two_pow_pos _)
  split <;> omega

theorem lowerBound_strictMono : forall {first second : Nat}, first < second ->
    lowerBound first < lowerBound second := by
  intro first second less
  induction less with
  | refl =>
      rw [lowerBound_succ]
      exact lowerBound_lt_upperBound first
  | step _ inductionHypothesis =>
      refine Nat.lt_trans inductionHypothesis ?_
      rw [lowerBound_succ]
      exact lowerBound_lt_upperBound _

/-- A quotient is one of those that round to a magnitude. -/
structure Rounds (dividend divisor magnitude : Nat) : Prop where
  above : lowerBound magnitude * divisor ≤ dividend
  below : dividend ≤ upperBound magnitude * divisor
  strict : magnitude % 2 = 1 -> lowerBound magnitude * divisor < dividend ∧
    dividend < upperBound magnitude * divisor

/-- A quotient that rounds to a magnitude rounds to none above it. -/
theorem Rounds.not_lt {dividend divisor first second : Nat} (positive : 0 < divisor)
    (rounds : Rounds dividend divisor first) (other : Rounds dividend divisor second) :
    ¬ first < second := by
  intro less
  have bounds : lowerBound (first + 1) ≤ lowerBound second := by
    rcases Nat.lt_or_eq_of_le (Nat.succ_le_of_lt less) with apart | next
    · exact Nat.le_of_lt (lowerBound_strictMono apart)
    · exact Nat.le_of_eq (congrArg lowerBound next)
  have scaled := Nat.mul_le_mul_right divisor bounds
  have below := rounds.below
  rw [← lowerBound_succ] at below
  have above := other.above
  -- The quotient is the half-way point that both share, so they are neighbours.
  have shared : lowerBound (first + 1) = lowerBound second :=
    Nat.eq_of_mul_eq_mul_right positive (by omega)
  have neighbours : first + 1 = second := by
    rcases Nat.lt_trichotomy (first + 1) second with apart | same | apart
    · have further := lowerBound_strictMono apart
      omega
    · exact same
    · omega
  rcases Nat.mod_two_eq_zero_or_one first with even | odd
  · have strict := (other.strict (by omega)).1
    omega
  · have strict := (rounds.strict odd).2
    rw [← lowerBound_succ] at strict
    omega

theorem Rounds.unique {dividend divisor first second : Nat} (positive : 0 < divisor)
    (rounds : Rounds dividend divisor first) (other : Rounds dividend divisor second) :
    first = second := by
  have notBelow := rounds.not_lt positive other
  have notAbove := other.not_lt positive rounds
  omega

/-! ## The decimal that is shown -/

namespace Interval

theorem bounds_of_holds {interval : Interval} {point : Nat}
    (inside : interval.holds point = true) :
    interval.low ≤ point ∧ point ≤ interval.high ∧
      (interval.closed = false -> interval.low < point ∧ point < interval.high) := by
  unfold holds at inside
  split at inside
  next closed =>
    simp only [Bool.and_eq_true, decide_eq_true_eq] at inside
    exact ⟨inside.1, inside.2, fun isOpen => absurd (closed.symm.trans isOpen) (by decide)⟩
  next =>
    simp only [Bool.and_eq_true, decide_eq_true_eq] at inside
    exact ⟨Nat.le_of_lt inside.1, Nat.le_of_lt inside.2, fun _ => inside⟩

theorem holds_of_hit? {interval : Interval} {grid point : Nat}
    (hit : interval.hit? grid = some point) :
    interval.holds (point * (4 * Nat.pow 10 grid)) = true := by
  unfold hit? at hit
  simp only at hit
  split at hit
  next below above =>
    cases hit
    split
    · exact below
    · exact above
  next below above =>
    cases hit
    exact below
  next below above =>
    cases hit
    exact above
  next => cases hit

/-- The search ends with a point of the interval if the value itself is a point of
the finest grid. -/
theorem holds_coarsest {interval : Interval}
    (own : interval.holds (interval.value / 4 * 4) = true) (grid : Nat) :
    interval.holds ((interval.coarsest grid).2 * (4 * Nat.pow 10 (interval.coarsest grid).1)) =
      true := by
  induction grid with
  | zero => exact own
  | succ grid inductionHypothesis =>
      rw [coarsest]
      split
      next point hit => exact holds_of_hit? hit
      next => exact inductionHypothesis

end Interval

namespace Double

/-- The smallest positive double is two to this power, with the sign changed. -/
def leastExponent : Nat :=
  1074

/-- The bits below the sign as one number. -/
def magnitude (x : Double) : Nat :=
  x.exponentField * hiddenBit + x.fractionField

theorem magnitude_div (x : Double) : x.magnitude / hiddenBit = x.exponentField := by
  have small : x.fractionField < hiddenBit := Nat.mod_lt _ (by decide)
  rw [magnitude]
  unfold hiddenBit at small ⊢
  omega

theorem magnitude_mod (x : Double) : x.magnitude % hiddenBit = x.fractionField := by
  have small : x.fractionField < hiddenBit := Nat.mod_lt _ (by decide)
  rw [magnitude, Nat.mul_add_mod_self_right, Nat.mod_eq_of_lt small]

theorem significandOf_magnitude (x : Double) : significandOf x.magnitude = x.significand := by
  rw [significandOf, significand, magnitude_div, magnitude_mod]

theorem scaleOf_magnitude (x : Double) : scaleOf x.magnitude = x.scale := by
  rw [scaleOf, scale, magnitude_div]

/-- A double is its sign and its magnitude. -/
theorem eq_of_magnitude {x y : Double} (sign : x.isNegative = y.isNegative)
    (same : x.magnitude = y.magnitude) : x = y := by
  have wordX : x.word < 2 ^ 64 := x.bits.toNat_lt
  have wordY : y.word < 2 ^ 64 := y.bits.toNat_lt
  have words : x.word = y.word := by
    simp only [isNegative, decide_eq_decide, magnitude, exponentField, fractionField,
      hiddenBit] at sign same
    omega
  cases x
  cases y
  exact congrArg Double.mk (UInt64.toNat_inj.mp words)

theorem significand_mod_two (x : Double) : x.significand % 2 = x.magnitude % 2 := by
  rw [significand, magnitude, hiddenBit]
  split <;> omega

/-- The unit in which the interval of a double counts quarters. -/
def unit (x : Double) : Nat :=
  if 1074 ≤ x.scale then Nat.pow 2 (x.scale - 1074) else Nat.pow 5 x.places

theorem unit_pos (x : Double) : 0 < x.unit := by
  unfold unit
  split
  · exact Nat.pow_pos (by decide)
  · exact Nat.pow_pos (by decide)

/-- The unit is a power of two, shown with as many decimal places as it takes. -/
theorem unit_mul_least (x : Double) :
    x.unit * 2 ^ leastExponent = 10 ^ x.places * 2 ^ x.scale := by
  unfold unit
  split
  next large =>
    have none : x.places = 0 := Nat.sub_eq_zero_of_le large
    have split : x.scale - 1074 + leastExponent = x.scale := Nat.sub_add_cancel large
    rw [none, Nat.pow_zero, Nat.one_mul]
    exact (Nat.pow_add 2 _ _).symm.trans (congrArg (2 ^ ·) split)
  next small =>
    have split : x.places + x.scale = leastExponent :=
      Nat.sub_add_cancel (Nat.le_of_not_le small)
    rw [← split, Nat.pow_add, ← Nat.mul_assoc]
    exact congrArg (· * 2 ^ x.scale) (Nat.mul_pow 5 2 x.places).symm

theorem interval_low (x : Double) :
    x.interval.low * 2 ^ x.scale = lowerBound x.magnitude * x.unit := by
  rw [lowerBound, significandOf_magnitude, scaleOf_magnitude]
  exact Nat.mul_right_comm _ _ _

theorem interval_high (x : Double) :
    x.interval.high * 2 ^ x.scale = upperBound x.magnitude * x.unit := by
  rw [upperBound, significandOf_magnitude, scaleOf_magnitude]
  exact Nat.mul_right_comm _ _ _

theorem interval_closed (x : Double) : x.interval.closed = (x.magnitude % 2 == 0) :=
  congrArg (· == 0) x.significand_mod_two

/-- A bound of the interval compares with a point of a grid as the half-way point
that it stands for compares with the decimal of that point. -/
theorem compare_bound {bound halfWay unit scale least tens digits divisor point grid : Nat}
    (units : unit * least = tens * scale) (stands : bound * scale = halfWay * unit)
    (shown : digits * tens = point * grid * divisor) :
    halfWay * divisor * (tens * scale) = bound * (scale * divisor * least) ∧
      4 * least * digits * (tens * scale) = point * (4 * grid) * (scale * divisor * least) := by
  constructor
  · calc
      halfWay * divisor * (tens * scale) = halfWay * divisor * (unit * least) := by rw [units]
      _ = halfWay * unit * (divisor * least) := by ac_rfl
      _ = bound * scale * (divisor * least) := by rw [stands]
      _ = bound * (scale * divisor * least) := by ac_rfl
  · calc
      4 * least * digits * (tens * scale) = 4 * least * scale * (digits * tens) := by ac_rfl
      _ = 4 * least * scale * (point * grid * divisor) := by rw [shown]
      _ = point * (4 * grid) * (scale * divisor * least) := by ac_rfl

/-- A point of the interval is a decimal that rounds to the double. -/
theorem rounds_of_holds {x : Double} {point grid : Nat}
    (inside : x.interval.holds (point * (4 * Nat.pow 10 grid)) = true) :
    Rounds (4 * 2 ^ leastExponent * digitsOf (positional point grid x.places))
      (10 ^ (decimalsOf (positional point grid x.places)).length) x.magnitude := by
  have shown := digitsOf_positional point grid x.places
  have positive : 0 < 10 ^ (decimalsOf (positional point grid x.places)).length :=
    Nat.pow_pos (by decide)
  generalize digitsOf (positional point grid x.places) = digits at shown ⊢
  generalize 10 ^ (decimalsOf (positional point grid x.places)).length = divisor
    at shown positive ⊢
  have common : 0 < 10 ^ x.places * 2 ^ x.scale :=
    Nat.mul_pos (Nat.pow_pos (by decide)) (Nat.two_pow_pos _)
  have factor : 0 < 2 ^ x.scale * divisor * 2 ^ leastExponent :=
    Nat.mul_pos (Nat.mul_pos (Nat.two_pow_pos _) positive) (Nat.two_pow_pos _)
  rcases compare_bound x.unit_mul_least x.interval_low shown with ⟨lower, decimal⟩
  have upper := (compare_bound x.unit_mul_least x.interval_high shown).1
  rcases Interval.bounds_of_holds inside with ⟨above, below, strict⟩
  refine ⟨?_, ?_, ?_⟩
  · apply Nat.le_of_mul_le_mul_right _ common
    rw [lower, decimal]
    exact Nat.mul_le_mul_right _ above
  · apply Nat.le_of_mul_le_mul_right _ common
    rw [upper, decimal]
    exact Nat.mul_le_mul_right _ below
  · intro odd
    have isOpen : x.interval.closed = false := by rw [interval_closed, odd]; rfl
    rcases strict isOpen with ⟨beyond, under⟩
    constructor
    · apply Nat.lt_of_mul_lt_mul_right
      rw [lower, decimal]
      exact Nat.mul_lt_mul_of_pos_right beyond factor
    · apply Nat.lt_of_mul_lt_mul_right
      rw [upper, decimal]
      exact Nat.mul_lt_mul_of_pos_right under factor

theorem significand_pos {x : Double} (some : x.isZero = false) : 0 < x.significand := by
  unfold significand
  split
  next small =>
    rw [isZero, small] at some
    simp only [BEq.rfl, Bool.true_and, beq_eq_false_iff_ne] at some
    exact Nat.pos_of_ne_zero some
  next => exact Nat.lt_of_lt_of_le (by decide) (Nat.le_add_right _ _)

/-- The value of a double is a point of its own interval. -/
theorem holds_value {x : Double} (some : x.isZero = false) :
    x.interval.holds (x.interval.value / 4 * 4) = true := by
  have positive := significand_pos some
  have whole : x.interval.value / 4 * 4 = 4 * x.significand * x.unit := by
    have value : x.interval.value = x.significand * x.unit * 4 := by
      rw [Nat.mul_comm _ 4, ← Nat.mul_assoc]
      rfl
    rw [value, Nat.mul_div_cancel _ (by decide), Nat.mul_comm _ 4, Nat.mul_assoc]
  have beyond : x.interval.low < 4 * x.significand * x.unit := by
    refine Nat.mul_lt_mul_of_pos_right ?_ x.unit_pos
    split <;> omega
  have under : 4 * x.significand * x.unit < x.interval.high :=
    Nat.mul_lt_mul_of_pos_right (by omega) x.unit_pos
  rw [whole]
  unfold Interval.holds
  split
  · simp only [Nat.le_of_lt beyond, Nat.le_of_lt under, decide_true, Bool.and_self]
  · simp only [beyond, under, decide_true, Bool.and_self]

/-- The text of a finite magnitude is a decimal that rounds to it. -/
theorem rounds_magnitudeText (x : Double) :
    Rounds (4 * 2 ^ leastExponent * digitsOf x.magnitudeText)
      (10 ^ (decimalsOf x.magnitudeText).length) x.magnitude := by
  cases zero : x.isZero with
  | true =>
      have nothing : x.magnitude = 0 := by
        simp only [isZero, Bool.and_eq_true, beq_iff_eq] at zero
        rw [magnitude, zero.1, zero.2, Nat.zero_mul]
      have least : lowerBound 0 = 0 := rfl
      have digits : digitsOf ['0'] = 0 := rfl
      rw [magnitudeText, if_pos zero, nothing, digits, Nat.mul_zero]
      refine ⟨Nat.le_of_eq ?_, Nat.zero_le _, nofun⟩
      rw [least, Nat.zero_mul]
  | false =>
      have inside := Interval.holds_coarsest (holds_value zero) (x.interval.high.log2 / 3 + 1)
      rw [magnitudeText, if_neg (by rw [zero]; decide)]
      exact rounds_of_holds inside

/-! ## Whole texts -/

theorem mem_positional {digits grid places : Nat} {c : Char}
    (member : c ∈ positional digits grid places) : c.isDigit = true ∨ c = '.' := by
  have shown := allDigits_toDigits digits
  unfold positional at member
  split at member
  · exact Or.inl (allDigits_append shown (allDigits_zeros _) c member)
  · have padded := allDigits_append
      (allDigits_zeros (places - grid + 1 - (Nat.toDigits 10 digits).length)) shown
    rcases List.mem_append.mp member with front | back
    · exact Or.inl (padded c (List.mem_of_mem_take front))
    · rcases List.mem_cons.mp back with point | behind
      · exact Or.inr point
      · exact Or.inl (padded c (List.mem_of_mem_drop behind))

theorem mem_magnitudeText {x : Double} {c : Char} (member : c ∈ x.magnitudeText) :
    c.isDigit = true ∨ c = '.' := by
  unfold magnitudeText at member
  split at member
  · rw [List.mem_singleton.mp member]
    exact Or.inl rfl
  · exact mem_positional member

/-- The text of a double that is a number, without its sign. -/
def unsignedText (x : Double) : List Char :=
  if x.isInfinite then ['i', 'n', 'f'] else x.magnitudeText

theorem text_of_not_isNaN {x : Double} (number : x.isNaN = false) :
    x.text = if x.isNegative then '-' :: x.unsignedText else x.unsignedText := by
  rw [text, if_neg (by rw [number]; decide)]
  rfl

theorem mem_unsignedText {x : Double} {c : Char} (member : c ∈ x.unsignedText) :
    c.isDigit = true ∨ c ∈ ['.', 'i', 'n', 'f'] := by
  unfold unsignedText at member
  split at member
  · exact Or.inr (List.mem_cons_of_mem _ member)
  · rcases mem_magnitudeText member with digit | point
    · exact Or.inl digit
    · exact Or.inr (by rw [point]; exact List.mem_cons_self)

/-- The text of a double is made of digits, a point, a sign and a few letters. -/
theorem mem_text {x : Double} {c : Char} (member : c ∈ x.text) :
    c.isDigit = true ∨ c ∈ ['.', '-', 'N', 'a', 'i', 'n', 'f'] := by
  have widened : forall c, c ∈ ['.', 'i', 'n', 'f'] ->
      c ∈ ['.', '-', 'N', 'a', 'i', 'n', 'f'] := by
    grind
  cases number : x.isNaN with
  | true =>
      rw [text, if_pos number] at member
      have named : forall c, c ∈ ['N', 'a', 'N'] ->
          c ∈ ['.', '-', 'N', 'a', 'i', 'n', 'f'] := by
        grind
      exact Or.inr (named c member)
  | false =>
      rw [text_of_not_isNaN number] at member
      split at member
      · rcases List.mem_cons.mp member with sign | behind
        · exact Or.inr (by rw [sign]; decide)
        · exact (mem_unsignedText behind).imp_right (widened c)
      · exact (mem_unsignedText member).imp_right (widened c)

theorem not_mem_unsignedText {x : Double} {c : Char} (letter : c.isDigit = false)
    (foreign : c ∉ ['.', 'i', 'n', 'f']) : c ∉ x.unsignedText := by
  intro member
  rcases mem_unsignedText member with digit | listed
  · exact absurd (letter.symm.trans digit) (by decide)
  · exact foreign listed

theorem isNaN_iff_mem_text (x : Double) : x.isNaN = true <-> 'N' ∈ x.text := by
  cases number : x.isNaN with
  | true =>
      rw [text, if_pos number]
      exact ⟨fun _ => List.mem_cons_self, fun _ => rfl⟩
  | false =>
      have absent : 'N' ∉ x.unsignedText := not_mem_unsignedText rfl (by decide)
      rw [text_of_not_isNaN number]
      split <;> simp [absent]

theorem isNegative_iff_mem_text {x : Double} (number : x.isNaN = false) :
    x.isNegative = true <-> '-' ∈ x.text := by
  have absent : '-' ∉ x.unsignedText := not_mem_unsignedText rfl (by decide)
  rw [text_of_not_isNaN number]
  cases x.isNegative <;> simp [absent]

theorem isInfinite_iff_mem_unsignedText (x : Double) :
    x.isInfinite = true <-> 'i' ∈ x.unsignedText := by
  unfold unsignedText
  cases x.isInfinite with
  | true => exact ⟨fun _ => List.mem_cons_self, fun _ => rfl⟩
  | false =>
      refine ⟨nofun, fun member => ?_⟩
      rcases mem_magnitudeText member with digit | point
      · exact absurd digit (by decide)
      · exact absurd point (by decide)

theorem magnitude_of_isInfinite {x : Double} (infinite : x.isInfinite = true) :
    x.magnitude = 0x7FF * hiddenBit := by
  simp only [isInfinite, Bool.and_eq_true, beq_iff_eq] at infinite
  rw [magnitude, infinite.1, infinite.2, Nat.add_zero]

/-- The unsigned text determines the magnitude. -/
theorem magnitude_of_unsignedText {x y : Double} (same : x.unsignedText = y.unsignedText) :
    x.magnitude = y.magnitude := by
  have infinities : x.isInfinite = y.isInfinite := by
    rw [Bool.eq_iff_iff, isInfinite_iff_mem_unsignedText, isInfinite_iff_mem_unsignedText, same]
  cases infinite : x.isInfinite with
  | true =>
      rw [magnitude_of_isInfinite infinite,
        magnitude_of_isInfinite (infinities.symm.trans infinite)]
  | false =>
      have finite : ¬ y.isInfinite = true := by
        rw [← infinities, infinite]
        decide
      rw [unsignedText, unsignedText, if_neg finite, if_neg (infinities ▸ finite)] at same
      have rounds := x.rounds_magnitudeText
      rw [same] at rounds
      exact rounds.unique (Nat.pow_pos (by decide)) y.rounds_magnitudeText

/-- Two doubles with the same text are the same, unless neither is a number. -/
theorem eq_of_text {x y : Double} (same : x.text = y.text) :
    x = y ∨ (x.isNaN = true ∧ y.isNaN = true) := by
  have kinds : x.isNaN = y.isNaN := by
    rw [Bool.eq_iff_iff, isNaN_iff_mem_text, isNaN_iff_mem_text, same]
  cases number : x.isNaN with
  | true => exact Or.inr ⟨rfl, kinds.symm.trans number⟩
  | false =>
      have other : y.isNaN = false := kinds.symm.trans number
      have signs : x.isNegative = y.isNegative := by
        rw [Bool.eq_iff_iff, isNegative_iff_mem_text number, isNegative_iff_mem_text other, same]
      rw [text_of_not_isNaN number, text_of_not_isNaN other, signs] at same
      have unsigned : x.unsignedText = y.unsignedText := by
        split at same
        · exact (List.cons.inj same).2
        · exact same
      exact Or.inl (eq_of_magnitude signs (magnitude_of_unsignedText unsigned))

end Double
end Number
end SignalScript
