namespace SignalScript
namespace Text

/-!
Sets of characters, given by sorted ranges of code points.

The character classes of the standard are tables of this shape.  A look-up
reads the table from the left and stops at the first range that lies above
the character, so characters near the front of a table are decided quickly.
-/

/-- Disjoint closed ranges of code points in increasing order. -/
abbrev Ranges := List (Nat × Nat)

/-- A code point belongs to the set when one of its ranges holds it.  Nothing
above the first range that starts later is looked at. -/
def Ranges.holds : Ranges -> Nat -> Bool
  | [], _ => false
  | (low, high) :: later, code =>
      decide (low ≤ code) && (decide (code ≤ high) || Ranges.holds later code)

end Text
end SignalScript
