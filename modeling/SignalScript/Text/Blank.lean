import SignalScript.Text.Ranges

namespace SignalScript
namespace Text

/-!
Blank characters and the trimming of texts.

Blanks are the white-space characters of the standard, which reach well beyond
the few that a keyboard can type.  A zero-width space is not among them.
-/

/-- Code points of the white-space characters. -/
def blankRanges : Ranges :=
  [(0x9, 0xD), (0x20, 0x20), (0x85, 0x85), (0xA0, 0xA0), (0x1680, 0x1680),
   (0x2000, 0x200A), (0x2028, 0x2029), (0x202F, 0x202F), (0x205F, 0x205F),
   (0x3000, 0x3000)]

/-- A blank separates lexemes and carries no meaning of its own. -/
def isBlank (c : Char) : Bool :=
  blankRanges.holds c.toNat

/-- Remove the blanks at the front. -/
def trimStart (text : List Char) : List Char :=
  text.dropWhile isBlank

/-- Remove the blanks at the back. -/
def trimEnd (text : List Char) : List Char :=
  (text.reverse.dropWhile isBlank).reverse

/-- Remove the blanks at both ends, leaving those inside alone. -/
def trim (text : List Char) : List Char :=
  trimEnd (trimStart text)

end Text
end SignalScript
