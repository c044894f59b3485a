import SignalScript.Text.Blank
import SignalScript.Token

namespace SignalScript

/-!
Lexemes: the classes of text that the source is cut into.

Every class measures how much of a text it would take from the front.  The
classes are tried in a fixed order and the first that takes anything wins.
Blanks and comments are lexemes as well, but they yield no token.
-/

/-- The classes of lexeme.  A fixed lexeme is the spelling of one kind of
token. -/
inductive Lexeme where
  | blanks
  | comment
  | word
  | number
  | string
  | fixed (kind : Kind)
deriving DecidableEq

namespace Lexeme

/-- The marks that a word may hold beside letters and digits. -/
def isMark (c : Char) : Bool :=
  c == '@' || c == '#' || c == '$' || c == '_'

/-- A word starts with a letter of the basic alphabet or a mark. -/
def startsWord (c : Char) : Bool :=
  c.isAlpha || isMark c

/-- A word goes on with letters, digits and marks. -/
def continuesWord (c : Char) : Bool :=
  c.isAlphanum || isMark c

/-- The length of the run of characters of one class at the front. -/
def run (holds : Char -> Bool) (text : List Char) : Nat :=
  (text.takeWhile holds).length

/-- The length of a decimal point with at least one digit behind it, and
nothing for a point that stands alone. -/
def fractionWidth : List Char -> Nat
  | '.' :: digits =>
      let places := run Char.isDigit digits
      if places = 0 then 0 else places + 1
  | _ => 0

/-- How many characters a class takes from the front of a text.  Nothing is
taken when the text does not start with a lexeme of the class. -/
def width : Lexeme -> List Char -> Nat
  | .blanks, text => run Text.isBlank text
  | .comment, '/' :: '/' :: rest => 2 + run (· != '\n') rest
  | .comment, _ => 0
  | .word, c :: rest => if startsWord c then 1 + run continuesWord rest else 0
  | .word, [] => 0
  | .number, text =>
      let digits := run Char.isDigit text
      if digits = 0 then 0 else digits + fractionWidth (text.drop digits)
  | .string, '\'' :: rest =>
      let contents := run (· != '\'') rest
      if contents < rest.length then contents + 2 else 0
  | .string, _ => 0
  | .fixed kind, text =>
      let spelling := kind.symbol.toList
      if spelling.isPrefixOf text then spelling.length else 0

/-- The classes in the order in which they are tried. -/
def order : List Lexeme :=
  [.blanks, .comment, .word, .number, .string,
   .fixed .openBracket, .fixed .closeBracket, .fixed .openParen, .fixed .closeParen,
   .fixed .plusAssign, .fixed .leftArrow, .fixed .assign, .fixed .dot,
   .fixed .semicolon, .fixed .colon, .fixed .question, .fixed .comma,
   .fixed .plus, .fixed .dash, .fixed .slash, .fixed .star]

/-- The first class that takes anything from the front of a text. -/
def first? (text : List Char) : Option Lexeme :=
  order.find? (fun lexeme => decide (0 < lexeme.width text))

theorem width_pos_of_first? {text : List Char} {lexeme : Lexeme}
    (found : first? text = some lexeme) : 0 < lexeme.width text := by
  have holds := List.find?_some found
  simpa using holds

/-- The kind of token that a lexeme yields, if it yields one.  The sign `@` by
itself is a kind of its own, and inside a longer word it is a letter like any
other. -/
def kind? : Lexeme -> List Char -> Option Kind
  | .blanks, _ => none
  | .comment, _ => none
  | .word, taken => some (if taken = ['@'] then .atSign else .identifier)
  | .number, taken => some (if '.' ∈ taken then .float else .int)
  | .string, _ => some .string
  | .fixed kind, _ => some kind

/-- The value of the token that a lexeme yields.  A string literal loses its
quotation marks, and nothing in it is an escape. -/
def value : Lexeme -> List Char -> List Char
  | .string, taken => (taken.drop 1).dropLast
  | _, taken => taken

end Lexeme
end SignalScript
