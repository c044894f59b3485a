namespace SignalScript

/-!
Tokens: what the source text is made of once blanks and comments are gone.

A token has a kind, a value and the span of bytes it was read from.  The value
of a string literal is its contents without the quotation marks.  The end of
the input is a token too, with an empty span.
-/

/-- The kinds of token. -/
inductive Kind where
  | endOfInput
  | int
  | float
  | string
  | identifier
  | openBracket
  | closeBracket
  | openParen
  | closeParen
  | assign
  | plusAssign
  | leftArrow
  | dot
  | semicolon
  | colon
  | question
  | comma
  | atSign
  | plus
  | dash
  | slash
  | star
deriving DecidableEq

namespace Kind

/-- Every kind, each once. -/
def all : List Kind :=
  [.endOfInput, .int, .float, .string, .identifier, .openBracket, .closeBracket,
   .openParen, .closeParen, .assign, .plusAssign, .leftArrow, .dot, .semicolon,
   .colon, .question, .comma, .atSign, .plus, .dash, .slash, .star]

/-- The name under which a kind is listed. -/
def name : Kind -> String
  | .endOfInput => "EOF"
  | .int => "Int"
  | .float => "Float"
  | .string => "String"
  | .identifier => "Identifier"
  | .openBracket => "OpenBracket"
  | .closeBracket => "CloseBracket"
  | .openParen => "OpenParen"
  | .closeParen => "CloseParen"
  | .assign => "Assignment"
  | .plusAssign => "PlusEquals"
  | .leftArrow => "LeftArrow"
  | .dot => "Dot"
  | .semicolon => "Semicolon"
  | .colon => "Colon"
  | .question => "Question"
  | .comma => "Comma"
  | .atSign => "At"
  | .plus => "Plus"
  | .dash => "Dash"
  | .slash => "Slash"
  | .star => "Star"

/-- The spelling of a kind that has only one, and a word for the others. -/
def symbol : Kind -> String
  | .endOfInput => "EOF"
  | .int | .float => "number"
  | .string => "string"
  | .identifier => "identifier"
  | .openBracket => "["
  | .closeBracket => "]"
  | .openParen => "("
  | .closeParen => ")"
  | .assign => "="
  | .plusAssign => "+="
  | .leftArrow => "<-"
  | .dot => "."
  | .semicolon => ";"
  | .colon => ":"
  | .question => "?"
  | .comma => ","
  | .atSign => "@"
  | .plus => "+"
  | .dash => "-"
  | .slash => "/"
  | .star => "*"

/-- The kinds whose tokens differ in their values. -/
def carriesValue : Kind -> Bool
  | .string | .identifier | .int | .float => true
  | _ => false

end Kind

/-- A range of byte offsets.  An offset keeps the low 32 bits of the distance
from the start of the source. -/
structure Span where
  start : UInt32
  stop : UInt32
deriving DecidableEq

/-- The span of `bytes` bytes that starts at `offset`. -/
def Span.ofOffset (offset bytes : Nat) : Span where
  start := UInt32.ofNat offset
  stop := UInt32.ofNat (offset + bytes)

/-- A token with its value and its place in the source. -/
structure Token where
  kind : Kind
  value : String
  span : Span
deriving DecidableEq

namespace Token

/-- The token that stands at the end of the input. -/
def endOfInput (offset : Nat) : Token where
  kind := .endOfInput
  value := Kind.endOfInput.symbol
  span := Span.ofOffset offset 0

/-- One line of a token listing.  Values are shown only where they tell
something. -/
def listing (token : Token) : String :=
  let value := if token.kind.carriesValue then token.value else ""
  token.kind.name ++ " (" ++ value ++ ") @" ++ toString token.span.start.toNat

/-- A token written out with its kind and value, one to a line. -/
def display (token : Token) : String :=
  "Token \x7b\nkind: " ++ token.kind.name ++ ",\nvalue: " ++ token.value ++ "\x7d"

/-- How much a token counts towards the work still to be done: nothing at the
end of the input, one anywhere else. -/
def weight (token : Token) : Nat :=
  if token.kind = .endOfInput then 0 else 1

theorem weight_le_one (token : Token) : token.weight ≤ 1 := by
  unfold weight
  split <;> omega

theorem weight_eq_one {token : Token} (more : token.kind ≠ .endOfInput) :
    token.weight = 1 := by
  simp [weight, more]

end Token
end SignalScript
