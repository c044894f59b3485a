import SignalScript.Operator
import SignalScript.Scanner

namespace SignalScript

/-!
The state of a parser, and the steps that move it by one token.

A parser pulls tokens from a scanner on demand and holds exactly one token
that it has not used yet.  It also counts how deeply the expression being read
is nested.  A step that fails leaves the held token in place.

The weight of a state bounds the work that is left.  It counts the unread
characters and the held token, unless that token is the end of the input, and
taking a token brings the weight down to the number of unread characters.
-/

/-- A scanner, the token read last and not used yet, and the current nesting
depth. -/
structure Parser where
  scanner : Scanner
  ahead : Token
  depth : Nat

namespace Parser

/-- The number of characters behind the held token. -/
def unread (parser : Parser) : Nat :=
  parser.scanner.rest.length

/-- The unread characters and the held token, if it is not the last. -/
def weight (parser : Parser) : Nat :=
  parser.unread + parser.ahead.weight

theorem unread_le_weight (parser : Parser) : parser.unread ≤ parser.weight :=
  Nat.le_add_right _ _

theorem unread_lt_weight {parser : Parser} (more : parser.ahead.kind ≠ .endOfInput) :
    parser.unread < parser.weight := by
  simp [weight, Token.weight_eq_one more]

/-- A parser at the start of a source, holding its first token. -/
def ofSource (file source : String) : Except Fault Parser :=
  match (Scanner.ofSource file source).next with
  | .failed fault _ => .error fault
  | .done token scanner => .ok { scanner := scanner, ahead := token, depth := 0 }

/-- The place where a token starts. -/
def positionOf (parser : Parser) (token : Token) : Position where
  offset := token.span.start
  file := parser.scanner.file

/-- The place where the held token starts. -/
def position (parser : Parser) : Position :=
  parser.positionOf parser.ahead

/-- A fault at a token. -/
def faultAt (parser : Parser) (token : Token) (cause : Cause) : Fault where
  cause := cause
  position := parser.positionOf token

/-- The held token is not the end of the input. -/
def hasTokens (parser : Parser) : Bool :=
  parser.ahead.kind != .endOfInput

/-- Give up the held token for the next one. -/
def advance (parser : Parser) : Reply Parser Token :=
  match parser.scanner.next with
  | .done token scanner =>
      .done parser.ahead { scanner := scanner, ahead := token, depth := parser.depth }
  | .failed fault scanner =>
      .failed fault { scanner := scanner, ahead := parser.ahead, depth := parser.depth }

/-- Taking a token leaves no more weight than there were unread characters. -/
theorem weight_of_advance {parser next : Parser} {token : Token}
    (taken : parser.advance = .done token next) : next.weight ≤ parser.unread := by
  unfold advance at taken
  split at taken
  next read =>
    cases taken
    exact Scanner.next_shortens _ read
  next => cases taken

/-- The deepest nesting that a program may have. -/
def nestingLimit : Nat :=
  256

/-- The fault of going one level deeper than a limit allows.  Without a limit
there is none. -/
def tooDeep? (limit : Option Nat) (parser : Parser) : Option Fault :=
  match limit with
  | none => none
  | some levels =>
      if levels ≤ parser.depth then
        some (parser.faultAt parser.ahead (.tooDeep levels))
      else
        none

/-- Go one level deeper, whatever the limit. -/
def deeper (parser : Parser) : Parser where
  scanner := parser.scanner
  ahead := parser.ahead
  depth := parser.depth + 1

/-- Go one level deeper, if the limit allows it. -/
def enter (limit : Option Nat) (parser : Parser) : Except Fault Parser :=
  match parser.tooDeep? limit with
  | some fault => .error fault
  | none => .ok parser.deeper

/-- Come back up by some levels.  Nothing lies above the outermost one. -/
def leave (parser : Parser) (levels : Nat) : Parser where
  scanner := parser.scanner
  ahead := parser.ahead
  depth := parser.depth - levels

@[simp] theorem weight_leave (parser : Parser) (levels : Nat) :
    (parser.leave levels).weight = parser.weight := rfl

end Parser
end SignalScript
