import SignalScript.Text.Quoted

namespace SignalScript

/-!
Faults: why a source is rejected, and where.

A fault is a cause together with a position.  Its wording lives here and
nowhere else: the one-line message, the name and the tip that a report shows.
The first fault met ends the reading, so there is never more than one.
-/

/-- A place in a source, named by its file and a byte offset. -/
structure Position where
  offset : UInt32
  file : String
deriving DecidableEq

/-- The position as `file:offset`. -/
def Position.text (position : Position) : String :=
  position.file ++ ":" ++ toString position.offset.toNat

/-- What was wanted where an unexpected token stands. -/
inductive Wanted where
  | expression
  | closing (close opened : String)
  | modulePath
  | declaredName
  | other (description : String)
deriving DecidableEq

/-- The wording of what was wanted. -/
def Wanted.text : Wanted -> String
  | .expression => "expected an expression"
  | .closing close opened => "expected `" ++ close ++ "` to close `" ++ opened ++ "`"
  | .modulePath => "expected a module path string after `@`"
  | .declaredName => "expected identifier after declaration marker `*`"
  | .other description => description

/-- The ways in which a source can be wrong. -/
inductive Cause where
  | unrecognised (character : String)
  | unterminatedText
  | numberOutOfRange (literal : String)
  | unexpected (token : String)
  | unexpectedWanting (token : String) (wanted : Wanted)
  | unexpectedEnd
  | missingOperand (operator : String)
  | unclosed (delimiter expected : String)
  | unmatched (delimiter : String)
  | tooDeep (limit : Nat)
deriving DecidableEq

/-- The stage that rejects a source: the split into tokens and numbers, or the
arrangement of tokens. -/
inductive Stage where
  | lexical
  | structural
deriving DecidableEq

namespace Cause

/-- A literal that is out of range counts as a lexical fault, although it is
noticed only when its token is used. -/
def stage : Cause -> Stage
  | .unrecognised _ | .unterminatedText | .numberOutOfRange _ => .lexical
  | _ => .structural

/-- The name under which a cause is reported. -/
def name : Cause -> String
  | .unrecognised _ => "UnrecognisedToken"
  | .unterminatedText => "UnterminatedString"
  | .numberOutOfRange _ => "NumberParseError"
  | .unexpected _ => "UnexpectedToken"
  | .unexpectedWanting _ _ => "UnexpectedTokenDetailed"
  | .unexpectedEnd => "UnexpectedEndOfInput"
  | .missingOperand _ => "MissingOperand"
  | .unclosed _ _ => "UnclosedDelimiter"
  | .unmatched _ => "UnmatchedDelimiter"
  | .tooDeep _ => "NestingTooDeep"

/-- A hint for the reader of the report.  An unrecognised character gets
none. -/
def tip? : Cause -> Option String
  | .unrecognised _ => none
  | .unterminatedText => some "String literal is never closed, add a matching `'`"
  | .numberOutOfRange literal =>
      some ("Invalid number: `" ++ literal ++ "`, is it above the integer limit?")
  | .unexpected token =>
      some ("Unexpected token: `" ++ token ++ "`, did you miss an operator?")
  | .unexpectedWanting token wanted =>
      some ("Unexpected token: `" ++ token ++ "`, " ++ wanted.text)
  | .unexpectedEnd => some "Input ended where an expression was expected"
  | .missingOperand operator => some ("Operator `" ++ operator ++ "` is missing an operand")
  | .unclosed delimiter expected =>
      some ("`" ++ delimiter ++ "` opened here is never closed, expected `" ++ expected ++ "`")
  | .unmatched delimiter => some ("`" ++ delimiter ++ "` has no matching opening delimiter")
  | .tooDeep limit =>
      some ("Expressions may nest at most " ++ toString limit ++ " levels deep")

/-- The cause in one line, with the offending text in quotation marks. -/
def message : Cause -> String
  | .unrecognised character => "unrecognised token: " ++ Text.quoted character
  | .unterminatedText => "unterminated string literal"
  | .numberOutOfRange literal => "error parsing number: " ++ Text.quoted literal
  | .unexpected token => "unexpected token: " ++ Text.quoted token
  | .unexpectedWanting token wanted =>
      "unexpected token (" ++ Text.quoted wanted.text ++ "): " ++ Text.quoted token
  | .unexpectedEnd => "unexpected end of input"
  | .missingOperand operator =>
      "operator " ++ Text.quoted operator ++ " is missing an operand"
  | .unclosed delimiter expected =>
      "unclosed delimiter " ++ Text.quoted delimiter ++ ", expected " ++ Text.quoted expected
  | .unmatched delimiter => "unmatched delimiter " ++ Text.quoted delimiter
  | .tooDeep limit => "expression nesting exceeds " ++ toString limit ++ " levels"

end Cause

/-- A cause at a position. -/
structure Fault where
  cause : Cause
  position : Position
deriving DecidableEq

/-- The cause and the position in one line. -/
def Fault.message (fault : Fault) : String :=
  fault.cause.message ++ " at " ++ fault.position.text

end SignalScript
