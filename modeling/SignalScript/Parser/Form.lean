import SignalScript.Number.Decimal
import SignalScript.Parser.Step

namespace SignalScript
namespace Parser

/-!
The forms of expressions, each read by a step of its own.

A step that has to read a nested expression is given the means to do so as an
argument.  That argument may be used on any state of bounded weight, and the
bound is what makes the whole parser end.  Every step below works on any state,
whatever token is held: it takes the held token without looking at its kind
unless it says otherwise.
-/

/-- The means to read a nested expression at a binding power, at states of
weight up to a bound. -/
abbrev Operand (bound : Nat) : Type :=
  (power : Power) -> (parser : Parser) -> parser.weight ≤ bound -> Step parser.unread Tree

/-- The fault of a state at which no expression starts. -/
def missingExpression (parser : Parser) : Fault :=
  let token := parser.ahead
  parser.faultAt token
    (if token.kind = .endOfInput then
      .unexpectedEnd
    else if (Operator.ofKind? token.kind).isSome then
      .missingOperand token.value
    else
      .unexpectedWanting token.value .expression)

/-- The fault of an operator without an operand. -/
def operandMissing (parser : Parser) (operator : Token) : Fault :=
  parser.faultAt operator (.missingOperand operator.value)

/-! ## Atoms and markers -/

/-- The greatest whole number that a literal may denote, which is the greatest
signed 64-bit number. -/
def greatestInt : Nat :=
  0x7FFFFFFFFFFFFFFF

/-- Read a number or a string.  The token is taken before its value is looked
at. -/
def literal (parser : Parser) : Step parser.unread Tree :=
  parser.take.andThen fun token next within =>
    match token.kind with
    | .int =>
        let value := Number.ofDigits token.value.toList
        if value ≤ greatestInt then
          .done (.int value) next within
        else
          .failed (parser.faultAt token (.numberOutOfRange token.value)) next
    | .float => .done (.float (Number.Double.ofLiteral token.value.toList)) next within
    | .string => .done (.string token.value) next within
    | _ => .failed (parser.faultAt token (.unexpected token.value)) next

/-- Read the marker `@` and the module path behind it. -/
def importing (parser : Parser) : Step parser.unread Tree :=
  parser.take.andThen fun _ next within =>
    let otherwise := next.faultAt next.ahead (.unexpectedWanting next.ahead.value .modulePath)
    (next.demand .string otherwise).andThen fun path after small =>
      .done (.form .importing [.string path.value]) after (within_of_unread small within)

/-- Read the marker `*` and the name behind it. -/
def declaring (parser : Parser) : Step parser.unread Tree :=
  parser.take.andThen fun _ next within =>
    let otherwise := next.faultAt next.ahead (.unexpectedWanting next.ahead.value .declaredName)
    (next.demand .identifier otherwise).andThen fun name after small =>
      .done (.form .declaring [Tree.ofName name.value]) after (within_of_unread small within)

/-! ## Delimiters -/

/-- Take the delimiter that closes `opened`. -/
def closing (opened : Token) (close : Kind) (parser : Parser) : Step parser.unread Token :=
  let otherwise :=
    if parser.ahead.kind = .endOfInput then
      parser.faultAt opened (.unclosed opened.value close.symbol)
    else
      parser.faultAt parser.ahead
        (.unexpectedWanting parser.ahead.value (.closing close.symbol opened.value))
  parser.demand close otherwise

/-- Read an expression and the delimiter behind it. -/
def contents {bound : Nat} (operand : Operand bound) (opened : Token) (close : Kind)
    (parser : Parser) (small : parser.weight ≤ bound) : Step parser.unread Tree :=
  (operand .loosest parser small).andThen fun tree next within =>
    (next.closing opened close).andThen fun _ after smaller =>
      .done tree after (within_of_unread smaller within)

/-- Read an expression in parentheses. -/
def group {bound : Nat} (operand : Operand bound) (parser : Parser)
    (small : parser.unread ≤ bound) : Step parser.unread Tree :=
  parser.take.andThen fun opened next within =>
    (contents operand opened .closeParen next (Nat.le_trans within small)).andThen
      fun tree after smaller =>
        .done (.form .paren [tree]) after (within_of_unread smaller within)

/-- Read an opening delimiter and either its closing partner at once or an
expression in front of it.  The children of the form follow those given. -/
def enclosed {bound : Nat} (operand : Operand bound) (tag : Tag) (front : List Tree)
    (close : Kind) (parser : Parser) (small : parser.unread ≤ bound) :
    Step parser.unread Tree :=
  parser.take.andThen fun opened next within =>
    if next.ahead.kind = close then
      next.take.andThen fun _ after smaller =>
        .done (.form tag front) after (within_of_unread smaller within)
    else
      (contents operand opened close next (Nat.le_trans within small)).andThen
        fun tree after smaller =>
          .done (.form tag (front ++ [tree])) after (within_of_unread smaller within)

/-- Read an expression, or nothing, in square brackets. -/
def bracket {bound : Nat} (operand : Operand bound) (parser : Parser)
    (small : parser.unread ≤ bound) : Step parser.unread Tree :=
  enclosed operand .bracket [] .closeBracket parser small

/-- Read a name.  A parenthesis that starts where the name ends makes it a call,
with or without arguments. -/
def name {bound : Nat} (operand : Operand bound) (parser : Parser)
    (small : parser.unread ≤ bound) : Step parser.unread Tree :=
  (parser.expect .identifier).andThen fun name next within =>
    if next.ahead.kind = .openParen ∧ next.ahead.span.start = name.span.stop then
      (enclosed operand .paren [Tree.ofName name.value] .closeParen next
        (Nat.le_trans next.unread_le_weight (Nat.le_trans within small))).relax
          (Nat.le_trans next.unread_le_weight within)
    else
      .done (Tree.ofName name.value) next within

/-- Read what a head announces. -/
def headed {bound : Nat} (operand : Operand bound) (head : Head) (parser : Parser)
    (small : parser.unread ≤ bound) : Step parser.unread Tree :=
  match head with
  | .literal => parser.literal
  | .name => name operand parser small
  | .group => group operand parser small
  | .bracket => bracket operand parser small
  | .importing => parser.importing
  | .declaring => parser.declaring

/-! ## Operators -/

/-- Read an operator and the operand behind it, and join that to the left
operand. -/
def joined {bound : Nat} (operand : Operand bound) (tag : Tag) (power : Power) (left : Tree)
    (parser : Parser) (small : parser.unread ≤ bound) : Step parser.unread Tree :=
  parser.take.andThen fun operator next within =>
    if next.ahead.kind.startsExpression then
      (operand power next (Nat.le_trans within small)).andThen fun right after smaller =>
        .done (.form tag [left, right]) after (within_of_unread smaller within)
    else
      .failed (next.operandMissing operator) next

/-- Join two operands, of which the right one binds more tightly than the
operator. -/
def binary {bound : Nat} (operand : Operand bound) (operator : Operator) (left : Tree)
    (parser : Parser) (small : parser.unread ≤ bound) : Step parser.unread Tree :=
  joined operand operator.tag operator.power left parser small

/-- Join two operands, of which the right one reaches up to the next
semicolon. -/
def conditional {bound : Nat} (operand : Operand bound) (operator : Operator) (left : Tree)
    (parser : Parser) (small : parser.unread ≤ bound) : Step parser.unread Tree :=
  joined operand operator.tag .semicolon left parser small

/-- Read separators and siblings in turn, starting at a separator, into one
flat form.  The siblings read so far are given in reverse.

A separator with nothing behind it closes the form without adding a sibling.
A second separator, or an operator that binds more tightly, must not follow
it. -/
def siblings {bound : Nat} (operand : Operand bound) (operator : Operator)
    (items : List Tree) (parser : Parser) (small : parser.unread ≤ bound) :
    Step parser.unread Tree :=
  parser.take.andThen fun separator next within =>
    if next.ahead.kind = operator.kind then
      .failed (next.operandMissing separator) next
    else if _starts : next.ahead.kind.startsExpression then
      (operand operator.power next (Nat.le_trans within small)).andThen
        fun item after smaller =>
          have shorter : after.unread < parser.unread :=
            Nat.lt_of_le_of_lt (Nat.le_trans after.unread_le_weight smaller)
              (Nat.lt_of_lt_of_le
                (unread_lt_weight (Kind.ne_endOfInput_of_startsExpression _starts)) within)
          if after.ahead.kind = operator.kind then
            (siblings operand operator (item :: items) after
              (Nat.le_trans (Nat.le_of_lt shorter) small)).relax (Nat.le_of_lt shorter)
          else
            .done (.form operator.tag (item :: items).reverse) after
              (within_of_unread smaller within)
    else if operator.power < next.ahead.kind.power then
      .failed (next.operandMissing next.ahead) next
    else
      .done (.form operator.tag items.reverse) next within
termination_by parser.unread

/-- Collect the siblings that follow `left`.  Where no separator is held there
are none. -/
def sequence {bound : Nat} (operand : Operand bound) (operator : Operator) (left : Tree)
    (parser : Parser) (small : parser.unread ≤ bound) : Step parser.weight Tree :=
  if parser.ahead.kind = operator.kind then
    (siblings operand operator [left] parser small).relax parser.unread_le_weight
  else
    .done (.form operator.tag [left]) parser (Nat.le_refl _)

/-- Apply an operator to its left operand, whatever token is held. -/
def applied {bound : Nat} (operand : Operand bound) (operator : Operator) (left : Tree)
    (parser : Parser) (small : parser.unread ≤ bound) : Step parser.weight Tree :=
  match operator.role with
  | .binary => (binary operand operator left parser small).relax parser.unread_le_weight
  | .conditional =>
      (conditional operand operator left parser small).relax parser.unread_le_weight
  | .sequence => sequence operand operator left parser small

/-- Continue an expression behind its left operand with the operator that is
held. -/
def extended {bound : Nat} (operand : Operand bound) (operator : Operator) (left : Tree)
    (parser : Parser) (small : parser.unread ≤ bound) : Step parser.unread Tree :=
  match operator.role with
  | .binary => binary operand operator left parser small
  | .conditional => conditional operand operator left parser small
  | .sequence => siblings operand operator [left] parser small

end Parser
end SignalScript
