import SignalScript.Parser.Form

namespace SignalScript
namespace Parser

/-!
Expressions, and whole programs.

An expression is a head, extended by operators for as long as they bind more
tightly than the surroundings ask for.  Reading one takes a level of nesting,
which is given back only on success.  A program is one expression at the
loosest power with nothing behind it.
-/

/-- Extend an expression to the right while the operators bind more tightly
than `power`. -/
def climb {bound : Nat} (operand : Operand bound) (power : Power) (left : Tree)
    (parser : Parser) (small : parser.unread ≤ bound) : Step parser.weight Tree :=
  match _found : Operator.ofKind? parser.ahead.kind with
  | none => .done left parser (Nat.le_refl _)
  | some operator =>
      if operator.power ≤ power then
        .done left parser (Nat.le_refl _)
      else
        (extended operand operator left parser small).andThen fun tree next within =>
          have lighter : next.weight < parser.weight :=
            Nat.lt_of_le_of_lt within
              (unread_lt_weight (Operator.ne_endOfInput_of_ofKind? _found))
          (climb operand power tree next
            (Nat.le_trans next.unread_le_weight (Nat.le_trans within small))).relax
              (Nat.le_of_lt lighter)
termination_by parser.weight

/-- Read an expression at a binding power.  A failure keeps the level of
nesting that was entered. -/
def expression (limit : Option Nat) (power : Power) (parser : Parser) :
    Step parser.unread Tree :=
  match parser.tooDeep? limit with
  | some fault => .failed fault parser
  | none =>
      match _starts : Head.ofKind? parser.ahead.kind with
      | none => .failed parser.missingExpression parser.deeper
      | some head =>
          have more : parser.unread < parser.weight :=
            unread_lt_weight (Kind.ne_endOfInput_of_startsExpression
              (by rw [Kind.startsExpression, _starts]; rfl))
          let operand : Operand parser.unread := fun inner next _within =>
            expression limit inner next
          (headed operand head parser.deeper (Nat.le_refl _)).andThen fun left next within =>
            (climb operand power left next
              (Nat.le_trans next.unread_le_weight within)).andThen fun tree after small =>
                .done tree (after.leave 1) (Nat.le_trans small within)
termination_by parser.weight
decreasing_by
  all_goals omega

/-- The expression parser as the means to read operands, at states of any
weight. -/
def operand (limit : Option Nat) (bound : Nat) : Operand bound :=
  fun power parser _ => parser.expression limit power

end Parser

/-- Parse a whole source into a tree.  What follows a complete expression is a
fault, and a closing delimiter there has nothing to close. -/
def parseWithin (limit : Option Nat) (file source : String) : Except Fault Tree :=
  match Parser.ofSource file source with
  | .error fault => .error fault
  | .ok parser =>
      match (parser.expression limit .loosest).reply with
      | .failed fault _ => .error fault
      | .done tree after =>
          let token := after.ahead
          match token.kind with
          | .endOfInput => .ok tree
          | .closeParen | .closeBracket =>
              .error (after.faultAt token (.unmatched token.value))
          | _ => .error (after.faultAt token (.unexpected token.value))

/-- Parse a whole source, nested no more deeply than programs may be. -/
def parse (file source : String) : Except Fault Tree :=
  parseWithin (some Parser.nestingLimit) file source

/-- Parse a source that may come from a file. -/
def parseFrom (file? : Option String) (source : String) : Except Fault Tree :=
  parse (Scanner.nameOf file?) source

end SignalScript
