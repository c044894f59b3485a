import SignalScript.Token
import SignalScript.Tree

namespace SignalScript

/-!
The operator table: which tokens join expressions, and which start one.

Every operator has a tag, a binding power and a role.  Binding powers are
ordered, and an operator takes what stands to its left only while its power is
greater than the power that the surrounding expression asks for.  A star is an
operator between two expressions and a marker in front of a name.
-/

/-- Binding powers, loosest first. -/
inductive Power where
  | loosest
  | semicolon
  | period
  | assignment
  | conditional
  | comma
  | binding
  | additive
  | multiplicative
deriving DecidableEq

namespace Power

/-- Every power, loosest first. -/
def all : List Power :=
  [.loosest, .semicolon, .period, .assignment, .conditional, .comma, .binding,
   .additive, .multiplicative]

/-- The place of a power in the order. -/
def rank : Power -> Nat
  | .loosest => 0
  | .semicolon => 1
  | .period => 2
  | .assignment => 3
  | .conditional => 4
  | .comma => 5
  | .binding => 6
  | .additive => 7
  | .multiplicative => 8

instance : LE Power := ⟨fun first second => first.rank ≤ second.rank⟩

instance : LT Power := ⟨fun first second => first.rank < second.rank⟩

instance (first second : Power) : Decidable (first ≤ second) :=
  inferInstanceAs (Decidable (first.rank ≤ second.rank))

instance (first second : Power) : Decidable (first < second) :=
  inferInstanceAs (Decidable (first.rank < second.rank))

end Power

/-- How an operator joins its operands: two at a time, as one flat list of
siblings, or two at a time with a right operand that reaches up to the next
semicolon. -/
inductive Role where
  | binary
  | sequence
  | conditional
deriving DecidableEq

/-- A row of the operator table. -/
structure Operator where
  kind : Kind
  tag : Tag
  power : Power
  role : Role
deriving DecidableEq

namespace Operator

/-- All operators. -/
def table : List Operator :=
  [⟨.semicolon, .semicolon, .semicolon, .sequence⟩,
   ⟨.dot, .period, .period, .sequence⟩,
   ⟨.comma, .comma, .comma, .sequence⟩,
   ⟨.assign, .assign, .assignment, .binary⟩,
   ⟨.plusAssign, .addAssign, .assignment, .binary⟩,
   ⟨.question, .question, .conditional, .conditional⟩,
   ⟨.colon, .colon, .conditional, .conditional⟩,
   ⟨.leftArrow, .bind, .binding, .binary⟩,
   ⟨.plus, .add, .additive, .binary⟩,
   ⟨.dash, .subtract, .additive, .binary⟩,
   ⟨.star, .multiply, .multiplicative, .binary⟩,
   ⟨.slash, .divide, .multiplicative, .binary⟩]

/-- The operator that a kind of token stands for. -/
def ofKind? (kind : Kind) : Option Operator :=
  table.find? (fun operator => operator.kind == kind)

theorem kind_of_ofKind? {kind : Kind} {operator : Operator}
    (found : ofKind? kind = some operator) : operator.kind = kind := by
  have holds := List.find?_some found
  simpa using holds

theorem ne_endOfInput_of_ofKind? {kind : Kind} {operator : Operator}
    (found : ofKind? kind = some operator) : kind ≠ .endOfInput := by
  intro atEnd
  subst atEnd
  simp [ofKind?, table] at found

end Operator

/-- The binding power of a kind of token, the loosest for one that is no
operator. -/
def Kind.power (kind : Kind) : Power :=
  match Operator.ofKind? kind with
  | some operator => operator.power
  | none => .loosest

/-- The ways in which an expression can start. -/
inductive Head where
  | literal
  | name
  | group
  | bracket
  | importing
  | declaring
deriving DecidableEq

/-- How an expression goes on that starts with a token of the given kind, if
one can start so. -/
def Head.ofKind? : Kind -> Option Head
  | .int | .float | .string => some .literal
  | .identifier => some .name
  | .openParen => some .group
  | .openBracket => some .bracket
  | .atSign => some .importing
  | .star => some .declaring
  | _ => none

/-- An expression can start with a token of this kind. -/
def Kind.startsExpression (kind : Kind) : Bool :=
  (Head.ofKind? kind).isSome

theorem Kind.ne_endOfInput_of_startsExpression {kind : Kind}
    (starts : kind.startsExpression = true) : kind ≠ .endOfInput := by
  intro atEnd
  subst atEnd
  exact absurd starts (by decide)

end SignalScript
