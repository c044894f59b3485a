import SignalScript.Number.Shortest
import SignalScript.Text.Lowercase

namespace SignalScript

/-!
Trees: the outcome of parsing.

A tree is an atom, which is a name or a literal, or a form, which is a tag with
children in order.  Its notation is a nested list in brackets whose first entry
is a quoted tag.  A name is its own notation, in quotation marks.
-/

open Number (Double)

/-- What a form stands for. -/
inductive Tag where
  | add
  | subtract
  | multiply
  | divide
  | addAssign
  | bind
  | assign
  | question
  | colon
  | semicolon
  | period
  | comma
  | paren
  | bracket
  | importing
  | declaring
deriving DecidableEq

namespace Tag

/-- Every tag, each once. -/
def all : List Tag :=
  [.add, .subtract, .multiply, .divide, .addAssign, .bind, .assign, .question, .colon,
   .semicolon, .period, .comma, .paren, .bracket, .importing, .declaring]

/-- The spelling of a tag.  Products and declarations share one, and are told
apart by the number of their children. -/
def spelling : Tag -> String
  | .add => "+"
  | .subtract => "-"
  | .multiply => "*"
  | .divide => "/"
  | .addAssign => "+="
  | .bind => "<-"
  | .assign => "="
  | .question => "?"
  | .colon => ":"
  | .semicolon => ";"
  | .period => "."
  | .comma => ","
  | .paren => "("
  | .bracket => "["
  | .importing => "@"
  | .declaring => "*"

end Tag

/-- A tree of names, literals and tagged forms. -/
inductive Tree where
  | ident (name : String)
  | int (value : Int)
  | float (value : Double)
  | string (value : String)
  | form (tag : Tag) (children : List Tree)

namespace Tree

/-- The atom of a name, whose letters lose their case. -/
def ofName (name : String) : Tree :=
  .ident (String.ofList (Text.lower name.toList))

/-- The tag of a form. -/
def tag? : Tree -> Option Tag
  | .form tag _ => some tag
  | _ => none

/-- The children of a form.  An atom has none. -/
def children : Tree -> List Tree
  | .form _ children => children
  | _ => []

/-- An atom is anything but a form. -/
def isAtom : Tree -> Bool
  | .form _ _ => false
  | _ => true

/-- The name of a name atom. -/
def name? : Tree -> Option String
  | .ident name => some name
  | _ => none

mutual

/-- The number of trees on the longest way from the root to an atom. -/
def depth : Tree -> Nat
  | .form _ children => 1 + greatestDepth children
  | _ => 1

/-- The depth of the deepest of several trees. -/
def greatestDepth : List Tree -> Nat
  | [] => 0
  | child :: children => max (depth child) (greatestDepth children)

end

mutual

/-- Two trees are the same when they have the same shape and the same atoms.
Literals of floating point are compared by value. -/
def same : Tree -> Tree -> Bool
  | .ident left, .ident right => left == right
  | .int left, .int right => left == right
  | .float left, .float right => left.sameValue right
  | .string left, .string right => left == right
  | .form leftTag left, .form rightTag right => leftTag == rightTag && sameEach left right
  | _, _ => false

/-- Two lists hold the same trees in the same order. -/
def sameEach : List Tree -> List Tree -> Bool
  | [], [] => true
  | left :: lefts, right :: rights => same left right && sameEach lefts rights
  | _, _ => false

end

/-- Put a text in quotation marks.  A backslash goes in front of every mark
and every backslash inside. -/
def quote (text : List Char) : List Char :=
  '\'' :: text.flatMap (fun c => if c = '\\' ∨ c = '\'' then ['\\', c] else [c]) ++ ['\'']

mutual

/-- Write the notation of a tree in front of a text. -/
def renderOnto : Tree -> List Char -> List Char
  | .ident name, after => quote name.toList ++ after
  | .int value, after => "['int', ".toList ++ (toString value).toList ++ ']' :: after
  | .float value, after => "['float', ".toList ++ value.text ++ ']' :: after
  | .string value, after =>
      '[' :: quote ['\''] ++ ',' :: ' ' :: quote value.toList ++ ']' :: after
  | .form tag children, after =>
      '[' :: quote tag.spelling.toList ++ renderEachOnto children (']' :: after)

/-- Write the notation of several trees in front of a text, each behind a
comma. -/
def renderEachOnto : List Tree -> List Char -> List Char
  | [], after => after
  | child :: children, after =>
      ',' :: ' ' :: renderOnto child (renderEachOnto children after)

end

/-- The notation of a tree. -/
def render (tree : Tree) : String :=
  String.ofList (tree.renderOnto [])

mutual

/-- Put a tree and everything below it in front of a list, parents before
their children. -/
def preorderOnto : Tree -> List Tree -> List Tree
  | .form tag children, after =>
      .form tag children :: preorderEachOnto children after
  | atom, after => atom :: after

/-- Put several trees and everything below them in front of a list. -/
def preorderEachOnto : List Tree -> List Tree -> List Tree
  | [], after => after
  | child :: children, after => preorderOnto child (preorderEachOnto children after)

end

/-- A tree and everything below it, parents before their children. -/
def preorder (tree : Tree) : List Tree :=
  tree.preorderOnto []

end Tree
end SignalScript
