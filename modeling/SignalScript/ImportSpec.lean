import SignalScript.Text.Blank
import SignalScript.Text.Pieces
import SignalScript.Tree

namespace SignalScript

/-!
Import specifications: what the string behind an import marker asks for.

The string names a module and, behind the first `#`, the symbols wanted from
it, with commas between them.  Blanks around a name do not count, and a symbol
that is blank altogether is left out.
-/

/-- A module and the symbols wanted from it.  No symbols means the module as a
whole. -/
structure ImportSpec where
  path : List Char
  symbols : List (List Char)
deriving DecidableEq

namespace ImportSpec

/-- The names between the commas, without those that are blank. -/
def symbolsOf (text : List Char) : List (List Char) :=
  ((Text.pieces ',' text).map Text.trim).filter (fun symbol => !symbol.isEmpty)

/-- Read a specification.  Every text is one. -/
def ofText (text : List Char) : ImportSpec where
  path := Text.trim (text.takeWhile (· != '#'))
  symbols :=
    match text.dropWhile (· != '#') with
    | [] => []
    | _ :: listed => symbolsOf listed

/-- The specification in an import form.  Any other tree holds none. -/
def ofTree? : Tree -> Option ImportSpec
  | .form .importing [.string text] => some (ofText text.toList)
  | _ => none

end ImportSpec

/-- All specifications in a tree, in the order of their places. -/
def Tree.imports (tree : Tree) : List ImportSpec :=
  tree.preorder.filterMap ImportSpec.ofTree?

end SignalScript
