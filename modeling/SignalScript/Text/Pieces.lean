namespace SignalScript
namespace Text

/-!
Cutting a text at every occurrence of one character.
-/

/-- Put a character in front of the first of several pieces. -/
def growFirst (c : Char) : List (List Char) -> List (List Char)
  | [] => [[c]]
  | first :: later => (c :: first) :: later

/-- The pieces of a text between the separators.  There is one piece more than
there are separators, and pieces may be empty. -/
def pieces (separator : Char) (text : List Char) : List (List Char) :=
  text.foldr (fun c later => if c = separator then [] :: later else growFirst c later) [[]]

end Text
end SignalScript
