import SignalScript.Text.Size

namespace SignalScript

/-!
Lines of a source, looked up by byte offset.

A line reaches up to and including its newline, so every byte of a source is in
one of its lines.  The offset at the very end of the source is behind them all
and gets the text behind the last newline, which is empty when the source ends
in a newline.  An offset beyond that belongs to no line.
-/

/-- A line with its number, counted from one, and a column of it, counted in
bytes from zero. -/
structure SourceLine where
  number : Nat
  text : List Char
  column : Nat
deriving DecidableEq

namespace SourceLine

/-- Split off the first line.  The second part is missing when the line does
not end in a newline. -/
def split (text : List Char) : List Char × Option (List Char) :=
  match text.dropWhile (· != '\n') with
  | [] => (text, none)
  | newline :: later => (text.takeWhile (· != '\n') ++ [newline], some later)

theorem length_of_split {text line later : List Char}
    (parts : split text = (line, some later)) : later.length < text.length := by
  unfold split at parts
  split at parts
  next => cases parts
  next newline rest found =>
    cases parts
    have shorter := (List.dropWhile_sublist (l := text) (p := (· != '\n'))).length_le
    rw [found, List.length_cons] at shorter
    omega

/-- The lines of a text, none of which is empty. -/
def lines (text : List Char) : List (List Char) :=
  match _parts : split text with
  | (line, some later) => line :: lines later
  | (line, none) => if line.isEmpty then [] else [line]
termination_by text.length
decreasing_by exact length_of_split _parts

/-- Find the line that holds the byte at an offset.  The first of the lines has
the given number and starts at the given offset. -/
def holding? (number start offset : Nat) : List (List Char) -> Option SourceLine
  | [] => none
  | line :: later =>
      let stop := start + Text.size line
      if start ≤ offset ∧ offset < stop then
        some { number := number, text := line, column := offset - start }
      else
        holding? (number + 1) stop offset later

/-- The line of the end of a source. -/
def atEnd (source : List Char) : SourceLine :=
  let text := (source.reverse.takeWhile (· != '\n')).reverse
  { number := source.count '\n' + 1, text := text, column := Text.size text }

/-- Find the line of an offset in a source. -/
def find? (source : List Char) (offset : Nat) : Option SourceLine :=
  if Text.size source < offset then
    none
  else
    match holding? 1 0 offset (lines source) with
    | some line => some line
    | none => some (atEnd source)

end SourceLine
end SignalScript
