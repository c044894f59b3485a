import SignalScript.Text.Blank

namespace SignalScript

/-!
Layout: the notation of a tree spread over several lines.

Every opening bracket inside another one starts a line of its own, indented by
the number of brackets around it, and the blanks in front of it disappear.
Quoted texts are copied as they are.  The layout reads its input once from left
to right and works on any text, balanced or not.
-/

namespace Layout

/-- Where a reader of the notation stands: outside quotation marks, inside
them, or inside them and behind a backslash. -/
inductive Mode where
  | outside
  | quoted
  | escaped
deriving DecidableEq

/-- The mode behind one more character. -/
def Mode.after : Mode -> Char -> Mode
  | .outside, c => if c = '\'' then .quoted else .outside
  | .quoted, c => if c = '\\' then .escaped else if c = '\'' then .outside else .quoted
  | .escaped, _ => .quoted

/-- What has been laid out so far, in reverse, and the number of brackets that
are still open. -/
structure State where
  written : List Char
  opened : Nat
  mode : Mode

/-- Start a new line, indented by the open brackets, in place of the blanks
written last. -/
def breakLine (opened : Nat) (written : List Char) : List Char :=
  List.replicate (2 * opened) ' ' ++ '\n' :: written.dropWhile Text.isBlank

/-- Lay out one more character.  A closing bracket too many is ignored in the
count. -/
def step (state : State) (c : Char) : State :=
  let mode := state.mode.after c
  match state.mode with
  | .outside =>
      if c = '[' then
        let line := if 0 < state.opened then breakLine state.opened state.written else state.written
        { written := c :: line, opened := state.opened + 1, mode := mode }
      else if c = ']' then
        { written := c :: state.written, opened := state.opened - 1, mode := mode }
      else
        { written := c :: state.written, opened := state.opened, mode := mode }
  | _ => { written := c :: state.written, opened := state.opened, mode := mode }

/-- Lay out a whole text. -/
def spread (text : List Char) : List Char :=
  (text.foldl step { written := [], opened := 0, mode := .outside }).written.reverse

end Layout
end SignalScript
