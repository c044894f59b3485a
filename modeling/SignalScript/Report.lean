import SignalScript.Fault
import SignalScript.SourceLine
import SignalScript.Text.Blank

namespace SignalScript

/-!
Reports: a fault shown with the line it is in.

Under the name of the fault and of its file stands the source line behind a
gutter with its number, and under that line a marker that points at the
offending byte.  The line is shown without the blanks at its ends.

The marker is a tip that is padded with dashes up to its column, and padding
reaches only so far.  Where the marker would have to be wider, writing the
report fails and nothing of it is left.
-/

namespace Report

/-- The blanks that are removed in front of a line. -/
def isIndentation (c : Char) : Bool :=
  c == ' ' || c == '\t'

/-- The first line of a report: the name of the fault and its tip. -/
def heading (cause : Cause) : String :=
  match cause.tip? with
  | none => "Error: " ++ cause.name ++ "\n"
  | some tip => "Error: " ++ cause.name ++ " (" ++ tip ++ ")\n"

/-- The gutter of a line that shows no number, as wide as the given one. -/
def gutter (number : String) : String :=
  String.ofList (List.replicate (number.length + 1) ' ') ++ "|"

/-- The greatest width that a text can be padded to, which is the greatest
unsigned 16-bit number. -/
def widest : Nat :=
  0xFFFF

/-- A tip behind dashes, unless they are too many. -/
def marker? (dashes : Nat) : Option String :=
  if dashes + 1 ≤ widest then
    some (String.ofList (List.replicate dashes '-') ++ "^")
  else
    none

/-- The source line and the marker under it. -/
def excerpt? (line : SourceLine) : Option String :=
  let number := toString line.number
  let removed := (line.text.takeWhile isIndentation).length
  let shown := Text.trimEnd (line.text.dropWhile isIndentation)
  (marker? (line.column - removed)).map fun marker =>
    gutter number ++ "\n" ++
      number ++ " | " ++ String.ofList shown ++ "\n" ++
      gutter number ++ " " ++ marker

end Report

/-- The report of a fault in a source, if it can be written.  A position outside
the source has no line to show. -/
def Fault.report? (fault : Fault) (source : String) : Option String :=
  let top := Report.heading fault.cause ++ "-> " ++ fault.position.file ++ "\n"
  match SourceLine.find? source.toList fault.position.offset.toNat with
  | none => some top
  | some line => (Report.excerpt? line).map fun excerpt => top ++ excerpt

end SignalScript
