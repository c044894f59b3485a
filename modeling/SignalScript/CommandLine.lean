import SignalScript.Layout
import SignalScript.Parser.Expression
import SignalScript.Report
import SignalScript.Text.Pieces

namespace SignalScript

/-!
The command line, apart from the reading of files and clocks.

A request names a file and says whether its tokens are wanted or its tree.
The answer is what goes to the two output streams, and the exit code.
-/

/-- What the command line asks for. -/
structure Request where
  listsTokens : Bool
  path : String
deriving DecidableEq

/-- What the program leaves behind. -/
structure Outcome where
  exitCode : UInt8
  output : String
  errors : String
deriving DecidableEq

/-- The outcome of work that was done for a request. -/
inductive Finding where
  | tokens (result : Except Fault (List Token))
  | tree (result : Except Fault Tree)

namespace Request

/-- Read the arguments.  The flag counts only in front of a path. -/
def ofArguments? : List String -> Option Request
  | [path] => some { listsTokens := false, path := path }
  | [flag, path] => if flag = "--tokens" then some { listsTokens := true, path := path } else none
  | _ => none

/-- What stands behind the last slash of the path, which is the name that faults
carry. -/
def fileName (request : Request) : String :=
  String.ofList ((Text.pieces '/' request.path.toList).getLast?.getD request.path.toList)

/-- Do what is asked for with the contents of the file. -/
def process (request : Request) (source : String) : Finding :=
  if request.listsTokens then
    .tokens (tokenizeFrom (some request.fileName) source)
  else
    .tree (parseFrom (some request.fileName) source)

end Request

namespace Outcome

/-- The answer to arguments that make no request. -/
def usage : Outcome where
  exitCode := 2
  output := ""
  errors := "Usage: sonoparse [--tokens] <file>\n"

/-- The answer to a request whose file cannot be read, for a reason given by the
system. -/
def unreadable (path reason : String) : Outcome where
  exitCode := 1
  output := ""
  errors := "Failed to read " ++ path ++ ": " ++ reason ++ "\n"

/-- The answer to a fault, behind what has been written already.  Where the
report cannot be written the program breaks off, and what the runtime says then
is left out. -/
def ofFault (fault : Fault) (source written : String) : Outcome :=
  match fault.report? source with
  | some report => { exitCode := 1, output := written, errors := report ++ "\n" }
  | none => { exitCode := 101, output := written, errors := "" }

/-- The answer to a request, given the source and the time that was spent.  A
fault silences the list of tokens, while the time of parsing is told in any
case. -/
def ofFinding (source elapsed : String) : Finding -> Outcome
  | .tokens (.ok tokens) =>
      { exitCode := 0
        output := String.join (tokens.map fun token => token.listing ++ "\n") ++
          "Tokenized in " ++ elapsed ++ "\n"
        errors := "" }
  | .tokens (.error fault) => ofFault fault source ""
  | .tree (.ok tree) =>
      { exitCode := 0
        output := "Parsed in " ++ elapsed ++ "\n" ++
          String.ofList (Layout.spread tree.render.toList) ++ "\n"
        errors := "" }
  | .tree (.error fault) => ofFault fault source ("Parsed in " ++ elapsed ++ "\n")

end Outcome
end SignalScript
