import SignalScript.CommandLine

namespace SignalScript
namespace Program

/-!
The program: reads a file, times the work and writes the outcome.
-/

/-- The number of a system error, which may arrive with its sign changed. -/
def errorNumber (code : UInt32) : Nat :=
  code.toInt32.toInt.natAbs

/-- The wording of an error of the system. -/
def reasonOf : IO.Error -> String
  | .noFileOrDirectory _ _ _ => "No such file or directory (os error 2)"
  | .inappropriateType _ code _ =>
      if errorNumber code = 21 then
        "Is a directory (os error 21)"
      else
        "Not a directory (os error 20)"
  | .permissionDenied _ _ _ => "Permission denied (os error 13)"
  | failure => toString failure

/-- Read a file as text, or say why it cannot be read. -/
def readSource (path : String) : IO (Except String String) := do
  try
    let bytes ← IO.FS.readBinFile path
    match String.fromUTF8? bytes with
    | some text => return .ok text
    | none => return .error "stream did not contain valid UTF-8"
  catch failure =>
    return .error (reasonOf failure)

/-- Answer a request whose file is read from disk. -/
def answer (request : Request) : IO Outcome := do
  match ← readSource request.path with
  | .error reason => return .unreadable request.path reason
  | .ok source =>
      let start ← IO.monoNanosNow
      let finding ← IO.lazyPure fun _ => request.process source
      let stop ← IO.monoNanosNow
      return .ofFinding source (toString (stop - start) ++ "ns") finding

end Program
end SignalScript

open SignalScript in
/-- Run the command line on the files of the system. -/
def main (arguments : List String) : IO UInt32 := do
  let outcome ←
    match Request.ofArguments? arguments with
    | none => pure Outcome.usage
    | some request => Program.answer request
  IO.print outcome.output
  IO.eprint outcome.errors
  return outcome.exitCode.toUInt32
