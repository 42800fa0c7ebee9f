import ShellExpr.Command.Run

/-!
# The command line program

Reads the arguments and the script, prints the result and ends with its code.
-/

namespace ShellExpr

/-- Why a script cannot be read, in the words of the system. -/
def readFailure : IO.Error → String
  | .noFileOrDirectory _ code details | .inappropriateType _ code details
  | .permissionDenied _ code details | .invalidArgument _ code details =>
    s!"{details} (os error {code})"
  | _ => "stream did not contain valid UTF-8"

/-- The text that a source holds. -/
def readSource : Command.Source → IO String
  | .line text => return text
  | .file name => IO.FS.readFile name
  | .standardInput => do
    let input ← IO.getStdin
    input.readToEnd

/-- The text that a source holds, or why it cannot be read. -/
def tryReadSource (source : Command.Source) : IO (Except String String) := do
  try
    return .ok (← readSource source)
  catch failure =>
    return .error (readFailure failure)

def usage : String := "Usage: ysh [-e EXPR | INPUT] [-k] [-q]"

end ShellExpr

open ShellExpr in
def main (arguments : List String) : IO UInt32 := do
  match Command.read arguments with
  | .reply .version =>
    IO.println "ysh 0.1.0"
    return 0
  | .reply .help =>
    IO.println usage
    return 0
  | .reply .misuse =>
    IO.eprintln usage
    return 2
  | .run options =>
    match Command.answer Machine.depthLimit options (← tryReadSource options.source) with
    | some result =>
      IO.print result.output
      IO.eprint result.errors
      return result.code.toUInt32
    | none =>
      IO.eprintln "the run broke off"
      return 101
