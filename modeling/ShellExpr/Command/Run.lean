import ShellExpr.Command.Options
import ShellExpr.Script.Run

/-!
# Answering a command

A run prints the value of every expression on a line of its own and reports every fatal error with
the number of its line.  Without the option to keep going it ends with the first fatal error.
-/

namespace ShellExpr.Command

/-- Where the text to run comes from. -/
inductive Source where
  | line (text : String)
  | file (name : String)
  | standardInput
deriving DecidableEq, Repr

/-- The name `-` stands for standard input, and so does no name. -/
def Options.source (options : Options) : Source :=
  match options.line, options.script with
  | some text, _ => .line text
  | none, some name => if name = "-" then .standardInput else .file name
  | none, none => .standardInput

/-- What a command leaves behind. -/
structure Result where
  code : Nat
  output : String
  errors : String
deriving DecidableEq, Repr

/-! ### Reports as text -/

/-- The values of a line, one on each line of output. -/
def valuesText : List Value → String
  | [] => ""
  | v :: vs => v.text ++ "\n" ++ valuesText vs

def reportOutput (report : Script.Report) : String :=
  match report.outcome with
  | .ok values => valuesText values
  | .error _ => ""

def reportError (report : Script.Report) : String :=
  match report.outcome with
  | .ok _ => ""
  | .error fatal => s!"line {report.number}: {fatal.message}\n"

/-- The result of a run by the reports on its lines. -/
def resultOf (quiet : Bool) (reports : List Script.Report) : Result where
  code := if reports.any Script.Report.failed then 1 else 0
  output := if quiet then "" else String.join (reports.map reportOutput)
  errors := String.join (reports.map reportError)

/-! ### Commands -/

/-- Runs a script from an empty session. -/
def runScript (depth : Nat) (options : Options) (script : String) : Option Result :=
  match Script.run depth options.keepGoing script .initial with
  | some (reports, _) => some (resultOf options.quiet reports)
  | none => none

/-- A script that cannot be read, for a reason that the system gives. -/
def unreadable (reason : String) : Result :=
  ⟨1, "", "Failed to read the input: " ++ reason ++ "\n"⟩

/-- Runs the text of the source, or reports why it cannot be read. -/
def answer (depth : Nat) (options : Options) : Except String String → Option Result
  | .ok script => runScript depth options script
  | .error reason => some (unreadable reason)

end ShellExpr.Command
