import ShellExpr.Line.Tokenize
import ShellExpr.Machine
import ShellExpr.Script.LogicalLine

/-!
# Running scripts

A line runs by evaluating its expressions from left to right; its other tokens do nothing.  Nothing
of a line runs unless all of it falls into tokens.  A script runs line by line in one session,
either up to the first fatal error or in spite of fatal errors to its end.
-/

namespace ShellExpr

namespace Script

/-- The values of the expressions among the tokens. -/
def runTokens (depth : Nat) : List Token → Eval (List Value)
  | [] => pure []
  | token :: rest =>
    if token.kind = .expression then do
      let v ← Machine.evaluate depth token.text
      let vs ← runTokens depth rest
      pure (v :: vs)
    else runTokens depth rest

/-- The values of the expressions of a line. -/
def runLine (depth : Nat) (line : String) : Eval (List Value) := do
  let tokens ← Eval.ofExcept (tokenize line)
  runTokens depth tokens

/-- What came of a logical line. -/
structure Report where
  number : Nat
  outcome : Except FatalError (List Value)

namespace Report

def failed (report : Report) : Bool :=
  match report.outcome with
  | .ok _ => false
  | .error _ => true

end Report

/-- Runs the lines from a session on and reports what came of each. -/
def runLines (depth : Nat) (keepGoing : Bool) : List LogicalLine → Session →
    Option (List Report × Session)
  | [], s => some ([], s)
  | line :: rest, s =>
    match (runLine depth line.text).run s with
    | none => none
    | some (outcome, after) =>
      let report : Report := ⟨line.number, outcome⟩
      if report.failed && !keepGoing then some ([report], after)
      else
        match runLines depth keepGoing rest after with
        | none => none
        | some (reports, last) => some (report :: reports, last)

/-- Runs a script. -/
def run (depth : Nat) (keepGoing : Bool) (source : String) (s : Session) :
    Option (List Report × Session) :=
  runLines depth keepGoing (logicalLines source) s

end Script

end ShellExpr
