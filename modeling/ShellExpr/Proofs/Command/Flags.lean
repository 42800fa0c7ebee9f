import ShellExpr.Command.Run
import ShellExpr.Proofs.Line.Tokens
import ShellExpr.Proofs.Script.Runs

/-!
# Flags

What a command prints and reports, compared between its flags.  A run that stops prints a front part
of what a run that keeps going prints, and reports the first of its errors.
-/

namespace ShellExpr.Command

open Script

/-! ### Results through the first failed line -/

end ShellExpr.Command
