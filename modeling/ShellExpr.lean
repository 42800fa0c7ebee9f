import ShellExpr.Main
import ShellExpr.Proofs.Grammar
import ShellExpr.Proofs.Parentheses
import ShellExpr.Proofs.Reordering.Climbing
import ShellExpr.Proofs.Reordering.Derivation
import ShellExpr.Proofs.Line.Grammar
import ShellExpr.Proofs.Line.Spans
import ShellExpr.Proofs.Machine.TreeEval
import ShellExpr.Proofs.Line.Tokens
import ShellExpr.Proofs.Atom.Lexemes
import ShellExpr.Proofs.Line.Expression
import ShellExpr.Proofs.Reordering.Balance
import ShellExpr.Proofs.Machine.Failures
import ShellExpr.Proofs.Script.Parentheses
import ShellExpr.Proofs.Line.Escapes
import ShellExpr.Proofs.Script.Escapes
import ShellExpr.Proofs.Reordering.Tokens
import ShellExpr.Proofs.Machine.Bindings
import ShellExpr.Proofs.Atom.Literal
import ShellExpr.Proofs.Machine.Definition
import ShellExpr.Proofs.Operation.Alike
import ShellExpr.Proofs.Builtin.Alike
import ShellExpr.Proofs.Machine.Alike
import ShellExpr.Proofs.Machine.Agreement
import ShellExpr.Proofs.Machine.Height
import ShellExpr.Proofs.Reordering.Places
import ShellExpr.Proofs.Reordering.Rows
import ShellExpr.Proofs.Reordering.Applications
import ShellExpr.Proofs.Reordering.Rise
import ShellExpr.Proofs.Machine.Infix
import ShellExpr.Proofs.Command.Flags
import ShellExpr.Proofs.Script.Continuations
import ShellExpr.Proofs.Script.Sequence
import ShellExpr.Proofs.Value.Order
import ShellExpr.Proofs.Machine.Profile
import ShellExpr.Proofs.Reordering.Steps
import ShellExpr.Proofs.Reordering.Groups
import ShellExpr.Proofs.Machine.Enclosed
import ShellExpr.Proofs.Reordering.Acceptance
import ShellExpr.Proofs.Operation.Coherence
import ShellExpr.Proofs.Value.Equality
import ShellExpr.Proofs.Operation.Leaves
import ShellExpr.Proofs.Operation.Formula
import ShellExpr.Proofs.Operation.Exact
import ShellExpr.Proofs.Line.Spacing
import ShellExpr.Proofs.Double.Overflow
import ShellExpr.Proofs.Atom.Languages
import ShellExpr.Proofs.Atom.Numbers
import ShellExpr.Proofs.Atom.Longest
import ShellExpr.Proofs.Atom.Printed
import ShellExpr.Proofs.Operation.Concatenation
import ShellExpr.Proofs.Reordering.Roles
import ShellExpr.Proofs.Reordering.Texts
import ShellExpr.Proofs.Reordering.Occurrences
import ShellExpr.Proofs.Machine.Interchange
import ShellExpr.Proofs.Machine.Currying
import ShellExpr.Proofs.Operation.Commuting
import ShellExpr.Proofs.Value.Display
import ShellExpr.Proofs.Value.Sequences
import ShellExpr.Proofs.Builtin.Integers
import ShellExpr.Proofs.Operation.Shifts
import ShellExpr.Proofs.Reordering.Floors
import ShellExpr.Proofs.Reordering.Closings
