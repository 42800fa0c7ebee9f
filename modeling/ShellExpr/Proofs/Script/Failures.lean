import ShellExpr.Proofs.Line.Expression
import ShellExpr.Proofs.Machine.Failures
import ShellExpr.Proofs.Reordering.Balance
import ShellExpr.Proofs.Script.Runs

/-!
# How lines fail

A line fails because it does not fall into tokens, or over one of its expressions.  The expressions
of a line have their parentheses in order, so of the reordering pass they only meet the fault of an
argument group with nothing in it.
-/

namespace ShellExpr

open Eval

namespace Script

/-- The fatal errors of an expression of a line. -/
inductive OfExpression : FatalError → Prop where
  | unexpected (text : String) (column : Nat) : OfExpression (.grammar (.unexpected text column))
  | emptyGroup : OfExpression (.grammar .emptyGroup)
  | execution {fatal : FatalError} (h : Machine.OfExecution fatal) : OfExpression fatal

/-- An expression in its parentheses does not fail over them. -/
theorem failsOnly_evaluate {source : String}
    (enclosed : ∀ atoms, Atom.scan source = .ok atoms → Line.Enclosed atoms) (depth : Nat) :
    FailsOnly OfExpression (Machine.evaluate depth source) := by
  unfold Machine.evaluate Machine.evaluateWith
  cases scanned : Atom.scan source with
  | error fatal =>
    obtain ⟨text, column, rfl⟩ := Atom.scanFrom_error scanned
    exact failsOnly_fail (.unexpected text column)
  | ok atoms =>
    rw [ofExcept_ok, pure_bind]
    refine FailsOnly.bind (failsOnly_ofExcept ?_) ?_
    · intro fatal failed
      have balanced := (enclosed atoms scanned).balanced
      rw [reorder_error_of_balanced balanced failed]
      exact .emptyGroup
    · intro items
      exact (Machine.failsOnly_execute _ items).mono fun _ h => .execution h

theorem failsOnly_runTokens {tokens : List Token}
    (enclosed : ∀ token ∈ tokens, token.kind = .expression →
      ∀ atoms, Atom.scan token.text = .ok atoms → Line.Enclosed atoms) (depth : Nat) :
    FailsOnly OfExpression (runTokens depth tokens) := by
  induction tokens with
  | nil => exact failsOnly_pure _
  | cons token rest ih =>
    have later := ih fun other member => enclosed other (List.mem_cons_of_mem token member)
    unfold runTokens
    split
    · rename_i expression
      refine (failsOnly_evaluate (enclosed token List.mem_cons_self expression) depth).bind ?_
      intro v
      refine later.bind ?_
      intro vs
      exact failsOnly_pure _
    · exact later

/-- A line fails over its tokens or over an expression. -/
theorem failsOnly_runLine_of {P : FatalError → Prop} {line : String}
    (tokens : ∀ fatal, tokenize line = .error fatal → P fatal)
    (expressions : ∀ fatal, OfExpression fatal → P fatal) (depth : Nat) :
    FailsOnly P (runLine depth line) := by
  unfold runLine
  cases read : tokenize line with
  | error fatal => exact failsOnly_fail (tokens fatal read)
  | ok tokens =>
    rw [ofExcept_ok, pure_bind]
    refine (failsOnly_runTokens ?_ depth).mono expressions
    intro token member expression atoms scanned
    exact Line.enclosed_of_tokenize read member expression scanned

/-- The fatal errors that a run reports are those of its lines. -/
theorem failed_of_runLines {P : FatalError → Prop} {depth : Nat} {keepGoing : Bool}
    {lines : List LogicalLine} (h : ∀ line ∈ lines, FailsOnly P (runLine depth line.text))
    {s after : Session} {reports : List Report}
    (ran : runLines depth keepGoing lines s = some (reports, after)) :
    ∀ report ∈ reports, ∀ fatal, report.outcome = .error fatal → P fatal := by
  have runs := runs_of_runLines ran
  clear ran
  induction runs with
  | done s => simp
  | valued ran _ ih =>
    intro report member
    rcases List.mem_cons.1 member with rfl | member
    · simp
    · exact ih (fun other among => h other (List.mem_cons_of_mem _ among)) report member
  | @stopped line s after fatal ran _ _ =>
    intro report member
    rw [List.mem_singleton.1 member]
    rintro _ ⟨⟩
    exact h line List.mem_cons_self s fatal after ran
  | @passed line _ s after _ fatal _ ran _ _ ih =>
    intro report member
    rcases List.mem_cons.1 member with rfl | member
    · rintro _ ⟨⟩
      exact h line List.mem_cons_self s fatal after ran
    · exact ih (fun other among => h other (List.mem_cons_of_mem _ among)) report member

end Script

end ShellExpr
