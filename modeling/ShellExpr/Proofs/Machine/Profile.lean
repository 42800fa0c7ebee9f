import ShellExpr.Proofs.Machine.Failures

/-!
# Expressions that are balanced

The height of the stack along a postfix expression is known before it runs: `heightAfter` follows
it over the items.  An expression that never lacks an operand and comes to a height of one is
balanced.  Only such expressions have a value, and they fail over their operands alone, never over
the number of them.
-/

namespace ShellExpr.Machine

open Eval

/-- The fatal errors that a balanced expression leaves: over the values of operands, and over an
item that names an operator, a parenthesis or a blank where an operand or a head is due. -/
inductive OfBalanced (items : List (Postfix Atom)) : FatalError → Prop where
  | values {fatal : FatalError} (h : OverValues fatal) : OfBalanced items fatal
  | structural {item : Postfix Atom} {atom : Atom} (member : item ∈ items)
      (names : Names item atom) (structural : Structural atom) :
      OfBalanced items (.grammar (.notAnOperand atom.text))

variable {P : FatalError → Prop}

/-- Items that never lack an operand do not fail over the number of operands. -/
theorem failsOnly_steps (values : ∀ fatal, OverValues fatal → P fatal) (call : Call)
    {items : List (Postfix Atom)}
    (structural : ∀ item ∈ items, ∀ atom, Names item atom → Structural atom →
      P (.grammar (.notAnOperand atom.text)))
    {stack : Stack} {reached : Nat} (height : heightAfter stack.length items = some reached) :
    FailsOnly P (items.foldlM (step call) stack) := by
  induction items generalizing stack with
  | nil => exact failsOnly_pure stack
  | cons item rest ih =>
    rw [List.forall_mem_cons] at structural
    rw [heightAfter] at height
    split at height
    · rename_i enough
      rw [List.foldlM_cons]
      refine failsOnly_bind_of_yields
        (failsOnly_step values call (fun short => absurd enough (by omega)) structural.1)
        (yields_step call stack item) ?_
      rintro next ⟨_, length⟩
      rw [← length] at height
      exact ih structural.2 height
    · contradiction

theorem failsOnly_finish_of_single (values : ∀ fatal, OverValues fatal → P fatal) {stack : Stack}
    (single : stack.length = 1) : FailsOnly P (finish stack) := by
  obtain ⟨operand, rfl⟩ := List.length_eq_one_iff.1 single
  exact (failsOnly_resolve operand).mono values

/-- A balanced expression fails over its operands only. -/
theorem failsOnly_execute_of_height (call : Call) {items : List (Postfix Atom)}
    (height : heightAfter 0 items = some 1) : FailsOnly (OfBalanced items) (execute call items) := by
  have values : ∀ fatal, OverValues fatal → OfBalanced items fatal := fun _ h => .values h
  have steps : FailsOnly (OfBalanced items) (items.foldlM (step call) []) :=
    failsOnly_steps values call
      (fun _ member _ names structural => .structural member names structural) height
  rw [execute_eq]
  refine failsOnly_bind_of_yields steps (yields_steps call items []) ?_
  intro stack reached
  have single : some stack.length = some 1 := reached.symm.trans height
  exact failsOnly_finish_of_single values (Option.some.inj single)

/-- An expression has a value only if it is balanced, and if it is balanced its fatal errors are
those over its operands. -/
theorem execute_balanced (call : Call) (items : List (Postfix Atom)) (s : Session) :
    (∀ v after, (execute call items).run s = some (.ok v, after) → heightAfter 0 items = some 1) ∧
      (heightAfter 0 items = some 1 → ∀ fatal after,
        (execute call items).run s = some (.error fatal, after) → OfBalanced items fatal) := by
  refine ⟨?_, ?_⟩
  · intro v after ran
    exact heightAfter_of_execute ran
  · intro height fatal after failed
    exact failsOnly_execute_of_height call height s fatal after failed

/-- An application without arguments below an operator, and a parenthesis for an operand. -/
theorem execute_balanced_parenthesis :
    (∃ v, (execute (call 0) [.operand (.int 1), .apply (.str "a") 0, .operator .cons]).run
        .initial = some (.ok v, .initial) ∧
      heightAfter 0 [.operand (Atom.int 1), .apply (.str "a") 0, .operator .cons] = some 1) ∧
    heightAfter 0 [.operand (Atom.int 1), .operand .opening, .operator .cons] = some 1 ∧
      (execute (call 0) [.operand (.int 1), .operand .opening, .operator .cons]).run .initial =
        some (.error (.grammar (.notAnOperand "(")), .initial) ∧
      OfBalanced [.operand (.int 1), .operand .opening, .operator .cons]
        (.grammar (.notAnOperand "(")) := by
  have ran : (execute (call 0) [.operand (.int 1), .apply (.str "a") 0, .operator .cons]).run
      .initial = some (.ok (Operation.cons (.int 1) (.str "a")), .initial) := rfl
  have failed : (execute (call 0) [.operand (.int 1), .operand .opening, .operator .cons]).run
      .initial = some (.error (.grammar (.notAnOperand "(")), .initial) := rfl
  exact ⟨⟨_, ran, (execute_balanced (call 0) _ .initial).1 _ _ ran⟩, rfl, failed,
    (execute_balanced (call 0) _ .initial).2 rfl _ _ failed⟩

end ShellExpr.Machine
