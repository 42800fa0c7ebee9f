import ShellExpr.Machine
import ShellExpr.Proofs.Atom.Literal
import ShellExpr.Proofs.Reordering.Groups

/-!
# Expressions in parentheses

A group is worth what its tokens are worth by themselves, be they grammatical or not, as long as the
reordering pass accepts them: it contributes the same items wherever it stands, and an expression
that is a single group evaluates like the expression inside it.
-/

namespace ShellExpr.Machine

open Reordering

theorem evaluate_parenthesized (depth : Nat) {source : String} {atoms : List Atom}
    {items : List (Postfix Atom)} (scanned : Atom.scan source = .ok atoms)
    (accepted : reorder atoms = .ok items) :
    evaluate depth ("(" ++ source ++ ")") = evaluate depth source := by
  have opening : Symbol.role Atom.opening = .opening := rfl
  have closing : Symbol.role Atom.closing = .closing := rfl
  have enclosed := reorder_group opening closing accepted
  rw [evaluate, evaluate, evaluateWith_eq _ (Atom.scan_parenthesized scanned) enclosed,
    evaluateWith_eq _ scanned accepted]

/-- Tokens that are accepted contribute the same items wherever they stand as a group, and a text
with such tokens has in parentheses the same result as without them, from every session on. -/
theorem groups_contribute :
    (∀ {α : Type} [Symbol α] {left right : α} {tokens : List α} {items : List (Postfix α)},
      Symbol.role left = .opening → Symbol.role right = .closing → reorder tokens = .ok items →
        Contributes left right tokens items) ∧
    ∀ (depth : Nat) {source : String} {atoms : List Atom} {items : List (Postfix Atom)},
      Atom.scan source = .ok atoms → reorder atoms = .ok items → ∀ s : Session,
        (evaluate depth ("(" ++ source ++ ")")).run s = (evaluate depth source).run s := by
  refine ⟨fun opening closing accepted => contributes_of_reorder opening closing accepted, ?_⟩
  intro depth source atoms items scanned accepted s
  rw [evaluate_parenthesized depth scanned accepted]

/-- Two groups in front of their operator, which the pass accepts and the grammar does not derive, as
the argument of a function. -/
theorem groups_contribute_crowded :
    reorder ["f", "(", "(", "1", ")", "(", "2", ")", "+", ")"] =
      .ok [.operand "1", .operand "2", .operator .add, .apply "f" 1] ∧
    (evaluate 0 "((1) (2) +)").run .initial = some (.ok (.int 3), .initial) := by
  have accepted : reorder ["(", "1", ")", "(", "2", ")", "+"] =
      .ok [.operand "1", .operand "2", .operator .add] := by
    decide +kernel
  have scanned : Atom.scan "(1) (2) +" = .ok [.opening, .int 1, .closing, .opening, .int 2,
      .closing, .operator .add] := by
    decide +kernel
  have reordered : reorder [Atom.opening, .int 1, .closing, .opening, .int 2, .closing,
      .operator .add] = .ok [.operand (.int 1), .operand (.int 2), .operator .add] := by
    decide +kernel
  have contributes : Contributes "(" ")" ["(", "1", ")", "(", "2", ")", "+"]
      [.operand "1", .operand "2", .operator .add] :=
    groups_contribute.1 (by decide) (by decide) accepted
  refine ⟨contributes.applied (by decide) (by decide), ?_⟩
  have same := groups_contribute.2 0 scanned reordered .initial
  refine same.trans ?_
  rw [evaluate, evaluateWith_eq _ scanned reordered]
  rfl

end ShellExpr.Machine
