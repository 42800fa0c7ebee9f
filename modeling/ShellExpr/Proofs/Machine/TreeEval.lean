import Mathlib.Data.List.Induction
import ShellExpr.Machine
import ShellExpr.Proofs.Tree

/-!
# Evaluating trees

The meaning of an expression tree by recursion on the tree.  A subtree has an operand for its
result, a value or a name that nothing has looked up yet; subtrees are evaluated from left to
right, and every operator says itself when it needs the values of its operands.

The machine agrees with this evaluator on the items of a tree in postfix order: same result, same
session, also where a fatal error cuts the evaluation short or a call has no outcome.
-/

namespace ShellExpr

open Machine

namespace Tree

/-! ### Operands -/

/-- A parameter is given by its name, or by a value. -/
def parameter : Operand → Value
  | .reference name => .str name
  | .value v => v

/-- What an operator makes of its two operands. -/
def combine (call : Call) : Operator → Operand → Operand → Eval Operand
  | .assign, target, source => do
    let v ← resolve source
    match target with
    | .reference name => do
      assign name v
      pure (.value v)
    | .value _ => Eval.fail (.notAssignable .assign)
  | .abstract, target, source => do
    let body ← resolve source
    let f ← abstraction (parameter target) body
    pure (.value f)
  | .sequence, _, last => pure last
  | op, left, right => do
    let r ← resolve right
    let l ← resolve left
    let v ← binary call op l r
    pure (.value v)

/-- The values of some operands, in their order.  The last one is resolved first. -/
def resolveAll : List Operand → Eval (List Value)
  | [] => pure []
  | operand :: rest => do
    let vs ← resolveAll rest
    let v ← resolve operand
    pure (v :: vs)

/-- What a head makes of its arguments, taking one after the other. -/
def applyHead (call : Call) (head : Atom) (operands : List Operand) : Eval Operand := do
  let vs ← resolveAll operands
  let operand ← Eval.ofExcept (Operand.ofAtom head)
  let f ← resolve operand
  let v ← vs.foldlM (apply call) f
  pure (.value v)

/-! ### Trees -/

mutual

/-- The operand that a tree stands for. -/
def eval (call : Call) : Tree Atom → Eval Operand
  | leaf atom => Eval.ofExcept (Operand.ofAtom atom)
  | node op left right => do
    let l ← left.eval call
    let r ← right.eval call
    combine call op l r
  | application head first more => do
    let operand ← first.eval call
    let operands ← evalAll call more
    applyHead call head (operand :: operands)

/-- The operands of several trees, from left to right. -/
def evalAll (call : Call) : List (Tree Atom) → Eval (List Operand)
  | [] => pure []
  | tree :: rest => do
    let operand ← tree.eval call
    let operands ← evalAll call rest
    pure (operand :: operands)

end

/-- The value of a tree. -/
def value (call : Call) (tree : Tree Atom) : Eval Value := do
  let operand ← tree.eval call
  resolve operand

end Tree

namespace Machine

/-! ### Operands on the stack -/

theorem pop_cons (needed : String) (operand : Operand) (below : Stack) :
    pop needed (operand :: below) = pure (operand, below) := rfl

theorem popValue_cons (needed : String) (operand : Operand) (below : Stack) :
    popValue needed (operand :: below) = (do
      let v ← resolve operand
      pure (v, below)) := rfl

theorem operator_eq_combine (call : Call) (op : Operator) (left right : Operand) (stack : Stack) :
    operator call op (right :: left :: stack) = (do
      let operand ← Tree.combine call op left right
      pure (operand :: stack)) := by
  cases op with
  | assign =>
    simp only [operator, Tree.combine, popValue_cons, pop_cons, bind_assoc, pure_bind]
    congr 1
    funext v
    cases left with
    | reference name => simp only [bind_assoc, pure_bind]
    | value other => rfl
  | abstract =>
    simp only [operator, Tree.combine, popValue_cons, pop_cons, bind_assoc, pure_bind]
    cases left with
    | reference name => rfl
    | value v => rfl
  | sequence => simp only [operator, Tree.combine, pop_cons, pure_bind]
  | _ => simp only [operator, Tree.combine, popValue_cons, bind_assoc, pure_bind]

theorem resolveAll_concat (operands : List Operand) (last : Operand) :
    Tree.resolveAll (operands ++ [last]) = (do
      let v ← resolve last
      let vs ← Tree.resolveAll operands
      pure (vs ++ [v])) := by
  induction operands with
  | nil => simp only [List.nil_append, Tree.resolveAll, pure_bind]
  | cons operand rest ih =>
    simp only [List.cons_append, Tree.resolveAll, ih, bind_assoc, pure_bind]

/-- The operands come off the stack from the last to the first. -/
theorem popArguments_reverse (needed : String) (operands : List Operand) (taken : List Value)
    (stack : Stack) :
    popArguments needed operands.length taken (operands.reverse ++ stack) = (do
      let vs ← Tree.resolveAll operands
      pure (vs ++ taken, stack)) := by
  induction operands using List.reverseRecOn generalizing taken with
  | nil => rfl
  | append_singleton operands last ih =>
    rw [List.length_append, List.length_singleton, List.reverse_append, List.reverse_singleton,
      List.append_assoc, List.singleton_append, popArguments, popValue_cons, resolveAll_concat]
    simp only [bind_assoc, pure_bind, ih, List.append_assoc, List.singleton_append]

theorem application_eq_applyHead (call : Call) (head : Atom) (operands : List Operand)
    (stack : Stack) :
    application call head operands.length (operands.reverse ++ stack) = (do
      let operand ← Tree.applyHead call head operands
      pure (operand :: stack)) := by
  unfold application Tree.applyHead
  rw [popArguments_reverse]
  simp only [bind_assoc, pure_bind, List.append_nil]

/-! ### Trees on the machine -/

theorem length_evalAll_bind {α : Type} (call : Call) (trees : List (Tree Atom))
    (f g : List Operand → Eval α)
    (same : ∀ operands : List Operand, operands.length = trees.length → f operands = g operands) :
    (Tree.evalAll call trees >>= f) = (Tree.evalAll call trees >>= g) := by
  induction trees generalizing f g with
  | nil =>
    simp only [Tree.evalAll, pure_bind]
    exact same [] rfl
  | cons tree rest ih =>
    simp only [Tree.evalAll, bind_assoc, pure_bind]
    congr 1
    funext operand
    apply ih
    intro operands length
    exact same (operand :: operands) (by rw [List.length_cons, length, List.length_cons])

mutual

/-- The items of a tree push its operand, whatever is on the stack below. -/
theorem foldlM_postorder (call : Call) (tree : Tree Atom) (stack : Stack) :
    tree.postorder.foldlM (step call) stack = (do
      let operand ← tree.eval call
      pure (operand :: stack)) := by
  cases tree with
  | leaf atom =>
    rw [Tree.postorder, Tree.eval, List.foldlM_cons, step]
    simp only [List.foldlM_nil, bind_pure]
  | node op left right =>
    rw [Tree.postorder, Tree.eval, List.foldlM_append, List.foldlM_append,
      foldlM_postorder call left stack]
    simp only [bind_assoc, pure_bind, foldlM_postorder call right, List.foldlM_cons,
      List.foldlM_nil, bind_pure, step, operator_eq_combine]
  | application head first more =>
    rw [Tree.postorder, Tree.eval, List.foldlM_append, List.foldlM_append,
      foldlM_postorder call first stack]
    simp only [bind_assoc, pure_bind, foldlM_postorderAll call more, List.foldlM_cons,
      List.foldlM_nil, bind_pure, step]
    congr 1
    funext operand
    apply length_evalAll_bind
    intro operands length
    have whole := application_eq_applyHead call head (operand :: operands) stack
    rw [List.length_cons, length, List.reverse_cons, List.append_assoc] at whole
    exact whole

theorem foldlM_postorderAll (call : Call) (trees : List (Tree Atom)) (stack : Stack) :
    (Tree.postorderAll trees).foldlM (step call) stack = (do
      let operands ← Tree.evalAll call trees
      pure (operands.reverse ++ stack)) := by
  cases trees with
  | nil => rfl
  | cons tree rest =>
    rw [Tree.postorderAll, Tree.evalAll, List.foldlM_append, foldlM_postorder call tree stack]
    simp only [bind_assoc, pure_bind, foldlM_postorderAll call rest, List.reverse_cons,
      List.append_assoc, List.singleton_append]

end

/-- Running the items of a tree is evaluating the tree, for every way of calling functions and in
every session. -/
theorem execute_postorder (call : Call) (tree : Tree Atom) :
    execute call tree.postorder = tree.value call := by
  rw [execute_eq, foldlM_postorder]
  simp only [bind_assoc, pure_bind]
  rfl

end Machine

end ShellExpr
