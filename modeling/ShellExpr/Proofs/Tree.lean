import ShellExpr.Postfix

/-!
# Expression trees

The trees that infix expressions stand for: single tokens, operators between two subtrees, and
applications of a token to one or more subtrees.  `Tree.postorder` lists a tree in postfix order,
an operator behind its two operands and a head behind its arguments.
-/

namespace ShellExpr

/-- An expression tree over tokens of any type. -/
inductive Tree (α : Type) where
  | leaf (token : α)
  | node (op : Operator) (left right : Tree α)
  /-- The token `head` applied to `first` and the arguments behind it. -/
  | application (head : α) (first : Tree α) (more : List (Tree α))

namespace Tree

variable {α : Type}

mutual

/-- The items of a tree in postfix order. -/
def postorder : Tree α → List (Postfix α)
  | leaf token => [.operand token]
  | node op left right => left.postorder ++ right.postorder ++ [.operator op]
  | application head first more =>
    first.postorder ++ postorderAll more ++ [.apply head (more.length + 1)]

/-- The items of several trees, one tree behind the other. -/
def postorderAll : List (Tree α) → List (Postfix α)
  | [] => []
  | tree :: rest => tree.postorder ++ postorderAll rest

end

theorem postorder_node (op : Operator) (left right : Tree α) :
    (node op left right).postorder = left.postorder ++ right.postorder ++ [.operator op] := by
  rw [postorder]

theorem postorder_application (head : α) (first : Tree α) (more : List (Tree α)) :
    (application head first more).postorder =
      postorderAll (first :: more) ++ [.apply head (more.length + 1)] := by
  rw [postorder, postorderAll]

end Tree

end ShellExpr
