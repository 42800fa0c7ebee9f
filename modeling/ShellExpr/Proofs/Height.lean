import Mathlib.Algebra.BigOperators.Group.List.Basic
import Mathlib.Algebra.Ring.Int.Defs
import ShellExpr.Proofs.Tree

/-!
# Stack heights

Every item of a postfix expression takes some operands off the stack and puts one back.
`heightAfter` follows the height of the stack along the items, and `rise` sums up by how much they
raise it.  Items that never lack an operand and leave a single one behind are the items of a tree.
-/

namespace ShellExpr

variable {α : Type}

/-- The operands that an item takes off the stack. -/
def Postfix.taken : Postfix α → Nat
  | operand _ => 0
  | operator _ => 2
  | apply _ arity => arity

/-- The height of the stack behind the items, unless one of them lacks an operand. -/
def heightAfter (height : Nat) : List (Postfix α) → Option Nat
  | [] => some height
  | item :: rest =>
    if item.taken ≤ height then heightAfter (height - item.taken + 1) rest else none

/-! ### The rise of the stack -/

/-- By how much the items raise the stack. -/
def rise (items : List (Postfix α)) : Int :=
  (items.map fun item => 1 - (item.taken : Int)).sum

@[simp] theorem rise_nil : rise ([] : List (Postfix α)) = 0 := rfl

@[simp] theorem rise_cons (item : Postfix α) (items : List (Postfix α)) :
    rise (item :: items) = 1 - item.taken + rise items := by
  rw [rise, List.map_cons, List.sum_cons, rise]

@[simp] theorem rise_append (first second : List (Postfix α)) :
    rise (first ++ second) = rise first + rise second := by
  rw [rise, List.map_append, List.sum_append, rise, rise]

@[simp] theorem rise_reverse (items : List (Postfix α)) : rise items.reverse = rise items := by
  rw [rise, List.map_reverse, List.sum_reverse, rise]

theorem rise_of_heightAfter {height reached : Nat} {items : List (Postfix α)}
    (h : heightAfter height items = some reached) : (reached : Int) = height + rise items := by
  induction items generalizing height with
  | nil =>
    cases h
    simp
  | cons item rest ih =>
    rw [heightAfter] at h
    split at h
    · rename_i enough
      have later := ih h
      rw [rise_cons]
      omega
    · contradiction

theorem heightAfter_append (height : Nat) (first second : List (Postfix α)) :
    heightAfter height (first ++ second) =
      (heightAfter height first).bind fun reached => heightAfter reached second := by
  induction first generalizing height with
  | nil => rfl
  | cons item rest ih =>
    rw [List.cons_append, heightAfter, heightAfter]
    split
    · exact ih _
    · rfl

/-! ### Trees on the stack -/

namespace Tree

mutual

/-- The items of a tree put one operand on the stack. -/
theorem heightAfter_postorder (tree : Tree α) (height : Nat) :
    heightAfter height tree.postorder = some (height + 1) := by
  cases tree with
  | leaf token => rfl
  | node op left right =>
    have enough : (Postfix.operator op : Postfix α).taken ≤ height + 1 + 1 :=
      Nat.le_add_left 2 height
    rw [postorder_node, heightAfter_append, heightAfter_append, heightAfter_postorder left,
      Option.bind_some, heightAfter_postorder right, Option.bind_some, heightAfter, if_pos enough]
    rfl
  | application head first more =>
    have enough : (Postfix.apply head (more.length + 1)).taken ≤ height + 1 + more.length := by
      rw [Postfix.taken]
      omega
    rw [postorder, heightAfter_append, heightAfter_append, heightAfter_postorder first,
      Option.bind_some, heightAfter_postorderAll more, Option.bind_some, heightAfter,
      if_pos enough, heightAfter, Postfix.taken]
    congr 1
    omega

theorem heightAfter_postorderAll (trees : List (Tree α)) (height : Nat) :
    heightAfter height (postorderAll trees) = some (height + trees.length) := by
  cases trees with
  | nil => rfl
  | cons tree rest =>
    rw [postorderAll, heightAfter_append, heightAfter_postorder tree, Option.bind_some,
      heightAfter_postorderAll rest, List.length_cons]
    congr 1
    omega

end

end Tree

/-! ### Applications -/

/-- No application without arguments. -/
def AllApplied (items : List (Postfix α)) : Prop :=
  ∀ head, .apply head 0 ∉ items

theorem allApplied_cons {item : Postfix α} {items : List (Postfix α)} :
    AllApplied (item :: items) ↔ (∀ head, item ≠ .apply head 0) ∧ AllApplied items := by
  simp only [AllApplied, List.mem_cons, not_or, forall_and, ne_comm]

/-! ### Reading trees off the stack -/

namespace Tree

theorem postorderAll_append (first second : List (Tree α)) :
    postorderAll (first ++ second) = postorderAll first ++ postorderAll second := by
  induction first with
  | nil => rw [List.nil_append, postorderAll, List.nil_append]
  | cons tree rest ih => rw [List.cons_append, postorderAll, ih, postorderAll, List.append_assoc]

theorem postorderAll_singleton (tree : Tree α) : postorderAll [tree] = tree.postorder := by
  rw [postorderAll, postorderAll, List.append_nil]

/-- The items of the trees on a stack, the top of which is the last. -/
def stacked (trees : List (Tree α)) : List (Postfix α) :=
  postorderAll trees.reverse

theorem stacked_append (upper lower : List (Tree α)) :
    stacked (upper ++ lower) = stacked lower ++ stacked upper := by
  rw [stacked, List.reverse_append, postorderAll_append, stacked, stacked]

theorem stacked_cons (tree : Tree α) (below : List (Tree α)) :
    stacked (tree :: below) = stacked below ++ tree.postorder := by
  rw [stacked, List.reverse_cons, postorderAll_append, postorderAll_singleton, stacked]

/-- An item joins the trees that it takes to a single one. -/
theorem stacked_item {item : Postfix α} (applied : ∀ head, item ≠ .apply head 0)
    {trees : List (Tree α)} (enough : item.taken ≤ trees.length) :
    ∃ tree, stacked trees ++ [item] = stacked (tree :: trees.drop item.taken) := by
  cases item with
  | operand token =>
    refine ⟨leaf token, ?_⟩
    rw [stacked_cons, postorder]
    rfl
  | operator op =>
    match trees, enough with
    | right :: left :: below, _ =>
      refine ⟨node op left right, ?_⟩
      rw [stacked_cons, stacked_cons, stacked_cons, postorder_node]
      simp only [Postfix.taken, List.drop_succ_cons, List.drop_zero, List.append_assoc]
  | apply head arity =>
    have split : trees.take arity ++ trees.drop arity = trees := List.take_append_drop arity trees
    have length : (trees.take arity).length = arity := List.length_take_of_le enough
    cases arguments : (trees.take arity).reverse with
    | nil =>
      rw [List.reverse_eq_nil_iff] at arguments
      rw [arguments, List.length_nil] at length
      exact absurd (by rw [← length]) (applied head)
    | cons first more =>
      have arity_eq : arity = more.length + 1 := by
        rw [← length, ← List.length_reverse, arguments, List.length_cons]
      refine ⟨application head first more, ?_⟩
      rw [stacked_cons, postorder_application, ← arguments, ← arity_eq]
      conv_lhs => rw [← split, stacked_append, List.append_assoc]
      rfl

theorem exists_stacked {items : List (Postfix α)} (applied : AllApplied items)
    {trees : List (Tree α)} {reached : Nat} (h : heightAfter trees.length items = some reached) :
    ∃ built, stacked trees ++ items = stacked built ∧ built.length = reached := by
  induction items generalizing trees with
  | nil =>
    cases h
    exact ⟨trees, List.append_nil _, rfl⟩
  | cons item rest ih =>
    rw [heightAfter] at h
    split at h
    · rename_i enough
      obtain ⟨first, others⟩ := allApplied_cons.1 applied
      obtain ⟨tree, joined⟩ := stacked_item first enough
      have length : (tree :: trees.drop item.taken).length = trees.length - item.taken + 1 := by
        rw [List.length_cons, List.length_drop]
      rw [← length] at h
      obtain ⟨built, whole, height⟩ := ih others h
      refine ⟨built, ?_, height⟩
      rw [← whole, ← joined, List.append_assoc, List.singleton_append]
    · contradiction

/-- Items that leave a single operand on an empty stack are those of a tree. -/
theorem exists_postorder {items : List (Postfix α)} (applied : AllApplied items)
    (h : heightAfter 0 items = some 1) : ∃ tree : Tree α, items = tree.postorder := by
  have empty : heightAfter ([] : List (Tree α)).length items = some 1 := h
  obtain ⟨built, whole, height⟩ := exists_stacked applied empty
  obtain ⟨tree, rfl⟩ := List.length_eq_one_iff.1 height
  refine ⟨tree, ?_⟩
  calc items = stacked [] ++ items := rfl
    _ = stacked [tree] := whole
    _ = tree.postorder := postorderAll_singleton tree

end Tree

end ShellExpr
