import ShellExpr.Value.Basic

/-!
# Induction over nested values

Lists and tuples hold values, so the hypothesis of an induction over values speaks of their members.
Functions are taken as a whole, whatever values they captured.
-/

namespace ShellExpr

/-- The elements of a tuple are smaller than the tuple. -/
theorem Tuple.sizeOf_lt_of_mem {α : Type} [SizeOf α] {t : Tuple α} {a : α} (h : a ∈ t.toList) :
    sizeOf a < sizeOf t := by
  induction t with
  | empty => simp at h
  | node head rest ih =>
    rw [toList_node, List.mem_cons] at h
    rw [node.sizeOf_spec]
    rcases h with rfl | behind
    · omega
    · have smaller := ih behind
      omega

/-- A property that lists and tuples have when all their members do, and all other values have, is
one of every value. -/
@[elab_as_elim]
theorem Value.nested {motive : Value → Prop}
    (int : ∀ n, motive (.int n)) (real : ∀ r, motive (.real r))
    (str : ∀ text, motive (.str text))
    (list : ∀ items, (∀ v ∈ items, motive v) → motive (.list items))
    (tuple : ∀ items, (∀ v ∈ items.toList, motive v) → motive (.tuple items))
    (func : ∀ f, motive (.func f)) (error : ∀ message, motive (.error message)) :
    ∀ v, motive v
  | .int n => int n
  | .real r => real r
  | .str text => str text
  | .list items => list items fun v _ => Value.nested int real str list tuple func error v
  | .tuple items => tuple items fun v _ => Value.nested int real str list tuple func error v
  | .func f => func f
  | .error message => error message
termination_by v => sizeOf v
decreasing_by
  · rename_i member
    have smaller := List.sizeOf_lt_of_mem member
    rw [Value.list.sizeOf_spec]
    omega
  · rename_i member
    have smaller := Tuple.sizeOf_lt_of_mem member
    rw [Value.tuple.sizeOf_spec]
    omega

end ShellExpr
