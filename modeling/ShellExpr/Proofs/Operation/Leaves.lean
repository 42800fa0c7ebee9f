import Mathlib.Data.List.Zip
import ShellExpr.Proofs.Operation.Broadcast

/-!
# Broadcasting leaf by leaf

What an operator makes of nested lists is determined by what it makes of their leaves, the values in
them that are no lists.  A scalar meets every leaf, as if it stood in a list of the same shape at
every place, and two lists of one shape meet leaf by leaf.  A failure is a leaf like any other here:
that it passes unchanged is a matter of the operator on leaves.
-/

namespace ShellExpr

/-! ### Nested lists by shape and leaves -/

/-- How lists are nested in a value. -/
inductive Shape where
  | leaf
  | list (shapes : List Shape)

mutual

def Value.shape : Value → Shape
  | .list items => .list (shapesOf items)
  | _ => .leaf
termination_by structural v => v

def shapesOf : List Value → List Shape
  | [] => []
  | v :: rest => v.shape :: shapesOf rest
termination_by structural vs => vs

end

mutual

/-- Puts another value in the place of every leaf. -/
def Value.replaceLeaves (f : Value → Value) : Value → Value
  | .list items => .list (replaceItems f items)
  | leaf => f leaf
termination_by structural v => v

def replaceItems (f : Value → Value) : List Value → List Value
  | [] => []
  | v :: rest => v.replaceLeaves f :: replaceItems f rest
termination_by structural vs => vs

end

mutual

/-- Puts the result for it in the place of every leaf, if there is a result for each. -/
def Value.replaceLeaves? (f : Value → Option Value) : Value → Option Value
  | .list items => (replaceItems? f items).map .list
  | leaf => f leaf
termination_by structural v => v

def replaceItems? (f : Value → Option Value) : List Value → Option (List Value)
  | [] => some []
  | v :: rest => do
    let w ← v.replaceLeaves? f
    let ws ← replaceItems? f rest
    pure (w :: ws)
termination_by structural vs => vs

end

mutual

/-- Combines the leaves that stand at the same places of two nested lists, if there is a result for
each two. -/
def Value.zipLeaves? (f : Value → Value → Option Value) : Value → Value → Option Value
  | .list xs, .list ys => (zipItems? f xs ys).map .list
  | x, y => f x y
termination_by structural v => v

def zipItems? (f : Value → Value → Option Value) :
    List Value → List Value → Option (List Value)
  | x :: xs, y :: ys => do
    let z ← x.zipLeaves? f y
    let zs ← zipItems? f xs ys
    pure (z :: zs)
  | _, _ => some []
termination_by structural vs => vs

end

theorem shapesOf_eq (items : List Value) : shapesOf items = items.map Value.shape := by
  induction items with
  | nil => rfl
  | cons v rest ih => rw [shapesOf, ih, List.map_cons]

theorem replaceItems_eq (f : Value → Value) (items : List Value) :
    replaceItems f items = items.map (Value.replaceLeaves f) := by
  induction items with
  | nil => rfl
  | cons v rest ih => rw [replaceItems, ih, List.map_cons]

theorem replaceItems?_eq (f : Value → Option Value) (items : List Value) :
    replaceItems? f items = items.mapM (Value.replaceLeaves? f) := by
  induction items with
  | nil => rfl
  | cons v rest ih => rw [replaceItems?, ih, List.mapM_cons]

theorem zipItems?_eq (f : Value → Value → Option Value) (xs ys : List Value) :
    zipItems? f xs ys = (xs.zip ys).mapM fun pair => pair.1.zipLeaves? f pair.2 := by
  induction xs generalizing ys with
  | nil => cases ys <;> rfl
  | cons x xs ih =>
    cases ys with
    | nil => rfl
    | cons y ys => rw [zipItems?, ih, List.zip_cons_cons, List.mapM_cons]

theorem zipLeaves?_of_leaf {x : Value} (h : x.shape = .leaf) (f : Value → Value → Option Value)
    (y : Value) : x.zipLeaves? f y = f x y := by
  cases x with
  | list items => cases h
  | _ => rfl

/-- Only lists have the shape of a list. -/
theorem exists_of_shape {v : Value} {shapes : List Shape} (h : v.shape = .list shapes) :
    ∃ items, v = .list items ∧ items.map Value.shape = shapes := by
  cases v with
  | list items =>
    rw [Value.shape, Shape.list.injEq, shapesOf_eq] at h
    exact ⟨items, rfl, h⟩
  | _ => cases h

theorem shape_of_isScalar {s : Value} (h : s.isScalar = true) : s.shape = .leaf := by
  cases s with
  | list items => cases h
  | _ => rfl

/-! ### The same shape -/

/-- A property of leaves, and of lists of one length when each two of their items have it, is one of
all values of one shape. -/
theorem of_same_shape {motive : Value → Value → Prop}
    (leaf : ∀ u v, u.shape = .leaf → v.shape = .leaf → motive u v)
    (list : ∀ us vs, List.Forall₂ motive us vs → motive (.list us) (.list vs)) {u v : Value}
    (same : u.shape = v.shape) : motive u v := by
  induction u using Value.nested generalizing v with
  | list items ih =>
    obtain ⟨others, rfl, shapes⟩ := exists_of_shape same.symm
    rw [shapesOf_eq] at shapes
    refine list items others ?_
    -- The shapes of the items say in each step that the other list goes on too.
    clear same
    induction items generalizing others with
    | nil =>
      rw [List.map_eq_nil_iff.1 shapes]
      exact .nil
    | cons x xs rest =>
      cases others with
      | nil => cases shapes
      | cons y ys =>
        rw [List.map_cons, List.map_cons, List.cons.injEq] at shapes
        rw [List.forall_mem_cons] at ih
        exact .cons (ih.1 shapes.1.symm) (rest ih.2 ys shapes.2)
  | _ => exact leaf _ v rfl same.symm

theorem shape_replaceLeaves {f : Value → Value} (leaf : ∀ x, (f x).shape = .leaf) (v : Value) :
    (v.replaceLeaves f).shape = v.shape := by
  induction v using Value.nested with
  | list items ih =>
    rw [Value.replaceLeaves, Value.shape, Value.shape, shapesOf_eq, shapesOf_eq, replaceItems_eq,
      List.map_map]
    exact congrArg Shape.list (List.map_congr_left ih)
  | _ => exact leaf _

/-- Combining the leaves with what replaced them is replacing them. -/
theorem zipLeaves?_replaceLeaves_right (f : Value → Value → Option Value) (g : Value → Value)
    (v : Value) : v.zipLeaves? f (v.replaceLeaves g) = v.replaceLeaves? fun x => f x (g x) := by
  induction v using Value.nested with
  | list items ih =>
    have pairs : items.zip (items.map (Value.replaceLeaves g)) =
        items.map fun x => (x, x.replaceLeaves g) := by
      simpa using @List.zip_map' _ _ _ id (Value.replaceLeaves g) items
    rw [Value.replaceLeaves, Value.replaceLeaves?, Value.zipLeaves?, zipItems?_eq, replaceItems_eq,
      replaceItems?_eq, pairs, List.mapM_map]
    exact congrArg (Option.map Value.list) (mapM_congr ih)
  | _ => rfl

theorem zipLeaves?_replaceLeaves_left (f : Value → Value → Option Value) {g : Value → Value}
    (leaf : ∀ x, (g x).shape = .leaf) (v : Value) :
    (v.replaceLeaves g).zipLeaves? f v = v.replaceLeaves? fun x => f (g x) x := by
  induction v using Value.nested with
  | list items ih =>
    have pairs : (items.map (Value.replaceLeaves g)).zip items =
        items.map fun x => (x.replaceLeaves g, x) := by
      simpa using @List.zip_map' _ _ _ (Value.replaceLeaves g) id items
    rw [Value.replaceLeaves, Value.replaceLeaves?, Value.zipLeaves?, zipItems?_eq, replaceItems_eq,
      replaceItems?_eq, pairs, List.mapM_map]
    exact congrArg (Option.map Value.list) (mapM_congr ih)
  | _ => exact zipLeaves?_of_leaf (leaf _) _ _

/-- Leaves that combine to leaves leave the shape as it is. -/
theorem shape_zipLeaves? {f : Value → Value → Option Value}
    (leaf : ∀ x y w : Value, x.shape = .leaf → y.shape = .leaf → f x y = some w → w.shape = .leaf)
    {u v w : Value} (same : u.shape = v.shape) (h : u.zipLeaves? f v = some w) :
    w.shape = u.shape := by
  revert w
  refine of_same_shape (motive := fun u v => ∀ {w}, u.zipLeaves? f v = some w → w.shape = u.shape)
    ?_ ?_ same
  · intro u v hu hv w h
    rw [zipLeaves?_of_leaf hu] at h
    rw [hu, leaf u v w hu hv h]
  · intro us vs each w h
    rw [Value.zipLeaves?, Option.map_eq_some_iff] at h
    obtain ⟨ws, zipped, rfl⟩ := h
    rw [Value.shape, Value.shape, Shape.list.injEq]
    induction each generalizing ws with
    | nil =>
      cases zipped
      rfl
    | cons first _ ih =>
      simp only [zipItems?, Option.bind_eq_bind, Option.bind_eq_some_iff] at zipped
      obtain ⟨z, head, zs, rest, whole⟩ := zipped
      cases whole
      rw [shapesOf, shapesOf, first head, ih zs rest]

section

variable {rule : Rule} {s : Value}

/-! ### Broadcasting -/

/-- Going to the leaves at once, or one list after the other. -/
theorem mapLeaves?_eq_replaceLeaves? (f : Value → Option Value) (v : Value) :
    mapLeaves? f v = v.replaceLeaves? (mapLeaves? f) := by
  induction v using Value.nested with
  | list items ih =>
    rw [mapLeaves?, Value.replaceLeaves?, mapItems?_eq, replaceItems?_eq, mapM_congr ih]
  | _ => rfl

theorem broadcast?_eq_zipLeaves? {u v : Value} (same : u.shape = v.shape) :
    broadcast? rule u v = u.zipLeaves? (broadcast? rule) v := by
  refine of_same_shape
    (motive := fun u v => broadcast? rule u v = u.zipLeaves? (broadcast? rule) v) ?_ ?_ same
  · intro u v hu _
    rw [zipLeaves?_of_leaf hu]
  · intro us vs each
    obtain ⟨length, pairs⟩ := List.forall₂_iff_zip.1 each
    rw [broadcast?_lists length, Value.zipLeaves?, zipItems?_eq, mapM_congr fun _ => pairs]

theorem shape_broadcast? (results : ∀ x y w : Value, rule x y = some w → w.shape = .leaf)
    {x y w : Value} (hx : x.shape = .leaf) (hy : y.shape = .leaf)
    (h : broadcast? rule x y = some w) : w.shape = .leaf := by
  cases x with
  | list items => cases hx
  | error message =>
    cases h
    rfl
  | _ =>
    cases y with
    | list items => cases hy
    | error message =>
      cases h
      rfl
    | _ => exact results _ _ w h

end

namespace Operation

open Machine

/-! ### Operators -/

theorem shape_of_isFlat {v : Value} (h : v.isFlat = true) : v.shape = .leaf := by
  cases v with
  | list items => cases h
  | _ => rfl

/-- Two tuples are joined, or the result has no parts. -/
theorem shape_of_joining {rule : Value → Value → Value}
    (joins : ∀ xs ys, rule (.tuple xs) (.tuple ys) = .tuple (xs.concat ys))
    (flat : ∀ {left right : Value}, ¬(left.kind = .tuple ∧ right.kind = .tuple) →
      (rule left right).isFlat = true) (left right : Value) : (rule left right).shape = .leaf := by
  by_cases tuples : left.kind = .tuple ∧ right.kind = .tuple
  · obtain ⟨first, second⟩ := tuples
    cases left <;> cases first
    cases right <;> cases second
    rw [joins]
    rfl
  · exact shape_of_isFlat (flat tuples)

theorem shape_of_rule {op : Operator} {rule : Rule} (h : broadcastRule? op = some rule)
    {left right v : Value} (result : rule left right = some v) : v.shape = .leaf := by
  cases op <;> cases h
  case mul => exact shape_of_isFlat (isFlat_mul result)
  all_goals cases result
  case add => exact shape_of_joining (fun _ _ => rfl) isFlat_add left right
  case sub => exact shape_of_isFlat (isFlat_sub left right)
  case div => exact shape_of_isFlat (isFlat_div left right)
  case rem => exact shape_of_isFlat (isFlat_rem left right)
  case pow => exact shape_of_isFlat (isFlat_pow left right)
  case bitAnd => exact shape_of_isFlat (isFlat_bitAnd left right)
  case bitOr => exact shape_of_isFlat (isFlat_bitOr left right)
  case shl => exact shape_of_isFlat (isFlat_shl left right)
  case shr => exact shape_of_isFlat (isFlat_shr left right)
  case and => exact shape_of_isFlat (isFlat_and left right)
  case or => exact shape_of_isFlat (isFlat_or left right)
  case concat => exact shape_of_joining (fun _ _ => rfl) isFlat_concat left right

/-- A function of two values that goes leaf by leaf.  Its result is missing where that of two leaves
is. -/
structure Leafwise (f : Value → Value → Option Value) : Prop where
  scalar_right : ∀ v s : Value, s.isScalar = true → f v s = v.replaceLeaves? fun x => f x s
  scalar_left : ∀ v s : Value, s.isScalar = true → f s v = v.replaceLeaves? fun x => f s x
  /-- A scalar is worth a list of the same shape that holds it at every leaf. -/
  filled_right : ∀ v s : Value, s.isScalar = true → f v (v.replaceLeaves fun _ => s) = f v s
  filled_left : ∀ v s : Value, s.isScalar = true → f (v.replaceLeaves fun _ => s) v = f s v
  pairs : ∀ u v : Value, u.shape = v.shape → f u v = u.zipLeaves? f v
  shape : ∀ u v w : Value, u.shape = v.shape → f u v = some w → w.shape = u.shape

theorem leafwise_broadcast? {rule : Rule}
    (results : ∀ x y w : Value, rule x y = some w → w.shape = .leaf) :
    Leafwise (broadcast? rule) := by
  have right (v s : Value) (scalar : s.isScalar = true) :
      broadcast? rule v s = v.replaceLeaves? fun x => broadcast? rule x s := by
    have leaves : (fun x => broadcast? rule x s) = mapLeaves? fun x => rule x s :=
      funext (broadcast?_scalar_right scalar)
    rw [leaves, broadcast?_scalar_right scalar, ← mapLeaves?_eq_replaceLeaves?]
  have left (v s : Value) (scalar : s.isScalar = true) :
      broadcast? rule s v = v.replaceLeaves? fun x => broadcast? rule s x := by
    have leaves : (fun x => broadcast? rule s x) = mapLeaves? (rule s) :=
      funext (broadcast?_scalar_left scalar)
    rw [leaves, broadcast?_scalar_left scalar, ← mapLeaves?_eq_replaceLeaves?]
  refine ⟨right, left, ?_, ?_, fun u v => broadcast?_eq_zipLeaves?, ?_⟩
  · intro v s scalar
    have filled := shape_replaceLeaves (f := fun _ => s) (fun _ => shape_of_isScalar scalar) v
    rw [broadcast?_eq_zipLeaves? filled.symm, zipLeaves?_replaceLeaves_right, ← right v s scalar]
  · intro v s scalar
    have filled := shape_replaceLeaves (f := fun _ => s) (fun _ => shape_of_isScalar scalar) v
    rw [broadcast?_eq_zipLeaves? filled,
      zipLeaves?_replaceLeaves_left _ fun _ => shape_of_isScalar scalar, ← left v s scalar]
  · intro u v w same h
    rw [broadcast?_eq_zipLeaves? same] at h
    exact shape_zipLeaves? (fun _ _ _ => shape_broadcast? results) same h

/-- Every operator that extends to lists is a function of the values of its operands and goes leaf by
leaf.  It has a result unless a text and a count meet whose repetition has a size that no text has. -/
theorem broadcasts_leafwise {op : Operator} (h : op ∈ broadcasting) :
    ∃ f : Value → Value → Option Value,
      (∀ call left right, binary call op left right = Eval.ofOption (f left right)) ∧
      Leafwise f ∧
      ∀ left right, f left right = none ↔ MeetsOversized op left right := by
  obtain ⟨rule, found⟩ := Option.isSome_iff_exists.1 (isSome_rule op h)
  exact ⟨broadcast? rule, binary_of_rule found,
    leafwise_broadcast? fun _ _ _ => shape_of_rule found,
    fun _ _ => broadcast?_rule_eq_none_iff found⟩

/-- A nested list with a failure in it, times a number, and the same as two lists. -/
theorem broadcasts_leafwise_nested :
    Operator.mul ∈ broadcasting ∧
      ∃ f : Value → Value → Option Value,
        (∀ call left right, binary call .mul left right = Eval.ofOption (f left right)) ∧
        f (.list [.str "a", .list [.int 2, .error "e"]]) (.int 3) =
          (Value.list [.str "a", .list [.int 2, .error "e"]]).replaceLeaves? (f · (.int 3)) ∧
        f (.list [.str "a", .list [.int 2, .error "e"]])
            (.list [.int 3, .list [.int 3, .int 3]]) =
          f (.list [.str "a", .list [.int 2, .error "e"]]) (.int 3) ∧
        f (.list [.str "a", .list [.int 2, .error "e"]]) (.int 3) =
          some (.list [.str "aaa", .list [.int 6, .error "e"]]) ∧
        f (.list [.list [.str "ab"]]) (.int 4611686018427387904) = none := by
  have known : Operator.mul ∈ broadcasting := by decide
  obtain ⟨f, same, leafwise, gaps⟩ := broadcasts_leafwise known
  refine ⟨known, f, same,
    leafwise.scalar_right (.list [.str "a", .list [.int 2, .error "e"]]) (.int 3) rfl,
    leafwise.filled_right (.list [.str "a", .list [.int 2, .error "e"]]) (.int 3) rfl,
    Eval.ofOption_injective ((same (call 0) _ _).symm.trans rfl), (gaps _ _).2 ?_⟩
  exact ⟨.str "ab", .int 4611686018427387904,
    .listScalar (List.mem_singleton_self _) rfl
      (.listScalar (List.mem_singleton_self _) rfl (.scalars rfl rfl)),
    .repeated (by decide +kernel)⟩

end Operation

end ShellExpr
