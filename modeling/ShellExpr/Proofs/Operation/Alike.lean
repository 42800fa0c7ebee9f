import ShellExpr.Operation.Comparison
import ShellExpr.Proofs.Operation.Results

/-!
# Operators on values that are alike

Operators take values that are alike to results that are alike.  Most of them even have the same
result, a number, a text or a failure; those that build lists and tuples hand their operands on.
-/

namespace ShellExpr

variable {pairs : Nat → Nat → Prop}

/-! ### Failures -/

theorem Failure.unsupported_eq (op : Operator) {v w v' w' : Value} (h : v.Alike pairs w)
    (h' : v'.Alike pairs w') : unsupported op v v' = unsupported op w w' := by
  rw [unsupported, unsupported, h.kind_eq, h'.kind_eq]

namespace Operation

/-- A rule that takes operands that are alike to results that are alike. -/
def Congruent (rule : Value → Value → Value) : Prop :=
  ∀ {pairs : Nat → Nat → Prop} {v w v' w' : Value}, v.Alike pairs w → v'.Alike pairs w' →
    (rule v v').Alike pairs (rule w w')

/-- It is enough that the results are the same and have no parts. -/
theorem congruent_of_flat {rule : Value → Value → Value}
    (same : ∀ {pairs : Nat → Nat → Prop} {v w v' w' : Value}, v.Alike pairs w →
      v'.Alike pairs w' → rule v v' = rule w w')
    (flat : ∀ v v', (rule v v').isFlat = true) : Congruent rule := by
  intro pairs v w v' w' h h'
  rw [same h h']
  exact Value.alike_of_isFlat (flat w w')

/-! ### Arithmetic -/

theorem numbers?_eq {v w v' w' : Value} (h : v.Alike pairs w) (h' : v'.Alike pairs w') :
    numbers? v v' = numbers? w w' := by
  cases h <;> cases h' <;> rfl

theorem congruent_sub : Congruent sub := by
  refine congruent_of_flat ?_ isFlat_sub
  intro pairs v w v' w' h h'
  rw [sub, sub, numbers?_eq h h', Failure.unsupported_eq .sub h h']

theorem congruent_div : Congruent div := by
  refine congruent_of_flat ?_ isFlat_div
  intro pairs v w v' w' h h'
  rw [div, div, numbers?_eq h h', Failure.unsupported_eq .div h h']

theorem congruent_rem : Congruent rem := by
  refine congruent_of_flat ?_ isFlat_rem
  intro pairs v w v' w' h h'
  rw [rem, rem, numbers?_eq h h', Failure.unsupported_eq .rem h h']

theorem congruent_pow : Congruent pow := by
  refine congruent_of_flat ?_ isFlat_pow
  intro pairs v w v' w' h h'
  rw [pow, pow, h.toFloat?_eq, h'.toFloat?_eq, Failure.unsupported_eq .pow h h']

/-- Two tuples are the only operands of the rules that join with functions in the result. -/
theorem congruent_joining {rule : Value → Value → Value}
    (joins : ∀ xs ys, rule (.tuple xs) (.tuple ys) = .tuple (xs.concat ys))
    (same : ∀ {pairs : Nat → Nat → Prop} {v w v' w' : Value}, v.Alike pairs w →
      v'.Alike pairs w' → ¬(v.kind = .tuple ∧ v'.kind = .tuple) → rule v v' = rule w w')
    (flat : ∀ v v', ¬(v.kind = .tuple ∧ v'.kind = .tuple) → (rule v v').isFlat = true) :
    Congruent rule := by
  intro pairs v w v' w' h h'
  by_cases tuples : v.kind = .tuple ∧ v'.kind = .tuple
  · obtain ⟨kind, kind'⟩ := tuples
    cases h <;> cases kind
    cases h' <;> cases kind'
    rename_i xs ys elements xs' ys' elements'
    rw [joins, joins]
    refine .tuple ?_
    rw [Tuple.toList_concat, Tuple.toList_concat]
    exact elements.append elements'
  · rw [← same h h' tuples]
    exact Value.alike_of_isFlat (flat v v' tuples)

theorem congruent_add : Congruent add := by
  refine congruent_joining (fun _ _ => rfl) ?_ fun _ _ => isFlat_add
  intro pairs v w v' w' h h' other
  cases h <;> cases h' <;> first | rfl | exact absurd ⟨rfl, rfl⟩ other

/-! ### Bits and truth -/

theorem congruent_bitAnd : Congruent bitAnd := by
  refine congruent_of_flat ?_ isFlat_bitAnd
  intro pairs v w v' w' h h'
  cases h <;> cases h' <;> rfl

theorem congruent_bitOr : Congruent bitOr := by
  refine congruent_of_flat ?_ isFlat_bitOr
  intro pairs v w v' w' h h'
  cases h <;> cases h' <;> rfl

theorem congruent_shl : Congruent shl := by
  refine congruent_of_flat ?_ isFlat_shl
  intro pairs v w v' w' h h'
  cases h <;> cases h' <;> rfl

theorem congruent_shr : Congruent shr := by
  refine congruent_of_flat ?_ isFlat_shr
  intro pairs v w v' w' h h'
  cases h <;> cases h' <;> rfl

theorem congruent_and : Congruent and := by
  refine congruent_of_flat ?_ isFlat_and
  intro pairs v w v' w' h h'
  rw [and, and, h.isNumeric_eq, h'.isNumeric_eq, h.truthy_eq, h'.truthy_eq,
    Failure.unsupported_eq .and h h']

theorem congruent_or : Congruent or := by
  refine congruent_of_flat ?_ isFlat_or
  intro pairs v w v' w' h h'
  rw [or, or, h.isNumeric_eq, h'.isNumeric_eq, h.truthy_eq, h'.truthy_eq,
    Failure.unsupported_eq .or h h']

/-! ### Lists and tuples -/

theorem congruent_concat : Congruent concat := by
  refine congruent_joining (fun _ _ => rfl) ?_ fun _ _ => isFlat_concat
  intro pairs v w v' w' h h' other
  cases h <;> cases h' <;> first | rfl | exact absurd ⟨rfl, rfl⟩ other

theorem congruent_cons : Congruent cons := by
  intro pairs v w v' w' h h'
  have failed : (Failure.unsupported .cons v v').Alike pairs (Failure.unsupported .cons w w') := by
    rw [Failure.unsupported_eq .cons h h']
    exact .error _
  cases h' with
  | list items => exact .list (.cons h items)
  | _ => exact failed

theorem congruent_zip : Congruent zip := by
  intro pairs v w v' w' h h'
  have single : AlikeItems pairs [v, v'] [w, w'] := .cons h (.cons h' .nil)
  cases h' with
  | tuple elements => exact .tuple (.cons h elements)
  | _ => exact .tuple single

/-! ### Rules that may have no result -/

/-- A rule that takes operands that are alike to results that are alike, or to none on either
side. -/
def CongruentRule (rule : Rule) : Prop :=
  ∀ {pairs : Nat → Nat → Prop} {v w v' w' : Value}, v.Alike pairs w → v'.Alike pairs w' →
    Option.Rel (Value.Alike pairs) (rule v v') (rule w w')

theorem Congruent.total {rule : Value → Value → Value} (h : Congruent rule) :
    CongruentRule (.total rule) :=
  fun first second => .some (h first second)

theorem congruent_mul : CongruentRule mul := by
  intro pairs v w v' w' h h'
  have same : mul v v' = mul w w' := by
    cases h <;> cases h' <;> rfl
  rw [same]
  cases result : mul w w' with
  | none => exact .none
  | some u => exact .some (Value.alike_of_isFlat (isFlat_mul result))

/-! ### Comparison -/

theorem isComparable_eq {v w : Value} (h : v.Alike pairs w) : isComparable v = isComparable w := by
  cases h <;> rfl

theorem comparison_eq (matched : Matched pairs) (op : Operator) {v w v' w' : Value}
    (h : v.Alike pairs w) (h' : v'.Alike pairs w') : comparison op v v' = comparison op w w' := by
  rw [comparison, comparison, isComparable_eq h, isComparable_eq h', h.kind_eq, h'.kind_eq,
    h.isNumeric_eq, h'.isNumeric_eq, h.compare_eq matched h', Failure.unsupported_eq op h h']

theorem isFlat_comparison {op : Operator} {v v' failure : Value}
    (h : comparison op v v' = .ok (.failed failure)) : failure.isFlat = true := by
  unfold comparison at h
  split at h
  · split at h <;> cases h
    rfl
  · cases h
    rfl

theorem compare_eq (matched : Matched pairs) {v w v' w' : Value} (h : v.Alike pairs w)
    (h' : v'.Alike pairs w') : compare v v' = compare w w' := by
  rw [compare, compare, comparison_eq matched .compare h h']

theorem isFlat_compare {v v' result : Value} (h : compare v v' = .ok result) :
    result.isFlat = true := by
  unfold compare at h
  split at h
  · cases h
    rfl
  · rename_i failure found
    cases h
    exact isFlat_comparison found
  · contradiction

theorem relation_eq (matched : Matched pairs) (op : Operator) {v w v' w' : Value}
    (h : v.Alike pairs w) (h' : v'.Alike pairs w') : relation op v v' = relation op w w' := by
  rw [relation, relation, comparison_eq matched op h h']

theorem isFlat_relation {op : Operator} {v v' result : Value}
    (h : relation op v v' = .ok result) : result.isFlat = true := by
  unfold relation at h
  split at h
  · split at h <;> cases h
    rfl
  · rename_i failure found
    cases h
    exact isFlat_comparison found
  · contradiction

end Operation

/-! ### Broadcasting -/

mutual

theorem Value.Alike.mapLeaves {f g : Value → Value}
    (leaf : ∀ {v w : Value}, v.Alike pairs w → (f v).Alike pairs (g w)) {v w : Value} :
    v.Alike pairs w → (ShellExpr.mapLeaves f v).Alike pairs (ShellExpr.mapLeaves g w)
  | .list items => .list (items.mapLeaves leaf)
  | .error message => .error message
  | .int n => leaf (.int n)
  | .real r => leaf (.real r)
  | .str text => leaf (.str text)
  | .tuple elements => leaf (.tuple elements)
  | .func same => leaf (.func same)

theorem AlikeItems.mapLeaves {f g : Value → Value}
    (leaf : ∀ {v w : Value}, v.Alike pairs w → (f v).Alike pairs (g w)) {vs ws : List Value} :
    AlikeItems pairs vs ws → AlikeItems pairs (mapItems f vs) (mapItems g ws)
  | .nil => .nil
  | .cons first rest => .cons (first.mapLeaves leaf) (rest.mapLeaves leaf)

end

theorem alike_list {vs ws : Option (List Value)} (h : Option.Rel (AlikeItems pairs) vs ws) :
    Option.Rel (Value.Alike pairs) (vs.map .list) (ws.map .list) := by
  cases h with
  | none => exact .none
  | some items => exact .some (.list items)

theorem alike_cons {v w : Option Value} {vs ws : Option (List Value)}
    (first : Option.Rel (Value.Alike pairs) v w) (rest : Option.Rel (AlikeItems pairs) vs ws) :
    Option.Rel (AlikeItems pairs) (do pure ((← v) :: (← vs))) (do pure ((← w) :: (← ws))) := by
  cases first with
  | none => exact .none
  | some first =>
    cases rest with
    | none => exact .none
    | some rest => exact .some (.cons first rest)

mutual

theorem Value.Alike.mapLeaves? {f g : Value → Option Value}
    (leaf : ∀ {v w : Value}, v.Alike pairs w → Option.Rel (Value.Alike pairs) (f v) (g w))
    {v w : Value} : v.Alike pairs w →
      Option.Rel (Value.Alike pairs) (ShellExpr.mapLeaves? f v) (ShellExpr.mapLeaves? g w)
  | .list items => alike_list (items.mapLeaves? leaf)
  | .error message => .some (.error message)
  | .int n => leaf (.int n)
  | .real r => leaf (.real r)
  | .str text => leaf (.str text)
  | .tuple elements => leaf (.tuple elements)
  | .func same => leaf (.func same)

theorem AlikeItems.mapLeaves? {f g : Value → Option Value}
    (leaf : ∀ {v w : Value}, v.Alike pairs w → Option.Rel (Value.Alike pairs) (f v) (g w))
    {vs ws : List Value} : AlikeItems pairs vs ws →
      Option.Rel (AlikeItems pairs) (mapItems? f vs) (mapItems? g ws)
  | .nil => .some .nil
  | .cons first rest => alike_cons (first.mapLeaves? leaf) (rest.mapLeaves? leaf)

end

/-- A left operand that is neither a list nor a failure meets a list with each of its items, if it
is a scalar. -/
theorem broadcast?_leaf {left : Value} (not_list : left.kind ≠ .list)
    (not_error : left.kind ≠ .error) (rule : Rule) (right : Value) :
    broadcast? rule left right =
      match right with
      | .error message => some (.error message)
      | .list ys =>
        if left.isScalar then mapLeaves? (fun y => rule left y) (.list ys)
        else rule left (.list ys)
      | right => rule left right := by
  cases left with
  | list items => exact absurd rfl not_list
  | error message => exact absurd rfl not_error
  | _ => rfl

variable {rule : Rule}

theorem alike_broadcast?_leaf (congruent : Operation.CongruentRule rule) {v w v' w' : Value}
    (not_list : v.kind ≠ .list) (not_error : v.kind ≠ .error) (h : v.Alike pairs w)
    (h' : v'.Alike pairs w') :
    Option.Rel (Value.Alike pairs) (broadcast? rule v v') (broadcast? rule w w') := by
  have kind := h.kind_eq
  rw [broadcast?_leaf not_list not_error, broadcast?_leaf (kind ▸ not_list) (kind ▸ not_error),
    h.isScalar_eq]
  have whole := congruent h h'
  cases h' with
  | error message => exact .some (.error message)
  | list items =>
    dsimp only
    split
    · exact Value.Alike.mapLeaves? (congruent h) (.list items)
    · exact whole
  | _ => exact whole

mutual

theorem Value.Alike.broadcast? (congruent : Operation.CongruentRule rule) {v w v' w' : Value} :
    v.Alike pairs w → v'.Alike pairs w' →
      Option.Rel (Value.Alike pairs) (ShellExpr.broadcast? rule v v')
        (ShellExpr.broadcast? rule w w')
  | .error message, _ => .some (.error message)
  | .list items, h' => by
    have each {x y : Value} (scalar : x.Alike pairs y) :=
      Value.Alike.mapLeaves? (fun first => congruent first scalar) (.list items)
    have whole := congruent (.list items) h'
    cases h' with
    | list others =>
      simp only [ShellExpr.broadcast?, items.length_eq, others.length_eq]
      split
      · exact alike_list (items.broadcast? congruent others)
      · exact .some (.error _)
    | error message => exact .some (.error message)
    | int n => exact each (.int n)
    | real r => exact each (.real r)
    | str text => exact each (.str text)
    | _ => exact whole
  | .int n, h' => alike_broadcast?_leaf congruent nofun nofun (.int n) h'
  | .real r, h' => alike_broadcast?_leaf congruent nofun nofun (.real r) h'
  | .str text, h' => alike_broadcast?_leaf congruent nofun nofun (.str text) h'
  | .tuple elements, h' => alike_broadcast?_leaf congruent nofun nofun (.tuple elements) h'
  | .func same, h' => alike_broadcast?_leaf congruent nofun nofun (.func same) h'

theorem AlikeItems.broadcast? (congruent : Operation.CongruentRule rule)
    {vs ws vs' ws' : List Value} : AlikeItems pairs vs ws → AlikeItems pairs vs' ws' →
      Option.Rel (AlikeItems pairs) (broadcastItems? rule vs vs') (broadcastItems? rule ws ws')
  | .nil, _ => .some .nil
  | .cons first rest, h' => by
    cases h' with
    | nil => exact .some .nil
    | cons other others =>
      exact alike_cons (first.broadcast? congruent other) (rest.broadcast? congruent others)

end

end ShellExpr
