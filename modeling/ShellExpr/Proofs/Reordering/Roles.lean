import ShellExpr.Proofs.Parentheses

/-!
# Only the roles of tokens matter

The pass asks tokens for their roles and hands them on.  If other tokens with the same roles stand
in their places, it takes the same steps, ends in the same error or has the other tokens in the
places of the first ones in its items.
-/

namespace ShellExpr

variable {α β : Type} [Symbol α] [Symbol β]

/-- Other tokens with the same roles. -/
def KeepsRoles (f : α → β) : Prop :=
  ∀ token, Symbol.role (f token) = Symbol.role token

/-- The same result over other tokens. -/
def relabel {α β : Type} (f : α → β) (result : Except FatalError (List (Postfix α))) :
    Except FatalError (List (Postfix β)) :=
  result.map fun items => items.map (Postfix.map f)

theorem depthAfter_map {f : α → β} (keeps : KeepsRoles f) (depth : Nat) (tokens : List α) :
    depthAfter depth (tokens.map f) = depthAfter depth tokens := by
  induction tokens generalizing depth with
  | nil => rfl
  | cons token tokens ih =>
    rw [List.map_cons]
    rcases role_cases token with role | role | role
    · rw [depthAfter_opening role, depthAfter_opening ((keeps token).trans role), ih]
    · have closes := (keeps token).trans role
      cases depth with
      | zero => rw [depthAfter_closing_zero role, depthAfter_closing_zero closes]
      | succ depth => rw [depthAfter_closing role, depthAfter_closing closes, ih]
    · rw [depthAfter_other role, depthAfter_other (by rwa [keeps token]), ih]

theorem Balanced.map {f : α → β} (keeps : KeepsRoles f) {tokens : List α} (h : Balanced tokens) :
    Balanced (tokens.map f) :=
  (depthAfter_map keeps 0 tokens).trans h

namespace Reordering

section

variable {α β : Type} (f : α → β)

/-! ### States -/

/-- The same state over other tokens. -/
def map (s : Reordering α) : Reordering β :=
  ⟨s.emitted.map (Postfix.map f), s.pending, s.floors, s.atStart⟩

theorem emit_map (items emitted : List (Postfix α)) :
    emit (items.map (Postfix.map f)) (emitted.map (Postfix.map f)) =
      (emit items emitted).map (Postfix.map f) := by
  simp [emit]

/-- Operators are no tokens, so nothing stands in their places. -/
theorem map_operators (ops : List Operator) :
    (ops.map (Postfix.operator : Operator → Postfix α)).map (Postfix.map f) =
      ops.map .operator := by
  simp [Postfix.map]

theorem pushOperator_map (s : Reordering α) (op : Operator) :
    (s.map f).pushOperator op = (s.pushOperator op).map f := by
  simp only [pushOperator, map, ← emit_map, map_operators]

theorem openGroup_map (s : Reordering α) : (s.map f).openGroup = s.openGroup.map f := rfl

theorem closeGroup_map (s : Reordering α) :
    (s.map f).closeGroup = s.closeGroup.map (map f) := by
  simp only [closeGroup, map]
  split
  · simp only [Except.map, map, ← emit_map, map_operators]
  · rfl

theorem finish_map (s : Reordering α) : (s.map f).finish = relabel f s.finish := by
  simp only [finish, map, output, relabel]
  split
  · simp only [Except.map, List.map_append, List.map_reverse, map_operators]
  · rfl

/-! ### Arguments -/

/-- The same arguments over other tokens. -/
def Arguments.map (args : Arguments α) : Arguments β :=
  ⟨args.items.map (Postfix.map f), args.arity, args.rest.map f⟩

theorem addUnit_map (s : Reordering α) (head : α) (args : Arguments α) :
    (s.map f).addUnit (f head) (args.map f) = (s.addUnit head args).map f := by
  unfold addUnit
  by_cases plain : args.arity = 0
  · rw [if_pos plain, if_pos (show (args.map f).arity = 0 from plain)]
    rfl
  · rw [if_neg plain, if_neg (show ¬(args.map f).arity = 0 from plain)]
    simp only [map, Arguments.map, emit_map, List.map_cons, Postfix.map]
    rfl

end

variable {f : α → β}

theorem splitGroupFrom_map (keeps : KeepsRoles f) (depth : Nat) (read tokens : List α) :
    splitGroupFrom depth (read.map f) (tokens.map f) =
      (splitGroupFrom depth read tokens).map fun (inner, rest) => (inner.map f, rest.map f) := by
  induction tokens generalizing depth read with
  | nil => rfl
  | cons token tokens ih =>
    rw [List.map_cons]
    rcases role_cases token with role | role | role
    · rw [splitGroupFrom_opening role, splitGroupFrom_opening ((keeps token).trans role)]
      exact ih (depth + 1) (token :: read)
    · have closes := (keeps token).trans role
      cases depth with
      | zero =>
        rw [splitGroupFrom_closing_zero role, splitGroupFrom_closing_zero closes]
        simp
      | succ depth =>
        rw [splitGroupFrom_closing role, splitGroupFrom_closing closes]
        exact ih depth (token :: read)
    · rw [splitGroupFrom_other role, splitGroupFrom_other (by rwa [keeps token])]
      exact ih depth (token :: read)

theorem splitGroup_map (keeps : KeepsRoles f) (tokens : List α) :
    splitGroup (tokens.map f) =
      (splitGroup tokens).map fun (inner, rest) => (inner.map f, rest.map f) :=
  splitGroupFrom_map keeps 0 [] tokens

variable {g : List α → Except FatalError (List (Postfix α))}
  {h : List β → Except FatalError (List (Postfix β))}

theorem arguments_map (keeps : KeepsRoles f)
    (same : ∀ inner : List α, h (inner.map f) = relabel f (g inner)) (tokens : List α) :
    arguments h (tokens.map f) = (arguments g tokens).map (Arguments.map f) := by
  fun_induction arguments g tokens with
  | case1 =>
    rw [List.map_nil, arguments]
    rfl
  | case2 token rest role more found ih =>
    rw [List.map_cons, arguments, keeps token, role]
    simp only [ih, found]
    rfl
  | case3 token rest role fatal found ih =>
    rw [List.map_cons, arguments, keeps token, role]
    simp only [ih, found]
    rfl
  | case4 token rest role unclosed =>
    rw [List.map_cons, arguments_opening ((keeps token).trans role), splitGroup_map keeps, unclosed]
    rfl
  | case5 token rest role inner behind split shorter empty =>
    rw [List.map_cons, arguments_opening ((keeps token).trans role), splitGroup_map keeps, split]
    simp [Except.map, empty]
  | case6 token rest role inner behind split shorter filled fatal failed =>
    rw [List.map_cons, arguments_opening ((keeps token).trans role), splitGroup_map keeps, split]
    simp [Except.map, filled, same, failed, relabel]
  | case7 token rest role inner behind split shorter filled items reordered more found ih =>
    rw [List.map_cons, arguments_opening ((keeps token).trans role), splitGroup_map keeps, split]
    simp [Except.map, filled, same, reordered, relabel, ih, found, Arguments.map]
  | case8 token rest role inner behind split shorter filled items reordered fatal failed ih =>
    rw [List.map_cons, arguments_opening ((keeps token).trans role), splitGroup_map keeps, split]
    simp [Except.map, filled, same, reordered, relabel, ih, failed]
  | case9 token rest no_operand no_opening =>
    rw [List.map_cons, arguments, keeps token]
    cases role : Symbol.role token with
    | operand => contradiction
    | opening => contradiction
    | operator op => rfl
    | closing => rfl

/-! ### The pass -/

theorem step_map (keeps : KeepsRoles f)
    (same : ∀ inner : List α, h (inner.map f) = relabel f (g inner)) (s : Reordering α) (token : α)
    (rest : List α) :
    step h (s.map f) (f token) (rest.map f) =
      (step g s token rest).map fun (next, behind) => (next.map f, behind.map f) := by
  unfold step
  rw [keeps token]
  cases Symbol.role token with
  | operator op => simp only [pushOperator_map, Except.map]
  | opening => simp only [openGroup_map, Except.map]
  | closing =>
    simp only [closeGroup_map]
    cases s.closeGroup <;> rfl
  | operand =>
    simp only [arguments_map keeps same]
    cases arguments g rest with
    | error fatal => rfl
    | ok args =>
      show Except.ok ((s.map f).addUnit (f token) (args.map f), args.rest.map f) = _
      rw [addUnit_map]
      rfl

theorem run_map (keeps : KeepsRoles f)
    (same : ∀ inner : List α, h (inner.map f) = relabel f (g inner)) (s : Reordering α)
    (tokens : List α) : run h (s.map f) (tokens.map f) = relabel f (run g s tokens) := by
  induction hn : tokens.length using Nat.strongRecOn generalizing s tokens with
  | _ n ih =>
  subst hn
  cases tokens with
  | nil => rw [List.map_nil, run_nil, run_nil, finish_map]
  | cons token rest =>
    rw [List.map_cons, run_cons, run_cons, step_map keeps same]
    cases found : step g s token rest with
    | error fatal => rfl
    | ok reached =>
      obtain ⟨next, behind⟩ := reached
      exact ih behind.length (Nat.lt_succ_of_le (step_rest_length found)) next behind rfl

end Reordering

theorem reorderWithin_map {f : α → β} (keeps : KeepsRoles f) (limit : Nat) (tokens : List α) :
    reorderWithin limit (tokens.map f) = relabel f (reorderWithin limit tokens) := by
  induction limit generalizing tokens with
  | zero => exact Reordering.run_map keeps (fun _ => rfl) .start tokens
  | succ limit ih => exact Reordering.run_map keeps ih .start tokens

/-- Other tokens with the same roles are reordered in the same way. -/
theorem reorder_map {f : α → β} (keeps : KeepsRoles f) (tokens : List α) :
    reorder (tokens.map f) = relabel f (reorder tokens) := by
  rw [reorder, List.length_map]
  exact reorderWithin_map keeps tokens.length tokens

theorem relabel_relabel {α β γ : Type} (f : β → γ) (g : α → β)
    (result : Except FatalError (List (Postfix α))) :
    relabel f (relabel g result) = relabel (f ∘ g) result := by
  have item (item : Postfix α) : (item.map g).map f = item.map (f ∘ g) := by
    cases item <;> rfl
  cases result with
  | error fatal => rfl
  | ok items => simp [relabel, Except.map, item]

/-- Tokens play the same roles among those with some property. -/
instance {p : α → Prop} : Symbol (Subtype p) where
  role token := Symbol.role token.val

/-- It is enough that the tokens at hand are replaced by tokens with the same roles. -/
theorem reorder_map_of_mem {f : α → β} {tokens : List α}
    (keeps : ∀ token ∈ tokens, Symbol.role (f token) = Symbol.role token) :
    reorder (tokens.map f) = relabel f (reorder tokens) := by
  have back : KeepsRoles (Subtype.val : { token // token ∈ tokens } → α) := fun _ => rfl
  have on : KeepsRoles (f ∘ (Subtype.val : { token // token ∈ tokens } → α)) :=
    fun token => keeps token.val token.property
  calc reorder (tokens.map f)
    _ = reorder (tokens.attach.map (f ∘ Subtype.val)) := by
      rw [← List.map_map, List.attach_map_subtype_val]
    _ = relabel (f ∘ Subtype.val) (reorder tokens.attach) := reorder_map on tokens.attach
    _ = relabel f (relabel Subtype.val (reorder tokens.attach)) := (relabel_relabel f _ _).symm
    _ = relabel f (reorder tokens) := by
      rw [← reorder_map back, List.attach_map_subtype_val]

end ShellExpr
