import ShellExpr.Proofs.Reordering.Applications
import ShellExpr.Proofs.Reordering.Roles
import ShellExpr.Proofs.Reordering.Tokens

/-!
# Every token once

The items of an expression are its tokens without the parentheses, each of them once.  A token may
stand in an expression several times, so this is said of tokens with their positions, too:
reordering does not look at the positions, and no two tokens have the same one.
-/

namespace ShellExpr

/-- A token plays the same role at every position. -/
instance {α : Type} [Symbol α] : Symbol (α × Nat) where
  role token := Symbol.role token.1

variable {α β : Type} [Symbol α] [Symbol β]

/-! ### Arguments among other tokens -/

theorem ArgumentRun.map {f : α → β} (keeps : KeepsRoles f) {arity : Nat} {tokens : List α}
    (h : ArgumentRun arity tokens) : ArgumentRun arity (tokens.map f) := by
  induction h with
  | nil => exact .nil
  | operand role _ ih => exact .operand ((keeps _).trans role) ih
  | group opening balanced filled closing _ ih =>
    rw [List.map_cons, List.map_append, List.map_cons]
    exact .group ((keeps _).trans opening) (balanced.map keeps) (by simpa using filled)
      ((keeps _).trans closing) ih

theorem EndsArguments.map {f : α → β} (keeps : KeepsRoles f) {tokens : List α}
    (h : EndsArguments tokens) : EndsArguments (tokens.map f) := by
  cases tokens with
  | nil => exact nofun
  | cons token rest =>
    rintro _ ⟨⟩
    rw [keeps token]
    exact h token rfl

/-! ### Positions -/

omit [Symbol α] in
/-- A token with its position stands at this position. -/
theorem drop_of_zipIdx {tokens : List α} {before after : List (α × Nat)} {token : α}
    {position : Nat} (h : tokens.zipIdx = before ++ (token, position) :: after) :
    tokens.drop position = token :: after.map Prod.fst := by
  have whole : tokens = before.map Prod.fst ++ token :: after.map Prod.fst := by
    rw [← List.zipIdx_map_fst 0 tokens, h]
    simp
  have at_position : tokens.zipIdx[before.length]? = some (token, position) := by
    simp [h]
  rw [List.getElem?_zipIdx, Option.map_eq_some_iff] at at_position
  obtain ⟨_, _, same⟩ := at_position
  have length : position = (before.map Prod.fst).length := by
    simpa using (Prod.ext_iff.1 same).2.symm
  rw [length]
  conv_lhs => rw [whole]
  exact List.drop_left

/-- An application stands where its position says, if tokens have positions. -/
theorem Applies.at_position {tokens : List α} {head : α} {position arity : Nat}
    (h : Applies tokens.zipIdx (head, position) arity) :
    0 < arity ∧ ∃ arguments rest, tokens.drop position = head :: (arguments ++ rest) ∧
      ArgumentRun arity arguments ∧ EndsArguments rest := by
  obtain ⟨before, arguments, rest, whole, run, filled, ends⟩ := h
  have keeps : KeepsRoles (Prod.fst : α × Nat → α) := fun _ => rfl
  refine ⟨filled, arguments.map Prod.fst, rest.map Prod.fst, ?_, run.map keeps, ends.map keeps⟩
  rw [drop_of_zipIdx whole, List.map_append]

/-- The items of tokens come from items of the tokens with their positions. -/
theorem exists_placed {tokens : List α} {items : List (Postfix α)}
    (h : reorder tokens = .ok items) :
    ∃ placed : List (Postfix (α × Nat)),
      reorder tokens.zipIdx = .ok placed ∧ placed.map (Postfix.map Prod.fst) = items := by
  have keeps : KeepsRoles (Prod.fst : α × Nat → α) := fun _ => rfl
  have same := reorder_map keeps tokens.zipIdx
  rw [List.zipIdx_map_fst, h, relabel] at same
  cases placed : reorder tokens.zipIdx with
  | error fatal =>
    rw [placed] at same
    contradiction
  | ok placed' =>
    rw [placed] at same
    exact ⟨placed', rfl, (Except.ok.inj same).symm⟩

theorem units_perm {tokens : List α} {items : List (Postfix α)} (h : reorder tokens = .ok items) :
    (items.map Postfix.unit).Perm (tokens.filterMap tokenItem?) :=
  Multiset.coe_eq_coe.1 (units_reorder h)

/-- Of all tokens that the pass accepts, grammatical or not, the items are the tokens without the
parentheses in another order.  Every application has an argument, and its head stands among the
tokens with exactly as many arguments behind it.  The items and the heads can be told apart by
positions at which each of them stands, and every position is used once. -/
theorem reorder_conserves {tokens : List α} {items : List (Postfix α)}
    (h : reorder tokens = .ok items) :
    (items.map Postfix.unit).Perm (tokens.filterMap tokenItem?) ∧
      (∀ head arity, .apply head arity ∈ items → 0 < arity) ∧
      ∃ placed : List (Postfix (α × Nat)),
        placed.map (Postfix.map Prod.fst) = items ∧
        (placed.map Postfix.unit).Perm (tokens.zipIdx.filterMap tokenItem?) ∧
        ∀ head position arity, .apply (head, position) arity ∈ placed →
          ∃ arguments rest, tokens.drop position = head :: (arguments ++ rest) ∧
            ArgumentRun arity arguments ∧ EndsArguments rest := by
  obtain ⟨placed, accepted, same⟩ := exists_placed h
  refine ⟨units_perm h, ?_, placed, same, units_perm accepted, ?_⟩
  · intro head arity member
    obtain ⟨_, _, _, _, _, filled, _⟩ := applicationsIn_reorder h head arity member
    exact filled
  · intro head position arity member
    exact (applicationsIn_reorder accepted _ arity member).at_position.2

/-- The same head twice with different arguments, in tokens that the grammar does not derive. -/
theorem reorder_conserves_repeated :
    reorder ["(", "f", "1", ")", "f", "1", "(", "2", ")"] =
        .ok [.operand "1", .apply "f" 1, .operand "1", .operand "2", .apply "f" 2] ∧
      [Postfix.operand "1", .operand "f", .operand "1", .operand "2", .operand "f"].Perm
        [.operand "f", .operand "1", .operand "f", .operand "1", .operand "2"] ∧
      ∃ placed : List (Postfix (String × Nat)),
        placed.map (Postfix.map Prod.fst) =
          [.operand "1", .apply "f" 1, .operand "1", .operand "2", .apply "f" 2] ∧
        ∀ position arity, .apply ("f", position) arity ∈ placed →
          ∃ arguments rest,
            ["(", "f", "1", ")", "f", "1", "(", "2", ")"].drop position =
              "f" :: (arguments ++ rest) ∧
            ArgumentRun arity arguments ∧ EndsArguments rest := by
  have accepted : reorder ["(", "f", "1", ")", "f", "1", "(", "2", ")"] =
      .ok [.operand "1", .apply "f" 1, .operand "1", .operand "2", .apply "f" 2] := by
    decide +kernel
  obtain ⟨tokens, _, placed, same, _, heads⟩ := reorder_conserves accepted
  exact ⟨accepted, tokens, placed, same, heads "f"⟩

end ShellExpr
