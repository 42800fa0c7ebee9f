import ShellExpr.Proofs.Parentheses

/-!
# Runs of arguments

A run of arguments that is read consists of operands and of groups with balanced tokens in them, and
it goes on to a token that can be no argument.
-/

namespace ShellExpr.Reordering

variable {α : Type} [Symbol α]

/-- Tokens that belong to no run of arguments in front of them. -/
def Ends (tokens : List α) : Prop :=
  ∀ token later, tokens = token :: later →
    Symbol.role token ≠ .operand ∧ Symbol.role token ≠ .opening

theorem ends_nil : Ends ([] : List α) := by
  intro token later h
  cases h

theorem ends_cons {token : α} (operand : Symbol.role token ≠ .operand)
    (opening : Symbol.role token ≠ .opening) (later : List α) : Ends (token :: later) := by
  intro first rest h
  cases h
  exact ⟨operand, opening⟩

/-! ### One argument -/

theorem arguments_ends {tokens : List α} (h : Ends tokens)
    (group : List α → Except FatalError (List (Postfix α))) :
    arguments group tokens = .ok ⟨[], 0, tokens⟩ := by
  cases tokens with
  | nil => rw [arguments]
  | cons token later =>
    obtain ⟨operand, opening⟩ := h token later rfl
    rw [arguments]
    cases hr : Symbol.role token with
    | operand => contradiction
    | opening => contradiction
    | operator op => rfl
    | closing => rfl

theorem arguments_cons_operand {token : α} (h : Symbol.role token = .operand)
    (group : List α → Except FatalError (List (Postfix α))) (rest : List α) :
    arguments group (token :: rest) =
      (arguments group rest).map fun more =>
        ⟨.operand token :: more.items, more.arity + 1, more.rest⟩ := by
  rw [arguments, h]
  cases arguments group rest <;> rfl

theorem arguments_operand {token : α} (h : Symbol.role token = .operand)
    {group : List α → Except FatalError (List (Postfix α))} {rest : List α} {more : Arguments α}
    (later : arguments group rest = .ok more) :
    arguments group (token :: rest) = .ok ⟨.operand token :: more.items, more.arity + 1, more.rest⟩ := by
  rw [arguments_cons_operand h, later]
  rfl

theorem arguments_cons_group {left right : α} (opening : Symbol.role left = .opening)
    (closing : Symbol.role right = .closing) {inner : List α} (balanced : Balanced inner)
    (filled : inner ≠ []) {group : List α → Except FatalError (List (Postfix α))}
    {items : List (Postfix α)} (inside : group inner = .ok items) (rest : List α) :
    arguments group (left :: (inner ++ right :: rest)) =
      (arguments group rest).map fun more =>
        ⟨items ++ more.items, more.arity + 1, more.rest⟩ := by
  have split : splitGroup (inner ++ right :: rest) = some (inner, rest) :=
    splitGroup_eq_some_iff.2 ⟨balanced, right, closing, rfl⟩
  have not_empty : ¬inner.isEmpty := by
    rwa [List.isEmpty_iff]
  rw [arguments_opening opening, split]
  dsimp only
  rw [if_neg not_empty, inside]

theorem arguments_group {left right : α} (opening : Symbol.role left = .opening)
    (closing : Symbol.role right = .closing) {inner : List α} (balanced : Balanced inner)
    (filled : inner ≠ []) {group : List α → Except FatalError (List (Postfix α))}
    {items : List (Postfix α)} (inside : group inner = .ok items) {rest : List α}
    {more : Arguments α} (later : arguments group rest = .ok more) :
    arguments group (left :: (inner ++ right :: rest)) =
      .ok ⟨items ++ more.items, more.arity + 1, more.rest⟩ := by
  rw [arguments_cons_group opening closing balanced filled inside, later]
  rfl

/-! ### All of them -/

/-- The arguments that are read from some tokens, one by one. -/
inductive ArgumentsRead (group : List α → Except FatalError (List (Postfix α))) :
    List α → Arguments α → Prop where
  | nothing {tokens : List α} (ends : Ends tokens) : ArgumentsRead group tokens ⟨[], 0, tokens⟩
  | operand {token : α} {rest : List α} {more : Arguments α}
      (role : Symbol.role token = .operand) (later : ArgumentsRead group rest more) :
      ArgumentsRead group (token :: rest)
        ⟨.operand token :: more.items, more.arity + 1, more.rest⟩
  | group {left right : α} {inner rest : List α} {items : List (Postfix α)} {more : Arguments α}
      (opening : Symbol.role left = .opening) (balanced : Balanced inner) (filled : inner ≠ [])
      (closing : Symbol.role right = .closing) (inside : group inner = .ok items)
      (later : ArgumentsRead group rest more) :
      ArgumentsRead group (left :: (inner ++ right :: rest))
        ⟨items ++ more.items, more.arity + 1, more.rest⟩

variable {group : List α → Except FatalError (List (Postfix α))}

theorem argumentsRead_of_arguments {tokens : List α} {args : Arguments α}
    (h : arguments group tokens = .ok args) : ArgumentsRead group tokens args := by
  fun_induction arguments group tokens generalizing args with
  | case1 =>
    cases h
    exact .nothing ends_nil
  | case2 token rest role more found ih =>
    cases h
    exact .operand role (ih found)
  | case3 => contradiction
  | case4 => contradiction
  | case5 => contradiction
  | case6 => contradiction
  | case7 token rest role inner behind split shorter filled items inside more found ih =>
    cases h
    obtain ⟨balanced, close, closing, rfl⟩ := splitGroup_eq_some_iff.1 split
    have some_token : inner ≠ [] := by simpa using filled
    exact .group role balanced some_token closing inside (ih found)
  | case8 => contradiction
  | case9 token rest no_operand no_opening =>
    cases h
    exact .nothing (ends_cons no_operand no_opening rest)

theorem arguments_eq_ok_iff {tokens : List α} {args : Arguments α} :
    arguments group tokens = .ok args ↔ ArgumentsRead group tokens args := by
  constructor
  · exact argumentsRead_of_arguments
  · intro h
    induction h with
    | nothing ends => exact arguments_ends ends group
    | operand role _ ih => exact arguments_operand role ih
    | group opening balanced filled closing inside _ ih =>
      exact arguments_group opening closing balanced filled inside ih

end ShellExpr.Reordering
