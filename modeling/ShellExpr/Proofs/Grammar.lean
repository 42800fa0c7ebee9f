import ShellExpr.Proofs.Tree

/-!
# The grammar of infix expressions

A program is a run of statements parted by `;`.  A statement is a run of units parted by other
operators.  A unit is an operand, a program in parentheses, or an operand with arguments behind
it, and an argument is an operand or a program in parentheses.

`Derives` says which tokens form which phrase, and gives every phrase its tree.  Statements fold to
the left under `;`.  A statement that opens with an application folds strictly to the left as well;
every other statement is read by precedence climbing (`climb`).
-/

namespace ShellExpr

/-- Whether a waiting operator takes an arriving one into its right operand. -/
def Operator.takes (waiting incoming : Operator) : Bool :=
  match incoming.associativity with
  | .left => waiting.waitingPrecedence < incoming.precedence
  | .right => waiting.waitingPrecedence ≤ incoming.precedence

namespace Operator

theorem appliesBefore_eq_not_takes (waiting incoming : Operator) :
    waiting.appliesBefore incoming = !waiting.takes incoming := by
  unfold appliesBefore takes
  cases incoming.associativity with
  | left => simp [← decide_not]
  | right => simp [← decide_not]

end Operator

variable {α : Type}

/-! ### Statements -/

/-- Operators with their right operands, as they stand behind the first unit of a statement. -/
abbrev Chain (α : Type) : Type :=
  List (Operator × Tree α)

/-- Whether an operator is taken by the one that waits, if any.  With none waiting, all are. -/
def takenBy (waiting : Option Operator) (incoming : Operator) : Bool :=
  match waiting with
  | none => true
  | some op => op.takes incoming

/-- Precedence climbing, together with the fact that no operations are added. -/
def climbWithin (waiting : Option Operator) (left : Tree α) (chain : Chain α) :
    Tree α × { rest : Chain α // rest.length ≤ chain.length } :=
  match chain with
  | [] => (left, ⟨[], Nat.le_refl _⟩)
  | (op, unit) :: later =>
    if takenBy waiting op then
      let (right, ⟨behind, shorter⟩) := climbWithin (some op) unit later
      let (tree, ⟨rest, shortest⟩) := climbWithin waiting (.node op left right) behind
      (tree, ⟨rest, by simp only [List.length_cons]; omega⟩)
    else (left, ⟨(op, unit) :: later, Nat.le_refl _⟩)
termination_by chain.length

/-- Precedence climbing: with `left` read behind the operator `waiting`, the tree that this operator
gets for its right operand, and the part of the chain that is left. -/
def climb (waiting : Option Operator) (left : Tree α) (chain : Chain α) : Tree α × Chain α :=
  ((climbWithin waiting left chain).1, (climbWithin waiting left chain).2.val)

/-- Strictly from left to right. -/
def chained (first : Tree α) (chain : Chain α) : Tree α :=
  chain.foldl (fun left operation => .node operation.1 left operation.2) first

/-- The tree of a statement by its first unit, which may be an application, and the chain behind
it. -/
def statementTree (applied : Bool) (first : Tree α) (chain : Chain α) : Tree α :=
  if applied then chained first chain else (climb none first chain).1

/-! ### Climbing step by step -/

theorem climb_nil (waiting : Option Operator) (left : Tree α) :
    climb waiting left [] = (left, []) := by
  rw [climb, climbWithin]

theorem climb_cons_taken {waiting : Option Operator} {op : Operator}
    (h : takenBy waiting op = true) (left unit : Tree α) (later : Chain α) :
    climb waiting left ((op, unit) :: later) =
      climb waiting (.node op left (climb (some op) unit later).1)
        (climb (some op) unit later).2 := by
  rw [climb, climbWithin, if_pos h]
  rfl

theorem climb_cons_not_taken {waiting : Option Operator} {op : Operator}
    (h : takenBy waiting op = false) (left unit : Tree α) (later : Chain α) :
    climb waiting left ((op, unit) :: later) = (left, (op, unit) :: later) := by
  rw [climb, climbWithin, if_neg (by simp [h])]

theorem length_climb_le (waiting : Option Operator) (left : Tree α) (chain : Chain α) :
    (climb waiting left chain).2.length ≤ chain.length :=
  (climbWithin waiting left chain).2.property

/-- Induction along the calls of `climb`. -/
theorem climb_induction {motive : Option Operator → Tree α → Chain α → Prop}
    (nil : ∀ waiting left, motive waiting left [])
    (stop : ∀ waiting left op unit later, takenBy waiting op = false →
      motive waiting left ((op, unit) :: later))
    (take : ∀ waiting left op unit later, takenBy waiting op = true →
      motive (some op) unit later →
      motive waiting (.node op left (climb (some op) unit later).1)
        (climb (some op) unit later).2 →
      motive waiting left ((op, unit) :: later))
    (waiting : Option Operator) (left : Tree α) (chain : Chain α) :
    motive waiting left chain := by
  induction hn : chain.length using Nat.strongRecOn generalizing waiting left chain with
  | _ n ih =>
  subst hn
  cases chain with
  | nil => exact nil waiting left
  | cons operation later =>
    obtain ⟨op, unit⟩ := operation
    cases h : takenBy waiting op with
    | false => exact stop waiting left op unit later h
    | true =>
      have shorter := length_climb_le (some op) unit later
      apply take waiting left op unit later h
      · exact ih later.length (by simp) (some op) unit later rfl
      · exact ih _ (by simp only [List.length_cons]; omega) waiting _ _ rfl

/-- What climbing leaves is the end of the chain. -/
theorem climb_rest_suffix (waiting : Option Operator) (left : Tree α) (chain : Chain α) :
    (climb waiting left chain).2 <:+ chain := by
  induction waiting, left, chain using climb_induction with
  | nil waiting left => simp only [climb_nil, List.suffix_refl]
  | stop waiting left op unit later h => simp only [climb_cons_not_taken h, List.suffix_refl]
  | take waiting left op unit later h inner outer =>
    rw [climb_cons_taken h]
    exact (outer.trans inner).trans (List.suffix_cons _ later)

/-- With no operator waiting, climbing takes the whole chain. -/
theorem climb_none_rest (left : Tree α) (chain : Chain α) : (climb none left chain).2 = [] := by
  induction hn : chain.length using Nat.strongRecOn generalizing left chain with
  | _ n ih =>
  subst hn
  cases chain with
  | nil => rw [climb_nil]
  | cons operation later =>
    obtain ⟨op, unit⟩ := operation
    have shorter := length_climb_le (some op) unit later
    rw [climb_cons_taken rfl]
    exact ih _ (by simp only [List.length_cons]; omega) _ _ rfl

/-- What climbing leaves starts with an operator that the waiting one does not take. -/
theorem climb_rest_not_taken {waiting : Option Operator} {left : Tree α} {chain : Chain α}
    {op : Operator} {unit : Tree α} {later : Chain α}
    (h : (climb waiting left chain).2 = (op, unit) :: later) : takenBy waiting op = false := by
  induction waiting, left, chain using climb_induction with
  | nil waiting left =>
    rw [climb_nil] at h
    contradiction
  | stop waiting left first operand others not_taken =>
    rw [climb_cons_not_taken not_taken] at h
    cases h
    exact not_taken
  | take waiting left first operand others taken inner outer =>
    rw [climb_cons_taken taken] at h
    exact outer h

/-! ### Phrases -/

/-- The phrases of the grammar with the trees of their parts. -/
inductive Phrase (α : Type) where
  /-- An operand or a program in parentheses. -/
  | argument (tree : Tree α)
  /-- One argument or more. -/
  | arguments (first : Tree α) (more : List (Tree α))
  /-- An argument by itself, or an application. -/
  | unit (applied : Bool) (tree : Tree α)
  /-- Operators other than `;`, each with a unit behind it. -/
  | operations (chain : Chain α)
  | statement (tree : Tree α)
  | program (tree : Tree α)

variable [Symbol α]

/-- The tokens of a phrase. -/
inductive Derives : Phrase α → List α → Prop where
  | operand {token : α} (role : Symbol.role token = .operand) :
      Derives (.argument (.leaf token)) [token]
  | group {left right : α} {tokens : List α} {tree : Tree α}
      (opening : Symbol.role left = .opening) (inside : Derives (.program tree) tokens)
      (closing : Symbol.role right = .closing) :
      Derives (.argument tree) (left :: tokens ++ [right])
  | lastArgument {tokens : List α} {tree : Tree α} (argument : Derives (.argument tree) tokens) :
      Derives (.arguments tree []) tokens
  | moreArguments {tokens later : List α} {tree first : Tree α} {more : List (Tree α)}
      (argument : Derives (.argument tree) tokens)
      (arguments : Derives (.arguments first more) later) :
      Derives (.arguments tree (first :: more)) (tokens ++ later)
  | plain {tokens : List α} {tree : Tree α} (argument : Derives (.argument tree) tokens) :
      Derives (.unit false tree) tokens
  | application {head : α} {tokens : List α} {first : Tree α} {more : List (Tree α)}
      (role : Symbol.role head = .operand) (arguments : Derives (.arguments first more) tokens) :
      Derives (.unit true (.application head first more)) (head :: tokens)
  | noOperations : Derives (.operations []) []
  | operation {symbol : α} {op : Operator} {applied : Bool} {tree : Tree α} {tokens later : List α}
      {chain : Chain α} (role : Symbol.role symbol = .operator op) (other : op ≠ .sequence)
      (unit : Derives (.unit applied tree) tokens)
      (operations : Derives (.operations chain) later) :
      Derives (.operations ((op, tree) :: chain)) (symbol :: tokens ++ later)
  | statement {applied : Bool} {first : Tree α} {chain : Chain α} {tokens later : List α}
      (unit : Derives (.unit applied first) tokens)
      (operations : Derives (.operations chain) later) :
      Derives (.statement (statementTree applied first chain)) (tokens ++ later)
  | single {tokens : List α} {tree : Tree α} (statement : Derives (.statement tree) tokens) :
      Derives (.program tree) tokens
  | sequence {symbol : α} {tokens later : List α} {tree last : Tree α}
      (program : Derives (.program tree) tokens)
      (role : Symbol.role symbol = .operator .sequence)
      (statement : Derives (.statement last) later) :
      Derives (.program (.node .sequence tree last)) (tokens ++ symbol :: later)

end ShellExpr
