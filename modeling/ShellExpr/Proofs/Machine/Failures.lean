import ShellExpr.Proofs.Machine.Height
import ShellExpr.Proofs.Value.Mismatch

/-!
# How evaluations fail

`FailsOnly P x` says that every fatal error of `x`, in whatever session it runs, is one of `P`.  The
machine fails over the operands themselves, a name without a value or values that do not go
together, or over their number.

The lemmas about steps are stated for any `P` that holds of what a step may fail over, given the
height of the stack that it finds: a step that finds all operands its item takes does not fail over
their number.
-/

namespace ShellExpr

namespace Eval

variable {α β : Type} {P : FatalError → Prop}

/-- Every fatal error of an evaluation is one of `P`. -/
def FailsOnly (P : FatalError → Prop) (x : Eval α) : Prop :=
  ∀ s fatal after, x.run s = some (.error fatal, after) → P fatal

theorem failsOnly_pure (a : α) : FailsOnly P (pure a : Eval α) := by
  intro s fatal after h
  rw [run_pure] at h
  cases h

theorem failsOnly_fail {fatal : FatalError} (h : P fatal) : FailsOnly P (fail fatal : Eval α) := by
  intro s other after failed
  rw [run_fail] at failed
  cases failed
  exact h

theorem failsOnly_ofExcept {result : Except FatalError α}
    (h : ∀ fatal, result = .error fatal → P fatal) : FailsOnly P (ofExcept result) := by
  cases result with
  | ok a => exact failsOnly_pure a
  | error fatal => exact failsOnly_fail (h fatal rfl)

theorem failsOnly_ofOption (result : Option α) : FailsOnly P (ofOption result) := by
  cases result with
  | none => exact fun _ _ _ => nofun
  | some a => exact failsOnly_pure a

theorem FailsOnly.mono {Q : FatalError → Prop} {x : Eval α} (h : FailsOnly P x)
    (weaker : ∀ fatal, P fatal → Q fatal) : FailsOnly Q x := by
  intro s fatal after failed
  exact weaker fatal (h s fatal after failed)

theorem FailsOnly.bind {x : Eval α} {f : α → Eval β} (hx : FailsOnly P x)
    (hf : ∀ a, FailsOnly P (f a)) : FailsOnly P (x >>= f) := by
  intro s fatal after failed
  rw [run_bind] at failed
  split at failed
  · contradiction
  · rename_i other later found
    cases failed
    exact hx s fatal after found
  · rename_i a middle _
    exact hf a middle fatal after failed

theorem failsOnly_foldlM {f : β → α → Eval β} (h : ∀ b a, FailsOnly P (f b a)) (b : β)
    (as : List α) : FailsOnly P (as.foldlM f b) := by
  induction as generalizing b with
  | nil => exact failsOnly_pure b
  | cons a as ih =>
    rw [List.foldlM_cons]
    exact (h b a).bind ih

end Eval

namespace Machine

open Eval

/-- What follows an evaluation may rely on the values that it yields. -/
theorem failsOnly_bind_of_yields {α β : Type} {P : FatalError → Prop} {Q : α → Prop} {x : Eval α}
    {f : α → Eval β} (hx : FailsOnly P x) (yields : Yields Q x) (hf : ∀ a, Q a → FailsOnly P (f a)) :
    FailsOnly P (x >>= f) := by
  intro s fatal after failed
  rw [run_bind] at failed
  split at failed
  · contradiction
  · rename_i other later found
    cases failed
    exact hx s fatal after found
  · rename_i a middle found
    exact hf a ((yields s _ middle found).2 a rfl) middle fatal after failed

/-! ### Fatal errors of the machine -/

/-- The fatal errors over operands: what they name, and what kinds they are. -/
inductive OverOperands : FatalError → Prop where
  | unknownVariable (name : String) : OverOperands (.unknownVariable name)
  | notAssignable : OverOperands (.notAssignable .assign)
  | typeMismatch (expected found : Kind) : OverOperands (.typeMismatch expected found)
  | notAnOperand (text : String) : OverOperands (.grammar (.notAnOperand text))

/-- The fatal errors over the number of operands. -/
inductive OverNumber : FatalError → Prop where
  | stackUnderflow (operator : String) : OverNumber (.stackUnderflow operator)
  | emptyExpression : OverNumber .emptyExpression
  | leftovers (count : Nat) : OverNumber (.grammar (.leftovers count))

/-- The fatal errors of running a postfix expression. -/
def OfExecution (fatal : FatalError) : Prop :=
  OverOperands fatal ∨ OverNumber fatal

/-- The fatal errors over the values of operands: over a name that has none, over a value in the
place of a name, and over values that do not compare. -/
inductive OverValues : FatalError → Prop where
  | unknownVariable (name : String) : OverValues (.unknownVariable name)
  | notAssignable : OverValues (.notAssignable .assign)
  | typeMismatch (expected found : Kind) : OverValues (.typeMismatch expected found)

theorem OverValues.overOperands {fatal : FatalError} (h : OverValues fatal) :
    OverOperands fatal := by
  cases h with
  | unknownVariable name => exact .unknownVariable name
  | notAssignable => exact .notAssignable
  | typeMismatch expected found => exact .typeMismatch expected found

theorem overValues_of_isMismatch {fatal : FatalError} (h : IsMismatch fatal) :
    OverValues fatal := by
  obtain ⟨expected, found, rfl⟩ := h
  exact .typeMismatch expected found

/-! ### Operands and values -/

/-- The atoms that stand for no operand. -/
inductive Structural : Atom → Prop where
  | operator (op : Operator) : Structural (.operator op)
  | opening : Structural .opening
  | closing : Structural .closing
  | blank : Structural .blank

/-- The atom that an item has for an operand or for its head. -/
inductive Names : Postfix Atom → Atom → Prop where
  | operand (atom : Atom) : Names (.operand atom) atom
  | head (atom : Atom) (arity : Nat) : Names (.apply atom arity) atom

theorem ofAtom_error {atom : Atom} {fatal : FatalError} (h : Operand.ofAtom atom = .error fatal) :
    Structural atom ∧ fatal = .grammar (.notAnOperand atom.text) := by
  cases atom with
  | operator op =>
    cases h
    exact ⟨.operator op, rfl⟩
  | opening =>
    cases h
    exact ⟨.opening, rfl⟩
  | closing =>
    cases h
    exact ⟨.closing, rfl⟩
  | blank =>
    cases h
    exact ⟨.blank, rfl⟩
  | _ => cases h

theorem failsOnly_resolve (operand : Operand) : FailsOnly OverValues (resolve operand) := by
  cases operand with
  | value v => exact failsOnly_pure v
  | reference name =>
    intro s fatal after h
    change resolveName name s = _ at h
    unfold resolveName at h
    split at h
    · cases h
    split at h
    · cases h
    · cases h
      exact .unknownVariable name

theorem failsOnly_abstraction (P : FatalError → Prop) (parameter body : Value) :
    FailsOnly P (abstraction parameter body) := by
  intro s fatal after h
  change abstraction parameter body s = _ at h
  unfold abstraction at h
  split at h <;> cases h

theorem failsOnly_apply (P : FatalError → Prop) (call : Call) (head argument : Value) :
    FailsOnly P (apply call head argument) := by
  intro s fatal after h
  change apply call head argument s = _ at h
  unfold apply at h
  split at h
  · split at h <;> cases h
  · cases h
  · cases h

theorem failsOnly_assign (P : FatalError → Prop) (name : String) (v : Value) :
    FailsOnly P (assign name v) := by
  intro s fatal after h
  cases h

theorem failsOnly_compare (left right : Value) :
    FailsOnly OverValues (Eval.ofExcept (Operation.compare left right)) :=
  failsOnly_ofExcept fun _ h => overValues_of_isMismatch (Operation.compare_isMismatch h)

theorem failsOnly_relation {op : Operator} (relational : ∀ order, Operation.holds? op order ≠ none)
    (left right : Value) :
    FailsOnly OverValues (Eval.ofExcept (Operation.relation op left right)) :=
  failsOnly_ofExcept fun _ h =>
    overValues_of_isMismatch (Operation.relation_isMismatch relational h)

/-- Between two values only comparing can fail fatally. -/
theorem failsOnly_binary (call : Call) {op : Operator} (no_assign : op ≠ .assign)
    (no_abstract : op ≠ .abstract) (left right : Value) :
    FailsOnly OverValues (binary call op left right) := by
  cases op with
  | assign => contradiction
  | abstract => contradiction
  | apply => exact failsOnly_apply _ call left right
  | compare => exact failsOnly_compare left right
  | less | greater | equal | notEqual | lessEqual | greaterEqual =>
    refine failsOnly_relation ?_ left right
    intro order unanswered
    contradiction
  | cons | zip | sequence => exact failsOnly_pure _
  | _ => exact failsOnly_ofOption _

/-! ### Steps -/

section

variable {P : FatalError → Prop} {stack : Stack}

theorem failsOnly_pop {needed : String} (lacking : stack = [] → P (.stackUnderflow needed)) :
    FailsOnly P (pop needed stack) := by
  cases stack with
  | nil => exact failsOnly_fail (lacking rfl)
  | cons operand below => exact failsOnly_pure _

variable (values : ∀ fatal, OverValues fatal → P fatal)

include values

theorem failsOnly_popValue {needed : String}
    (lacking : stack = [] → P (.stackUnderflow needed)) :
    FailsOnly P (popValue needed stack) := by
  refine (failsOnly_pop lacking).bind ?_
  rintro ⟨operand, below⟩
  refine ((failsOnly_resolve operand).mono values).bind ?_
  intro v
  exact failsOnly_pure _

theorem failsOnly_popArguments {needed : String} {arity : Nat}
    (lacking : stack.length < arity → P (.stackUnderflow needed)) (taken : List Value) :
    FailsOnly P (popArguments needed arity taken stack) := by
  induction arity generalizing taken stack with
  | zero => exact failsOnly_pure _
  | succ arity ih =>
    have first : stack = [] → P (.stackUnderflow needed) := by
      rintro rfl
      exact lacking (Nat.succ_pos arity)
    refine failsOnly_bind_of_yields (failsOnly_popValue values first)
      (yields_popValue needed stack) ?_
    rintro ⟨v, below⟩ length
    simp only at length
    exact ih (fun short => lacking (by omega)) (v :: taken)

theorem failsOnly_operator (call : Call) {op : Operator}
    (lacking : stack.length < 2 → P (.stackUnderflow op.symbol)) :
    FailsOnly P (operator call op stack) := by
  have first : stack = [] → P (.stackUnderflow op.symbol) := by
    rintro rfl
    exact lacking Nat.two_pos
  have second {below : Stack} (length : stack.length = below.length + 1) :
      below = [] → P (.stackUnderflow op.symbol) := by
    rintro rfl
    exact lacking (by simp [length])
  unfold operator
  split
  · refine failsOnly_bind_of_yields (failsOnly_popValue values first) (yields_popValue _ stack) ?_
    rintro ⟨v, below⟩ length
    refine (failsOnly_pop (second length)).bind ?_
    rintro ⟨target, rest⟩
    cases target with
    | reference name =>
      refine (failsOnly_assign _ name v).bind ?_
      intro _
      exact failsOnly_pure _
    | value other => exact failsOnly_fail (values _ .notAssignable)
  · refine failsOnly_bind_of_yields (failsOnly_popValue values first) (yields_popValue _ stack) ?_
    rintro ⟨body, below⟩ length
    refine (failsOnly_pop (second length)).bind ?_
    rintro ⟨target, rest⟩
    refine (failsOnly_abstraction _ _ body).bind ?_
    intro f
    exact failsOnly_pure _
  · refine failsOnly_bind_of_yields (failsOnly_pop first) (yields_pop _ stack) ?_
    rintro ⟨right, below⟩ length
    refine (failsOnly_pop (second length)).bind ?_
    rintro ⟨left, rest⟩
    exact failsOnly_pure _
  · rename_i no_assign no_abstract _
    refine failsOnly_bind_of_yields (failsOnly_popValue values first) (yields_popValue _ stack) ?_
    rintro ⟨right, below⟩ length
    refine (failsOnly_popValue values (second length)).bind ?_
    rintro ⟨left, rest⟩
    refine ((failsOnly_binary call no_assign no_abstract left right).mono values).bind ?_
    intro v
    exact failsOnly_pure _

theorem failsOnly_application (call : Call) {head : Atom} {arity : Nat}
    (lacking : stack.length < arity → P (.stackUnderflow head.text))
    (structural : Structural head → P (.grammar (.notAnOperand head.text))) :
    FailsOnly P (application call head arity stack) := by
  refine (failsOnly_popArguments values lacking []).bind ?_
  rintro ⟨arguments, rest⟩
  refine (failsOnly_ofExcept ?_).bind ?_
  · intro fatal failed
    obtain ⟨no_operand, rfl⟩ := ofAtom_error failed
    exact structural no_operand
  · intro operand
    refine ((failsOnly_resolve operand).mono values).bind ?_
    intro f
    refine (failsOnly_foldlM (failsOnly_apply _ call) f arguments).bind ?_
    intro v
    exact failsOnly_pure _

theorem failsOnly_step (call : Call) {item : Postfix Atom}
    (lacking : stack.length < item.taken → ∀ needed, P (.stackUnderflow needed))
    (structural : ∀ atom, Names item atom → Structural atom →
      P (.grammar (.notAnOperand atom.text))) :
    FailsOnly P (step call stack item) := by
  cases item with
  | operand atom =>
    refine (failsOnly_ofExcept ?_).bind ?_
    · intro fatal failed
      obtain ⟨no_operand, rfl⟩ := ofAtom_error failed
      exact structural atom (.operand atom) no_operand
    · intro operand
      exact failsOnly_pure _
  | operator op => exact failsOnly_operator values call fun short => lacking short _
  | apply head arity =>
    exact failsOnly_application values call (fun short => lacking short _)
      (structural head (.head head arity))

end

/-! ### Whole expressions -/

theorem overValues_ofExecution (fatal : FatalError) (h : OverValues fatal) : OfExecution fatal :=
  .inl h.overOperands

theorem failsOnly_finish (stack : Stack) : FailsOnly OfExecution (finish stack) := by
  unfold finish
  split
  · exact failsOnly_fail (.inr .emptyExpression)
  · exact (failsOnly_resolve _).mono overValues_ofExecution
  · exact failsOnly_fail (.inr (.leftovers _))

theorem failsOnly_execute (call : Call) (items : List (Postfix Atom)) :
    FailsOnly OfExecution (execute call items) := by
  rw [execute_eq]
  refine (failsOnly_foldlM ?_ [] items).bind failsOnly_finish
  intro stack item
  exact failsOnly_step overValues_ofExecution call
    (fun _ needed => .inr (.stackUnderflow needed)) fun atom _ _ => .inl (.notAnOperand _)

end Machine

end ShellExpr
