import ShellExpr.Proofs.Height
import ShellExpr.Proofs.Machine.Bindings

/-!
# Stack heights of the machine

A step that does not fail finds the operands that its item takes and leaves one operand in their
place.  So an expression that has a value never lacks an operand and comes to a single one.
-/

namespace ShellExpr.Machine

open Eval

/-- Every value that `x` yields satisfies `P`. -/
abbrev Yields {α : Type} (P : α → Prop) (x : Eval α) : Prop :=
  Moves (fun _ _ => True) P x

section

variable {α β : Type} {P : α → Prop} {Q : β → Prop}

theorem yields_pure {a : α} (h : P a) : Yields P (pure a) :=
  moves_pure (fun _ => trivial) h

theorem yields_fail (fatal : FatalError) : Yields P (fail fatal) :=
  moves_fail (fun _ => trivial) fatal

theorem yields_bind {x : Eval α} {f : α → Eval β} (hx : Yields P x)
    (hf : ∀ a, P a → Yields Q (f a)) : Yields Q (x >>= f) :=
  Moves.bind (fun _ _ _ _ _ => trivial) hx hf

theorem yields_mono {P' : α → Prop} {x : Eval α} (h : Yields P x) (weaker : ∀ a, P a → P' a) :
    Yields P' x := by
  intro s outcome after ran
  exact ⟨trivial, fun a same => weaker a ((h s outcome after ran).2 a same)⟩

theorem yields_any (x : Eval α) : Yields (fun _ => True) x := by
  intro s outcome after _
  exact ⟨trivial, fun _ _ => trivial⟩

end

/-! ### Operands off the stack -/

theorem yields_pop (needed : String) (stack : Stack) :
    Yields (fun popped => stack.length = popped.2.length + 1) (pop needed stack) := by
  cases stack with
  | nil => exact yields_fail _
  | cons operand below => exact yields_pure rfl

theorem yields_popValue (needed : String) (stack : Stack) :
    Yields (fun popped => stack.length = popped.2.length + 1) (popValue needed stack) := by
  refine yields_bind (yields_pop needed stack) ?_
  rintro ⟨operand, below⟩ length
  refine yields_bind (yields_any (resolve operand)) ?_
  intro v _
  exact yields_pure length

theorem yields_popArguments (needed : String) (arity : Nat) (taken : List Value)
    (stack : Stack) :
    Yields (fun popped => stack.length = popped.2.length + arity)
      (popArguments needed arity taken stack) := by
  induction arity generalizing taken stack with
  | zero => exact yields_pure rfl
  | succ arity ih =>
    refine yields_bind (yields_popValue needed stack) ?_
    rintro ⟨v, below⟩ length
    refine yields_mono (ih (v :: taken) below) ?_
    intro popped later
    simp only at length
    omega

/-! ### Steps -/

/-- The stack behind a step that takes `taken` operands. -/
def Lowers (taken : Nat) (stack next : Stack) : Prop :=
  taken ≤ stack.length ∧ next.length = stack.length - taken + 1

theorem lowers_cons {taken : Nat} {stack below : Stack} (operand : Operand)
    (h : stack.length = below.length + taken) : Lowers taken stack (operand :: below) := by
  refine ⟨by omega, ?_⟩
  rw [List.length_cons]
  omega

theorem yields_operator (call : Call) (op : Operator) (stack : Stack) :
    Yields (Lowers 2 stack) (operator call op stack) := by
  have pushed {first second : Stack} (operand : Operand)
      (h : stack.length = first.length + 1) (h' : first.length = second.length + 1) :
      Yields (Lowers 2 stack) (pure (operand :: second)) :=
    yields_pure (lowers_cons operand (by omega))
  unfold operator
  split
  · refine yields_bind (yields_popValue _ stack) ?_
    rintro ⟨v, below⟩ length
    refine yields_bind (yields_pop _ below) ?_
    rintro ⟨target, rest⟩ length'
    cases target with
    | reference name =>
      refine yields_bind (yields_any (assign name v)) ?_
      intro _ _
      exact pushed _ length length'
    | value other => exact yields_fail _
  · refine yields_bind (yields_popValue _ stack) ?_
    rintro ⟨body, below⟩ length
    refine yields_bind (yields_pop _ below) ?_
    rintro ⟨target, rest⟩ length'
    refine yields_bind (yields_any (abstraction _ body)) ?_
    intro f _
    exact pushed _ length length'
  · refine yields_bind (yields_pop _ stack) ?_
    rintro ⟨right, below⟩ length
    refine yields_bind (yields_pop _ below) ?_
    rintro ⟨left, rest⟩ length'
    exact pushed _ length length'
  · refine yields_bind (yields_popValue _ stack) ?_
    rintro ⟨right, below⟩ length
    refine yields_bind (yields_popValue _ below) ?_
    rintro ⟨left, rest⟩ length'
    refine yields_bind (yields_any (binary call op left right)) ?_
    intro v _
    exact pushed _ length length'

theorem yields_application (call : Call) (head : Atom) (arity : Nat) (stack : Stack) :
    Yields (Lowers arity stack) (application call head arity stack) := by
  refine yields_bind (yields_popArguments _ arity [] stack) ?_
  rintro ⟨arguments, rest⟩ length
  refine yields_bind (yields_any (ofExcept (Operand.ofAtom head))) ?_
  intro operand _
  refine yields_bind (yields_any (resolve operand)) ?_
  intro f _
  refine yields_bind (yields_any (arguments.foldlM (apply call) f)) ?_
  intro v _
  exact yields_pure (lowers_cons _ length)

theorem yields_step (call : Call) (stack : Stack) (item : Postfix Atom) :
    Yields (Lowers item.taken stack) (step call stack item) := by
  cases item with
  | operand atom =>
    refine yields_bind (yields_any (ofExcept (Operand.ofAtom atom))) ?_
    intro operand _
    exact yields_pure (lowers_cons operand rfl)
  | operator op => exact yields_operator call op stack
  | apply head arity => exact yields_application call head arity stack

/-! ### Runs -/

theorem yields_steps (call : Call) (items : List (Postfix Atom)) (stack : Stack) :
    Yields (fun last => heightAfter stack.length items = some last.length)
      (items.foldlM (step call) stack) := by
  induction items generalizing stack with
  | nil => exact yields_pure rfl
  | cons item rest ih =>
    rw [List.foldlM_cons]
    refine yields_bind (yields_step call stack item) ?_
    rintro next ⟨enough, length⟩
    rw [heightAfter, if_pos enough, ← length]
    exact ih next

theorem yields_finish (stack : Stack) :
    Yields (fun _ => stack.length = 1) (finish stack) := by
  unfold finish
  split
  · exact yields_fail _
  · exact yields_mono (yields_any (resolve _)) fun _ _ => rfl
  · exact yields_fail _

/-- An expression that has a value brings the stack to a height of one. -/
theorem heightAfter_of_execute {call : Call} {items : List (Postfix Atom)} {s after : Session}
    {v : Value} (h : (execute call items).run s = some (.ok v, after)) :
    heightAfter 0 items = some 1 := by
  have yields : Yields (fun _ => heightAfter 0 items = some 1) (execute call items) := by
    rw [execute_eq]
    refine yields_bind (yields_steps call items []) ?_
    intro stack height
    refine yields_mono (yields_finish stack) ?_
    intro v single
    rw [← single]
    exact height
  exact (yields s _ after h).2 v rfl

end ShellExpr.Machine
