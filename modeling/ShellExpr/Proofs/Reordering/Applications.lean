import ShellExpr.Proofs.Height
import ShellExpr.Proofs.Reordering.Acceptance

/-!
# The applications of a reordered expression

Every application among the items of an expression comes from an operand of the expression with
exactly the arguments behind it, one at least, and then nothing that could be another argument.  The
pass looks for arguments in what is still ahead, and inside an argument group in what the group
encloses, so the tokens in front of and behind the application do not matter.
-/

namespace ShellExpr

variable {α : Type} [Symbol α]

/-- So many operands and groups with something in them. -/
inductive ArgumentRun : Nat → List α → Prop where
  | nil : ArgumentRun 0 []
  | operand {token : α} {later : List α} {arity : Nat} (role : Symbol.role token = .operand)
      (rest : ArgumentRun arity later) : ArgumentRun (arity + 1) (token :: later)
  | group {left right : α} {inner later : List α} {arity : Nat}
      (opening : Symbol.role left = .opening) (balanced : Balanced inner) (filled : inner ≠ [])
      (closing : Symbol.role right = .closing) (rest : ArgumentRun arity later) :
      ArgumentRun (arity + 1) (left :: (inner ++ right :: later))

/-- Nothing, or an operator or a closing parenthesis in front. -/
def EndsArguments (tokens : List α) : Prop :=
  ∀ token ∈ tokens.head?, (∃ op, Symbol.role token = .operator op) ∨ Symbol.role token = .closing

/-- Somewhere among the tokens stands `head`, with exactly `arity` arguments behind it. -/
inductive Applies (tokens : List α) (head : α) (arity : Nat) : Prop where
  | intro (before arguments rest : List α) (whole : tokens = before ++ head :: (arguments ++ rest))
      (run : ArgumentRun arity arguments) (filled : 0 < arity) (ends : EndsArguments rest)

/-- The applications among the items stand among the tokens. -/
def ApplicationsIn (tokens : List α) (items : List (Postfix α)) : Prop :=
  ∀ head arity, .apply head arity ∈ items → Applies tokens head arity

/-! ### Tokens around an application -/

theorem EndsArguments.append {tokens later : List α} (h : EndsArguments tokens)
    (ends : EndsArguments later) : EndsArguments (tokens ++ later) := by
  cases tokens with
  | nil => exact ends
  | cons token rest => exact h

theorem endsArguments_closing {token : α} (closing : Symbol.role token = .closing)
    (later : List α) : EndsArguments (token :: later) := by
  rintro _ ⟨⟩
  exact .inr closing

theorem endsArguments_of_ends {tokens : List α} (h : Reordering.Ends tokens) :
    EndsArguments tokens := by
  cases tokens with
  | nil => exact nofun
  | cons token later =>
    obtain ⟨no_operand, no_opening⟩ := h token later rfl
    rintro _ ⟨⟩
    cases role : Symbol.role token with
    | operator op => exact .inl ⟨op, rfl⟩
    | closing => exact .inr rfl
    | operand => contradiction
    | opening => contradiction

theorem Applies.within {tokens later : List α} {head : α} {arity : Nat}
    (h : Applies tokens head arity) (front : List α) (ends : EndsArguments later) :
    Applies (front ++ tokens ++ later) head arity := by
  obtain ⟨before, arguments, rest, rfl, run, filled, ends_rest⟩ := h
  exact .intro (front ++ before) arguments (rest ++ later) (by simp) run filled
    (ends_rest.append ends)

theorem Applies.behind {tokens later : List α} {head : α} {arity : Nat}
    (h : Applies later head arity) (suffix : later <:+ tokens) : Applies tokens head arity := by
  obtain ⟨front, rfl⟩ := suffix
  have ends : EndsArguments ([] : List α) := nofun
  have whole := h.within front ends
  rwa [List.append_nil] at whole

/-! ### Items -/

theorem applicationsIn_append {tokens : List α} {first second : List (Postfix α)} :
    ApplicationsIn tokens (first ++ second) ↔
      ApplicationsIn tokens first ∧ ApplicationsIn tokens second := by
  simp only [ApplicationsIn, List.mem_append, or_imp, forall_and]

theorem applicationsIn_reverse {tokens : List α} {items : List (Postfix α)} :
    ApplicationsIn tokens items.reverse ↔ ApplicationsIn tokens items := by
  simp only [ApplicationsIn, List.mem_reverse]

theorem applicationsIn_nil (tokens : List α) : ApplicationsIn tokens [] := nofun

theorem applicationsIn_operand {tokens : List α} (token : α) :
    ApplicationsIn tokens [.operand token] := by
  intro head arity member
  cases List.mem_singleton.1 member

theorem applicationsIn_apply {tokens : List α} {head : α} {arity : Nat}
    (h : Applies tokens head arity) : ApplicationsIn tokens [.apply head arity] := by
  intro other count member
  cases List.mem_singleton.1 member
  exact h

theorem applicationsIn_operators {tokens : List α} (ops : List Operator) :
    ApplicationsIn tokens (ops.map .operator) := by
  intro head arity member
  obtain ⟨op, _, same⟩ := List.mem_map.1 member
  cases same

theorem ApplicationsIn.behind {tokens later : List α} {items : List (Postfix α)}
    (h : ApplicationsIn later items) (suffix : later <:+ tokens) : ApplicationsIn tokens items :=
  fun head arity member => (h head arity member).behind suffix

namespace Reordering

variable {tokens : List α} {s next : Reordering α}

theorem applicationsIn_emit {items emitted : List (Postfix α)} :
    ApplicationsIn tokens (emit items emitted) ↔
      ApplicationsIn tokens items ∧ ApplicationsIn tokens emitted := by
  rw [emit, applicationsIn_append, applicationsIn_reverse]

theorem applicationsIn_pushOperator (h : ApplicationsIn tokens s.emitted) (op : Operator) :
    ApplicationsIn tokens (s.pushOperator op).emitted :=
  applicationsIn_emit.2 ⟨applicationsIn_operators _, h⟩

theorem applicationsIn_closeGroup (h : ApplicationsIn tokens s.emitted)
    (closes : s.closeGroup = .ok next) : ApplicationsIn tokens next.emitted := by
  obtain ⟨ops, _, _, rfl⟩ := exists_of_closeGroup closes
  exact applicationsIn_emit.2 ⟨applicationsIn_operators ops, h⟩

theorem applicationsIn_finish (h : ApplicationsIn tokens s.emitted)
    {items : List (Postfix α)} (finished : s.finish = .ok items) :
    ApplicationsIn tokens items := by
  obtain ⟨ops, _, rfl⟩ := exists_of_finish finished
  exact applicationsIn_append.2 ⟨applicationsIn_reverse.2 h, applicationsIn_operators ops⟩

/-! ### Arguments -/

variable {group : List α → Except FatalError (List (Postfix α))}

theorem argumentRun_of_arguments {later : List α} {args : Arguments α}
    (h : arguments group later = .ok args) :
    ∃ run, later = run ++ args.rest ∧ ArgumentRun args.arity run := by
  rw [arguments_eq_ok_iff] at h
  induction h with
  | nothing ends => exact ⟨[], rfl, .nil⟩
  | @operand token _ _ role _ ih =>
    obtain ⟨run, rfl, counted⟩ := ih
    exact ⟨token :: run, rfl, .operand role counted⟩
  | @group left right inner _ _ _ opening balanced filled closing _ _ ih =>
    obtain ⟨run, rfl, counted⟩ := ih
    exact ⟨left :: (inner ++ right :: run), by simp,
      .group opening balanced filled closing counted⟩

variable (inside : ∀ inner items, group inner = .ok items → ApplicationsIn inner items)

include inside

theorem applicationsIn_arguments {later : List α} {args : Arguments α}
    (h : arguments group later = .ok args) : ApplicationsIn later args.items := by
  rw [arguments_eq_ok_iff] at h
  induction h with
  | nothing ends => exact applicationsIn_nil _
  | @operand token rest _ role _ ih =>
    exact applicationsIn_append.2
      ⟨applicationsIn_operand token, ih.behind (List.suffix_cons token rest)⟩
  | @group left right inner rest items _ opening _ _ closing reordered _ ih =>
    refine applicationsIn_append.2 ⟨?_, ih.behind ⟨left :: inner ++ [right], by simp⟩⟩
    intro head arity member
    exact (inside inner items reordered head arity member).within [left]
      (endsArguments_closing closing rest)

theorem applicationsIn_addUnit {head : α} {later : List α} {args : Arguments α}
    (h : ApplicationsIn tokens s.emitted) (suffix : head :: later <:+ tokens)
    (found : arguments group later = .ok args) :
    ApplicationsIn tokens (s.addUnit head args).emitted := by
  unfold addUnit
  split
  · exact applicationsIn_append.2 ⟨applicationsIn_operand head, h⟩
  · rename_i some_argument
    have items : ApplicationsIn tokens args.items :=
      (applicationsIn_arguments inside found).behind ((List.suffix_cons head later).trans suffix)
    obtain ⟨run, rfl, counted⟩ := argumentRun_of_arguments found
    have applies : Applies (head :: (run ++ args.rest)) head args.arity :=
      .intro [] run args.rest rfl counted (Nat.pos_of_ne_zero some_argument)
        (endsArguments_of_ends (arguments_rest_ends found))
    exact applicationsIn_append.2
      ⟨applicationsIn_apply (applies.behind suffix), applicationsIn_emit.2 ⟨items, h⟩⟩

/-! ### The pass -/

theorem applicationsIn_step {token : α} {rest behind : List α}
    (h : ApplicationsIn tokens s.emitted) (suffix : token :: rest <:+ tokens)
    (found : step group s token rest = .ok (next, behind)) :
    ApplicationsIn tokens next.emitted := by
  cases step_eq_ok_iff.1 found with
  | operator => exact applicationsIn_pushOperator h _
  | opening => exact h
  | closing _ closes => exact applicationsIn_closeGroup h closes
  | operand _ read => exact applicationsIn_addUnit inside h suffix read

theorem applicationsIn_run {items : List (Postfix α)} (h : run group .start tokens = .ok items) :
    ApplicationsIn tokens items := by
  obtain ⟨last, ⟨all, _⟩, finished⟩ :=
    finish_of_run (fun s later => ApplicationsIn tokens s.emitted ∧ later <:+ tokens)
      (fun ⟨all, suffix⟩ found => ⟨applicationsIn_step inside all suffix found,
        (step_rest_suffix found).trans ((List.suffix_cons _ _).trans suffix)⟩)
      ⟨applicationsIn_nil tokens, List.suffix_rfl⟩ h
  exact applicationsIn_finish all finished

omit inside in
theorem applicationsIn_reorderWithin (limit : Nat) (tokens : List α) (items : List (Postfix α))
    (h : reorderWithin limit tokens = .ok items) : ApplicationsIn tokens items := by
  induction limit generalizing tokens items with
  | zero =>
    refine applicationsIn_run ?_ h
    intro inner others refused
    contradiction
  | succ limit ih => exact applicationsIn_run ih h

end Reordering

/-- Every application among the items of an expression stands in the expression with its
arguments. -/
theorem applicationsIn_reorder {tokens : List α} {items : List (Postfix α)}
    (h : reorder tokens = .ok items) : ApplicationsIn tokens items :=
  Reordering.applicationsIn_reorderWithin tokens.length tokens items h

/-- So none of them is without arguments. -/
theorem allApplied_reorder {tokens : List α} {items : List (Postfix α)}
    (h : reorder tokens = .ok items) : AllApplied items := by
  intro head member
  obtain ⟨_, _, _, _, _, filled, _⟩ := applicationsIn_reorder h head 0 member
  contradiction

end ShellExpr
