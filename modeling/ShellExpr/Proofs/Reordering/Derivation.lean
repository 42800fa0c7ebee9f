import ShellExpr.Proofs.Reordering.Arguments
import ShellExpr.Proofs.Reordering.Climbing

/-!
# Reordering what the grammar derives

The pass reads every phrase of the grammar to its tree, from any state in which the phrase may
stand and with any tokens behind it that cannot belong to it.  For a whole program this says that
`reorder` succeeds and lists the tree of the program in postfix order.
-/

namespace ShellExpr

variable {α : Type} [Symbol α]

/-! ### Derived tokens -/

theorem Derives.balanced {phrase : Phrase α} {tokens : List α} (h : Derives phrase tokens) :
    Balanced tokens := by
  induction h with
  | operand role => exact Balanced.cons (by simp [role]) rfl
  | group opening _ closing ih => exact ih.group opening closing
  | lastArgument _ ih => exact ih
  | moreArguments _ _ ih ih_more => exact ih.append ih_more
  | plain _ ih => exact ih
  | application role _ ih => exact Balanced.cons (by simp [role]) ih
  | noOperations => rfl
  | operation role _ _ _ ih ih_later =>
    exact Balanced.cons (by simp [role]) (ih.append ih_later)
  | statement _ _ ih ih_later => exact ih.append ih_later
  | single _ ih => exact ih
  | sequence _ role _ ih ih_last => exact ih.append (Balanced.cons (by simp [role]) ih_last)

/-- The phrases that hold at least one token. -/
def Phrase.Filled : Phrase α → Prop
  | .operations _ => False
  | _ => True

theorem Derives.ne_nil {phrase : Phrase α} {tokens : List α} (h : Derives phrase tokens)
    (filled : phrase.Filled) : tokens ≠ [] := by
  induction h with
  | operand role => exact List.cons_ne_nil _ _
  | group _ _ _ _ => exact List.cons_ne_nil _ _
  | lastArgument _ ih => exact ih trivial
  | moreArguments _ _ ih _ => exact List.append_ne_nil_of_left_ne_nil (ih trivial) _
  | plain _ ih => exact ih trivial
  | application _ _ _ => exact List.cons_ne_nil _ _
  | noOperations => exact filled.elim
  | operation _ _ _ _ _ _ => exact filled.elim
  | statement _ _ ih _ => exact List.append_ne_nil_of_left_ne_nil (ih trivial) _
  | single _ ih => exact ih trivial
  | sequence _ _ _ ih _ => exact List.append_ne_nil_of_left_ne_nil (ih trivial) _

theorem Derives.operations_others {chain : Chain α} {tokens : List α}
    (h : Derives (.operations chain) tokens) :
    ∀ operation ∈ chain, operation.1 ≠ .sequence := by
  induction chain generalizing tokens with
  | nil =>
    intro operation member
    contradiction
  | cons first later ih =>
    cases h with
    | operation _ other _ operations =>
      intro operation member
      rcases List.mem_cons.1 member with rfl | behind
      · exact other
      · exact ih operations operation behind

namespace Reordering

theorem ends_operations {chain : Chain α} {tokens rest : List α}
    (h : Derives (.operations chain) tokens) (ends : Ends rest) : Ends (tokens ++ rest) := by
  cases h with
  | noOperations => exact ends
  | operation role _ _ _ => exact ends_cons (by simp [role]) (by simp [role]) _

/-! ### Phrases -/

/-- A run of the pass from `s` over some tokens comes to hold a tree on top of `s`. -/
def Comes (s : Reordering α) (tokens rest : List α) (tree : Tree α)
    (outer : List (Option Nat)) : Prop :=
  ∃ (next : Reordering α) (ops : List Operator),
    run reorder s (tokens ++ rest) = run reorder next rest ∧
      next.Holding ops tree s.emitted s.pending outer

/-- What the pass makes of the tokens of a phrase. -/
def Reads : Phrase α → List α → Prop
  | .argument tree, tokens =>
    (∀ (rest : List α) (more : Arguments α), arguments reorder rest = .ok more →
      arguments reorder (tokens ++ rest) =
        .ok ⟨tree.postorder ++ more.items, more.arity + 1, more.rest⟩) ∧
    ∀ (s : Reordering α) (rest : List α), Ends rest →
      run reorder s (tokens ++ rest) = run reorder (s.readTree tree) rest
  | .arguments first more, tokens =>
    ∀ rest, Ends rest →
      arguments reorder (tokens ++ rest) =
        .ok ⟨Tree.postorderAll (first :: more), more.length + 1, rest⟩
  | .unit applied tree, tokens =>
    ∀ (s : Reordering α) (rest : List α), Ends rest →
      run reorder s (tokens ++ rest) = run reorder (s.readUnit applied tree) rest
  | .operations chain, tokens =>
    ∀ (s : Reordering α) (rest : List α), Ends rest →
      run reorder s (tokens ++ rest) = run reorder (s.readChain chain) rest
  | .statement tree, tokens =>
    ∀ (s : Reordering α) (rest : List α) (outer : List (Option Nat)), s.Starts outer →
      StatementBottom s.pending → Ends rest → s.Comes tokens rest tree outer
  | .program tree, tokens =>
    ∀ (s : Reordering α) (rest : List α) (outer : List (Option Nat)), s.Starts outer →
      GroupBottom s.pending → Ends rest → s.Comes tokens rest tree outer

theorem run_operator {token : α} {op : Operator} (h : Symbol.role token = .operator op)
    (group : List α → Except FatalError (List (Postfix α))) (s : Reordering α) (rest : List α) :
    run group s (token :: rest) = run group (s.pushOperator op) rest := by
  rw [run_cons, step, h]

theorem run_opening {token : α} (h : Symbol.role token = .opening)
    (group : List α → Except FatalError (List (Postfix α))) (s : Reordering α) (rest : List α) :
    run group s (token :: rest) = run group s.openGroup rest := by
  rw [run_cons, step, h]

theorem run_closing {token : α} (h : Symbol.role token = .closing)
    (group : List α → Except FatalError (List (Postfix α))) {s closed : Reordering α}
    (closes : s.closeGroup = .ok closed) (rest : List α) :
    run group s (token :: rest) = run group closed rest := by
  rw [run_cons, step, h]
  simp only [closes]

theorem run_operand {token : α} (h : Symbol.role token = .operand)
    {group : List α → Except FatalError (List (Postfix α))} {rest : List α} {args : Arguments α}
    (found : arguments group rest = .ok args) (s : Reordering α) :
    run group s (token :: rest) = run group (s.addUnit token args) args.rest := by
  rw [run_cons, step, h]
  simp only [found]

/-! ### The phrases one by one -/

theorem reads_operand {token : α} (role : Symbol.role token = .operand) :
    Reads (.argument (.leaf token)) [token] := by
  constructor
  · intro rest more later
    exact arguments_operand role later
  · intro s rest ends
    exact run_operand role (arguments_ends ends reorder) s

/-- A program by itself. -/
theorem reorder_of_reads {tree : Tree α} {tokens : List α} (h : Reads (.program tree) tokens) :
    reorder tokens = .ok tree.postorder := by
  obtain ⟨next, ops, through, holds⟩ := h .start [] [] ⟨rfl, rfl⟩ groupBottom_nil ends_nil
  rw [List.append_nil] at through
  rw [reorder_eq, through, run_nil]
  exact holds.finish

theorem reads_group {left right : α} {tokens : List α} {tree : Tree α}
    (opening : Symbol.role left = .opening) (h : Reads (.program tree) tokens)
    (balanced : Balanced tokens) (filled : tokens ≠ [])
    (closing : Symbol.role right = .closing) :
    Reads (.argument tree) (left :: tokens ++ [right]) := by
  have regroup (rest : List α) :
      left :: tokens ++ [right] ++ rest = left :: (tokens ++ right :: rest) := by
    simp only [List.cons_append, List.append_assoc, List.nil_append]
  constructor
  · intro rest more later
    rw [regroup]
    exact arguments_group opening closing balanced filled (reorder_of_reads h) later
  · intro s rest _
    -- Inside the group nothing waits yet, and its floor is its own.
    have ends : Ends (right :: rest) := ends_cons (by simp [closing]) (by simp [closing]) rest
    obtain ⟨next, ops, through, holds⟩ := h s.openGroup (right :: rest) s.floors ⟨rfl, rfl⟩
      (groupBottom_opening s.pending) ends
    rw [regroup, run_opening opening, through, run_closing closing reorder holds.closeGroup]
    rfl

theorem reads_statement {applied : Bool} {first : Tree α} {chain : Chain α}
    {tokens later : List α} (hu : Reads (.unit applied first) tokens)
    (operations : Derives (.operations chain) later) (ho : Reads (.operations chain) later) :
    Reads (.statement (statementTree applied first chain)) (tokens ++ later) := by
  intro s rest outer starts bottom ends
  obtain ⟨ops, holds⟩ := holding_statement starts bottom applied first operations.operations_others
  refine ⟨(s.readUnit applied first).readChain chain, ops, ?_, holds⟩
  rw [List.append_assoc, hu s (later ++ rest) (ends_operations operations ends)]
  exact ho (s.readUnit applied first) rest ends

theorem reads_operation {symbol : α} {op : Operator} {applied : Bool} {tree : Tree α}
    {tokens later : List α} {chain : Chain α} (role : Symbol.role symbol = .operator op)
    (other : op ≠ .sequence) (hu : Reads (.unit applied tree) tokens)
    (operations : Derives (.operations chain) later) (ho : Reads (.operations chain) later) :
    Reads (.operations ((op, tree) :: chain)) (symbol :: tokens ++ later) := by
  intro s rest ends
  have behind : (s.pushOperator op).atStart = false := by
    show decide (op = .sequence) = false
    rw [decide_eq_false other]
  rw [List.cons_append, List.cons_append, List.append_assoc, run_operator role,
    hu (s.pushOperator op) (later ++ rest) (ends_operations operations ends),
    readUnit_later behind]
  exact ho ((s.pushOperator op).readTree tree) rest ends

/-- A `;` applies all that waits in its group and starts a statement of its own. -/
theorem reads_sequence {symbol : α} {tokens later : List α} {tree last : Tree α}
    (hp : Reads (.program tree) tokens) (role : Symbol.role symbol = .operator .sequence)
    (hs : Reads (.statement last) later) :
    Reads (.program (.node .sequence tree last)) (tokens ++ symbol :: later) := by
  intro s rest outer starts bottom ends
  obtain ⟨middle, ops, through, holds⟩ := hp s (symbol :: (later ++ rest)) outer starts bottom
    (ends_cons (by simp [role]) (by simp [role]) _)
  obtain ⟨floor, floors⟩ := holds.floors
  have all : applied .sequence middle.floors.head?.join (ops.map .operator ++ s.pending) =
      (ops, s.pending) := by
    rw [applied_weaker (fun op _ => appliesBefore_sequence op), applied_groupBottom bottom,
      List.append_nil]
  have pushed := holds.pushOperator all
  have again : (middle.pushOperator .sequence).Starts outer := by
    rw [pushed, floors]
    exact ⟨rfl, rfl⟩
  have below : StatementBottom (middle.pushOperator .sequence).pending := by
    rw [pushed]
    exact statementBottom_sequence s.pending
  obtain ⟨next, more, through_last, holds_last⟩ :=
    hs (middle.pushOperator .sequence) rest outer again below ends
  refine ⟨next, more ++ [.sequence], ?_, ?_, ?_, holds_last.floors⟩
  · rw [List.append_assoc, List.cons_append, through, run_operator role, through_last]
  · rw [holds_last.pending, pushed, List.map_append, List.append_assoc]
    rfl
  · rw [List.map_append, emit_append, holds_last.emitted, pushed, Tree.postorder_node, emit_append,
      emit_append]
    rfl

/-- The pass reads every phrase of the grammar. -/
theorem reads_of_derives {phrase : Phrase α} {tokens : List α} (h : Derives phrase tokens) :
    Reads phrase tokens := by
  induction h with
  | operand role => exact reads_operand role
  | group opening inside closing ih =>
    exact reads_group opening ih inside.balanced (inside.ne_nil trivial) closing
  | lastArgument _ ih =>
    intro rest ends
    rw [ih.1 rest _ (arguments_ends ends reorder)]
    rfl
  | moreArguments _ _ ih ih_more =>
    intro rest ends
    rw [List.append_assoc, ih.1 _ _ (ih_more rest ends)]
    rfl
  | plain _ ih =>
    intro s rest ends
    rw [readUnit_plain]
    exact ih.2 s rest ends
  | @application head tokens first more role _ ih =>
    intro s rest ends
    rw [List.cons_append, run_operand role (ih rest ends), addUnit_application]
  | noOperations =>
    intro s rest _
    rfl
  | operation role other _ operations ih ih_later =>
    exact reads_operation role other ih operations ih_later
  | statement _ operations ih ih_later => exact reads_statement ih operations ih_later
  | single _ ih =>
    intro s rest outer starts bottom ends
    exact ih s rest outer starts bottom.statement ends
  | sequence _ role _ ih ih_last => exact reads_sequence ih role ih_last

end Reordering

/-- What the grammar derives is reordered, into the items of its tree in postfix order. -/
theorem reorder_of_derives {tokens : List α} {tree : Tree α}
    (h : Derives (.program tree) tokens) : reorder tokens = .ok tree.postorder :=
  Reordering.reorder_of_reads (Reordering.reads_of_derives h)

/-- A statement that climbs and one that opens with an application: the assignment takes the rest
of its statement, and the sum behind the application is taken before the product. -/
theorem reorder_assignment_application :
    ∃ tree : Tree String,
      Derives (.program tree) ["x", "<-", "1", "-", "2", "*", "3", ";", "f", "(", "g", "a", ")", "b",
        "+", "4", "*", "5"] ∧
      reorder ["x", "<-", "1", "-", "2", "*", "3", ";", "f", "(", "g", "a", ")", "b",
        "+", "4", "*", "5"] =
          .ok [.operand "x", .operand "1", .operand "2", .operand "3", .operator .mul, .operator .sub,
            .operator .assign, .operand "a", .apply "g" 1, .operand "b", .apply "f" 2, .operand "4",
            .operator .add, .operand "5", .operator .mul, .operator .sequence] := by
  have leaf {token : String} (role : Symbol.role token = .operand) :
      Derives (.argument (.leaf token)) [token] := .operand role
  have climbing := Derives.statement (.plain (leaf (by decide : Symbol.role "x" = .operand)))
    (.operation (by decide : Symbol.role "<-" = .operator .assign) (by decide)
      (.plain (leaf (by decide : Symbol.role "1" = .operand)))
      (.operation (by decide : Symbol.role "-" = .operator .sub) (by decide)
        (.plain (leaf (by decide : Symbol.role "2" = .operand)))
        (.operation (by decide : Symbol.role "*" = .operator .mul) (by decide)
          (.plain (leaf (by decide : Symbol.role "3" = .operand))) .noOperations)))
  have group := Derives.group (by decide : Symbol.role "(" = .opening)
    (.single (.statement
      (.application (by decide : Symbol.role "g" = .operand)
        (.lastArgument (leaf (by decide : Symbol.role "a" = .operand)))) .noOperations))
    (by decide : Symbol.role ")" = .closing)
  have chaining := Derives.statement
    (.application (by decide : Symbol.role "f" = .operand)
      (.moreArguments group (.lastArgument (leaf (by decide : Symbol.role "b" = .operand)))))
    (.operation (by decide : Symbol.role "+" = .operator .add) (by decide)
      (.plain (leaf (by decide : Symbol.role "4" = .operand)))
      (.operation (by decide : Symbol.role "*" = .operator .mul) (by decide)
        (.plain (leaf (by decide : Symbol.role "5" = .operand))) .noOperations))
  have program := Derives.sequence (.single climbing)
    (by decide : Symbol.role ";" = .operator .sequence) chaining
  refine ⟨_, program, (reorder_of_derives program).trans ?_⟩
  exact congrArg Except.ok (by decide +kernel)

end ShellExpr
