import Mathlib.Data.List.DropRight
import ShellExpr.Proofs.Reordering.Stack
import ShellExpr.Proofs.Reordering.Steps

/-!
# Floors

A floor is a height of the stack that is written down once and used for all operators that arrive
later in its group, while the stack around it changes.  It stays right where the statement of its
group begins: at the bottom of the group, or above the one `;` that waits there.  So what waits
below a floor is never taken by the rule that applies everything above it, and no other rule takes
a `;` for an operator that is not one itself.
-/

namespace ShellExpr.Reordering

variable {α : Type}

/-! ### A group -/

/-- The operators that wait in a group above and below its floor, where the group begins at
`height`.  Only a `;` can wait below, and none waits above. -/
structure Settled (floor : Option Nat) (high low : List Operator) (height : Nat) : Prop where
  above : .sequence ∉ high
  below : low = [] ∨ low = [.sequence]
  floor : ∀ d ∈ floor, d = height + low.length

theorem settled_nil (height : Nat) : Settled none [] [] height where
  above := List.not_mem_nil
  below := .inl rfl
  floor := nofun

theorem settled_sequence (height : Nat) : Settled none [] [.sequence] height where
  above := List.not_mem_nil
  below := .inr rfl
  floor := nofun

namespace Settled

variable {floor : Option Nat} {high low : List Operator} {base : List Pending}

theorem tail {op : Operator} (h : Settled floor (op :: high) low base.length) :
    Settled floor high low base.length :=
  ⟨fun among => h.above (List.mem_cons_of_mem op among), h.below, h.floor⟩

theorem applied_low (h : Settled floor [] low base.length) (bottom : GroupBottom base)
    {incoming : Operator} (other : incoming ≠ .sequence) :
    applied incoming floor (low.map .operator ++ base) = ([], low.map .operator ++ base) := by
  rcases h.below with rfl | rfl
  · exact applied_groupBottom bottom incoming floor
  · apply applied_statementBottom (statementBottom_sequence base) other
    cases floor with
    | none => rfl
    | some d =>
      have height : d = base.length + 1 := h.floor d rfl
      simp [aboveFloor, height]

/-- An operator that is no `;` applies some of those above the floor, from the top down. -/
theorem applied_other (h : Settled floor high low base.length) (bottom : GroupBottom base)
    {incoming : Operator} (other : incoming ≠ .sequence) :
    ∃ taken kept, high = taken ++ kept ∧
      applied incoming floor ((high ++ low).map .operator ++ base) =
        (taken, (kept ++ low).map .operator ++ base) := by
  induction high with
  | nil => exact ⟨[], [], rfl, h.applied_low bottom other⟩
  | cons top high ih =>
    obtain ⟨taken, kept, rfl, rest⟩ := ih h.tail
    rw [List.cons_append, List.map_cons, List.cons_append, applied]
    split
    · rw [rest]
      exact ⟨top :: taken, kept, rfl, rfl⟩
    · exact ⟨[], top :: (taken ++ kept), rfl, rfl⟩

end Settled

/-- A `;` applies everything in its group. -/
theorem applied_sequence {base : List Pending} (bottom : GroupBottom base) (floor : Option Nat)
    (ops : List Operator) :
    applied .sequence floor (ops.map .operator ++ base) = (ops, base) := by
  rw [applied_weaker (fun op _ => appliesBefore_sequence op), applied_groupBottom bottom,
    List.append_nil]

/-! ### All groups -/

/-- The stack below the innermost group, from its opening down, with the floors of the groups
around it. -/
inductive Encloses : List Pending → List (Option Nat) → Prop where
  | nothing : Encloses [] []
  | group {floor : Option Nat} {high low : List Operator} {base : List Pending}
      {floors : List (Option Nat)} (settled : Settled floor high low base.length)
      (outer : Encloses base floors) :
      Encloses (.opening :: ((high ++ low).map .operator ++ base)) (floor :: floors)

theorem Encloses.groupBottom {base : List Pending} {floors : List (Option Nat)}
    (h : Encloses base floors) : GroupBottom base := by
  cases h with
  | nothing => exact groupBottom_nil
  | group settled outer => exact groupBottom_opening _

theorem Encloses.openGroups {base : List Pending} {floors : List (Option Nat)}
    (h : Encloses base floors) : openGroups base = floors.length := by
  induction h with
  | nothing => rfl
  | group settled outer ih =>
    rw [openGroups_opening, openGroups_operators, ih, List.length_cons]

/-- The innermost group of a state is settled on top of `base`, inside groups with `floors`.  Where
a statement begins, nothing of it waits. -/
structure Innermost (s : Reordering α) (high low : List Operator) (base : List Pending)
    (floors : List (Option Nat)) : Prop where
  pending : s.pending = (high ++ low).map .operator ++ base
  floors : ∃ floor, s.floors = floor :: floors ∧ Settled floor high low base.length
  opens : s.atStart = true → high = []

/-- All groups of a state are settled. -/
def FloorsSettled (s : Reordering α) : Prop :=
  ∃ high low base floors, s.Innermost high low base floors ∧ Encloses base floors

theorem floorsSettled_start : (start : Reordering α).FloorsSettled :=
  ⟨[], [], [], [], ⟨rfl, ⟨none, rfl, settled_nil 0⟩, fun _ => rfl⟩, .nothing⟩

/-! ### What a token does to the innermost group -/

namespace Innermost

variable {s : Reordering α} {high low : List Operator} {base : List Pending}
  {floors : List (Option Nat)}

theorem pushSequence (h : s.Innermost high low base floors) (bottom : GroupBottom base) :
    (s.pushOperator .sequence).Innermost [] [.sequence] base floors := by
  obtain ⟨floor, floors_eq, settled⟩ := h.floors
  refine ⟨?_, ⟨none, ?_, settled_sequence base.length⟩, fun _ => rfl⟩
  · show Pending.operator .sequence :: (applied .sequence s.floors.head?.join s.pending).2 = _
    rw [h.pending, applied_sequence bottom]
    rfl
  · show setFloor none s.floors = none :: floors
    rw [floors_eq]
    rfl

theorem pushOther (h : s.Innermost high low base floors) (bottom : GroupBottom base)
    {op : Operator} (other : op ≠ .sequence) :
    ∃ taken kept, high = taken ++ kept ∧
      (s.pushOperator op).Innermost (op :: kept) low base floors := by
  obtain ⟨floor, floors_eq, settled⟩ := h.floors
  obtain ⟨taken, kept, rfl, rest⟩ := settled.applied_other bottom other
  have no_sequence : Operator.sequence ∉ op :: kept := by
    intro among
    rcases List.mem_cons.1 among with same | among
    · exact other same.symm
    · exact settled.above (List.mem_append_right taken among)
  refine ⟨taken, kept, rfl, ?_, ⟨floor, ?_, no_sequence, settled.below, settled.floor⟩, ?_⟩
  · show Pending.operator op :: (applied op s.floors.head?.join s.pending).2 = _
    rw [h.pending, floors_eq, List.head?_cons, Option.join_some, rest]
    rfl
  · show (if op = .sequence then setFloor none s.floors else s.floors) = floor :: floors
    rw [if_neg other, floors_eq]
  · intro begins
    exact absurd (of_decide_eq_true begins) other

/-- The groups of a state are those around one that would be opened now. -/
theorem encloses_next (h : s.Innermost high low base floors) (encloses : Encloses base floors) :
    Encloses (.opening :: s.pending) s.floors := by
  obtain ⟨floor, floors_eq, settled⟩ := h.floors
  rw [h.pending, floors_eq]
  exact .group settled encloses

theorem openGroup (h : s.Innermost high low base floors) (encloses : Encloses base floors) :
    s.openGroup.FloorsSettled :=
  ⟨[], [], .opening :: s.pending, s.floors, ⟨rfl, ⟨none, rfl, settled_nil _⟩, fun _ => rfl⟩,
    h.encloses_next encloses⟩

theorem closeGroup (h : s.Innermost high low base floors) (encloses : Encloses base floors)
    {closed : Reordering α} (closes : s.closeGroup = .ok closed) :
    closed.FloorsSettled ∧ base = .opening :: closed.pending := by
  obtain ⟨floor, floors_eq, settled⟩ := h.floors
  obtain ⟨ops, below, unwound, rfl⟩ := exists_of_closeGroup closes
  rw [h.pending, unwind_append] at unwound
  cases encloses with
  | nothing => cases unwound
  | @group around upper lower outer outer_floors settled_outer encloses_outer =>
    cases unwound
    refine ⟨⟨upper, lower, outer, outer_floors, ⟨rfl, ⟨around, ?_, settled_outer⟩, nofun⟩,
      encloses_outer⟩, rfl⟩
    rw [floors_eq]
    rfl

/-- An application at the start of a statement sets the floor to where the statement begins. -/
theorem addUnit (h : s.Innermost high low base floors) (head : α) (args : Arguments α) :
    (s.addUnit head args).Innermost high low base floors := by
  obtain ⟨floor, floors_eq, settled⟩ := h.floors
  refine ⟨(pending_addUnit s head args).trans h.pending, ?_, ?_⟩
  · unfold Reordering.addUnit
    split
    · exact ⟨floor, floors_eq, settled⟩
    · by_cases begins : s.atStart = true
      · refine ⟨some s.pending.length, ?_, settled.above, settled.below, ?_⟩
        · simp only [if_pos begins, floors_eq]
          rfl
        · rintro d ⟨⟩
          rw [h.pending, h.opens begins, List.nil_append, List.length_append, List.length_map]
          omega
      · exact ⟨floor, by simp only [if_neg begins, floors_eq], settled⟩
  · unfold Reordering.addUnit
    split <;> exact nofun

end Innermost

/-! ### Steps -/

/-- What a token does to the stack.  An operator takes operators of the innermost group, and a `;`
only if it is one itself.  The end of a group takes what waits in it. -/
inductive StackMove : Role → List Pending → List Pending → Prop where
  | operator {op : Operator} {taken kept : List Operator} {base : List Pending}
      (bottom : GroupBottom base) (keeps : op ≠ .sequence → .sequence ∉ taken) :
      StackMove (.operator op) ((taken ++ kept).map .operator ++ base)
        ((op :: kept).map .operator ++ base)
  | opening (pending : List Pending) : StackMove .opening pending (.opening :: pending)
  | closing (taken : List Operator) (outer : List Pending) :
      StackMove .closing (taken.map .operator ++ .opening :: outer) outer
  | operand (pending : List Pending) : StackMove .operand pending pending

theorem FloorsSettled.pushOperator {s : Reordering α} (h : s.FloorsSettled) (op : Operator) :
    (s.pushOperator op).FloorsSettled ∧
      StackMove (.operator op) s.pending (s.pushOperator op).pending := by
  obtain ⟨high, low, base, floors, innermost, encloses⟩ := h
  have bottom := encloses.groupBottom
  by_cases sequence : op = .sequence
  · subst sequence
    have pushed := innermost.pushSequence bottom
    refine ⟨⟨[], [.sequence], base, floors, pushed, encloses⟩, ?_⟩
    rw [innermost.pending, pushed.pending, ← List.append_nil (high ++ low)]
    exact .operator bottom fun other => absurd rfl other
  · obtain ⟨taken, kept, rfl, pushed⟩ := innermost.pushOther bottom sequence
    obtain ⟨floor, _, settled⟩ := innermost.floors
    refine ⟨⟨op :: kept, low, base, floors, pushed, encloses⟩, ?_⟩
    rw [innermost.pending, pushed.pending, List.append_assoc]
    exact .operator bottom fun _ among => settled.above (List.mem_append_left kept among)

theorem FloorsSettled.closeGroup {s closed : Reordering α} (h : s.FloorsSettled)
    (closes : s.closeGroup = .ok closed) :
    closed.FloorsSettled ∧ StackMove .closing s.pending closed.pending := by
  obtain ⟨high, low, base, floors, innermost, encloses⟩ := h
  obtain ⟨settled, around⟩ := innermost.closeGroup encloses closes
  refine ⟨settled, ?_⟩
  rw [innermost.pending, around]
  exact .closing (high ++ low) closed.pending

variable [Symbol α] {group : List α → Except FatalError (List (Postfix α))}

theorem FloorsSettled.step {s next : Reordering α} (h : s.FloorsSettled) {token : α}
    {rest behind : List α} (found : step group s token rest = .ok (next, behind)) :
    next.FloorsSettled ∧ StackMove (Symbol.role token) s.pending next.pending := by
  cases step_eq_ok_iff.1 found with
  | @operator op role =>
    rw [role]
    exact h.pushOperator op
  | opening role =>
    obtain ⟨_, _, _, _, innermost, encloses⟩ := h
    rw [role]
    exact ⟨innermost.openGroup encloses, .opening s.pending⟩
  | closing role closes =>
    rw [role]
    exact h.closeGroup closes
  | @operand args role read =>
    obtain ⟨high, low, base, floors, innermost, encloses⟩ := h
    rw [role, pending_addUnit]
    exact ⟨⟨high, low, base, floors, innermost.addUnit token args, encloses⟩, .operand s.pending⟩

theorem Steps.floorsSettled {first last : Reordering α × List α} (h : Steps group first last)
    (settled : first.1.FloorsSettled) : last.1.FloorsSettled :=
  h.keeps (fun settled found => (settled.step found).1) settled

/-! ### Heights of floors -/

omit [Symbol α]

/-- Every open group has a floor, and so has the whole expression. -/
def FloorEach (s : Reordering α) : Prop :=
  s.floors.length = openGroups s.pending + 1

theorem FloorsSettled.floorEach {s : Reordering α} (h : s.FloorsSettled) : s.FloorEach := by
  obtain ⟨_, _, _, _, innermost, encloses⟩ := h
  have groups := (innermost.encloses_next encloses).openGroups
  rw [openGroups_opening] at groups
  exact groups.symm

/-- A floor at height `d` of the group whose operators `ops` wait on top of `below`, inside
`around` other groups.  It is no lower than the group, and of the operators below it there is at
most a `;`. -/
structure FloorIn (d : Nat) (ops : List Operator) (below : List Pending) (around : Nat) :
    Prop where
  opened : GroupBottom below
  groups : openGroups below = around
  above_opening : below.length ≤ d
  within : d ≤ below.length + ops.length
  lowest : ops.rtake (d - below.length) = [] ∨ ops.rtake (d - below.length) = [.sequence]

theorem Settled.floorIn {d : Nat} {high low : List Operator} {base : List Pending}
    {floors : List (Option Nat)} (h : Settled (some d) high low base.length)
    (encloses : Encloses base floors) : FloorIn d (high ++ low) base floors.length := by
  have height : d = base.length + low.length := h.floor d rfl
  have under : (high ++ low).rtake (d - base.length) = low := by
    rw [height, Nat.add_sub_cancel_left, List.rtake, List.length_append, Nat.add_sub_cancel,
      List.drop_left]
  refine ⟨encloses.groupBottom, encloses.openGroups, ?_, ?_, ?_⟩
  · omega
  · rw [List.length_append]
    omega
  · rw [under]
    exact h.below

theorem Encloses.exists_floorIn {base : List Pending} {floors inner outer : List (Option Nat)}
    {d : Nat} (h : Encloses base floors) (split : floors = inner ++ some d :: outer) :
    ∃ above ops below, base = above ++ .opening :: (ops.map .operator ++ below) ∧
      FloorIn d ops below outer.length := by
  induction h generalizing inner with
  | nothing => simp at split
  | @group floor high low base floors settled encloses ih =>
    cases inner with
    | nil =>
      cases split
      exact ⟨[], high ++ low, base, rfl, settled.floorIn encloses⟩
    | cons first inner =>
      cases split
      obtain ⟨above, ops, below, rfl, found⟩ := ih rfl
      refine ⟨.opening :: ((high ++ low).map .operator ++ above), ops, below, ?_, found⟩
      rw [List.cons_append, List.append_assoc]

theorem FloorsSettled.exists_floorIn {s : Reordering α} (h : s.FloorsSettled)
    {inner outer : List (Option Nat)} {d : Nat} (split : s.floors = inner ++ some d :: outer) :
    ∃ above ops below, s.pending = above ++ (ops.map .operator ++ below) ∧
      (above = [] ∨ above.getLast? = some .opening) ∧ FloorIn d ops below outer.length := by
  obtain ⟨_, _, _, _, innermost, encloses⟩ := h
  obtain ⟨above, ops, below, whole, found⟩ :=
    (innermost.encloses_next encloses).exists_floorIn split
  cases above with
  | nil => exact ⟨[], ops, below, (List.cons.inj whole).2, .inl rfl, found⟩
  | cons top above =>
    refine ⟨above ++ [.opening], ops, below, ?_, .inr List.getLast?_concat, found⟩
    rw [(List.cons.inj whole).2, List.append_assoc]
    rfl

/-! ### Points of the pass -/

variable [Symbol α]

/-- At every point of the pass each open group has a floor entry, and so has the whole expression.
A floor lies between the opening of its group and the next one, or the top of the stack, with at
most a `;` of its group below it.  The next token takes no operator of a group around the innermost
one, and a `;` only if it is one itself or the end of the group. -/
theorem floors_bookkept {tokens rest : List α} {s : Reordering α}
    (h : Steps reorder (start, tokens) (s, rest)) :
    s.floors.length = openGroups s.pending + 1 ∧
      (∀ inner d outer, s.floors = inner ++ some d :: outer →
        ∃ above ops below, s.pending = above ++ (ops.map .operator ++ below) ∧
          (above = [] ∨ above.getLast? = some .opening) ∧ FloorIn d ops below outer.length) ∧
      ∀ token more next behind, rest = token :: more →
        step reorder s token more = .ok (next, behind) →
        StackMove (Symbol.role token) s.pending next.pending := by
  have settled : s.FloorsSettled := h.floorsSettled floorsSettled_start
  refine ⟨settled.floorEach, ?_, ?_⟩
  · intro inner d outer split
    exact settled.exists_floorIn split
  · intro token more next behind _ found
    exact (settled.step found).2

/-- The outer floor stands above a `;`, with the opening of the group inside between them and the
inner floor.  An operator arrives in the inner group. -/
theorem floors_bookkept_nested :
    ∃ s : Reordering String,
      Steps reorder (start, [";", "f", "1", "+", "(", "g", "2", "*"]) (s, ["*"]) ∧
      s.pending = [.opening, .operator .add, .operator .sequence] ∧
      s.floors = [some 3, some 1] ∧
      (∃ above ops below,
        [.opening, .operator .add, .operator .sequence] =
          above ++ (ops.map .operator ++ below) ∧
        (above = [] ∨ above.getLast? = some .opening) ∧ FloorIn 1 ops below 0) ∧
      StackMove (.operator .mul) s.pending (s.pushOperator .mul).pending := by
  have statement : step reorder (start : Reordering String) ";" ["f", "1", "+", "(", "g", "2", "*"]
      = .ok (⟨[], [.operator .sequence], [none], true⟩, ["f", "1", "+", "(", "g", "2", "*"]) := by
    rfl
  have opens : step reorder
      (⟨[], [.operator .sequence], [none], true⟩ : Reordering String) "f"
        ["1", "+", "(", "g", "2", "*"] =
      .ok (⟨[.apply "f" 1, .operand "1"], [.operator .sequence], [some 1], false⟩,
        ["+", "(", "g", "2", "*"]) := by
    cbv
  have adds : step reorder
      (⟨[.apply "f" 1, .operand "1"], [.operator .sequence], [some 1], false⟩ : Reordering String)
        "+" ["(", "g", "2", "*"] =
      .ok (⟨[.apply "f" 1, .operand "1"], [.operator .add, .operator .sequence], [some 1], false⟩,
        ["(", "g", "2", "*"]) := by
    rfl
  have inside : step reorder
      (⟨[.apply "f" 1, .operand "1"], [.operator .add, .operator .sequence], [some 1], false⟩ :
        Reordering String) "(" ["g", "2", "*"] =
      .ok (⟨[.apply "f" 1, .operand "1"], [.opening, .operator .add, .operator .sequence],
        [none, some 1], true⟩, ["g", "2", "*"]) := by
    rfl
  have applies : step reorder
      (⟨[.apply "f" 1, .operand "1"], [.opening, .operator .add, .operator .sequence],
        [none, some 1], true⟩ : Reordering String) "g" ["2", "*"] =
      .ok (⟨[.apply "g" 1, .operand "2", .apply "f" 1, .operand "1"],
        [.opening, .operator .add, .operator .sequence], [some 3, some 1], false⟩, ["*"]) := by
    cbv
  have steps := Relation.ReflTransGen.head (Advances.step statement)
    (.head (.step opens) (.head (.step adds) (.head (.step inside) (.head (.step applies) .refl))))
  obtain ⟨_, heights, moves⟩ := floors_bookkept steps
  exact ⟨_, steps, rfl, rfl, heights [some 3] 1 [] rfl, moves "*" [] _ [] rfl rfl⟩

end ShellExpr.Reordering
