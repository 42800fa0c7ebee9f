import ShellExpr.Proofs.Reordering.Places

/-!
# Rows of units and operators

The tokens of a group up to some place in it, with the rise of the stack that their items bring
about.  Where no two units follow each other a row rises by at most one behind a unit and not at all
behind an operator, and only a row that the grammar derives comes that high: every operator too many
and every group with nothing in it costs an operand.
-/

namespace ShellExpr

/-- A rise of at most `most`, and of no less only where `P` holds. -/
def Reaches (most : Int) (P : Prop) (rise : Int) : Prop :=
  rise ≤ most ∧ (rise = most → P)

namespace Reaches

variable {most more rise later : Int} {P Q : Prop}

theorem exactly (h : P) : Reaches most P most :=
  ⟨Int.le_refl most, fun _ => h⟩

theorem mono (h : Reaches most P rise) (weaker : P → Q) : Reaches most Q rise :=
  ⟨h.1, fun same => weaker (h.2 same)⟩

/-- Two rises reach the sum of their bounds only where both reach theirs. -/
theorem add (h : Reaches most P rise) (h' : Reaches more Q later) :
    Reaches (most + more) (P ∧ Q) (rise + later) := by
  obtain ⟨bound, holds⟩ := h
  obtain ⟨bound', holds'⟩ := h'
  refine ⟨by omega, ?_⟩
  intro same
  exact ⟨holds (by omega), holds' (by omega)⟩

/-- What stays below the bound may be said to reach it under any condition. -/
theorem below (h : rise < most) : Reaches most P rise :=
  ⟨by omega, fun same => absurd same (by omega)⟩

end Reaches

variable {α : Type} [Symbol α]

/-! ### Longer programs -/

def IsProgram (tokens : List α) : Prop :=
  ∃ tree, Derives (.program tree) tokens

def IsUnit (tokens : List α) : Prop :=
  ∃ applied tree, Derives (.unit applied tree) tokens

/-- No argument, or a run of arguments. -/
def AreArguments (tokens : List α) : Prop :=
  tokens = [] ∨ ∃ first more, Derives (.arguments first more) tokens

/-- Nothing, or a program with an operator behind it. -/
def AwaitsUnit (tokens : List α) : Prop :=
  tokens = [] ∨ ∃ program symbol op, tokens = program ++ [symbol] ∧
    Symbol.role symbol = .operator op ∧ IsProgram program

theorem Derives.operations_concat {chain : Chain α} {tokens unit : List α}
    (h : Derives (.operations chain) tokens) {symbol : α} {op : Operator}
    (role : Symbol.role symbol = .operator op) (other : op ≠ .sequence) {applied : Bool}
    {tree : Tree α} (last : Derives (.unit applied tree) unit) :
    Derives (.operations (chain ++ [(op, tree)])) (tokens ++ symbol :: unit) := by
  induction chain generalizing tokens with
  | nil =>
    cases h
    have alone := Derives.operation role other last .noOperations
    rwa [List.append_nil] at alone
  | cons first later ih =>
    cases h with
    | operation role_first other_first unit_first operations =>
      rw [List.append_assoc]
      exact .operation role_first other_first unit_first (ih operations)

theorem Derives.statement_concat {statement : Tree α} {tokens unit : List α}
    (h : Derives (.statement statement) tokens) {symbol : α} {op : Operator}
    (role : Symbol.role symbol = .operator op) (other : op ≠ .sequence) {applied : Bool}
    {tree : Tree α} (last : Derives (.unit applied tree) unit) :
    ∃ longer, Derives (.statement longer) (tokens ++ symbol :: unit) := by
  cases h with
  | statement first operations =>
    rw [List.append_assoc]
    exact ⟨_, .statement first (operations.operations_concat role other last)⟩

theorem IsUnit.isProgram {unit : List α} (h : IsUnit unit) : IsProgram unit := by
  obtain ⟨applied, tree, derives⟩ := h
  have alone := Derives.statement derives .noOperations
  rw [List.append_nil] at alone
  exact ⟨_, .single alone⟩

/-- An operator with a unit behind it prolongs the last statement of a program, or follows it by
another one. -/
theorem IsProgram.concat {program unit : List α} (h : IsProgram program) {symbol : α}
    {op : Operator} (role : Symbol.role symbol = .operator op) (last : IsUnit unit) :
    IsProgram (program ++ symbol :: unit) := by
  obtain ⟨tree, derives⟩ := h
  obtain ⟨applied, right, unit_derives⟩ := last
  by_cases sequence : op = .sequence
  · subst sequence
    have alone := Derives.statement unit_derives .noOperations
    rw [List.append_nil] at alone
    exact ⟨_, .sequence derives role alone⟩
  · cases derives with
    | single statement =>
      obtain ⟨longer, prolonged⟩ := statement.statement_concat role sequence unit_derives
      exact ⟨longer, .single prolonged⟩
    | sequence front semicolon statement =>
      obtain ⟨longer, prolonged⟩ := statement.statement_concat role sequence unit_derives
      rw [List.append_assoc, List.cons_append]
      exact ⟨_, .sequence front semicolon prolonged⟩

theorem AwaitsUnit.concat {tokens unit : List α} (h : AwaitsUnit tokens) (last : IsUnit unit) :
    IsProgram (tokens ++ unit) := by
  rcases h with rfl | ⟨program, symbol, op, rfl, role, derives⟩
  · exact last.isProgram
  · rw [List.append_assoc]
    exact derives.concat role last

theorem IsProgram.group {left right : α} {tokens : List α} (h : IsProgram tokens)
    (opening : Symbol.role left = .opening) (closing : Symbol.role right = .closing) :
    IsUnit (left :: tokens ++ [right]) := by
  obtain ⟨tree, derives⟩ := h
  exact ⟨false, tree, .plain (.group opening derives closing)⟩

theorem AreArguments.isUnit {head : α} {tokens : List α} (h : AreArguments tokens)
    (role : Symbol.role head = .operand) : IsUnit (head :: tokens) := by
  rcases h with rfl | ⟨first, more, derives⟩
  · exact ⟨false, .leaf head, .plain (.operand role)⟩
  · exact ⟨true, .application head first more, .application role derives⟩

theorem AreArguments.cons {argument later : List α} {tree : Tree α} (h : AreArguments later)
    (first : Derives (.argument tree) argument) : AreArguments (argument ++ later) := by
  rcases h with rfl | ⟨second, more, derives⟩
  · rw [List.append_nil]
    exact .inr ⟨tree, [], .lastArgument first⟩
  · exact .inr ⟨tree, second :: more, .moreArguments first derives⟩

/-! ### Rows -/

/-- The tokens of a group up to a place with something in front of it, and their rise. -/
def Row (front : Front) (tokens : List α) (rise : Int) : Prop :=
  match front with
  | .free => Reaches 0 (AwaitsUnit tokens) rise
  | .applied | .group => Reaches 1 (IsProgram tokens) rise

theorem row_nil : Row .free ([] : List α) 0 :=
  .exactly (.inl rfl)

/-- A row, wherever it stops. -/
theorem Row.program {front : Front} {tokens : List α} {rise : Int} (h : Row front tokens rise) :
    Reaches 1 (IsProgram tokens) rise := by
  cases front with
  | free => exact .below (Int.lt_of_le_of_lt h.1 (by decide))
  | applied => exact h
  | group => exact h

theorem Row.operator {front : Front} {tokens : List α} {rise : Int} (h : Row front tokens rise)
    {symbol : α} {op : Operator} (role : Symbol.role symbol = .operator op) :
    Row .free (tokens ++ [symbol]) (rise - 1) := by
  have cost : Reaches (-1) True (-1) := .exactly trivial
  refine (h.program.add cost).mono ?_
  rintro ⟨program, _⟩
  exact .inr ⟨tokens, symbol, op, rfl, role, program⟩

theorem Row.unit {front : Front} (behind : front ≠ .free) {tokens unit : List α}
    {rise more : Int} (h : Row .free tokens rise) (last : Reaches 1 (IsUnit unit) more) :
    Row front (tokens ++ unit) (rise + more) := by
  have both : Reaches 1 (IsProgram (tokens ++ unit)) (rise + more) :=
    (Reaches.add h last).mono fun ⟨awaits, is_unit⟩ => awaits.concat is_unit
  cases front with
  | free => contradiction
  | applied => exact both
  | group => exact both

end ShellExpr
