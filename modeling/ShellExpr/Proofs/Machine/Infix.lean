import ShellExpr.Proofs.Machine.Height
import ShellExpr.Proofs.Reordering.Applications
import ShellExpr.Proofs.Reordering.Rise

/-!
# What evaluates

The reordering pass looks at parentheses only, and the machine at the height of its stack only.
Together they make sure that an expression which has a value comes to the items of a tree.  For an
expression whose groups stand apart this is enough: it is derived by the grammar, so every operator
stands between two units and no group is empty.  Where a group follows another one, an operator
elsewhere may make up for the one that is missing between them.
-/

namespace ShellExpr.Machine

open Eval Reordering

/-- An expression that has a value is read and reordered, and its items have that value. -/
theorem execution_of_evaluate {depth : Nat} {source : String} {s after : Session} {v : Value}
    (h : (evaluate depth source).run s = some (.ok v, after)) :
    ∃ atoms items, Atom.scan source = .ok atoms ∧ reorder atoms = .ok items ∧
      (execute (call depth) items).run s = some (.ok v, after) := by
  unfold evaluate at h
  cases scanned : Atom.scan source with
  | error fatal =>
    rw [evaluateWith, scanned] at h
    cases h
  | ok atoms =>
    cases reordered : reorder atoms with
    | error fatal =>
      rw [evaluateWith, scanned, ofExcept_ok, pure_bind, reordered] at h
      cases h
    | ok items =>
      rw [evaluateWith_eq _ scanned reordered] at h
      exact ⟨atoms, items, rfl, reordered, h⟩

/-- Items that leave one operand are those of a tree, and the grammar derives the tokens with this
tree where their groups stand apart. -/
theorem exists_tree_of_height {atoms : List Atom} {items : List (Postfix Atom)}
    (reordered : reorder atoms = .ok items) (height : heightAfter 0 items = some 1) :
    ∃ tree : Tree Atom, reorder atoms = .ok tree.postorder ∧
      (GroupsApart atoms ↔ Derives (.program tree) atoms) := by
  by_cases apart : GroupsApart atoms
  · have raised : rise items = 1 := by
      have total := rise_of_heightAfter height
      simp only [Nat.cast_one, Nat.cast_zero, zero_add] at total
      exact total.symm
    obtain ⟨tree, derives⟩ := (reaches_of_reorder apart reordered).2 raised
    exact ⟨tree, reorder_of_reads (reads_of_derives derives), fun _ => derives, fun _ => apart⟩
  · obtain ⟨tree, rfl⟩ := Tree.exists_postorder (allApplied_reorder reordered) height
    exact ⟨tree, reordered, fun h => absurd h apart,
      fun derives => absurd derives.groupsApart apart⟩

/-- An expression that has a value comes to the items of a tree, and the grammar derives it with
this tree exactly if no group but an argument is followed by an operand or a group.  So an
expression whose groups stand apart but which the grammar does not derive has no value: wherever its
evaluation ends, it ends in a fatal error, and so it does if the expression cannot be read. -/
theorem evaluate_derives (depth : Nat) (source : String) (s : Session) :
    (∀ v after, (evaluate depth source).run s = some (.ok v, after) →
      ∃ atoms tree, Atom.scan source = .ok atoms ∧ reorder atoms = .ok tree.postorder ∧
        (GroupsApart atoms ↔ Derives (.program tree) atoms)) ∧
      ((∀ atoms, Atom.scan source = .ok atoms →
          GroupsApart atoms ∧ ∀ tree, ¬Derives (.program tree) atoms) →
        ∀ outcome after, (evaluate depth source).run s = some (outcome, after) →
          ∃ fatal, outcome = .error fatal) := by
  have value : ∀ v after, (evaluate depth source).run s = some (.ok v, after) →
      ∃ atoms tree, Atom.scan source = .ok atoms ∧ reorder atoms = .ok tree.postorder ∧
        (GroupsApart atoms ↔ Derives (.program tree) atoms) := by
    intro v after ran
    obtain ⟨atoms, items, scanned, reordered, executed⟩ := execution_of_evaluate ran
    obtain ⟨tree, listed, derives⟩ :=
      exists_tree_of_height reordered (heightAfter_of_execute executed)
    exact ⟨atoms, tree, scanned, listed, derives⟩
  refine ⟨value, ?_⟩
  intro refused outcome after ran
  cases outcome with
  | error fatal => exact ⟨fatal, rfl⟩
  | ok v =>
    obtain ⟨atoms, tree, scanned, _, derives⟩ := value v after ran
    obtain ⟨apart, underived⟩ := refused atoms scanned
    exact absurd (derives.1 apart) (underived tree)

/-- Two expressions that have a value though the grammar does not derive them: groups with the
operator behind both, and a group with nothing in it in front of an operand. -/
theorem evaluate_crowded :
    ((evaluate 0 "(1) (2) +").run .initial = some (.ok (.int 3), .initial) ∧
      Atom.scan "(1) (2) +" = .ok [.opening, .int 1, .closing, .opening, .int 2, .closing,
        .operator .add] ∧
      ∀ tree, ¬Derives (.program tree) [Atom.opening, .int 1, .closing, .opening, .int 2, .closing,
        .operator .add]) ∧
    (evaluate 0 "() 1").run .initial = some (.ok (.int 1), .initial) ∧
      Atom.scan "() 1" = .ok [.opening, .closing, .int 1] ∧
      ∀ tree, ¬Derives (.program tree) [Atom.opening, .closing, .int 1] := by
  have scanned : Atom.scan "(1) (2) +" = .ok [.opening, .int 1, .closing, .opening, .int 2,
      .closing, .operator .add] := by
    decide +kernel
  have reordered : reorder [Atom.opening, .int 1, .closing, .opening, .int 2, .closing,
      .operator .add] = .ok [.operand (.int 1), .operand (.int 2), .operator .add] := by
    decide +kernel
  have scanned_empty : Atom.scan "() 1" = .ok [.opening, .closing, .int 1] := by
    decide +kernel
  have reordered_empty : reorder [Atom.opening, .closing, .int 1] = .ok [.operand (.int 1)] := by
    decide +kernel
  refine ⟨⟨?_, scanned, ?_⟩, ?_, scanned_empty, ?_⟩
  · rw [evaluate, evaluateWith_eq _ scanned reordered]
    rfl
  · intro tree derives
    exact absurd derives.groupsApart (by decide)
  · rw [evaluate, evaluateWith_eq _ scanned_empty reordered_empty]
    rfl
  · intro tree derives
    exact absurd derives.groupsApart (by decide)

/-- An application to a group, which is derived, and an operator without its right operand, which is
not. -/
theorem evaluate_derives_application :
    (∃ v, (evaluate 0 "abs (1 + 2)").run .initial = some (.ok v, ⟨.empty, 1⟩) ∧
      ∃ atoms tree, Atom.scan "abs (1 + 2)" = .ok atoms ∧ reorder atoms = .ok tree.postorder ∧
        Derives (.program tree) atoms) ∧
    (evaluate 0 "1 +").run .initial = some (.error (.stackUnderflow "+"), .initial) ∧
      ∃ fatal, (.error (.stackUnderflow "+") : Except FatalError Value) = .error fatal := by
  have scanned : Atom.scan "abs (1 + 2)" = .ok [.identifier "abs", .opening, .int 1, .operator .add,
      .int 2, .closing] := by
    decide +kernel
  have reordered : reorder [Atom.identifier "abs", .opening, .int 1, .operator .add, .int 2,
      .closing] = .ok [.operand (.int 1), .operand (.int 2), .operator .add,
        .apply (.identifier "abs") 1] := by
    decide +kernel
  have ran : (evaluate 0 "abs (1 + 2)").run .initial = some (.ok (.int 3), ⟨.empty, 1⟩) := by
    rw [evaluate, evaluateWith_eq _ scanned reordered]
    rfl
  have lacking : Atom.scan "1 +" = .ok [.int 1, .operator .add] := by
    decide +kernel
  have lacking_reordered : reorder [Atom.int 1, .operator .add] =
      .ok [.operand (.int 1), .operator .add] := by
    decide +kernel
  have failed : (evaluate 0 "1 +").run .initial =
      some (.error (.stackUnderflow "+"), .initial) := by
    rw [evaluate, evaluateWith_eq _ lacking lacking_reordered]
    rfl
  have refused : ∀ atoms, Atom.scan "1 +" = .ok atoms →
      GroupsApart atoms ∧ ∀ tree, ¬Derives (.program tree) atoms := by
    intro atoms same
    rw [lacking] at same
    cases same
    refine ⟨by decide, ?_⟩
    intro tree derives
    have listed := reorder_of_reads (reads_of_derives derives)
    rw [lacking_reordered] at listed
    have height := tree.heightAfter_postorder 0
    rw [← Except.ok.inj listed] at height
    contradiction
  obtain ⟨atoms, tree, read, listed, derives⟩ :=
    (evaluate_derives 0 "abs (1 + 2)" .initial).1 _ _ ran
  have apart : GroupsApart atoms := by
    rw [scanned] at read
    cases read
    decide
  exact ⟨⟨_, ran, atoms, tree, read, listed, derives.1 apart⟩, failed,
    (evaluate_derives 0 "1 +" .initial).2 refused _ _ failed⟩

end ShellExpr.Machine
