import ShellExpr.Proofs.Atom.Literal
import ShellExpr.Proofs.Machine.TreeCurrying
import ShellExpr.Proofs.Reordering.Derivation

/-!
# Juxtaposition is curried application

`f (a) (b)` is read as an application of `f` to two arguments, and `((f $ (a)) $ (b))` as two
applications by `$`.  Without `<-` in the arguments they have the same value.
-/

namespace ShellExpr.Machine

open Eval ShellExpr.Tree

/-! ### Texts -/

/-- The text is read as such a phrase, and there is no `<-` in it. -/
def Expresses (source : String) (phrase : Phrase Atom) : Prop :=
  ∃ atoms, Atom.scan source = .ok atoms ∧ Derives phrase atoms ∧ .operator .assign ∉ atoms

theorem Expresses.no_assign {source : String} {tree : Tree Atom}
    (h : Expresses source (.program tree)) : .operator .assign ∉ tree.postorder := by
  obtain ⟨atoms, _, derives, no_assign⟩ := h
  have reordered := Reordering.reorder_of_reads (Reordering.reads_of_derives derives)
  exact fun member => no_assign (mem_of_operator reordered member)

theorem Expresses.evaluate_eq {source : String} {tree : Tree Atom}
    (h : Expresses source (.program tree)) (depth : Nat) :
    evaluate depth source = tree.value (Machine.call depth) := by
  obtain ⟨atoms, scanned, derives, _⟩ := h
  have reordered := Reordering.reorder_of_reads (Reordering.reads_of_derives derives)
  rw [evaluate, evaluateWith_eq _ scanned reordered, execute_eq, value_eq_steps]

theorem Expresses.keeps {source : String} {tree : Tree Atom}
    (h : Expresses source (.program tree)) (depth : Nat) : Keeps (evaluate depth source) := by
  rw [h.evaluate_eq]
  exact keeps_value h.no_assign

theorem expresses_leaf {source : String} {atom : Atom} (scanned : Atom.scan source = .ok [atom])
    (role : Symbol.role atom = .operand) : Expresses source (.argument (.leaf atom)) := by
  refine ⟨[atom], scanned, .operand role, ?_⟩
  intro member
  rw [← List.mem_singleton.1 member] at role
  contradiction

/-- An argument by itself is a program. -/
theorem Expresses.program {source : String} {tree : Tree Atom}
    (h : Expresses source (.argument tree)) : Expresses source (.program tree) := by
  obtain ⟨atoms, scanned, derives, no_assign⟩ := h
  have whole := Derives.single (.statement (.plain derives) .noOperations)
  rw [statementTree, if_neg Bool.false_ne_true, climb_nil, List.append_nil] at whole
  exact ⟨atoms, scanned, whole, no_assign⟩

/-- Each text in parentheses of its own, with a blank in front. -/
def parenthesized (texts : List String) : String :=
  String.join (texts.map fun text => " (" ++ text ++ ")")

/-- A head with its arguments behind it. -/
def juxtaposed (head : String) (arguments : List String) : String :=
  head ++ parenthesized arguments

/-- A function applied by `$` to one argument after the other. -/
def curriedText (function : String) (arguments : List String) : String :=
  arguments.foldl (fun function argument => "(" ++ (function ++ " $ (" ++ argument ++ ")") ++ ")")
    function

/-- The atoms of as many arguments as there are trees. -/
def DerivesArguments : List (Tree Atom) → List Atom → Prop
  | [], atoms => atoms = []
  | first :: more, atoms => Derives (.arguments first more) atoms

theorem derives_arguments_cons {tree : Tree Atom} {trees : List (Tree Atom)}
    {atoms others : List Atom} (first : Derives (.argument tree) atoms)
    (rest : DerivesArguments trees others) : Derives (.arguments tree trees) (atoms ++ others) := by
  cases trees with
  | nil =>
    obtain rfl : others = [] := rest
    rw [List.append_nil]
    exact .lastArgument first
  | cons second more => exact .moreArguments first rest

theorem toList_parenthesized_cons (text : String) (texts : List String) :
    (parenthesized (text :: texts)).toList =
      ' ' :: '(' :: (text.toList ++ ')' :: (parenthesized texts).toList) := by
  simp [parenthesized, String.join_cons]

theorem exists_arguments {texts : List String} {trees : List (Tree Atom)}
    (all : List.Forall₂ (fun text tree => Expresses text (.program tree)) texts trees) :
    ∃ atoms, Atom.Scans (parenthesized texts).toList atoms ∧ DerivesArguments trees atoms ∧
      .operator .assign ∉ atoms := by
  induction all with
  | nil => exact ⟨[], Atom.scans_nil, rfl, List.not_mem_nil⟩
  | @cons text tree texts trees expresses rest ih =>
    obtain ⟨atoms, scanned, derives, no_assign⟩ := expresses
    obtain ⟨others, scans, arguments, no_assign_others⟩ := ih
    have group : Derives (.argument tree) (.opening :: atoms ++ [.closing]) :=
      .group rfl derives rfl
    have regroup : Atom.opening :: (atoms ++ .closing :: others) =
        .opening :: atoms ++ [.closing] ++ others := by
      simp
    refine ⟨.opening :: (atoms ++ .closing :: others), ?_, ?_, ?_⟩
    · rw [toList_parenthesized_cons]
      exact (scans.group scanned).space (by decide)
    · rw [regroup]
      exact derives_arguments_cons group arguments
    · simp [no_assign, no_assign_others]

/-- A head in front of its arguments. -/
theorem expresses_juxtaposed {head : String} {atom : Atom} (scanned : Atom.scan head = .ok [atom])
    (role : Symbol.role atom = .operand) {texts : List String} {first : Tree Atom}
    {more : List (Tree Atom)}
    (all : List.Forall₂ (fun text tree => Expresses text (.program tree)) texts (first :: more)) :
    Expresses (juxtaposed head texts) (.program (.application atom first more)) := by
  obtain ⟨atoms, scans, arguments, no_assign⟩ := exists_arguments all
  have unit : Derives (.unit true (.application atom first more)) (atom :: atoms) :=
    .application role arguments
  have whole := Derives.single (.statement unit .noOperations)
  rw [statementTree, if_pos rfl, List.append_nil] at whole
  have other : atom ≠ .operator .assign := by
    intro same
    rw [same] at role
    contradiction
  refine ⟨atom :: atoms, Atom.scan_of_scans ?_, whole, ?_⟩
  · cases all with
    | cons _ _ =>
      rw [toList_parenthesized_cons] at scans
      rw [juxtaposed, String.toList_append, toList_parenthesized_cons]
      exact scans.before (Atom.endsAtoms_of_isSpace (by decide)) scanned
  · simp [no_assign, other.symm]

/-- One `$` more. -/
theorem Expresses.applied {function argument : String} {left right : Tree Atom}
    (h : Expresses function (.argument left)) (h' : Expresses argument (.program right)) :
    Expresses ("(" ++ (function ++ " $ (" ++ argument ++ ")") ++ ")")
      (.argument (.node .apply left right)) := by
  obtain ⟨atoms, scanned, derives, no_assign⟩ := h
  obtain ⟨others, scanned', derives', no_assign'⟩ := h'
  have group : Derives (.argument right) (.opening :: others ++ [.closing]) :=
    .group rfl derives' rfl
  have operations : Derives (.operations [(.apply, right)])
      (.operator .apply :: (.opening :: others ++ [.closing]) ++ []) :=
    .operation rfl (by decide) (.plain group) .noOperations
  have inside := Derives.single (.statement (.plain derives) operations)
  rw [statementTree, if_neg Bool.false_ne_true, climb_cons_taken rfl, climb_nil, climb_nil]
    at inside
  have text : (function ++ " $ (" ++ argument ++ ")").toList =
      function.toList ++ ' ' :: (Operator.apply.symbol.toList ++ ' ' ::
        '(' :: (argument.toList ++ ')' :: [])) := by
    simp [Operator.symbol]
  have argument_read : Atom.Scans (' ' :: '(' :: (argument.toList ++ [')']))
      (.opening :: (others ++ [.closing])) :=
    (Atom.scans_nil.group scanned').space (by decide)
  have behind := (argument_read.operator .apply).space (c := ' ') (by decide)
  have inner : Atom.scan (function ++ " $ (" ++ argument ++ ")") =
      .ok (atoms ++ .operator .apply :: .opening :: (others ++ [.closing])) := by
    refine Atom.scan_of_scans ?_
    rw [text]
    exact behind.before (Atom.endsAtoms_of_isSpace (by decide)) scanned
  refine ⟨_, Atom.scan_parenthesized inner, ?_, ?_⟩
  · rw [List.append_nil] at inside
    exact .group rfl inside rfl
  · simp [no_assign, no_assign']

theorem expresses_curried {function : String} {tree : Tree Atom}
    (h : Expresses function (.argument tree)) {texts : List String} {trees : List (Tree Atom)}
    (all : List.Forall₂ (fun text tree => Expresses text (.program tree)) texts trees) :
    Expresses (curriedText function texts) (.argument (curried tree trees)) := by
  induction all generalizing function tree with
  | nil => exact h
  | cons expresses _ ih => exact ih (h.applied expresses)

/-! ### Both spellings -/

theorem exists_trees {texts : List String}
    (expressions : ∀ text ∈ texts, ∃ tree, Expresses text (.program tree)) :
    ∃ trees, List.Forall₂ (fun text tree => Expresses text (.program tree)) texts trees := by
  induction texts with
  | nil => exact ⟨[], .nil⟩
  | cons text rest ih =>
    obtain ⟨first, others⟩ := List.forall_mem_cons.1 expressions
    obtain ⟨tree, expresses⟩ := first
    obtain ⟨trees, all⟩ := ih others
    exact ⟨tree :: trees, .cons expresses all⟩

theorem role_of_ofAtom {atom : Atom} {operand : Operand}
    (h : Operand.ofAtom atom = .ok operand) : Symbol.role atom = .operand := by
  cases atom with
  | operator op => contradiction
  | opening => contradiction
  | closing => contradiction
  | _ => rfl

/-- A literal or a name in front of arguments in parentheses has a value exactly if it has one when
it is applied to them by `$`, one after the other.  The values are the same but for the numbers of
functions made on the way, and wherever either evaluation ends, the bindings are as they were.  So
it is in every session that numbered the functions bound in it, as evaluations do. -/
theorem juxtaposition_curried {head : String} {atom : Atom} {operand : Operand}
    (scanned : Atom.scan head = .ok [atom]) (head_operand : Operand.ofAtom atom = .ok operand)
    {texts : List String} (filled : texts ≠ [])
    (expressions : ∀ text ∈ texts, ∃ tree, Expresses text (.program tree)) {s : Session}
    (numbered : s.Numbered) (depth : Nat) :
    (Outcome.IsOk ((evaluate depth (juxtaposed head texts)).run s) ↔
        Outcome.IsOk ((evaluate depth (curriedText head texts)).run s)) ∧
      (∀ v w after after', (evaluate depth (juxtaposed head texts)).run s = some (.ok v, after) →
        (evaluate depth (curriedText head texts)).run s = some (.ok w, after') →
        ∃ pairs, Renumbers s.nextId pairs ∧ v.Alike pairs w) ∧
      ∀ source, source = juxtaposed head texts ∨ source = curriedText head texts →
        ∀ outcome after, (evaluate depth source).run s = some (outcome, after) →
          after.env = s.env := by
  obtain ⟨trees, all⟩ := exists_trees expressions
  obtain ⟨first, more, rfl⟩ : ∃ first more, trees = first :: more := by
    cases all with
    | nil => contradiction
    | cons _ _ => exact ⟨_, _, rfl⟩
  have role := role_of_ofAtom head_operand
  have left := expresses_juxtaposed scanned role all
  have right := (expresses_curried (expresses_leaf scanned role) all).program
  have no_assign : .operator .assign ∉ postorderAll (first :: more) := by
    intro member
    refine left.no_assign ?_
    rw [postorder_application]
    exact List.mem_append_left _ member
  have same := sameValue_curried (fun matched => alike_call matched depth) numbered head_operand
    first more no_assign
  rw [← left.evaluate_eq, ← right.evaluate_eq] at same
  refine ⟨same.isOk_iff, ?_, ?_⟩
  · intro v w after after' ran ran'
    rw [ran, ran'] at same
    exact same.exists_renumbering
  · intro source either outcome after ran
    have kept : Keeps (evaluate depth source) := by
      rcases either with rfl | rfl
      · exact left.keeps depth
      · exact right.keeps depth
    exact (kept s outcome after ran).1.symm

/-- `cos` is the second function made on the one side and the third on the other. -/
theorem juxtaposition_curried_renumbered :
    juxtaposed "head" ["assert , 0", "cos"] = "head (assert , 0) (cos)" ∧
      curriedText "head" ["assert , 0", "cos"] = "((head $ (assert , 0)) $ (cos))" ∧
      (evaluate 0 "head (assert , 0) (cos)").run .initial =
        some (.ok (.func (.builtin 1 .cos)), ⟨.empty, 3⟩) ∧
      (evaluate 0 "((head $ (assert , 0)) $ (cos))").run .initial =
        some (.ok (.func (.builtin 2 .cos)), ⟨.empty, 3⟩) ∧
      ∃ pairs, Renumbers 0 pairs ∧
        (Value.func (.builtin 1 .cos)).Alike pairs (.func (.builtin 2 .cos)) := by
  have juxtaposition : juxtaposed "head" ["assert , 0", "cos"] = "head (assert , 0) (cos)" := by
    decide
  have currying : curriedText "head" ["assert , 0", "cos"] = "((head $ (assert , 0)) $ (cos))" := by
    decide
  have scanned : Atom.scan "head (assert , 0) (cos)" = .ok [.identifier "head", .opening,
      .identifier "assert", .operator .zip, .int 0, .closing, .opening, .identifier "cos",
      .closing] := by
    decide +kernel
  have reordered : reorder [Atom.identifier "head", .opening, .identifier "assert",
      .operator .zip, .int 0, .closing, .opening, .identifier "cos", .closing] =
      .ok [.operand (.identifier "assert"), .operand (.int 0), .operator .zip,
        .operand (.identifier "cos"), .apply (.identifier "head") 2] := by
    decide +kernel
  have scanned' : Atom.scan "((head $ (assert , 0)) $ (cos))" = .ok [.opening, .opening,
      .identifier "head", .operator .apply, .opening, .identifier "assert", .operator .zip, .int 0,
      .closing, .closing, .operator .apply, .opening, .identifier "cos", .closing, .closing] := by
    decide +kernel
  have reordered' : reorder [Atom.opening, .opening, .identifier "head", .operator .apply,
      .opening, .identifier "assert", .operator .zip, .int 0, .closing, .closing, .operator .apply,
      .opening, .identifier "cos", .closing, .closing] =
      .ok [.operand (.identifier "head"), .operand (.identifier "assert"), .operand (.int 0),
        .operator .zip, .operator .apply, .operand (.identifier "cos"), .operator .apply] := by
    decide +kernel
  have ran : (evaluate 0 "head (assert , 0) (cos)").run .initial =
      some (.ok (.func (.builtin 1 .cos)), ⟨.empty, 3⟩) := by
    rw [evaluate, evaluateWith_eq _ scanned reordered]
    rfl
  have ran' : (evaluate 0 "((head $ (assert , 0)) $ (cos))").run .initial =
      some (.ok (.func (.builtin 2 .cos)), ⟨.empty, 3⟩) := by
    rw [evaluate, evaluateWith_eq _ scanned' reordered']
    rfl
  have pair : Atom.scan "assert , 0" = .ok [.identifier "assert", .operator .zip, .int 0] := by
    decide +kernel
  have name : Atom.scan "cos" = .ok [.identifier "cos"] := by
    decide +kernel
  have expressions : ∀ text ∈ ["assert , 0", "cos"],
      ∃ tree, Expresses text (.program tree) := by
    have zipped : Derives (.operations [(.zip, .leaf (.int 0))]) [Atom.operator .zip, .int 0] :=
      .operation rfl (by decide) (.plain (.operand rfl)) .noOperations
    intro text member
    rcases List.mem_pair.1 member with rfl | rfl
    · exact ⟨_, _, pair, .single (.statement (.plain (.operand rfl)) zipped), by decide⟩
    · exact ⟨_, _, name, .single (.statement (.plain (.operand rfl)) .noOperations), by decide⟩
  have head_scanned : Atom.scan "head" = .ok [.identifier "head"] := by
    decide +kernel
  have both := juxtaposition_curried head_scanned rfl (List.cons_ne_nil _ _) expressions
    (numbered_empty 0) 0
  rw [juxtaposition, currying] at both
  exact ⟨juxtaposition, currying, ran, ran', both.2.1 _ _ _ _ ran ran'⟩

end ShellExpr.Machine
