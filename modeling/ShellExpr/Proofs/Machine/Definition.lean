import ShellExpr.Proofs.Atom.Literal
import ShellExpr.Proofs.Machine.Bindings
import ShellExpr.Proofs.Reordering.Derivation

/-!
# Functions defined by a text

`f <- p -> "…"` binds `f` to a function whose body is the text that the literal stands for.  The
function keeps the bindings of the moment of its definition, so that every later application is an
evaluation of the body in those bindings, whatever was evaluated in between.
-/

namespace ShellExpr.Machine

open Eval Atom

/-! ### The text of a definition -/

/-- The text that defines the function `name` of one parameter, with the text of its body in a
literal. -/
def definition (name parameter body : String) : String :=
  name ++ " <- " ++ parameter ++ " -> " ++ String.ofList (literal body)

theorem scan_definition {name parameter : String} (named : isIdentifier name = true)
    (parametrised : isIdentifier parameter = true) (body : String) :
    Atom.scan (definition name parameter body) =
      .ok [.identifier name, .operator .assign, .identifier parameter, .operator .abstract,
        .str body] := by
  have text : (definition name parameter body).toList =
      name.toList ++ ' ' :: (Operator.assign.symbol.toList ++ ' ' ::
        (parameter.toList ++ ' ' :: (Operator.abstract.symbol.toList ++ ' ' ::
          (literal body ++ [])))) := by
    simp [definition, Operator.symbol]
  refine scan_of_scans ?_
  rw [text]
  have body_read := (scans_nil.literal body).space (c := ' ') (by decide)
  have arrow_read := (body_read.operator .abstract).space (c := ' ') (by decide)
  have parameter_read :=
    (arrow_read.identifier parametrised (by simp; decide)).space (c := ' ') (by decide)
  have assign_read := (parameter_read.operator .assign).space (c := ' ') (by decide)
  exact assign_read.identifier named (by simp; decide)

theorem reorder_definition (name parameter body : String) :
    reorder [Atom.identifier name, .operator .assign, .identifier parameter, .operator .abstract,
        .str body] =
      .ok [.operand (.identifier name), .operand (.identifier parameter), .operand (.str body),
        .operator .abstract, .operator .assign] := by
  have named : Derives (.argument (.leaf (.identifier name))) [Atom.identifier name] := .operand rfl
  have bound : Derives (.argument (.leaf (.identifier parameter))) [Atom.identifier parameter] :=
    .operand rfl
  have text : Derives (.argument (.leaf (.str body))) [Atom.str body] := .operand rfl
  have abstraction : Derives (.operations [(.abstract, .leaf (.str body))])
      [Atom.operator .abstract, .str body] :=
    .operation rfl (by decide) (.plain text) .noOperations
  have program := Derives.single (.statement (.plain named)
    (.operation (rfl : Symbol.role (Atom.operator .assign) = _) (by decide) (.plain bound)
      abstraction))
  refine (Reordering.reorder_of_reads (Reordering.reads_of_derives program)).trans ?_
  rw [statementTree, if_neg Bool.false_ne_true, climb_cons_taken rfl, climb_cons_taken (by decide),
    climb_nil, climb_nil, climb_nil]
  rfl

/-- The name is bound to a function with the bindings in front of the definition. -/
theorem evaluate_definition {name parameter : String} (named : isIdentifier name = true)
    (parametrised : isIdentifier parameter = true) (body : String) (depth : Nat) (s : Session) :
    (evaluate depth (definition name parameter body)).run s =
      some (.ok (.func (.lambda s.nextId parameter body s.env)),
        s.next.assign name (.func (.lambda s.nextId parameter body s.env))) := by
  rw [evaluate, evaluateWith_eq _ (scan_definition named parametrised body)
    (reorder_definition name parameter body)]
  rfl

/-! ### Evaluations in between -/

/-- Evaluations of texts of a certain kind one after the other, each with its calls nested as deep
as it takes, and whatever they end with. -/
inductive Evaluations (texts : String → Prop) : Session → Session → Prop where
  | none (s : Session) : Evaluations texts s s
  | next {s middle after : Session} {source : String} {depth : Nat}
      {outcome : Except FatalError Value} (text : texts source)
      (ran : (evaluate depth source).run s = some (outcome, middle))
      (later : Evaluations texts middle after) : Evaluations texts s after

theorem Evaluations.lookup {name : String} {s after : Session}
    (h : Evaluations (fun source => ¬Mentions source name) s after) :
    after.env.lookup name = s.env.lookup name := by
  induction h with
  | none => rfl
  | next unmentioned ran _ ih => exact ih.trans (lookup_evaluate unmentioned ran)

/-! ### Applications -/

theorem apply_lambda (depth number : Nat) (parameter body : String) (scope : Environment Value)
    (argument : Value) (s : Session) :
    (apply (call (depth + 1)) (.func (.lambda number parameter body scope)) argument).run s =
      ((evaluate depth body).run ⟨scope.assign parameter argument, s.nextId⟩).map
        fun (outcome, inner) => (.ok (settled outcome), { s with nextId := inner.nextId }) := by
  rw [apply_func, call_lambda, Option.map_map]
  rfl

/-- A definition binds its name, and only its name, to a function.  After any evaluations that do
not mention the name it still is that function, and applying it evaluates the text of the body in
the bindings in front of the definition with the parameter bound to the argument. -/
theorem definition_faithful {name parameter : String} (named : isIdentifier name = true)
    (parametrised : isIdentifier parameter = true) (body : String) (s : Session) :
    ∃ (f : Func) (after : Session),
      (∀ depth, (evaluate depth (definition name parameter body)).run s =
        some (.ok (.func f), after)) ∧
      after.env = s.env.assign name (.func f) ∧
      ∀ later, Evaluations (fun source => ¬Mentions source name) after later →
        later.env.lookup name = some (.func f) ∧
        ∀ depth argument, (apply (call (depth + 1)) (.func f) argument).run later =
          ((evaluate depth body).run ⟨s.env.assign parameter argument, later.nextId⟩).map
            fun (outcome, inner) =>
              (.ok (settled outcome), { later with nextId := inner.nextId }) := by
  refine ⟨.lambda s.nextId parameter body s.env, _,
    fun depth => evaluate_definition named parametrised body depth s, rfl, ?_⟩
  intro later evaluations
  refine ⟨?_, fun depth argument => apply_lambda depth _ parameter body s.env argument later⟩
  rw [evaluations.lookup]
  exact (Environment.lookup_assign _ _ _ _).trans (if_pos rfl)

/-- A body with a literal of its own, called after an assignment to its parameter and an expression
that cannot be read. -/
theorem definition_faithful_kept :
    isIdentifier "f" = true ∧ isIdentifier "x" = true ∧
      definition "f" "x" "\"\\\\\" ++ x" = "f <- x -> \"\\\"\\\\\\\\\\\" ++ x\"" ∧
      ∃ (f : Func) (after later : Session),
        (evaluate 0 (definition "f" "x" "\"\\\\\" ++ x")).run .initial =
          some (.ok (.func f), after) ∧
        Evaluations (fun source => ¬Mentions source "f") after later ∧
        later.env.lookup "x" = some (.int 2) ∧ later.env.lookup "f" = some (.func f) ∧
        (apply (call 1) (.func f) (.str "y")).run later = some (.ok (.str "\\y"), later) := by
  have assignment : Atom.scan "x <- 2" = .ok [.identifier "x", .operator .assign, .int 2] := by
    decide +kernel
  have reordered : reorder [Atom.identifier "x", .operator .assign, .int 2] =
      .ok [.operand (.identifier "x"), .operand (.int 2), .operator .assign] := by
    decide +kernel
  have assigned (s : Session) :
      (evaluate 0 "x <- 2").run s = some (.ok (.int 2), s.assign "x" (.int 2)) := by
    rw [evaluate, evaluateWith_eq _ assignment reordered]
    rfl
  have unread : Atom.scan "?" = .error (.grammar (.unexpected "?" 1)) := by
    decide +kernel
  have failed (s : Session) :
      (evaluate 0 "?").run s = some (.error (.grammar (.unexpected "?" 1)), s) := by
    rw [evaluate, evaluateWith, unread]
    rfl
  have body : Atom.scan "\"\\\\\" ++ x" =
      .ok [.str "\\", .operator .concat, .identifier "x"] := by
    decide +kernel
  have body_reordered : reorder [Atom.str "\\", .operator .concat, .identifier "x"] =
      .ok [.operand (.str "\\"), .operand (.identifier "x"), .operator .concat] := by
    decide +kernel
  obtain ⟨f, after, defined, bound, kept⟩ :=
    definition_faithful (by decide : isIdentifier "f" = true) (by decide : isIdentifier "x" = true)
      "\"\\\\\" ++ x" .initial
  have between : Evaluations (fun source => ¬Mentions source "f") after
      (after.assign "x" (.int 2)) := by
    refine .next ?_ (failed after) (.next ?_ (assigned after) (.none _))
    · rintro ⟨atoms, scanned, _⟩
      rw [unread] at scanned
      contradiction
    · rintro ⟨atoms, scanned, member⟩
      rw [assignment] at scanned
      cases scanned
      simp at member
  obtain ⟨still, applies⟩ := kept _ between
  refine ⟨by decide, by decide, by decide, f, after, _, defined 0, between, ?_, still, ?_⟩
  · exact (Environment.lookup_assign _ _ _ _).trans (if_pos rfl)
  · rw [applies 0, evaluate, evaluateWith_eq _ body body_reordered]
    rfl

end ShellExpr.Machine
