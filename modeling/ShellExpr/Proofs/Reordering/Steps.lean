import Mathlib.Logic.Relation
import ShellExpr.Proofs.Reordering.Balance

/-!
# Runs of steps

A pass that succeeds is a run of steps up to the end of the tokens.  What every step keeps holds at
every point of it.
-/

namespace ShellExpr.Reordering

variable {α : Type} [Symbol α] {group : List α → Except FatalError (List (Postfix α))}

/-! ### From token to token -/

/-- A state with the tokens ahead of it, and those that one step leads to. -/
inductive Advances (group : List α → Except FatalError (List (Postfix α))) :
    Reordering α × List α → Reordering α × List α → Prop where
  | step {s next : Reordering α} {token : α} {rest behind : List α}
      (h : step group s token rest = .ok (next, behind)) :
      Advances group (s, token :: rest) (next, behind)

abbrev Steps (group : List α → Except FatalError (List (Postfix α))) :
    Reordering α × List α → Reordering α × List α → Prop :=
  Relation.ReflTransGen (Advances group)

/-- From wherever steps lead to, the pass comes to the same end. -/
theorem Steps.run_eq {first last : Reordering α × List α} (h : Steps group first last) :
    run group first.1 first.2 = run group last.1 last.2 := by
  induction h with
  | refl => rfl
  | tail _ advances ih =>
    rw [ih]
    obtain ⟨found⟩ := advances
    rw [run_cons, found]

/-- What every step keeps holds wherever steps lead to. -/
theorem Steps.keeps {holds : Reordering α → Prop}
    (keeps : ∀ {s next : Reordering α} {token : α} {rest behind : List α}, holds s →
      step group s token rest = .ok (next, behind) → holds next)
    {first last : Reordering α × List α} (h : Steps group first last) (initially : holds first.1) :
    holds last.1 := by
  induction h with
  | refl => exact initially
  | tail _ advances ih =>
    obtain ⟨found⟩ := advances
    exact keeps ih found

theorem steps_of_run {s : Reordering α} {tokens : List α} {items : List (Postfix α)}
    (h : run group s tokens = .ok items) :
    ∃ last, Steps group (s, tokens) (last, []) ∧ last.finish = .ok items :=
  finish_of_run (fun next behind => Steps group (s, tokens) (next, behind))
    (fun steps found => steps.tail (.step found)) .refl h

end ShellExpr.Reordering
