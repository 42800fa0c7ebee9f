import ShellExpr.Proofs.Height
import ShellExpr.Proofs.Machine.Interchange
import ShellExpr.Proofs.Machine.TreeEval

/-!
# Arguments at once and one by one

An application evaluates all its arguments before it takes any of their values, from the last to the
first, and only then applies the head to one after the other.  Under `$` the head has been applied
to the first argument before the second is evaluated.  Where no argument assigns, the two are worth
the same: an argument more is an exchange of two evaluations that keep the bindings.
-/

namespace ShellExpr

open Machine Eval

variable {pairs : Nat → Nat → Prop} {s t : Session} {call : Call}

namespace Tree

/-! ### Values of trees -/

theorem evalAll_eq_steps (call : Call) (trees : List (Tree Atom)) :
    evalAll call trees = (do
      let stack ← (postorderAll trees).foldlM (step call) []
      pure stack.reverse) := by
  rw [foldlM_postorderAll]
  simp only [List.append_nil, bind_assoc, pure_bind, List.reverse_reverse, bind_pure]

theorem value_eq_steps (call : Call) (tree : Tree Atom) :
    tree.value call = (do
      let stack ← tree.postorder.foldlM (step call) []
      finish stack) := by
  rw [foldlM_postorder]
  simp only [bind_assoc, pure_bind]
  rfl

theorem evalAll_concat (call : Call) (trees : List (Tree Atom)) (last : Tree Atom) :
    evalAll call (trees ++ [last]) = (do
      let operands ← evalAll call trees
      let operand ← last.eval call
      pure (operands ++ [operand])) := by
  induction trees with
  | nil => simp only [List.nil_append, evalAll, pure_bind]
  | cons tree rest ih =>
    simp only [List.cons_append, evalAll, ih, bind_assoc, pure_bind]

/-- What a head makes of some operands, once it is an operand itself. -/
def applyAll (call : Call) (head : Operand) (operands : List Operand) : Eval Value := do
  let vs ← resolveAll operands
  let f ← resolve head
  vs.foldlM (apply call) f

theorem applyAll_concat (call : Call) (head : Operand) (operands : List Operand)
    (last : Operand) :
    applyAll call head (operands ++ [last]) = (do
      let v ← resolve last
      let u ← applyAll call head operands
      apply call u v) := by
  simp only [applyAll, resolveAll_concat, bind_assoc, pure_bind, List.foldlM_append,
    List.foldlM_cons, List.foldlM_nil, bind_pure]

theorem value_apply (call : Call) (left right : Tree Atom) :
    (node .apply left right).value call = (do
      let function ← left.eval call
      let v ← right.value call
      let u ← resolve function
      apply call u v) := by
  simp only [value, eval, combine, binary, broadcastRule?, bind_assoc, pure_bind, resolve,
    bind_pure]

section

variable {head : Atom} {operand : Operand} (head_operand : Operand.ofAtom head = .ok operand)

include head_operand

theorem value_application (call : Call) (first : Tree Atom) (more : List (Tree Atom)) :
    (application head first more).value call = (do
      let operands ← evalAll call (first :: more)
      applyAll call operand operands) := by
  simp only [value, eval, evalAll, applyHead, applyAll, head_operand, ofExcept_ok, bind_assoc,
    pure_bind, resolve, bind_pure]

/-- The last argument of an application is evaluated and looked up before the head is applied to the
others. -/
theorem value_application_concat (call : Call) (first : Tree Atom) (more : List (Tree Atom))
    (last : Tree Atom) :
    (application head first (more ++ [last])).value call = (do
      let operands ← evalAll call (first :: more)
      let v ← last.value call
      let u ← applyAll call operand operands
      apply call u v) := by
  rw [value_application head_operand, ← List.cons_append, evalAll_concat]
  simp only [bind_assoc, pure_bind, applyAll_concat, value]

theorem value_apply_leaf (call : Call) (first : Tree Atom) :
    (node .apply (leaf head) first).value call = (application head first []).value call := by
  rw [value_application head_operand, value_apply]
  simp only [value, eval, evalAll, applyAll, resolveAll, head_operand, ofExcept_ok, bind_assoc,
    pure_bind, bind_pure, List.foldlM_cons, List.foldlM_nil]

end

/-- Applied by `$` to one argument after the other. -/
def curried (function : Tree Atom) (arguments : List (Tree Atom)) : Tree Atom :=
  arguments.foldl (node .apply) function

theorem curried_cons (function first : Tree Atom) (more : List (Tree Atom)) :
    curried function (first :: more) = curried (node .apply function first) more :=
  rfl

theorem curried_concat (function : Tree Atom) (arguments : List (Tree Atom)) (last : Tree Atom) :
    curried function (arguments ++ [last]) = node .apply (curried function arguments) last :=
  List.foldl_concat ..

theorem eval_apply (call : Call) (left right : Tree Atom) :
    (node .apply left right).eval call = (do
      let v ← (node .apply left right).value call
      pure (.value v)) := by
  simp only [value, eval, combine, bind_assoc, pure_bind, resolve]

theorem eval_curried_apply (call : Call) (left right : Tree Atom) (arguments : List (Tree Atom)) :
    (curried (node .apply left right) arguments).eval call = (do
      let v ← (curried (node .apply left right) arguments).value call
      pure (.value v)) := by
  induction arguments using List.reverseRecOn with
  | nil => exact eval_apply call left right
  | append_singleton arguments last _ =>
    rw [curried_concat]
    exact eval_apply call _ last

theorem value_curried_concat (call : Call) (left right : Tree Atom) (arguments : List (Tree Atom))
    (last : Tree Atom) :
    (curried (node .apply left right) (arguments ++ [last])).value call = (do
      let u ← (curried (node .apply left right) arguments).value call
      let v ← last.value call
      apply call u v) := by
  rw [curried_concat, value_apply, eval_curried_apply]
  simp only [bind_assoc, pure_bind, resolve]

end Tree

/-! ### Evaluations without assignments -/

namespace Machine

open ShellExpr.Tree

theorem inView_all (items : List (Postfix Atom)) : InView (fun _ => True) items :=
  ⟨fun _ _ => trivial, fun _ _ _ => trivial, fun _ _ => trivial⟩

theorem alike_evalAll (matched : Matched pairs) (calls : CallsAlike pairs call)
    (joined : Joined pairs (fun _ => True) s t) (trees : List (Tree Atom)) :
    RunsAlike pairs (fun _ => True) (StackAlike (fun _ => True)) (evalAll call trees)
      (evalAll call trees) s t := by
  rw [evalAll_eq_steps]
  refine (alike_steps matched calls (inView_all _) joined (fun _ member => member) .nil).bind ?_
  intro s' t' stack stack' onward alike
  exact runsAlike_pure onward.joined (List.rel_reverse alike)

theorem alike_value (matched : Matched pairs) (calls : CallsAlike pairs call)
    (joined : Joined pairs (fun _ => True) s t) (tree : Tree Atom) :
    RunsAlike pairs (fun _ => True) Value.Alike (tree.value call) (tree.value call) s t := by
  rw [value_eq_steps, ← execute_eq]
  exact alike_execute matched calls (inView_all _) joined

theorem keeps_evalAll {trees : List (Tree Atom)}
    (no_assign : .operator .assign ∉ postorderAll trees) : Keeps (evalAll call trees) := by
  have steps := moves_steps (allows_eq no_assign) call (fun _ member => member)
    (fun _ => nofun : StackRefers (postorderAll trees) [])
  rw [evalAll_eq_steps]
  exact (keeps_of_moves steps).bind fun stack => keeps_pure stack.reverse

theorem keeps_value {tree : Tree Atom} (no_assign : .operator .assign ∉ tree.postorder) :
    Keeps (tree.value call) := by
  rw [value_eq_steps, ← execute_eq]
  exact moves_execute (allows_eq no_assign) call

theorem alike_resolveAll (joined : Joined pairs (fun _ => True) s t)
    {operands operands' : List Operand}
    (alike : StackAlike (fun _ => True) (Known pairs s.nextId t.nextId) operands operands') :
    RunsAlike pairs (fun _ => True) AlikeItems (resolveAll operands) (resolveAll operands')
      s t := by
  induction alike with
  | nil => exact runsAlike_pure joined .nil
  | cons first rest ih =>
    refine ih.bind ?_
    intro s₁ t₁ vs ws onward values
    refine (alike_resolve onward.joined (first.mono onward.known)).bind ?_
    intro s₂ t₂ v w later value
    exact runsAlike_pure later.joined (.cons value (values.mono later.known))

theorem alike_applyAll (calls : CallsAlike pairs call) (joined : Joined pairs (fun _ => True) s t)
    {head head' : Operand} {operands operands' : List Operand}
    (function : OperandAlike (fun _ => True) (Known pairs s.nextId t.nextId) head head')
    (alike : StackAlike (fun _ => True) (Known pairs s.nextId t.nextId) operands operands') :
    RunsAlike pairs (fun _ => True) Value.Alike (applyAll call head operands)
      (applyAll call head' operands') s t := by
  refine (alike_resolveAll joined alike).bind ?_
  intro s₁ t₁ vs ws onward values
  refine (alike_resolve onward.joined (function.mono onward.known)).bind ?_
  intro s₂ t₂ f g later same
  exact alike_applications calls later.joined same (values.mono later.known)

theorem keeps_resolve (operand : Operand) : Keeps (resolve operand) :=
  moves_resolve (allows_eq List.not_mem_nil) operand

theorem keeps_resolveAll (operands : List Operand) : Keeps (resolveAll operands) := by
  induction operands with
  | nil => exact keeps_pure []
  | cons operand rest ih =>
    refine ih.bind fun vs => ?_
    exact (keeps_resolve operand).bind fun v => keeps_pure (v :: vs)

theorem keeps_applyAll (head : Operand) (operands : List Operand) :
    Keeps (applyAll call head operands) := by
  refine (keeps_resolveAll operands).bind fun vs => ?_
  refine (keeps_resolve head).bind fun f => ?_
  exact moves_applications (allows_eq List.not_mem_nil) call f vs

/-! ### One exchange for each further argument -/

section

variable (calls : ∀ {pairs : Nat → Nat → Prop}, Matched pairs → CallsAlike pairs call)
  (numbered : s.Numbered)

include calls numbered

theorem steady_value {tree : Tree Atom} (no_assign : .operator .assign ∉ tree.postorder) :
    Steady s (tree.value call) where
  keeps := keeps_value no_assign
  alike renumbers left right inStep :=
    alike_value renumbers.matched (calls renumbers.matched)
      (numbered.renumbered renumbers left right inStep) tree

theorem steady_applyAll {atom : Atom} {head : Operand} (h : Operand.ofAtom atom = .ok head)
    {operands : List Operand}
    (alike : StackAlike (fun _ => True) (Known Eq s.nextId s.nextId) operands operands) :
    Steady s (applyAll call head operands) where
  keeps := keeps_applyAll head operands
  alike {pairs m n} renumbers left right inStep := by
    have known (a b : Nat) (same : Known Eq s.nextId s.nextId a b) : Known pairs m n a b := by
      obtain ⟨rfl, small, _⟩ := same
      exact ⟨renumbers.keeps a small, Nat.lt_of_lt_of_le small left,
        Nat.lt_of_lt_of_le small right⟩
    exact alike_applyAll (calls renumbers.matched)
      (numbered.renumbered renumbers left right inStep) (alike_ofAtom (fun _ _ => trivial) h)
      (alike.mono known)

/-- The operands of the first arguments and the session behind them. -/
theorem evalAll_outcome {trees : List (Tree Atom)}
    (no_assign : .operator .assign ∉ postorderAll trees) {operands : List Operand}
    {after : Session} (ran : (evalAll call trees).run s = some (.ok operands, after)) :
    after.env = s.env ∧ s.nextId ≤ after.nextId ∧ after.Numbered ∧
      StackAlike (fun _ => True) (Known Eq after.nextId after.nextId) operands operands := by
  have kept := (keeps_evalAll no_assign s _ after ran).1
  have runs := alike_evalAll matched_eq (calls matched_eq) numbered.joined trees
  unfold RunsAlike at runs
  rw [ran] at runs
  cases runs with
  | ok onward alike => exact ⟨kept.symm, onward.left, numbered_of_joined onward.joined, alike⟩

/-- The last argument of an application may be evaluated when the head has been applied to the
others. -/
theorem sameValue_application_concat {head : Atom} {operand : Operand}
    (head_operand : Operand.ofAtom head = .ok operand) {first last : Tree Atom}
    {more : List (Tree Atom)} (no_assign : .operator .assign ∉ postorderAll (first :: more))
    (no_assign_last : .operator .assign ∉ last.postorder) :
    SameValue s (((Tree.application head first (more ++ [last])).value call).run s)
      ((do
        let u ← (Tree.application head first more).value call
        let v ← last.value call
        apply call u v : Eval Value).run s) := by
  rw [value_application_concat head_operand, value_application head_operand, bind_assoc]
  refine SameValue.after _ fun operands after ran => ?_
  obtain ⟨kept, later, numbered', alike⟩ := evalAll_outcome calls numbered no_assign ran
  obtain ⟨env, m⟩ := after
  obtain rfl : env = s.env := kept
  -- Behind the operands of the other arguments, their values and the last one change places.
  exact (Steady.swap calls numbered' (steady_value calls numbered' no_assign_last)
    (steady_applyAll calls numbered' head_operand alike)).of_later later

theorem sameValue_applied {x y : Eval Value} (h : SameValue s (x.run s) (y.run s))
    {argument : Tree Atom} (no_assign : .operator .assign ∉ argument.postorder) :
    SameValue s
      ((do
        let u ← x
        let v ← argument.value call
        apply call u v : Eval Value).run s)
      ((do
        let u ← y
        let v ← argument.value call
        apply call u v : Eval Value).run s) := by
  refine h.bind ?_ ?_
  · intro u
    exact (keeps_value no_assign).bind fun v => keeps_apply call u v
  · intro pairs m n u u' renumbers left right inStep same
    have joined := numbered.renumbered renumbers left right inStep
    refine (alike_value renumbers.matched (calls renumbers.matched) joined argument).bind ?_
    intro s' t' v v' onward value
    exact alike_apply (calls renumbers.matched) onward.joined (same.mono onward.known) value

/-- An application of a head to several trees is worth what the head applied by `$` to one tree
after the other is worth. -/
theorem sameValue_curried {head : Atom} {operand : Operand}
    (head_operand : Operand.ofAtom head = .ok operand) (first : Tree Atom)
    (more : List (Tree Atom))
    (no_assign : .operator .assign ∉ postorderAll (first :: more)) :
    SameValue s (((Tree.application head first more).value call).run s)
      (((curried (leaf head) (first :: more)).value call).run s) := by
  rw [curried_cons]
  induction more using List.reverseRecOn with
  | nil =>
    have whole : .operator .assign ∉ (Tree.application head first []).postorder := by
      rw [postorder_application]
      simpa using no_assign
    rw [curried, List.foldl_nil, value_apply_leaf head_operand]
    exact (steady_value calls numbered whole).sameValue
  | append_singleton more last ih =>
    rw [← List.cons_append, postorderAll_append, postorderAll_singleton, List.mem_append,
      not_or] at no_assign
    obtain ⟨no_assign_front, no_assign_last⟩ := no_assign
    -- First the last argument goes behind the application to the others, then this application is
    -- replaced by what it is worth.
    have exchanged :=
      sameValue_application_concat calls numbered head_operand no_assign_front no_assign_last
    have continued := sameValue_applied calls numbered (ih no_assign_front) no_assign_last
    rw [value_curried_concat]
    exact exchanged.trans continued

end

end Machine

end ShellExpr
