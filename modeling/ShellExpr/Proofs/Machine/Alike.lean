import ShellExpr.Proofs.Builtin.Alike
import ShellExpr.Proofs.Machine.Bindings
import ShellExpr.Proofs.Machine.Joined

/-!
# Two runs of an expression

From joined sessions an expression has outcomes that are alike, and leaves the sessions joined, if
all its names are among those that the sessions are joined by.  A lambda captures every binding
there is: where an expression makes one, all names have to be among them.

A call of a lambda runs its body in the bindings it captured, which are alike name by name, so the
induction is on how deep calls nest, and each body runs with all names in view.
-/

namespace ShellExpr.Machine

open Eval

variable {pairs : Nat → Nat → Prop} {names : String → Prop} {s t : Session}

/-! ### Stacks -/

/-- The same reference to one of the names, or values that are alike. -/
inductive OperandAlike (names : String → Prop) (pairs : Nat → Nat → Prop) :
    Operand → Operand → Prop where
  | value {v w : Value} (alike : v.Alike pairs w) : OperandAlike names pairs (.value v) (.value w)
  | reference {name : String} (seen : names name) :
      OperandAlike names pairs (.reference name) (.reference name)

/-- Operand by operand. -/
def StackAlike (names : String → Prop) (pairs : Nat → Nat → Prop) : Stack → Stack → Prop :=
  List.Forall₂ (OperandAlike names pairs)

theorem OperandAlike.mono {more : Nat → Nat → Prop} (h : ∀ a b, pairs a b → more a b)
    {o o' : Operand} (alike : OperandAlike names pairs o o') : OperandAlike names more o o' := by
  cases alike with
  | value alike => exact .value (alike.mono h)
  | reference seen => exact .reference seen

theorem StackAlike.mono {more : Nat → Nat → Prop} (h : ∀ a b, pairs a b → more a b)
    {stack stack' : Stack} (alike : StackAlike names pairs stack stack') :
    StackAlike names more stack stack' :=
  List.Forall₂.imp (fun _ _ operand => operand.mono h) alike

/-! ### Calls -/

/-- What comes of calls of functions numbered up to `m` and `n`. -/
inductive ResultsAlike (pairs : Nat → Nat → Prop) (m n : Nat) :
    Option (Value × Nat) → Option (Value × Nat) → Prop where
  | none : ResultsAlike pairs m n none none
  | some {v w : Value} {m' n' : Nat} (left : m ≤ m') (right : n ≤ n')
      (inStep : InStep pairs m' n') (alike : v.Alike (Known pairs m' n') w) :
      ResultsAlike pairs m n (some (v, m')) (some (w, n'))

/-- Functions that are alike make results that are alike of arguments that are alike. -/
def CallsAlike (pairs : Nat → Nat → Prop) (call : Call) : Prop :=
  ∀ {m n : Nat} {f g : Func} {v w : Value}, InStep pairs m n → f.Alike (Known pairs m n) g →
    v.Alike (Known pairs m n) w → ResultsAlike pairs m n (call f v m) (call g w n)

/-! ### Operands -/

theorem alike_resolve (joined : Joined pairs names s t) {o o' : Operand}
    (alike : OperandAlike names (Known pairs s.nextId t.nextId) o o') :
    RunsAlike pairs names Value.Alike (resolve o) (resolve o') s t := by
  cases alike with
  | value alike => exact runsAlike_pure joined alike
  | @reference name seen =>
    have bound := joined.bindings name seen
    change OutcomesAlike pairs names s t _ (resolveName name s) (resolveName name t)
    unfold resolveName
    generalize s.env.lookup name = left, t.env.lookup name = right at bound
    cases bound with
    | bound value => exact .ok joined.refl value
    | unbound =>
      cases Builtin.ofName? name with
      | none => exact .error _ joined.refl
      | some rule => exact .ok joined.next (.func (.builtin joined.inStep.known rule))

theorem alike_pop (joined : Joined pairs names s t) (needed : String) {stack stack' : Stack}
    (alike : StackAlike names (Known pairs s.nextId t.nextId) stack stack') :
    RunsAlike pairs names (fun known popped popped' =>
      OperandAlike names known popped.1 popped'.1 ∧ StackAlike names known popped.2 popped'.2)
      (pop needed stack) (pop needed stack') s t := by
  cases alike with
  | nil => exact runsAlike_fail joined _
  | cons top below => exact runsAlike_pure joined ⟨top, below⟩

theorem alike_popValue (joined : Joined pairs names s t) (needed : String) {stack stack' : Stack}
    (alike : StackAlike names (Known pairs s.nextId t.nextId) stack stack') :
    RunsAlike pairs names (fun known popped popped' =>
      popped.1.Alike known popped'.1 ∧ StackAlike names known popped.2 popped'.2)
      (popValue needed stack) (popValue needed stack') s t := by
  refine (alike_pop joined needed alike).bind ?_
  rintro s₁ t₁ ⟨top, below⟩ ⟨top', below'⟩ onward ⟨operand, rest⟩
  refine (alike_resolve onward.joined operand).bind ?_
  intro s₂ t₂ v w later value
  exact runsAlike_pure later.joined ⟨value, rest.mono later.known⟩

theorem alike_popArguments (joined : Joined pairs names s t) (needed : String) (arity : Nat)
    {taken taken' : List Value} {stack stack' : Stack}
    (values : AlikeItems (Known pairs s.nextId t.nextId) taken taken')
    (alike : StackAlike names (Known pairs s.nextId t.nextId) stack stack') :
    RunsAlike pairs names (fun known popped popped' =>
      AlikeItems known popped.1 popped'.1 ∧ StackAlike names known popped.2 popped'.2)
      (popArguments needed arity taken stack) (popArguments needed arity taken' stack') s t := by
  induction arity generalizing taken taken' stack stack' s t with
  | zero => exact runsAlike_pure joined ⟨values, alike⟩
  | succ arity ih =>
    refine (alike_popValue joined needed alike).bind ?_
    rintro s₁ t₁ ⟨v, below⟩ ⟨w, below'⟩ onward ⟨value, rest⟩
    exact ih onward.joined (.cons value (values.mono onward.known)) rest

/-! ### Operators -/

section

variable {call : Call}

theorem alike_abstraction (joined : Joined pairs names s t) (all : ∀ name, names name)
    {parameter parameter' body body' : Value}
    (first : parameter.Alike (Known pairs s.nextId t.nextId) parameter')
    (second : body.Alike (Known pairs s.nextId t.nextId) body') :
    RunsAlike pairs names Value.Alike (abstraction parameter body)
      (abstraction parameter' body') s t := by
  have failed : (Failure.unsupported .abstract parameter body).Alike
      (Known pairs s.nextId t.nextId) (Failure.unsupported .abstract parameter' body') := by
    rw [Failure.unsupported_eq .abstract first second]
    exact .error _
  change OutcomesAlike pairs names s t _ (abstraction parameter body s)
    (abstraction parameter' body' t)
  cases first with
  | str parameter =>
    cases second with
    | str body =>
      have scope (name : String) := (joined.bindings name (all name)).mono joined.next.known
      exact .ok joined.next (.func (.lambda joined.inStep.known parameter body scope))
    | _ => exact .ok joined.refl failed
  | _ => exact .ok joined.refl failed

theorem alike_apply (calls : CallsAlike pairs call) (joined : Joined pairs names s t)
    {head head' argument argument' : Value}
    (first : head.Alike (Known pairs s.nextId t.nextId) head')
    (second : argument.Alike (Known pairs s.nextId t.nextId) argument') :
    RunsAlike pairs names Value.Alike (apply call head argument)
      (apply call head' argument') s t := by
  have failed : (Failure.unsupported .apply head argument).Alike
      (Known pairs s.nextId t.nextId) (Failure.unsupported .apply head' argument') := by
    rw [Failure.unsupported_eq .apply first second]
    exact .error _
  cases first with
  | @func f g same =>
    have results := calls joined.inStep same second
    unfold RunsAlike
    rw [apply_func, apply_func]
    generalize call f argument s.nextId = left, call g argument' t.nextId = right at results
    cases results with
    | none => exact .none
    | some left right inStep alike => exact .ok (joined.renumber left right inStep) alike
  | error message => exact .ok joined.refl (.error message)
  | _ => exact .ok joined.refl failed

theorem congruent_of_broadcastRule? {op : Operator} {rule : Rule}
    (h : broadcastRule? op = some rule) : Operation.CongruentRule rule := by
  cases op <;> cases h
  · exact Operation.congruent_pow.total
  · exact Operation.congruent_mul
  · exact Operation.congruent_div.total
  · exact Operation.congruent_rem.total
  · exact Operation.congruent_add.total
  · exact Operation.congruent_sub.total
  · exact Operation.congruent_concat.total
  · exact Operation.congruent_bitAnd.total
  · exact Operation.congruent_bitOr.total
  · exact Operation.congruent_and.total
  · exact Operation.congruent_or.total
  · exact Operation.congruent_shl.total
  · exact Operation.congruent_shr.total

theorem alike_binary (matched : Matched pairs) (calls : CallsAlike pairs call)
    (joined : Joined pairs names s t) (op : Operator) {v w v' w' : Value}
    (first : v.Alike (Known pairs s.nextId t.nextId) w)
    (second : v'.Alike (Known pairs s.nextId t.nextId) w') :
    RunsAlike pairs names Value.Alike (binary call op v v') (binary call op w w') s t := by
  have known := matched.known s.nextId t.nextId
  unfold binary
  split
  · rename_i rule found
    exact runsAlike_ofOption joined
      (first.broadcast? (congruent_of_broadcastRule? found) second)
  split
  · exact runsAlike_pure joined (Operation.congruent_cons first second)
  · exact runsAlike_pure joined (Operation.congruent_zip first second)
  · exact alike_apply calls joined first second
  · rw [Operation.compare_eq known first second]
    exact runsAlike_ofExcept joined fun v found =>
      Value.alike_of_isFlat (Operation.isFlat_compare found)
  · exact runsAlike_pure joined second
  · exact runsAlike_fail joined _
  · exact runsAlike_fail joined _
  · rw [Operation.relation_eq known _ first second]
    exact runsAlike_ofExcept joined fun v found =>
      Value.alike_of_isFlat (Operation.isFlat_relation found)

/-! ### Steps -/

/-- The names in view are those that the items look up or bind, and all where they capture. -/
structure InView (names : String → Prop) (items : List (Postfix Atom)) : Prop where
  operand : ∀ name, .operand (.identifier name) ∈ items → names name
  head : ∀ name arity, .apply (.identifier name) arity ∈ items → names name
  capture : .operator .abstract ∈ items → ∀ name, names name

theorem alike_ofAtom {atom : Atom} (seen : ∀ name, atom = .identifier name → names name)
    {operand : Operand} (h : Operand.ofAtom atom = .ok operand) :
    OperandAlike names pairs operand operand := by
  unfold Operand.ofAtom at h
  split at h <;> cases h
  · exact .value (.int _)
  · exact .value (.real _)
  · exact .value (.str _)
  · exact .reference (seen _ rfl)

theorem alike_assign (joined : Joined pairs names s t) (name : String) {v w : Value}
    (value : v.Alike (Known pairs s.nextId t.nextId) w) :
    RunsAlike pairs names (fun _ _ _ => True) (assign name v) (assign name w) s t :=
  .ok (joined.assign name value) trivial

theorem alike_operator (matched : Matched pairs) (calls : CallsAlike pairs call)
    (joined : Joined pairs names s t) (op : Operator)
    (capture : op = .abstract → ∀ name, names name) {stack stack' : Stack}
    (alike : StackAlike names (Known pairs s.nextId t.nextId) stack stack') :
    RunsAlike pairs names (StackAlike names) (operator call op stack) (operator call op stack')
      s t := by
  unfold operator
  split
  · refine (alike_popValue joined _ alike).bind ?_
    rintro s₁ t₁ ⟨v, below⟩ ⟨w, below'⟩ onward₁ ⟨value, rest⟩
    refine (alike_pop onward₁.joined _ rest).bind ?_
    rintro s₂ t₂ ⟨target, below⟩ ⟨target', below'⟩ onward₂ ⟨operand, rest⟩
    have value := value.mono onward₂.known
    cases operand with
    | value other => exact runsAlike_fail onward₂.joined _
    | @reference name seen =>
      refine (alike_assign onward₂.joined name value).bind ?_
      intro s₃ t₃ _ _ onward₃ _
      have rest := rest.mono onward₃.known
      exact runsAlike_pure onward₃.joined (.cons (.value (value.mono onward₃.known)) rest)
  · refine (alike_popValue joined _ alike).bind ?_
    rintro s₁ t₁ ⟨body, below⟩ ⟨body', below'⟩ onward₁ ⟨text, rest⟩
    refine (alike_pop onward₁.joined _ rest).bind ?_
    rintro s₂ t₂ ⟨target, below⟩ ⟨target', below'⟩ onward₂ ⟨operand, rest⟩
    refine (alike_abstraction onward₂.joined (capture rfl) ?_ (text.mono onward₂.known)).bind ?_
    · cases operand with
      | value parameter => exact parameter
      | reference seen => exact .str _
    · intro s₃ t₃ f g onward₃ made
      exact runsAlike_pure onward₃.joined (.cons (.value made) (rest.mono onward₃.known))
  · refine (alike_pop joined _ alike).bind ?_
    rintro s₁ t₁ ⟨right, below⟩ ⟨right', below'⟩ onward₁ ⟨operand, rest⟩
    refine (alike_pop onward₁.joined _ rest).bind ?_
    rintro s₂ t₂ ⟨left, below⟩ ⟨left', below'⟩ onward₂ ⟨_, rest⟩
    exact runsAlike_pure onward₂.joined (.cons (operand.mono onward₂.known) rest)
  · refine (alike_popValue joined _ alike).bind ?_
    rintro s₁ t₁ ⟨right, below⟩ ⟨right', below'⟩ onward₁ ⟨second, rest⟩
    refine (alike_popValue onward₁.joined _ rest).bind ?_
    rintro s₂ t₂ ⟨left, below⟩ ⟨left', below'⟩ onward₂ ⟨first, rest⟩
    refine (alike_binary matched calls onward₂.joined op first (second.mono onward₂.known)).bind ?_
    intro s₃ t₃ v w onward₃ value
    exact runsAlike_pure onward₃.joined (.cons (.value value) (rest.mono onward₃.known))

theorem alike_applications (calls : CallsAlike pairs call) (joined : Joined pairs names s t)
    {f g : Value}
    {arguments arguments' : List Value} (head : f.Alike (Known pairs s.nextId t.nextId) g)
    (alike : AlikeItems (Known pairs s.nextId t.nextId) arguments arguments') :
    RunsAlike pairs names Value.Alike (arguments.foldlM (apply call) f)
      (arguments'.foldlM (apply call) g) s t := by
  induction arguments generalizing arguments' f g s t with
  | nil =>
    cases alike
    exact runsAlike_pure joined head
  | cons argument rest ih =>
    cases alike with
    | cons first others =>
      rw [List.foldlM_cons, List.foldlM_cons]
      refine (alike_apply calls joined head first).bind ?_
      intro s₁ t₁ v w onward value
      exact ih onward.joined value (others.mono onward.known)

theorem alike_application (calls : CallsAlike pairs call) (joined : Joined pairs names s t)
    {head : Atom}
    (seen : ∀ name, head = .identifier name → names name) (arity : Nat) {stack stack' : Stack}
    (alike : StackAlike names (Known pairs s.nextId t.nextId) stack stack') :
    RunsAlike pairs names (StackAlike names) (application call head arity stack)
      (application call head arity stack') s t := by
  refine (alike_popArguments joined _ arity .nil alike).bind ?_
  rintro s₁ t₁ ⟨arguments, below⟩ ⟨arguments', below'⟩ onward₁ ⟨values, rest⟩
  have operand := runsAlike_ofExcept (P := OperandAlike names) onward₁.joined
    fun operand => alike_ofAtom seen
  refine operand.bind ?_
  intro s₂ t₂ o o' onward₂ same
  refine (alike_resolve onward₂.joined same).bind ?_
  intro s₃ t₃ f g onward₃ function
  have values := values.mono (onward₂.trans onward₃).known
  refine (alike_applications calls onward₃.joined function values).bind ?_
  intro s₄ t₄ v w onward₄ value
  have rest := rest.mono ((onward₂.trans onward₃).trans onward₄).known
  exact runsAlike_pure onward₄.joined (.cons (.value value) rest)

variable {items : List (Postfix Atom)}

theorem alike_step (matched : Matched pairs) (calls : CallsAlike pairs call)
    (inView : InView names items) (joined : Joined pairs names s t) {item : Postfix Atom}
    (member : item ∈ items) {stack stack' : Stack}
    (alike : StackAlike names (Known pairs s.nextId t.nextId) stack stack') :
    RunsAlike pairs names (StackAlike names) (step call stack item) (step call stack' item)
      s t := by
  cases item with
  | operand atom =>
    have operand := runsAlike_ofExcept (P := OperandAlike names) joined
      fun operand => alike_ofAtom fun name same => inView.operand name (same ▸ member)
    refine operand.bind ?_
    intro s₁ t₁ o o' onward same
    exact runsAlike_pure onward.joined (.cons same (alike.mono onward.known))
  | operator op =>
    exact alike_operator matched calls joined op (fun same => inView.capture (same ▸ member)) alike
  | apply head arity =>
    exact alike_application calls joined (fun name same => inView.head name arity (same ▸ member))
      arity alike

/-! ### Runs -/

theorem alike_steps (matched : Matched pairs) (calls : CallsAlike pairs call)
    (inView : InView names items) (joined : Joined pairs names s t) {later : List (Postfix Atom)}
    (among : ∀ item ∈ later, item ∈ items) {stack stack' : Stack}
    (alike : StackAlike names (Known pairs s.nextId t.nextId) stack stack') :
    RunsAlike pairs names (StackAlike names) (later.foldlM (step call) stack)
      (later.foldlM (step call) stack') s t := by
  induction later generalizing stack stack' s t with
  | nil => exact runsAlike_pure joined alike
  | cons item rest ih =>
    obtain ⟨first, others⟩ := List.forall_mem_cons.1 among
    rw [List.foldlM_cons, List.foldlM_cons]
    refine (alike_step matched calls inView joined first alike).bind ?_
    intro s₁ t₁ next next' onward later
    exact ih onward.joined others later

theorem alike_finish (joined : Joined pairs names s t) {stack stack' : Stack}
    (alike : StackAlike names (Known pairs s.nextId t.nextId) stack stack') :
    RunsAlike pairs names Value.Alike (finish stack) (finish stack') s t := by
  cases alike with
  | nil => exact runsAlike_fail joined _
  | cons operand rest =>
    cases rest with
    | nil => exact alike_resolve joined operand
    | cons second others =>
      simp only [finish, List.length_cons, others.length_eq]
      exact runsAlike_fail joined _

theorem alike_execute (matched : Matched pairs) (calls : CallsAlike pairs call)
    (inView : InView names items) (joined : Joined pairs names s t) :
    RunsAlike pairs names Value.Alike (execute call items) (execute call items) s t := by
  rw [execute_eq]
  refine (alike_steps matched calls inView joined (fun _ member => member) .nil).bind ?_
  intro s₁ t₁ stack stack' onward alike
  exact alike_finish onward.joined alike

/-- The names in view are those of the text of an expression, and all where it makes a lambda. -/
def TextInView (names : String → Prop) (source : String) : Prop :=
  ∀ atoms, Atom.scan source = .ok atoms →
    (∀ name, .identifier name ∈ atoms → names name) ∧
      (.operator .abstract ∈ atoms → ∀ name, names name)

theorem TextInView.reordered {source : String} (h : TextInView names source) {atoms : List Atom}
    (scanned : Atom.scan source = .ok atoms) (reordered : reorder atoms = .ok items) :
    InView names items := by
  obtain ⟨seen, capture⟩ := h atoms scanned
  exact
    { operand := fun name member => seen name (mem_of_operand reordered member)
      head := fun name arity member => seen name (mem_of_apply reordered member)
      capture := fun member => capture (mem_of_operator reordered member) }

theorem alike_evaluateWith (matched : Matched pairs) (calls : CallsAlike pairs call)
    {source : String} (inView : TextInView names source) (joined : Joined pairs names s t) :
    RunsAlike pairs names Value.Alike (evaluateWith call source) (evaluateWith call source)
      s t := by
  unfold evaluateWith
  cases scanned : Atom.scan source with
  | error fatal => exact runsAlike_fail joined fatal
  | ok atoms =>
    rw [ofExcept_ok, pure_bind]
    cases reordered : reorder atoms with
    | error fatal => exact runsAlike_fail joined fatal
    | ok items =>
      rw [ofExcept_ok, pure_bind]
      exact alike_execute matched calls (inView.reordered scanned reordered) joined

end

/-- Functions that are alike are called alike, however deep calls nest. -/
theorem alike_call (matched : Matched pairs) (depth : Nat) : CallsAlike pairs (call depth) := by
  induction depth using Nat.strongRecOn with
  | _ depth ih =>
  intro m n f g v w inStep same value
  cases same with
  | builtin pair rule =>
    simp only [call]
    exact .some (Nat.le_refl m) (Nat.le_refl n) inStep (Builtin.alike_call rule value)
  | constant pair result =>
    simp only [call]
    exact .some (Nat.le_refl m) (Nat.le_refl n) inStep result
  | @lambda i j scope scope' pair parameter body bindings =>
    cases depth with
    | zero =>
      simp only [call]
      exact .none
    | succ depth =>
      have captured : Joined pairs (fun _ => True) ⟨scope, m⟩ ⟨scope', n⟩ :=
        ⟨inStep, fun name _ => bindings name⟩
      have inView : TextInView (fun _ => True) body :=
        fun atoms scanned => ⟨fun _ _ => trivial, fun _ _ => trivial⟩
      have outcomes : OutcomesAlike pairs (fun _ => True) ⟨scope.assign parameter v, m⟩
          ⟨scope'.assign parameter w, n⟩ Value.Alike
          ((evaluate depth body).run ⟨scope.assign parameter v, m⟩)
          ((evaluate depth body).run ⟨scope'.assign parameter w, n⟩) :=
        alike_evaluateWith matched (ih depth (Nat.lt_succ_self depth)) inView
          (captured.assign parameter value).joined
      rw [call_lambda, call_lambda]
      generalize (evaluate depth body).run ⟨scope.assign parameter v, m⟩ = left,
        (evaluate depth body).run ⟨scope'.assign parameter w, n⟩ = right at outcomes
      cases outcomes with
      | none => exact .none
      | error fatal onward =>
        exact .some onward.left onward.right onward.joined.inStep (.error fatal.message)
      | ok onward alike => exact .some onward.left onward.right onward.joined.inStep alike

/-- From joined sessions an expression with its names in view has outcomes that are alike. -/
theorem alike_evaluate (matched : Matched pairs) {source : String}
    (inView : TextInView names source) (joined : Joined pairs names s t) (depth : Nat) :
    RunsAlike pairs names Value.Alike (evaluate depth source) (evaluate depth source) s t :=
  alike_evaluateWith matched (alike_call matched depth) inView joined

end ShellExpr.Machine
