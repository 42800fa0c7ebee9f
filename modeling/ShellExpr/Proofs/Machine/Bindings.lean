import ShellExpr.Machine
import ShellExpr.Proofs.Reordering.Tokens

/-!
# What an evaluation does to the bindings

The machine changes the bindings in one place only: `<-` binds the name that its left operand
refers to.  References come onto the stack as operands of the expression and stay what they are,
also behind `;` and out of groups, so every name that is bound anew is an operand of the expression.
Heads of applications are looked up where they stand, and a call works on bindings of its own.

`Moves R P` is stated for any relation `R` between bindings that is reflexive, transitive and
allows what the expression may assign, so that one walk through the machine serves for all of
them.
-/

namespace ShellExpr

/-! ### Names bound anew -/

/-- Nothing is unbound, and only certain names change their value or are bound for the first
time. -/
structure Environment.Rebinds {α : Type} (names : String → Prop) (before after : Environment α) :
    Prop where
  keeps : ∀ name, before.contains name = true → after.contains name = true
  changes : ∀ name, after.lookup name ≠ before.lookup name → names name

namespace Environment

variable {α : Type} {names : String → Prop}

theorem Rebinds.refl (env : Environment α) : Rebinds names env env where
  keeps _ bound := bound
  changes _ changed := absurd rfl changed

theorem Rebinds.trans {first second third : Environment α} (h : Rebinds names first second)
    (h' : Rebinds names second third) : Rebinds names first third where
  keeps name bound := h'.keeps name (h.keeps name bound)
  changes name changed := by
    by_cases same : second.lookup name = first.lookup name
    · rw [← same] at changed
      exact h'.changes name changed
    · exact h.changes name same

theorem rebinds_assign (env : Environment α) {name : String} (among : names name) (value : α) :
    Rebinds names env (env.assign name value) where
  keeps other bound := by
    unfold contains at bound ⊢
    rw [lookup_assign]
    split
    · rfl
    · exact bound
  changes other changed := by
    rw [lookup_assign] at changed
    split at changed
    · rename_i same
      rwa [← same]
    · exact absurd rfl changed

end Environment

namespace Eval

variable {α β : Type} {R : Environment Value → Environment Value → Prop} {P : α → Prop}
  {Q : β → Prop}

/-- Every run of `x` takes the bindings along `R`, and what it yields satisfies `P`. -/
def Moves (R : Environment Value → Environment Value → Prop) (P : α → Prop) (x : Eval α) : Prop :=
  ∀ s outcome after, x.run s = some (outcome, after) →
    R s.env after.env ∧ ∀ a, outcome = .ok a → P a

theorem moves_pure (refl : ∀ env, R env env) {a : α} (h : P a) : Moves R P (pure a) := by
  intro s outcome after ran
  cases ran
  refine ⟨refl _, ?_⟩
  intro b same
  cases same
  exact h

theorem moves_fail (refl : ∀ env, R env env) (fatal : FatalError) :
    Moves R P (fail fatal : Eval α) := by
  intro s outcome after ran
  cases ran
  exact ⟨refl _, by simp⟩

theorem moves_ofExcept (refl : ∀ env, R env env) {result : Except FatalError α}
    (h : ∀ a, result = .ok a → P a) : Moves R P (ofExcept result) := by
  cases result with
  | ok a => exact moves_pure refl (h a rfl)
  | error fatal => exact moves_fail refl fatal

theorem moves_ofOption (refl : ∀ env, R env env) {result : Option α}
    (h : ∀ a, result = some a → P a) : Moves R P (ofOption result) := by
  cases result with
  | none => exact fun _ _ _ => nofun
  | some a => exact moves_pure refl (h a rfl)

theorem Moves.bind (trans : ∀ env₁ env₂ env₃, R env₁ env₂ → R env₂ env₃ → R env₁ env₃)
    {x : Eval α} {f : α → Eval β} (hx : Moves R P x) (hf : ∀ a, P a → Moves R Q (f a)) :
    Moves R Q (x >>= f) := by
  intro s outcome after ran
  rw [run_bind] at ran
  split at ran
  · contradiction
  · rename_i fatal middle found
    cases ran
    exact ⟨(hx s _ _ found).1, by simp⟩
  · rename_i a middle found
    obtain ⟨first, yields⟩ := hx s _ _ found
    obtain ⟨second, yields'⟩ := hf a (yields a rfl) middle outcome after ran
    exact ⟨trans _ _ _ first second, yields'⟩

end Eval

namespace Machine

open Eval

/-! ### References on the stack -/

/-- An operand that, where it is a reference, refers to an operand of the expression. -/
def Refers (items : List (Postfix Atom)) : Operand → Prop
  | .value _ => True
  | .reference name => .operand (.identifier name) ∈ items

def StackRefers (items : List (Postfix Atom)) (stack : Stack) : Prop :=
  ∀ operand ∈ stack, Refers items operand

theorem stackRefers_cons {items : List (Postfix Atom)} {operand : Operand} {below : Stack} :
    StackRefers items (operand :: below) ↔ Refers items operand ∧ StackRefers items below :=
  List.forall_mem_cons

theorem refers_ofAtom {items : List (Postfix Atom)} {atom : Atom} (member : .operand atom ∈ items)
    {operand : Operand} (h : Operand.ofAtom atom = .ok operand) : Refers items operand := by
  unfold Operand.ofAtom at h
  split at h <;> cases h
  · trivial
  · trivial
  · trivial
  · exact member

/-! ### Along a relation between bindings -/

/-- A relation between the bindings before and after that allows what `items` may assign. -/
structure Allows (items : List (Postfix Atom)) (R : Environment Value → Environment Value → Prop) :
    Prop where
  refl : ∀ env, R env env
  trans : ∀ env₁ env₂ env₃, R env₁ env₂ → R env₂ env₃ → R env₁ env₃
  assign : .operator .assign ∈ items → ∀ name, .operand (.identifier name) ∈ items →
    ∀ env v, R env (env.assign name v)

section

variable {items : List (Postfix Atom)} {R : Environment Value → Environment Value → Prop}
  (allows : Allows items R) (call : Call)

include allows

theorem moves_resolve (operand : Operand) : Moves R (fun _ => True) (resolve operand) := by
  cases operand with
  | value v => exact moves_pure allows.refl trivial
  | reference name =>
    intro s outcome after ran
    change resolveName name s = _ at ran
    unfold resolveName at ran
    split at ran
    · cases ran
      exact ⟨allows.refl _, fun _ _ => trivial⟩
    split at ran
    · cases ran
      exact ⟨allows.refl _, fun _ _ => trivial⟩
    · cases ran
      exact ⟨allows.refl _, fun _ _ => trivial⟩

theorem moves_pop (needed : String) {stack : Stack} (h : StackRefers items stack) :
    Moves R (fun popped => Refers items popped.1 ∧ StackRefers items popped.2)
      (pop needed stack) := by
  cases stack with
  | nil => exact moves_fail allows.refl _
  | cons operand below => exact moves_pure allows.refl (stackRefers_cons.1 h)

theorem moves_popValue (needed : String) {stack : Stack} (h : StackRefers items stack) :
    Moves R (fun popped => StackRefers items popped.2) (popValue needed stack) := by
  refine (moves_pop allows needed h).bind allows.trans ?_
  rintro ⟨operand, below⟩ ⟨_, rest⟩
  refine (moves_resolve allows operand).bind allows.trans ?_
  intro v _
  exact moves_pure allows.refl rest

theorem moves_popArguments (needed : String) (arity : Nat) (taken : List Value) {stack : Stack}
    (h : StackRefers items stack) :
    Moves R (fun popped => StackRefers items popped.2)
      (popArguments needed arity taken stack) := by
  induction arity generalizing taken stack with
  | zero => exact moves_pure allows.refl h
  | succ arity ih =>
    refine (moves_popValue allows needed h).bind allows.trans ?_
    rintro ⟨v, below⟩ rest
    exact ih (v :: taken) rest

/-- A call has bindings of its own. -/
theorem moves_apply (head argument : Value) :
    Moves R (fun _ => True) (apply call head argument) := by
  intro s outcome after ran
  change apply call head argument s = _ at ran
  unfold apply at ran
  split at ran
  · split at ran
    · cases ran
      exact ⟨allows.refl _, fun _ _ => trivial⟩
    · contradiction
  · cases ran
    exact ⟨allows.refl _, fun _ _ => trivial⟩
  · cases ran
    exact ⟨allows.refl _, fun _ _ => trivial⟩

theorem moves_abstraction (parameter body : Value) :
    Moves R (fun _ => True) (abstraction parameter body) := by
  intro s outcome after ran
  change abstraction parameter body s = _ at ran
  unfold abstraction at ran
  split at ran
  · cases ran
    exact ⟨allows.refl _, fun _ _ => trivial⟩
  · cases ran
    exact ⟨allows.refl _, fun _ _ => trivial⟩

theorem moves_binary (op : Operator) (left right : Value) :
    Moves R (fun _ => True) (binary call op left right) := by
  unfold binary
  split
  · exact moves_ofOption allows.refl fun _ _ => trivial
  split
  · exact moves_pure allows.refl trivial
  · exact moves_pure allows.refl trivial
  · exact moves_apply allows call left right
  · exact moves_ofExcept allows.refl fun _ _ => trivial
  · exact moves_pure allows.refl trivial
  · exact moves_fail allows.refl _
  · exact moves_fail allows.refl _
  · exact moves_ofExcept allows.refl fun _ _ => trivial

/-! ### Steps -/

theorem moves_assign (assigns : .operator .assign ∈ items) {name : String}
    (among : .operand (.identifier name) ∈ items) (v : Value) :
    Moves R (fun _ => True) (assign name v) := by
  intro s outcome after ran
  cases ran
  exact ⟨allows.assign assigns name among s.env v, fun _ _ => trivial⟩

theorem moves_operator {op : Operator} (member : .operator op ∈ items) {stack : Stack}
    (h : StackRefers items stack) :
    Moves R (StackRefers items) (operator call op stack) := by
  have value {v : Value} {rest : Stack} (below : StackRefers items rest) :
      Moves R (StackRefers items) (pure (.value v :: rest)) :=
    moves_pure allows.refl (stackRefers_cons.2 ⟨trivial, below⟩)
  unfold operator
  split
  · refine (moves_popValue allows _ h).bind allows.trans ?_
    rintro ⟨v, below⟩ among
    refine (moves_pop allows _ among).bind allows.trans ?_
    rintro ⟨target, rest⟩ ⟨refers, below⟩
    cases target with
    | reference name =>
      refine (moves_assign allows member refers v).bind allows.trans ?_
      intro _ _
      exact value below
    | value other => exact moves_fail allows.refl _
  · refine (moves_popValue allows _ h).bind allows.trans ?_
    rintro ⟨body, below⟩ among
    refine (moves_pop allows _ among).bind allows.trans ?_
    rintro ⟨target, rest⟩ ⟨_, below⟩
    refine (moves_abstraction allows _ body).bind allows.trans ?_
    intro f _
    exact value below
  · -- The right operand stays on the stack as the reference that it may be.
    refine (moves_pop allows _ h).bind allows.trans ?_
    rintro ⟨right, below⟩ ⟨refers, among⟩
    refine (moves_pop allows _ among).bind allows.trans ?_
    rintro ⟨left, rest⟩ ⟨_, below⟩
    exact moves_pure allows.refl (stackRefers_cons.2 ⟨refers, below⟩)
  · refine (moves_popValue allows _ h).bind allows.trans ?_
    rintro ⟨right, below⟩ among
    refine (moves_popValue allows _ among).bind allows.trans ?_
    rintro ⟨left, rest⟩ below
    refine (moves_binary allows call op left right).bind allows.trans ?_
    intro v _
    exact value below

theorem moves_applications (f : Value) (arguments : List Value) :
    Moves R (fun _ => True) (arguments.foldlM (apply call) f) := by
  induction arguments generalizing f with
  | nil => exact moves_pure allows.refl trivial
  | cons argument rest ih =>
    rw [List.foldlM_cons]
    exact (moves_apply allows call f argument).bind allows.trans fun v _ => ih v

theorem moves_application (head : Atom) (arity : Nat) {stack : Stack}
    (h : StackRefers items stack) :
    Moves R (StackRefers items) (application call head arity stack) := by
  have head_operand : Moves R (fun _ => True) (ofExcept (Operand.ofAtom head)) :=
    moves_ofExcept allows.refl fun _ _ => trivial
  refine (moves_popArguments allows _ arity [] h).bind allows.trans ?_
  rintro ⟨arguments, rest⟩ below
  refine head_operand.bind allows.trans ?_
  intro operand _
  refine (moves_resolve allows operand).bind allows.trans ?_
  intro f _
  refine (moves_applications allows call f arguments).bind allows.trans ?_
  intro v _
  exact moves_pure allows.refl (stackRefers_cons.2 ⟨trivial, below⟩)

theorem moves_step {item : Postfix Atom} (member : item ∈ items) {stack : Stack}
    (h : StackRefers items stack) : Moves R (StackRefers items) (step call stack item) := by
  cases item with
  | operand atom =>
    refine (moves_ofExcept allows.refl fun operand => refers_ofAtom member).bind allows.trans ?_
    intro operand refers
    exact moves_pure allows.refl (stackRefers_cons.2 ⟨refers, h⟩)
  | operator op => exact moves_operator allows call member h
  | apply head arity => exact moves_application allows call head arity h

/-! ### Runs -/

theorem moves_steps {later : List (Postfix Atom)} (among : ∀ item ∈ later, item ∈ items)
    {stack : Stack} (h : StackRefers items stack) :
    Moves R (StackRefers items) (later.foldlM (step call) stack) := by
  induction later generalizing stack with
  | nil => exact moves_pure allows.refl h
  | cons item rest ih =>
    obtain ⟨first, others⟩ := List.forall_mem_cons.1 among
    rw [List.foldlM_cons]
    exact (moves_step allows call first h).bind allows.trans fun next refers => ih others refers

theorem moves_finish (stack : Stack) : Moves R (fun _ => True) (finish stack) := by
  unfold finish
  split
  · exact moves_fail allows.refl _
  · exact moves_resolve allows _
  · exact moves_fail allows.refl _

theorem moves_execute : Moves R (fun _ => True) (execute call items) := by
  rw [execute_eq]
  refine (moves_steps allows call (fun _ member => member) ?_).bind allows.trans ?_
  · intro operand member
    contradiction
  · intro stack _
    exact moves_finish allows stack

end

/-- An evaluation takes the bindings along every relation that allows what the items of its
expression may assign. -/
theorem moves_evaluate {source : String} {R : Environment Value → Environment Value → Prop}
    (refl : ∀ env, R env env)
    (allows : ∀ atoms items, Atom.scan source = .ok atoms → reorder atoms = .ok items →
      Allows items R) (depth : Nat) :
    Moves R (fun _ => True) (evaluate depth source) := by
  unfold evaluate evaluateWith
  cases scanned : Atom.scan source with
  | error fatal => exact moves_fail refl fatal
  | ok atoms =>
    rw [ofExcept_ok, pure_bind]
    cases reordered : reorder atoms with
    | error fatal => exact moves_fail refl fatal
    | ok items =>
      rw [ofExcept_ok, pure_bind]
      exact moves_execute (allows atoms items scanned reordered) _

/-- A name that is an operand of an expression, in the order of its items, and not only the head of
an application. -/
def OperandOf (source name : String) : Prop :=
  ∃ atoms items, Atom.scan source = .ok atoms ∧ reorder atoms = .ok items ∧
    .operand (.identifier name) ∈ items

theorem rebinds_evaluate (depth : Nat) (source : String) :
    Moves (Environment.Rebinds (OperandOf source)) (fun _ => True) (evaluate depth source) := by
  refine moves_evaluate .refl ?_ depth
  intro atoms items scanned reordered
  refine ⟨.refl, fun _ _ _ => .trans, ?_⟩
  intro _ name among env v
  exact Environment.rebinds_assign env ⟨atoms, items, scanned, reordered, among⟩ v

theorem atom_of_role {atom : Atom} {op : Operator} (h : Symbol.role atom = .operator op) :
    atom = .operator op := by
  cases atom <;> cases h
  rfl

/-- An operator of the items stands among the atoms. -/
theorem mem_of_operator {atoms : List Atom} {items : List (Postfix Atom)}
    (h : reorder atoms = .ok items) {op : Operator} (member : .operator op ∈ items) :
    .operator op ∈ atoms := by
  obtain ⟨atom, among, role⟩ := exists_operator_token h member
  rwa [← atom_of_role role]

/-- A name that stands somewhere in an expression. -/
def Mentions (source name : String) : Prop :=
  ∃ atoms, Atom.scan source = .ok atoms ∧ .identifier name ∈ atoms

theorem OperandOf.mentions {source name : String} (h : OperandOf source name) :
    Mentions source name := by
  obtain ⟨atoms, items, scanned, reordered, member⟩ := h
  exact ⟨atoms, scanned, mem_of_operand reordered member⟩

/-- An evaluation keeps the values of all names that its expression does not mention. -/
theorem lookup_evaluate {depth : Nat} {source name : String} (h : ¬Mentions source name)
    {s after : Session} {outcome : Except FatalError Value}
    (ran : (evaluate depth source).run s = some (outcome, after)) :
    after.env.lookup name = s.env.lookup name := by
  by_contra changed
  have rebinds := (rebinds_evaluate depth source s outcome after ran).1
  exact h (rebinds.changes name changed).mentions

/-- Bindings stay as they are where no item of the expression assigns. -/
theorem keeps_evaluate {source : String}
    (no_assign : ∀ atoms items, Atom.scan source = .ok atoms → reorder atoms = .ok items →
      .operator .assign ∉ atoms) (depth : Nat) :
    Moves (· = ·) (fun _ => True) (evaluate depth source) := by
  refine moves_evaluate Eq.refl ?_ depth
  intro atoms items scanned reordered
  refine ⟨Eq.refl, fun _ _ _ => Eq.trans, ?_⟩
  intro assigns
  exact absurd (mem_of_operator reordered assigns) (no_assign atoms items scanned reordered)

/-- An evaluation, whether it ends with a value or fails wherever it may, leaves every name bound
that was bound, binds nothing anew but operands of its expression, and changes no binding at all
without a `<-` and where there is nothing to run. -/
theorem evaluate_bindings {depth : Nat} {source : String} {s after : Session}
    {outcome : Except FatalError Value}
    (h : (evaluate depth source).run s = some (outcome, after)) :
    (∀ name, s.env.contains name = true → after.env.contains name = true) ∧
      (∀ name, after.env.lookup name ≠ s.env.lookup name → OperandOf source name) ∧
      ((∀ atoms, Atom.scan source = .ok atoms → .operator .assign ∉ atoms) →
        after.env = s.env) ∧
      ((∃ fatal, Atom.scan source = .error fatal) → after.env = s.env) ∧
      ((∃ atoms fatal, Atom.scan source = .ok atoms ∧ reorder atoms = .error fatal) →
        after.env = s.env) := by
  have rebinds := (rebinds_evaluate depth source s outcome after h).1
  have keeps (no_assign : ∀ atoms items, Atom.scan source = .ok atoms →
      reorder atoms = .ok items → .operator .assign ∉ atoms) : after.env = s.env :=
    (keeps_evaluate no_assign depth s outcome after h).1.symm
  refine ⟨rebinds.keeps, rebinds.changes, ?_, ?_, ?_⟩
  · intro no_assign
    exact keeps fun atoms _ scanned _ => no_assign atoms scanned
  · rintro ⟨fatal, unscanned⟩
    refine keeps fun atoms _ scanned => ?_
    rw [unscanned] at scanned
    contradiction
  · rintro ⟨atoms, fatal, scanned, refused⟩
    refine keeps fun others items scanned' reordered => ?_
    rw [scanned] at scanned'
    cases scanned'
    rw [refused] at reordered
    contradiction

/-- A name that comes to its assignment out of a group, in an expression that fails behind it. -/
theorem evaluate_bindings_group :
    (evaluate 0 "(1; x) <- 2; y").run .initial =
        some (.error (.unknownVariable "y"), ⟨⟨[("x", .int 2)]⟩, 0⟩) ∧
      OperandOf "(1; x) <- 2; y" "x" := by
  have scanned : Atom.scan "(1; x) <- 2; y" =
      .ok [.opening, .int 1, .operator .sequence, .identifier "x", .closing,
        .operator .assign, .int 2, .operator .sequence, .identifier "y"] := by
    decide +kernel
  have reordered : reorder [Atom.opening, .int 1, .operator .sequence, .identifier "x",
      .closing, .operator .assign, .int 2, .operator .sequence, .identifier "y"] =
      .ok [.operand (.int 1), .operand (.identifier "x"), .operator .sequence, .operand (.int 2),
        .operator .assign, .operand (.identifier "y"), .operator .sequence] := by
    decide +kernel
  have ran : (evaluate 0 "(1; x) <- 2; y").run .initial =
      some (.error (.unknownVariable "y"), ⟨⟨[("x", .int 2)]⟩, 0⟩) := by
    rw [evaluate, evaluateWith_eq _ scanned reordered]
    rfl
  have bound : (⟨[("x", .int 2)]⟩ : Environment Value).lookup "x" ≠
      Session.initial.env.lookup "x" :=
    Option.some_ne_none _
  exact ⟨ran, (evaluate_bindings ran).2.1 "x" bound⟩

end Machine

end ShellExpr
