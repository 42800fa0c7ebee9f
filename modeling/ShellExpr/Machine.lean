import ShellExpr.Atom.Scan
import ShellExpr.Builtin.Rule
import ShellExpr.Machine.Eval
import ShellExpr.Operation.Arithmetic
import ShellExpr.Operation.Comparison
import ShellExpr.Operation.Logic
import ShellExpr.Postfix.Reorder

/-!
# The machine

A postfix expression runs on a stack of operands.  A name stays a reference on the stack until
something needs its value, so that assignment can bind it, and it then has the value of that
moment.

The machine is parametrised by how functions are called.  `call` closes the knot: a lambda
evaluates its body by the machine whose calls nest one level less.  `evaluate depth` has an
outcome whenever the calls of lambdas nest at most `depth` deep and no operator breaks the program
off, and a greater depth does not change it.
-/

namespace ShellExpr

/-- What a function makes of an argument, if it has an outcome, and the next number for a new
function.  The argument of that type is the number to start from. -/
abbrev Call : Type :=
  Func → Value → Nat → Option (Value × Nat)

namespace Machine

/-! ### Operands -/

/-- An entry of the stack. -/
inductive Operand where
  | value (v : Value)
  | reference (name : String)

/-- Operators, parentheses and blanks are no operands. -/
def Operand.ofAtom : Atom → Except FatalError Operand
  | .int n => .ok (.value (.int n))
  | .real r => .ok (.value (.real r))
  | .str text => .ok (.value (.str text))
  | .identifier name => .ok (.reference name)
  | atom => .error (.grammar (.notAnOperand atom.text))

abbrev Stack : Type :=
  List Operand

/-- The value of a name: its binding, or else a new copy of the builtin of that name. -/
def resolveName (name : String) : Eval Value := fun s =>
  match s.env.lookup name with
  | some v => some (.ok v, s)
  | none =>
    match Builtin.ofName? name with
    | some rule => some (.ok (.func (.builtin s.nextId rule)), s.next)
    | none => some (.error (.unknownVariable name), s)

def resolve : Operand → Eval Value
  | .value v => pure v
  | .reference name => resolveName name

/-- The top of the stack, needed by `by`, and the stack below it. -/
def pop (needed : String) : Stack → Eval (Operand × Stack)
  | [] => Eval.fail (.stackUnderflow needed)
  | operand :: below => pure (operand, below)

/-- The value of the top of the stack, and the stack below it. -/
def popValue (needed : String) (stack : Stack) : Eval (Value × Stack) := do
  let (operand, below) ← pop needed stack
  let v ← resolve operand
  pure (v, below)

/-- The values of the upper `arity` operands in the order in which they were pushed, and behind them
the values `taken` before.  The topmost is resolved first. -/
def popArguments (needed : String) : Nat → List Value → Stack → Eval (List Value × Stack)
  | 0, taken, stack => pure (taken, stack)
  | arity + 1, taken, stack => do
    let (v, below) ← popValue needed stack
    popArguments needed arity (v :: taken) below

/-! ### Operators on values -/

/-- A function with the bindings of this moment, from the texts of a parameter and a body. -/
def abstraction (parameter body : Value) : Eval Value := fun s =>
  match parameter, body with
  | .str parameter, .str body =>
    some (.ok (.func (.lambda s.nextId parameter body s.env)), s.next)
  | parameter, body => some (.ok (Failure.unsupported .abstract parameter body), s)

/-- Application.  A failure in the place of the function is the result. -/
def apply (call : Call) (head argument : Value) : Eval Value := fun s =>
  match head with
  | .func f =>
    match call f argument s.nextId with
    | some (v, nextId) => some (.ok v, { s with nextId })
    | none => none
  | .error message => some (.ok (.error message), s)
  | head => some (.ok (Failure.unsupported .apply head argument), s)

/-- The rule of an operator that broadcasts over lists. -/
def broadcastRule? : Operator → Option Rule
  | .add => some (.total Operation.add)
  | .sub => some (.total Operation.sub)
  | .mul => some Operation.mul
  | .div => some (.total Operation.div)
  | .rem => some (.total Operation.rem)
  | .pow => some (.total Operation.pow)
  | .bitAnd => some (.total Operation.bitAnd)
  | .bitOr => some (.total Operation.bitOr)
  | .shl => some (.total Operation.shl)
  | .shr => some (.total Operation.shr)
  | .and => some (.total Operation.and)
  | .or => some (.total Operation.or)
  | .concat => some (.total Operation.concat)
  | _ => none

/-- An operator between two values.  `<-` and `->` have no meaning without names. -/
def binary (call : Call) (op : Operator) (left right : Value) : Eval Value :=
  match broadcastRule? op with
  | some rule => Eval.ofOption (broadcast? rule left right)
  | none =>
    match op with
    | .cons => pure (Operation.cons left right)
    | .zip => pure (Operation.zip left right)
    | .apply => apply call left right
    | .compare => Eval.ofExcept (Operation.compare left right)
    | .sequence => pure right
    | .assign | .abstract => Eval.fail (.grammar (.needsEnvironment op))
    | op => Eval.ofExcept (Operation.relation op left right)

/-! ### Steps -/

def assign (name : String) (v : Value) : Eval Unit := fun s =>
  some (.ok (), s.assign name v)

/-- Runs an operator on the stack. -/
def operator (call : Call) (op : Operator) (stack : Stack) : Eval Stack :=
  match op with
  | .assign => do
    let (v, below) ← popValue op.symbol stack
    let (target, rest) ← pop op.symbol below
    match target with
    | .reference name => do
      assign name v
      pure (.value v :: rest)
    | .value _ => Eval.fail (.notAssignable op)
  | .abstract => do
    let (body, below) ← popValue op.symbol stack
    let (target, rest) ← pop op.symbol below
    let parameter := match target with
      | .reference name => .str name
      | .value v => v
    let f ← abstraction parameter body
    pure (.value f :: rest)
  | .sequence => do
    let (right, below) ← pop op.symbol stack
    let (_, rest) ← pop op.symbol below
    pure (right :: rest)
  | op => do
    let (right, below) ← popValue op.symbol stack
    let (left, rest) ← popValue op.symbol below
    let v ← binary call op left right
    pure (.value v :: rest)

/-- Applies a head to the upper `arity` operands, one after the other. -/
def application (call : Call) (head : Atom) (arity : Nat) (stack : Stack) : Eval Stack := do
  let (arguments, rest) ← popArguments head.text arity [] stack
  let operand ← Eval.ofExcept (Operand.ofAtom head)
  let f ← resolve operand
  let v ← arguments.foldlM (apply call) f
  pure (.value v :: rest)

def step (call : Call) (stack : Stack) : Postfix Atom → Eval Stack
  | .operand atom => do
    let operand ← Eval.ofExcept (Operand.ofAtom atom)
    pure (operand :: stack)
  | .operator op => operator call op stack
  | .apply head arity => application call head arity stack

/-- Runs items one after the other from a stack and a session on. -/
def runItems (call : Call) : List (Postfix Atom) → Stack → Session → Outcome Stack
  | [], stack, s => some (.ok stack, s)
  | item :: rest, stack, s =>
    match (step call stack item).run s with
    | none => none
    | some (.error fatal, after) => some (.error fatal, after)
    | some (.ok next, after) => runItems call rest next after

/-- Running items is folding the steps over them. -/
theorem runItems_eq (call : Call) (items : List (Postfix Atom)) (stack : Stack) (s : Session) :
    runItems call items stack s = (items.foldlM (step call) stack).run s := by
  induction items generalizing stack s with
  | nil => rfl
  | cons item rest ih =>
    rw [runItems, List.foldlM_cons, Eval.run_bind]
    rcases (step call stack item).run s with _ | ⟨_ | next, after⟩
    · rfl
    · rfl
    · exact ih next after

/-- The value of the only operand left. -/
def finish : Stack → Eval Value
  | [] => Eval.fail .emptyExpression
  | [operand] => resolve operand
  | _ :: below => Eval.fail (.grammar (.leftovers below.length))

/-! ### Expressions and calls -/

/-- The value of a postfix expression. -/
def execute (call : Call) (items : List (Postfix Atom)) : Eval Value :=
  Eval.bind (runItems call items []) finish

theorem execute_eq (call : Call) (items : List (Postfix Atom)) :
    execute call items = (do
      let stack ← items.foldlM (step call) []
      finish stack) := by
  have same : runItems call items [] = items.foldlM (step call) [] :=
    funext fun s => runItems_eq call items [] s
  rw [execute, same]
  rfl

/-- The value of the text of an expression. -/
def evaluateWith (call : Call) (source : String) : Eval Value := do
  let atoms ← Eval.ofExcept (Atom.scan source)
  let items ← Eval.ofExcept (reorder atoms)
  execute call items

/-- A text that is read and reordered has the value of its items. -/
theorem evaluateWith_eq (call : Call) {source : String} {atoms : List Atom}
    {items : List (Postfix Atom)} (scanned : Atom.scan source = .ok atoms)
    (reordered : reorder atoms = .ok items) : evaluateWith call source = execute call items := by
  rw [evaluateWith, scanned, Eval.ofExcept_ok, pure_bind, reordered, Eval.ofExcept_ok, pure_bind]

/-- Calls a function with calls of lambdas nested at most `depth` deep.  A lambda evaluates its
body in the bindings it captured, with its parameter bound to the argument; a fatal error in the
body is a failure of the call. -/
def call : Nat → Call
  | _, .builtin _ rule, argument, nextId => some (rule.call argument, nextId)
  | _, .constant _ value, _, nextId => some (value, nextId)
  | 0, .lambda .., _, _ => none
  | depth + 1, .lambda _ parameter body scope, argument, nextId =>
    match (evaluateWith (call depth) body).run ⟨scope.assign parameter argument, nextId⟩ with
    | none => none
    | some (.ok v, after) => some (v, after.nextId)
    | some (.error fatal, after) => some (.error fatal.message, after.nextId)

/-- How deep a program may nest its calls of lambdas. -/
def depthLimit : Nat := 250000

/-- The value of an expression, with calls of lambdas nested at most `depth` deep. -/
def evaluate (depth : Nat) (source : String) : Eval Value :=
  evaluateWith (call depth) source

/-! ### Calls by the outcome of the body -/

/-- The result of a call whose body has that outcome. -/
def settled : Except FatalError Value → Value
  | .ok v => v
  | .error fatal => .error fatal.message

theorem call_lambda (depth number : Nat) (parameter body : String) (scope : Environment Value)
    (argument : Value) (nextId : Nat) :
    call (depth + 1) (.lambda number parameter body scope) argument nextId =
      ((evaluate depth body).run ⟨scope.assign parameter argument, nextId⟩).map
        fun (outcome, after) => (settled outcome, after.nextId) := by
  rw [call, evaluate]
  rcases (evaluateWith (call depth) body).run ⟨scope.assign parameter argument, nextId⟩ with
    _ | ⟨_ | _, _⟩ <;> rfl

theorem apply_func (call : Call) (f : Func) (argument : Value) (s : Session) :
    (apply call (.func f) argument).run s =
      (call f argument s.nextId).map fun (v, nextId) => (.ok v, { s with nextId }) := by
  simp only [Eval.run, apply]
  cases call f argument s.nextId <;> rfl

end Machine

end ShellExpr
