import ShellExpr.FatalError

/-!
# Evaluations

An evaluation runs in a session: the bindings of variables and the number that the next new
function gets.  It ends with a value or with a fatal error, and the session goes on from either.  There is
no outcome where it breaks the program off, or does not end within the depth of calls it was given.
-/

namespace ShellExpr

structure Session where
  env : Environment Value
  nextId : Nat

namespace Session

/-- No bindings, and no function made yet. -/
def initial : Session :=
  ⟨.empty, 0⟩

def assign (s : Session) (name : String) (value : Value) : Session :=
  { s with env := s.env.assign name value }

/-- The session after one more function was made. -/
def next (s : Session) : Session :=
  { s with nextId := s.nextId + 1 }

end Session

/-- The outcome of an evaluation, if there is one, and the session after it. -/
abbrev Outcome (α : Type) : Type :=
  Option (Except FatalError α × Session)

def Eval (α : Type) : Type :=
  Session → Outcome α

namespace Eval

variable {α β : Type}

def run (x : Eval α) (s : Session) : Outcome α :=
  x s

protected def pure (a : α) : Eval α :=
  fun s => some (.ok a, s)

/-- Ends with a fatal error. -/
def fail (fatal : FatalError) : Eval α :=
  fun s => some (.error fatal, s)

/-- Goes on with the value of `x` unless `x` fails or has no outcome. -/
protected def bind (x : Eval α) (f : α → Eval β) : Eval β := fun s =>
  match x s with
  | none => none
  | some (.error fatal, after) => some (.error fatal, after)
  | some (.ok a, after) => f a after

instance : Monad Eval where
  pure := Eval.pure
  bind := Eval.bind

/-- A result that needs no session. -/
def ofExcept : Except FatalError α → Eval α
  | .ok a => pure a
  | .error fatal => fail fatal

/-- A value that needs no session, or no outcome. -/
def ofOption : Option α → Eval α
  | some a => pure a
  | none => fun _ => none

/-! ### Running the parts of an evaluation -/

@[simp] theorem run_pure (a : α) (s : Session) : (pure a : Eval α).run s = some (.ok a, s) := rfl

@[simp] theorem run_fail (fatal : FatalError) (s : Session) :
    (fail fatal : Eval α).run s = some (.error fatal, s) := rfl

theorem run_bind (x : Eval α) (f : α → Eval β) (s : Session) :
    (x >>= f).run s =
      match x.run s with
      | none => none
      | some (.error fatal, after) => some (.error fatal, after)
      | some (.ok a, after) => (f a).run after := rfl

@[simp] theorem ofExcept_ok (a : α) : ofExcept (.ok a) = (pure a : Eval α) := rfl

@[simp] theorem ofOption_some (a : α) : ofOption (some a) = (pure a : Eval α) := rfl

@[simp] theorem run_ofOption_none (s : Session) : (ofOption none : Eval α).run s = none := rfl

theorem ofOption_injective {a b : Option α} (h : (ofOption a : Eval α) = ofOption b) : a = b := by
  have ran := congrFun h Session.initial
  cases a <;> cases b <;> cases ran <;> rfl

theorem bind_pure' (x : Eval α) : Eval.bind x Eval.pure = x := by
  funext s
  unfold Eval.bind
  rcases x s with _ | ⟨_ | _, _⟩ <;> rfl

theorem bind_bind {γ : Type} (x : Eval α) (f : α → Eval β) (g : β → Eval γ) :
    Eval.bind (Eval.bind x f) g = Eval.bind x fun a => Eval.bind (f a) g := by
  funext s
  unfold Eval.bind
  rcases x s with _ | ⟨_ | _, _⟩ <;> rfl

instance : LawfulMonad Eval :=
  LawfulMonad.mk' Eval (fun x => bind_pure' x) (fun _ _ => rfl) (fun x f g => bind_bind x f g)

end Eval

end ShellExpr
