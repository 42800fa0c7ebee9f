/-!
# Tuples

A tuple is a chain of nodes, each with a value and the rest of the chain.  It grows and shrinks at
its head.  Building from a list, copying and concatenating go over a stack: the elements are
peeled off from head to tail, which reverses them, and pushed back from the top of the stack,
which restores their order.  The view `toList` lists the elements from the head on.
-/

namespace ShellExpr

inductive Tuple (α : Type) where
  | empty
  | node (head : α) (rest : Tuple α)
deriving DecidableEq, Repr

namespace Tuple

variable {α : Type}

/-- The elements from head to tail. -/
def toList : Tuple α → List α
  | empty => []
  | node head rest => head :: toList rest

def length : Tuple α → Nat
  | empty => 0
  | node _ rest => length rest + 1

def isEmpty : Tuple α → Bool
  | empty => true
  | node _ _ => false

/-- The first element. -/
def head? : Tuple α → Option α
  | empty => none
  | node head _ => some head

/-- Everything behind the first element. -/
def tail? : Tuple α → Option (Tuple α)
  | empty => none
  | node _ rest => some rest

/-- A new first element. -/
def push (value : α) (t : Tuple α) : Tuple α :=
  node value t

/-- The first element and the tuple without it. -/
def pop : Tuple α → Option α × Tuple α
  | empty => (none, empty)
  | node head rest => (some head, rest)

/-- Puts the elements onto a stack, from head to tail. -/
def peelOnto (stack : List α) : Tuple α → List α
  | empty => stack
  | node head rest => peelOnto (head :: stack) rest

/-- Pushes a stack onto a tuple, from its top down. -/
def pushAll : List α → Tuple α → Tuple α
  | [], t => t
  | value :: stack, t => pushAll stack (push value t)

/-- The tuple of the elements of a list, in their order. -/
def ofList (values : List α) : Tuple α :=
  pushAll values.reverse empty

/-- Takes out all elements, one after the other from the head on. -/
def drain : Tuple α → List α × Tuple α
  | empty => ([], empty)
  | node head rest =>
    let (values, left) := drain rest
    (head :: values, left)

/-- A new chain with the same elements. -/
def copy (t : Tuple α) : Tuple α :=
  pushAll (peelOnto [] t) empty

/-- The elements of `t`, then those of `u`. -/
def concat (t u : Tuple α) : Tuple α :=
  pushAll (peelOnto [] t) (copy u)

/-! ### Every operation on the list of elements -/

@[simp] theorem toList_empty : (empty : Tuple α).toList = [] := rfl

@[simp] theorem toList_node (head : α) (rest : Tuple α) :
    (node head rest).toList = head :: rest.toList := rfl

@[simp] theorem toList_push (value : α) (t : Tuple α) : (push value t).toList = value :: t.toList :=
  rfl

/-- A tuple is the list of its elements. -/
theorem toList_inj {t u : Tuple α} : t.toList = u.toList ↔ t = u := by
  induction t generalizing u with
  | empty => cases u <;> simp
  | node head rest ih => cases u <;> simp [ih]

theorem length_toList (t : Tuple α) : t.toList.length = t.length := by
  induction t with
  | empty => rfl
  | node head rest ih => simp [length, ih]

theorem isEmpty_toList (t : Tuple α) : t.toList.isEmpty = t.isEmpty := by
  cases t <;> rfl

theorem head?_toList (t : Tuple α) : t.toList.head? = t.head? := by
  cases t <;> rfl

theorem tail?_toList (t : Tuple α) : t.toList.tail? = t.tail?.map toList := by
  cases t <;> rfl

theorem fst_pop (t : Tuple α) : t.pop.1 = t.toList.head? := by
  cases t <;> rfl

theorem toList_pop (t : Tuple α) : t.pop.2.toList = t.toList.tail := by
  cases t <;> rfl

theorem peelOnto_eq (stack : List α) (t : Tuple α) :
    peelOnto stack t = t.toList.reverse ++ stack := by
  induction t generalizing stack with
  | empty => rfl
  | node head rest ih => simp [peelOnto, ih]

@[simp] theorem toList_pushAll (stack : List α) (t : Tuple α) :
    (pushAll stack t).toList = stack.reverse ++ t.toList := by
  induction stack generalizing t with
  | nil => rfl
  | cons value stack ih => simp [pushAll, ih]

@[simp] theorem toList_ofList (values : List α) : (ofList values).toList = values := by
  simp [ofList]

@[simp] theorem toList_copy (t : Tuple α) : t.copy.toList = t.toList := by
  simp [copy, peelOnto_eq]

@[simp] theorem toList_concat (t u : Tuple α) : (concat t u).toList = t.toList ++ u.toList := by
  simp [concat, peelOnto_eq]

theorem drain_eq (t : Tuple α) : t.drain = (t.toList, empty) := by
  induction t with
  | empty => rfl
  | node head rest ih => simp [drain, ih]

end Tuple

end ShellExpr
