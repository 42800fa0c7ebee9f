import ShellExpr.FatalError
import ShellExpr.Postfix

/-!
# Reordering infix tokens

One pass over the tokens of an infix expression puts its items into postfix order.  Operators
wait on a stack until a weaker one, the end of their group or the end of the expression applies
them.

An operand with operands or groups behind it is an application; a group among its arguments is
reordered on its own.  When an application opens a group or a statement, the operators behind it
apply strictly from left to right: the group gets a floor, the height of the stack at that
moment, and an arriving operator applies all that waits above the floor.

The pass is parametrised by how argument groups are reordered.  `reorder` closes the knot: an
argument group is shorter than the expression it stands in, so groups nest no deeper than there are
tokens.
-/

namespace ShellExpr

/-- What waits on the stack. -/
inductive Pending where
  | operator (op : Operator)
  | opening
deriving DecidableEq, Repr

/-- The state between two tokens. -/
structure Reordering (α : Type) where
  /-- The items so far, the last first. -/
  emitted : List (Postfix α)
  /-- The stack, its top first. -/
  pending : List Pending
  /-- The floor of every open group, the innermost first and the whole expression last. -/
  floors : List (Option Nat)
  /-- Whether the next token opens a group or a statement. -/
  atStart : Bool

namespace Reordering

variable {α : Type}

/-- Nothing read, in a single group without a floor. -/
def start : Reordering α :=
  ⟨[], [], [none], true⟩

/-- The items so far, in order. -/
def output (s : Reordering α) : List (Postfix α) :=
  s.emitted.reverse

/-- Items behind those emitted so far. -/
def emit (items emitted : List (Postfix α)) : List (Postfix α) :=
  items.reverse ++ emitted

theorem reverse_emit (items emitted : List (Postfix α)) :
    (emit items emitted).reverse = emitted.reverse ++ items := by
  simp [emit]

/-! ### The stack -/

/-- Whether a stack reaches above the floor. -/
def aboveFloor (floor : Option Nat) (pending : List Pending) : Bool :=
  match floor with
  | some depth => depth < pending.length
  | none => false

/-- The operators from the top down that an arriving one applies, and the stack below them. -/
def applied (incoming : Operator) (floor : Option Nat) : List Pending → List Operator × List Pending
  | .operator top :: below =>
    if aboveFloor floor (.operator top :: below) || top.appliesBefore incoming then
      let (ops, rest) := applied incoming floor below
      (top :: ops, rest)
    else ([], .operator top :: below)
  | pending => ([], pending)

/-- The operators from the top down to the innermost open group, and the stack below its opening
if there is one. -/
def unwind : List Pending → List Operator × Option (List Pending)
  | [] => ([], none)
  | .opening :: below => ([], some below)
  | .operator top :: below =>
    let (ops, rest) := unwind below
    (top :: ops, rest)

/-- The floor of the innermost group becomes `floor`. -/
def setFloor (floor : Option Nat) : List (Option Nat) → List (Option Nat)
  | [] => []
  | _ :: outer => floor :: outer

def pushOperator (s : Reordering α) (incoming : Operator) : Reordering α :=
  let (ops, rest) := applied incoming s.floors.head?.join s.pending
  { emitted := emit (ops.map .operator) s.emitted
    pending := .operator incoming :: rest
    floors := if incoming = .sequence then setFloor none s.floors else s.floors
    atStart := incoming = .sequence }

def openGroup (s : Reordering α) : Reordering α :=
  { emitted := s.emitted
    pending := .opening :: s.pending
    floors := none :: s.floors
    atStart := true }

def closeGroup (s : Reordering α) : Except FatalError (Reordering α) :=
  match unwind s.pending with
  | (ops, some below) =>
    .ok
      { emitted := emit (ops.map .operator) s.emitted
        pending := below
        floors := s.floors.tail
        atStart := false }
  | (_, none) => .error (.grammar .unmatchedClose)

theorem exists_of_closeGroup {s closed : Reordering α} (h : s.closeGroup = .ok closed) :
    ∃ ops below, unwind s.pending = (ops, some below) ∧
      closed = ⟨emit (ops.map .operator) s.emitted, below, s.floors.tail, false⟩ := by
  unfold closeGroup at h
  split at h
  · rename_i ops below unwound
    cases h
    exact ⟨ops, below, unwound, rfl⟩
  · contradiction

/-- The items once all tokens are read. -/
def finish (s : Reordering α) : Except FatalError (List (Postfix α)) :=
  match unwind s.pending with
  | (ops, none) => .ok (s.output ++ ops.map .operator)
  | (_, some _) => .error (.grammar .missingClose)

theorem exists_of_finish {s : Reordering α} {items : List (Postfix α)} (h : s.finish = .ok items) :
    ∃ ops, unwind s.pending = (ops, none) ∧ items = s.output ++ ops.map .operator := by
  unfold finish at h
  split at h
  · rename_i ops unwound
    cases h
    exact ⟨ops, unwound, rfl⟩
  · contradiction

/-! ### Arguments -/

variable [Symbol α]

/-- Splits tokens at the closing parenthesis with which `depth` groups inside the one to close are
closed.  The tokens of this group that were read before are in `read`, the last first. -/
def splitGroupFrom (depth : Nat) (read : List α) : List α → Option (List α × List α)
  | [] => none
  | token :: rest =>
    match Symbol.role token with
    | .opening => splitGroupFrom (depth + 1) (token :: read) rest
    | .closing =>
      match depth with
      | 0 => some (read.reverse, rest)
      | depth + 1 => splitGroupFrom depth (token :: read) rest
    | _ => splitGroupFrom depth (token :: read) rest

/-- Splits the tokens behind an opening parenthesis at the one that closes it. -/
def splitGroup (tokens : List α) : Option (List α × List α) :=
  splitGroupFrom 0 [] tokens

theorem splitGroupFrom_append {depth : Nat} {read tokens inner rest : List α}
    (h : splitGroupFrom depth read tokens = some (inner, rest)) :
    ∃ token, Symbol.role token = .closing ∧ read.reverse ++ tokens = inner ++ token :: rest := by
  induction tokens generalizing depth read with
  | nil => simp [splitGroupFrom] at h
  | cons token tokens ih =>
    have extend {depth : Nat} (h : splitGroupFrom depth (token :: read) tokens = some (inner, rest)) :
        ∃ close, Symbol.role close = .closing ∧
          read.reverse ++ token :: tokens = inner ++ close :: rest := by
      obtain ⟨close, closing, whole⟩ := ih h
      exact ⟨close, closing, by simpa using whole⟩
    unfold splitGroupFrom at h
    split at h
    · exact extend h
    · rename_i closing
      split at h
      · cases h
        exact ⟨token, closing, rfl⟩
      · exact extend h
    · exact extend h

theorem splitGroup_append {tokens inner rest : List α} (h : splitGroup tokens = some (inner, rest)) :
    ∃ token, Symbol.role token = .closing ∧ tokens = inner ++ token :: rest :=
  splitGroupFrom_append h

/-- The items of a run of arguments, their number, and the tokens behind them. -/
structure Arguments (α : Type) where
  items : List (Postfix α)
  arity : Nat
  rest : List α

/-- Reads the arguments at the front: operands as they are, and groups as `group` reorders
them. -/
def arguments (group : List α → Except FatalError (List (Postfix α))) (tokens : List α) :
    Except FatalError (Arguments α) :=
  match tokens with
  | [] => .ok ⟨[], 0, []⟩
  | token :: rest =>
    match Symbol.role token with
    | .operand =>
      match arguments group rest with
      | .ok more => .ok ⟨.operand token :: more.items, more.arity + 1, more.rest⟩
      | .error fatal => .error fatal
    | .opening =>
      match found : splitGroup rest with
      | none => .error (.grammar .missingClose)
      | some (inner, behind) =>
        have : behind.length < rest.length := by
          obtain ⟨_, _, whole⟩ := splitGroup_append found
          simp [whole]
          omega
        if inner.isEmpty then .error (.grammar .emptyGroup)
        else
          match group inner with
          | .error fatal => .error fatal
          | .ok items =>
            match arguments group behind with
            | .ok more => .ok ⟨items ++ more.items, more.arity + 1, more.rest⟩
            | .error fatal => .error fatal
    | _ => .ok ⟨[], 0, token :: rest⟩
termination_by tokens.length

/-- The group behind an opening parenthesis, and the arguments behind that. -/
theorem arguments_opening {token : α} (role : Symbol.role token = .opening)
    (group : List α → Except FatalError (List (Postfix α))) (rest : List α) :
    arguments group (token :: rest) =
      match splitGroup rest with
      | none => .error (.grammar .missingClose)
      | some (inner, behind) =>
        if inner.isEmpty then .error (.grammar .emptyGroup)
        else
          match group inner with
          | .error fatal => .error fatal
          | .ok items =>
            (arguments group behind).map fun more =>
              ⟨items ++ more.items, more.arity + 1, more.rest⟩ := by
  rw [arguments, role]
  simp only
  split
  · rename_i unclosed
    rw [unclosed]
  · rename_i inner behind split
    rw [split]
    simp only
    congr 1
    cases group inner with
    | error fatal => rfl
    | ok items => cases arguments group behind <;> rfl

theorem arguments_rest_suffix {group : List α → Except FatalError (List (Postfix α))}
    {tokens : List α} {args : Arguments α} (h : arguments group tokens = .ok args) :
    args.rest <:+ tokens := by
  fun_induction arguments group tokens generalizing args with
  | case1 => cases h; exact List.suffix_refl []
  | case2 token rest role more found ih =>
    cases h
    exact (ih found).trans (List.suffix_cons token rest)
  | case3 => contradiction
  | case4 => contradiction
  | case5 => contradiction
  | case6 => contradiction
  | case7 token rest role inner behind split shorter filled items reordered more found ih =>
    cases h
    obtain ⟨close, _, whole⟩ := splitGroup_append split
    rw [whole]
    exact (ih found).trans ⟨token :: inner ++ [close], by simp⟩
  | case8 => contradiction
  | case9 => cases h; exact List.suffix_refl _

/-! ### The pass -/

/-- An operand and its arguments.  At the start of a group an application sets its floor. -/
def addUnit (s : Reordering α) (head : α) (args : Arguments α) : Reordering α :=
  if args.arity = 0 then
    { s with
      emitted := .operand head :: s.emitted
      atStart := false }
  else
    { emitted := .apply head args.arity :: emit args.items s.emitted
      pending := s.pending
      floors := if s.atStart then setFloor (some s.pending.length) s.floors else s.floors
      atStart := false }

/-- Reads one token, an operand together with its arguments. -/
def step (group : List α → Except FatalError (List (Postfix α))) (s : Reordering α) (token : α)
    (rest : List α) : Except FatalError (Reordering α × List α) :=
  match Symbol.role token with
  | .operator op => .ok (s.pushOperator op, rest)
  | .opening => .ok (s.openGroup, rest)
  | .closing =>
    match s.closeGroup with
    | .ok closed => .ok (closed, rest)
    | .error fatal => .error fatal
  | .operand =>
    match arguments group rest with
    | .ok args => .ok (s.addUnit token args, args.rest)
    | .error fatal => .error fatal

/-- The states and tokens behind that one token leads to, by its role. -/
inductive Stepped (group : List α → Except FatalError (List (Postfix α))) (s : Reordering α)
    (token : α) (rest : List α) : Reordering α → List α → Prop where
  | operator {op : Operator} (role : Symbol.role token = .operator op) :
      Stepped group s token rest (s.pushOperator op) rest
  | opening (role : Symbol.role token = .opening) :
      Stepped group s token rest s.openGroup rest
  | closing {closed : Reordering α} (role : Symbol.role token = .closing)
      (closes : s.closeGroup = .ok closed) : Stepped group s token rest closed rest
  | operand {args : Arguments α} (role : Symbol.role token = .operand)
      (read : arguments group rest = .ok args) :
      Stepped group s token rest (s.addUnit token args) args.rest

section

variable {group : List α → Except FatalError (List (Postfix α))} {s next : Reordering α} {token : α}
  {rest behind : List α}

theorem step_eq_ok_iff :
    step group s token rest = .ok (next, behind) ↔ Stepped group s token rest next behind := by
  constructor
  · intro h
    unfold step at h
    split at h
    · rename_i op role
      cases h
      exact .operator role
    · rename_i role
      cases h
      exact .opening role
    · rename_i role
      split at h
      · rename_i closed closes
        cases h
        exact .closing role closes
      · contradiction
    · rename_i role
      split at h
      · rename_i args read
        cases h
        exact .operand role read
      · contradiction
  · intro h
    cases h with
    | operator role => rw [step, role]
    | opening role => rw [step, role]
    | closing role closes => rw [step, role, closes]
    | operand role read => simp only [step, role, read]

theorem step_rest_suffix (h : step group s token rest = .ok (next, behind)) : behind <:+ rest := by
  cases step_eq_ok_iff.1 h with
  | operator => exact List.suffix_rfl
  | opening => exact List.suffix_rfl
  | closing => exact List.suffix_rfl
  | operand role read => exact arguments_rest_suffix read

theorem step_rest_length (h : step group s token rest = .ok (next, behind)) :
    behind.length ≤ rest.length :=
  (step_rest_suffix h).length_le

end

/-- Reads all tokens from a state on. -/
def run (group : List α → Except FatalError (List (Postfix α))) (s : Reordering α)
    (tokens : List α) : Except FatalError (List (Postfix α)) :=
  match tokens with
  | [] => s.finish
  | token :: rest =>
    match found : step group s token rest with
    | .error fatal => .error fatal
    | .ok (next, behind) =>
      have := step_rest_length found
      run group next behind
termination_by tokens.length

theorem run_nil (group : List α → Except FatalError (List (Postfix α))) (s : Reordering α) :
    run group s [] = s.finish := by
  rw [run]

theorem run_cons (group : List α → Except FatalError (List (Postfix α))) (s : Reordering α)
    (token : α) (rest : List α) :
    run group s (token :: rest) =
      match step group s token rest with
      | .error fatal => .error fatal
      | .ok (next, behind) => run group next behind := by
  rw [run]
  split <;> rename_i found <;> simp only [found]

/-- A pass ends behind the last token or at a token that it refuses, in a state of which what every
step keeps holds. -/
theorem end_of_run {group : List α → Except FatalError (List (Postfix α))}
    (holds : Reordering α → List α → Prop)
    (keeps : ∀ {s next : Reordering α} {token : α} {rest behind : List α}, holds s (token :: rest) →
      step group s token rest = .ok (next, behind) → holds next behind)
    {s : Reordering α} {tokens : List α} (initially : holds s tokens) :
    (∃ last, holds last [] ∧ run group s tokens = last.finish) ∨
      ∃ last token rest fatal, holds last (token :: rest) ∧
        step group last token rest = .error fatal ∧ run group s tokens = .error fatal := by
  induction hn : tokens.length using Nat.strongRecOn generalizing s tokens with
  | _ n ih =>
  subst hn
  cases tokens with
  | nil => exact .inl ⟨s, initially, run_nil group s⟩
  | cons token rest =>
    rw [run_cons]
    split
    · rename_i fatal failed
      exact .inr ⟨s, token, rest, fatal, initially, failed, rfl⟩
    · rename_i next behind found
      have shorter := step_rest_length found
      exact ih behind.length (Nat.lt_succ_of_le shorter) (keeps initially found) rfl

/-- What every step keeps holds of the state in which a pass that succeeds has read all tokens. -/
theorem finish_of_run {group : List α → Except FatalError (List (Postfix α))}
    (holds : Reordering α → List α → Prop)
    (keeps : ∀ {s next : Reordering α} {token : α} {rest behind : List α}, holds s (token :: rest) →
      step group s token rest = .ok (next, behind) → holds next behind)
    {s : Reordering α} {tokens : List α} (initially : holds s tokens) {items : List (Postfix α)}
    (h : run group s tokens = .ok items) : ∃ last, holds last [] ∧ last.finish = .ok items := by
  rcases end_of_run holds keeps initially with ⟨last, kept, finished⟩ | ⟨_, _, _, fatal, _, _, failed⟩
  · exact ⟨last, kept, finished.symm.trans h⟩
  · rw [h] at failed
    contradiction

theorem error_of_run {group : List α → Except FatalError (List (Postfix α))}
    (holds : Reordering α → List α → Prop)
    (keeps : ∀ {s next : Reordering α} {token : α} {rest behind : List α}, holds s (token :: rest) →
      step group s token rest = .ok (next, behind) → holds next behind)
    {s : Reordering α} {tokens : List α} (initially : holds s tokens) {fatal : FatalError}
    (h : run group s tokens = .error fatal) :
    (∃ last, holds last [] ∧ last.finish = .error fatal) ∨
      ∃ last token rest, holds last (token :: rest) ∧ step group last token rest = .error fatal := by
  rcases end_of_run holds keeps initially with
    ⟨last, kept, finished⟩ | ⟨last, token, rest, other, kept, failed, same⟩
  · exact .inl ⟨last, kept, finished.symm.trans h⟩
  · rw [h] at same
    cases same
    exact .inr ⟨last, token, rest, kept, failed⟩

/-! ### What the pass asks of argument groups -/

theorem splitGroup_inner_length {tokens inner rest : List α}
    (h : splitGroup tokens = some (inner, rest)) : inner.length < tokens.length := by
  obtain ⟨token, _, whole⟩ := splitGroup_append h
  simp [whole]

theorem arguments_congr {f g : List α → Except FatalError (List (Postfix α))} {tokens : List α}
    (same : ∀ inner : List α, inner.length < tokens.length → f inner = g inner) :
    arguments f tokens = arguments g tokens := by
  induction h : tokens.length using Nat.strongRecOn generalizing tokens with
  | _ n ih =>
  subst h
  cases tokens with
  | nil => rw [arguments, arguments]
  | cons token rest =>
    have next (later : List α) (shorter : later.length ≤ rest.length) :
        arguments f later = arguments g later :=
      ih later.length (by simp; omega)
        (fun inner short => same inner (by simp; omega)) rfl
    rw [arguments, arguments]
    split
    · rw [next rest (Nat.le_refl _)]
    · split
      · rfl
      · rename_i inner behind found
        have short := splitGroup_inner_length found
        obtain ⟨_, _, whole⟩ := splitGroup_append found
        have behind_short : behind.length ≤ rest.length := by simp [whole]; omega
        rw [same inner (by simp; omega), next behind behind_short]
    · rfl

theorem step_congr {f g : List α → Except FatalError (List (Postfix α))} (s : Reordering α)
    (token : α) {rest : List α}
    (same : ∀ inner : List α, inner.length < rest.length → f inner = g inner) :
    step f s token rest = step g s token rest := by
  unfold step
  rw [arguments_congr same]

theorem run_congr {f g : List α → Except FatalError (List (Postfix α))} (s : Reordering α)
    {tokens : List α}
    (same : ∀ inner : List α, inner.length < tokens.length → f inner = g inner) :
    run f s tokens = run g s tokens := by
  induction h : tokens.length using Nat.strongRecOn generalizing s tokens with
  | _ n ih =>
  subst h
  cases tokens with
  | nil => rw [run_nil, run_nil]
  | cons token rest =>
    rw [run_cons, run_cons,
      step_congr s token fun inner short => same inner (by simp; omega)]
    split
    · rfl
    · rename_i next behind found
      have shorter := step_rest_length found
      exact ih behind.length (by simp; omega) next
        (fun inner short => same inner (by simp; omega)) rfl

end Reordering

variable {α : Type} [Symbol α]

/-- The items of an infix expression in postfix order, where argument groups nest at most `limit`
deep. -/
def reorderWithin : Nat → List α → Except FatalError (List (Postfix α))
  | 0, tokens => Reordering.run (fun _ => .error (.grammar .missingClose)) .start tokens
  | limit + 1, tokens => Reordering.run (reorderWithin limit) .start tokens

/-- The items of an infix expression in postfix order.  Groups do not nest deeper than there are
tokens. -/
def reorder (tokens : List α) : Except FatalError (List (Postfix α)) :=
  reorderWithin tokens.length tokens

theorem reorderWithin_congr {m n : Nat} {tokens : List α} (hm : tokens.length ≤ m)
    (hn : tokens.length ≤ n) : reorderWithin m tokens = reorderWithin n tokens := by
  induction m generalizing n tokens with
  | zero =>
    have empty : tokens = [] := List.length_eq_zero_iff.1 (by omega)
    cases n <;> simp [empty, reorderWithin, Reordering.run_nil]
  | succ m ih =>
    cases n with
    | zero =>
      have empty : tokens = [] := List.length_eq_zero_iff.1 (by omega)
      simp [empty, reorderWithin, Reordering.run_nil]
    | succ n =>
      exact Reordering.run_congr .start fun inner short => ih (by omega) (by omega)

/-- Argument groups are reordered like whole expressions. -/
theorem reorder_eq (tokens : List α) :
    reorder tokens = Reordering.run reorder .start tokens := by
  cases tokens with
  | nil => simp [reorder, reorderWithin, Reordering.run_nil]
  | cons token rest =>
    exact Reordering.run_congr .start fun inner short =>
      reorderWithin_congr (by simpa using Nat.le_of_lt_succ short) (Nat.le_refl _)

/-- The texts of the items in postfix order. -/
def reorderTexts (tokens : List String) : Except FatalError (List String) :=
  (reorder (tokens.map Classified.ofText)).map fun items =>
    items.map fun item => (item.map Classified.text).text

end ShellExpr
