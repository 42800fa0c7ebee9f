import Mathlib.Logic.Function.Basic
import ShellExpr.Value.Tuple

/-!
# Tuples as sequences

A program works with sequences that have numbers for names: it makes them from lists, copies and
joins them, changes them at the head and takes all elements out.  Run on tuples or run on plain
lists, it gets the same answers and ends with the same elements in the same order.  A sequence that
no step of it changes stays as it is, whatever happens to the copies of it.
-/

namespace ShellExpr

/-! ### Sequences -/

/-- What can be done with the sequences of a type. -/
structure Sequences (α σ : Type) where
  ofList : List α → σ
  toList : σ → List α
  length : σ → Nat
  isEmpty : σ → Bool
  head? : σ → Option α
  tail? : σ → Option σ
  push : α → σ → σ
  pop : σ → Option α × σ
  drain : σ → List α × σ
  copy : σ → σ
  concat : σ → σ → σ

namespace Sequences

variable {α σ : Type}

def tuples : Sequences α (Tuple α) where
  ofList := Tuple.ofList
  toList := Tuple.toList
  length := Tuple.length
  isEmpty := Tuple.isEmpty
  head? := Tuple.head?
  tail? := Tuple.tail?
  push := Tuple.push
  pop := Tuple.pop
  drain := Tuple.drain
  copy := Tuple.copy
  concat := Tuple.concat

/-- A list grows and shrinks at its head and is its own copy. -/
def lists : Sequences α (List α) where
  ofList values := values
  toList values := values
  length := List.length
  isEmpty := List.isEmpty
  head? := List.head?
  tail? := List.tail?
  push := List.cons
  pop values := (values.head?, values.tail)
  drain values := (values, [])
  copy values := values
  concat := List.append

/-! ### Programs -/

/-- The steps of a program.  The first number names the sequence that a step asks or changes. -/
inductive Step (α : Type) where
  | ofList (i : Nat) (values : List α)
  | copy (i j : Nat)
  | concat (i j k : Nat)
  /-- Makes sequence `i` the tail of sequence `j`, if there is one. -/
  | takeTail (i j : Nat)
  | push (i : Nat) (value : α)
  | pop (i : Nat)
  | drain (i : Nat)
  | head (i : Nat)
  | tail (i : Nat)
  | toList (i : Nat)
  | length (i : Nat)
  | isEmpty (i : Nat)

/-- The sequence that a step changes, if it is no question. -/
def Step.target? : Step α → Option Nat
  | ofList i _ | copy i _ | concat i _ _ | takeTail i _ | push i _ | pop i | drain i => some i
  | head _ | tail _ | toList _ | length _ | isEmpty _ => none

inductive Answer (α : Type) where
  | done
  | element (value : Option α)
  | elements (values : List α)
  | rest (values : Option (List α))
  | flag (b : Bool)
  | size (n : Nat)

def step (S : Sequences α σ) (store : Nat → σ) : Step α → Answer α × (Nat → σ)
  | .ofList i values => (.done, Function.update store i (S.ofList values))
  | .copy i j => (.done, Function.update store i (S.copy (store j)))
  | .concat i j k => (.done, Function.update store i (S.concat (store j) (store k)))
  | .takeTail i j =>
    match S.tail? (store j) with
    | some rest => (.flag true, Function.update store i (S.copy rest))
    | none => (.flag false, store)
  | .push i value => (.done, Function.update store i (S.push value (store i)))
  | .pop i => (.element (S.pop (store i)).1, Function.update store i (S.pop (store i)).2)
  | .drain i => (.elements (S.drain (store i)).1, Function.update store i (S.drain (store i)).2)
  | .head i => (.element (S.head? (store i)), store)
  | .tail i => (.rest ((S.tail? (store i)).map S.toList), store)
  | .toList i => (.elements (S.toList (store i)), store)
  | .length i => (.size (S.length (store i)), store)
  | .isEmpty i => (.flag (S.isEmpty (store i)), store)

/-- The answers to the steps of a program, and the sequences after it. -/
def run (S : Sequences α σ) : List (Step α) → (Nat → σ) → List (Answer α) × (Nat → σ)
  | [], store => ([], store)
  | next :: later, store =>
    let (answer, after) := S.step store next
    let (answers, final) := S.run later after
    (answer :: answers, final)

/-! ### Steps -/

/-- A step leaves all sequences but its target as they are. -/
theorem step_other (S : Sequences α σ) (store : Nat → σ) {next : Step α} {i : Nat}
    (other : next.target? ≠ some i) : (S.step store next).2 i = store i := by
  cases next with
  | ofList j | copy j | concat j | push j | pop j | drain j =>
    exact Function.update_of_ne (fun same => other (congrArg some same.symm)) _ _
  | takeTail j k =>
    simp only [step]
    cases S.tail? (store k) with
    | none => rfl
    | some rest => exact Function.update_of_ne (fun same => other (congrArg some same.symm)) _ _
  | head | tail | toList | length | isEmpty => rfl

/-- The tuples have the elements of the lists, one by one. -/
def Represents (store : Nat → Tuple α) (plain : Nat → List α) : Prop :=
  ∀ i, (store i).toList = plain i

variable {store : Nat → Tuple α} {plain : Nat → List α}

theorem Represents.update (h : Represents store plain) (i : Nat) {t : Tuple α} {values : List α}
    (same : t.toList = values) :
    Represents (Function.update store i t) (Function.update plain i values) := by
  intro j
  by_cases target : j = i
  · rw [target, Function.update_self, Function.update_self]
    exact same
  · rw [Function.update_of_ne target, Function.update_of_ne target]
    exact h j

/-- A step has the same answer on tuples as on lists, and represented lists stay represented. -/
theorem represents_step (h : Represents store plain) (next : Step α) :
    (tuples.step store next).1 = (lists.step plain next).1 ∧
      Represents (tuples.step store next).2 (lists.step plain next).2 := by
  have tails (i : Nat) : (plain i).tail? = (store i).tail?.map Tuple.toList := by
    rw [← h i, Tuple.tail?_toList]
  have heads (i : Nat) : (store i).head? = (plain i).head? := by
    rw [← h i, Tuple.head?_toList]
  cases next with
  | ofList i values => exact ⟨rfl, h.update i (Tuple.toList_ofList values)⟩
  | copy i j => exact ⟨rfl, h.update i ((Tuple.toList_copy _).trans (h j))⟩
  | concat i j k =>
    have joined : ((store j).concat (store k)).toList = plain j ++ plain k := by
      rw [Tuple.toList_concat, h j, h k]
    exact ⟨rfl, h.update i joined⟩
  | takeTail i j =>
    simp only [step, tuples, lists, tails]
    cases (store j).tail? with
    | none => exact ⟨rfl, h⟩
    | some rest => exact ⟨rfl, h.update i (Tuple.toList_copy rest)⟩
  | push i value =>
    have pushed : ((store i).push value).toList = value :: plain i := by
      rw [Tuple.toList_push, h i]
    exact ⟨rfl, h.update i pushed⟩
  | pop i =>
    have answer : (store i).pop.1 = (plain i).head? := by
      rw [Tuple.fst_pop, h i]
    have popped : (store i).pop.2.toList = (plain i).tail := by
      rw [Tuple.toList_pop, h i]
    exact ⟨congrArg Answer.element answer, h.update i popped⟩
  | drain i =>
    have answer : (store i).drain.1 = plain i := by
      rw [Tuple.drain_eq, ← h i]
    have drained : (store i).drain.2.toList = [] := by
      rw [Tuple.drain_eq, Tuple.toList_empty]
    exact ⟨congrArg Answer.elements answer, h.update i drained⟩
  | head i => exact ⟨congrArg Answer.element (heads i), h⟩
  | tail i =>
    refine ⟨?_, h⟩
    simp only [step, tuples, lists, tails, Option.map_map]
    rfl
  | toList i => exact ⟨congrArg Answer.elements (h i), h⟩
  | length i =>
    have sizes : (store i).length = (plain i).length := by
      rw [← h i, Tuple.length_toList]
    exact ⟨congrArg Answer.size sizes, h⟩
  | isEmpty i =>
    have answer : (store i).isEmpty = (plain i).isEmpty := by
      rw [← h i, Tuple.isEmpty_toList]
    exact ⟨congrArg Answer.flag answer, h⟩

/-! ### Runs -/

theorem run_other (S : Sequences α σ) {program : List (Step α)} {i : Nat}
    (others : ∀ next ∈ program, next.target? ≠ some i) (store : Nat → σ) :
    (S.run program store).2 i = store i := by
  induction program generalizing store with
  | nil => rfl
  | cons next later ih =>
    rw [List.forall_mem_cons] at others
    show (S.run later (S.step store next).2).2 i = store i
    rw [ih others.2, step_other S store others.1]

theorem represents_run (h : Represents store plain) (program : List (Step α)) :
    (tuples.run program store).1 = (lists.run program plain).1 ∧
      Represents (tuples.run program store).2 (lists.run program plain).2 := by
  induction program generalizing store plain with
  | nil => exact ⟨rfl, h⟩
  | cons next later ih =>
    obtain ⟨answer, kept⟩ := represents_step h next
    obtain ⟨answers, final⟩ := ih kept
    exact ⟨congrArg₂ List.cons answer answers, final⟩

/-- From tuples with the elements of some lists on, a program has the answers that it has on the
lists, and in the end the tuples have the elements and the lengths of the lists.  A tuple that no
step changes is the one from the start, also where others were copied from it and changed. -/
theorem tuples_refine_lists (program : List (Step α)) (start : Nat → List α) :
    (tuples.run program fun i => Tuple.ofList (start i)).1 = (lists.run program start).1 ∧
      (∀ i, ((tuples.run program fun i => Tuple.ofList (start i)).2 i).toList =
          (lists.run program start).2 i ∧
        ((tuples.run program fun i => Tuple.ofList (start i)).2 i).length =
          ((lists.run program start).2 i).length) ∧
      ∀ i, (∀ next ∈ program, next.target? ≠ some i) →
        (tuples.run program fun i => Tuple.ofList (start i)).2 i = Tuple.ofList (start i) := by
  have represented : Represents (fun i => Tuple.ofList (start i)) start :=
    fun i => Tuple.toList_ofList (start i)
  obtain ⟨answers, final⟩ := represents_run represented program
  refine ⟨answers, ?_, ?_⟩
  · intro i
    refine ⟨final i, ?_⟩
    rw [← Tuple.length_toList, final i]
  · intro i others
    exact run_other tuples others _

/-- A clone with a new head, joined to itself, beside the sequence that it was cloned from. -/
theorem tuples_refine_lists_cloned :
    (tuples.run [.copy 1 0, .push 1 7, .concat 1 1 1, .pop 1, .toList 0, .toList 1]
        fun _ => Tuple.ofList [1, 2]).1 =
      [.done, .done, .done, .element (some 7), .elements [1, 2], .elements [1, 2, 7, 1, 2]] ∧
      (∀ next ∈ ([.copy 1 0, .push 1 7, .concat 1 1 1, .pop 1, .toList 0, .toList 1] :
        List (Step Nat)), next.target? ≠ some 0) ∧
      (tuples.run [.copy 1 0, .push 1 7, .concat 1 1 1, .pop 1, .toList 0, .toList 1]
        fun _ => Tuple.ofList [1, 2]).2 0 = Tuple.ofList [1, 2] := by
  obtain ⟨answers, _, others⟩ := tuples_refine_lists
    [.copy 1 0, .push 1 7, .concat 1 1 1, .pop 1, .toList 0, .toList 1] fun _ => [1, 2]
  have apart : ∀ next ∈ ([.copy 1 0, .push 1 7, .concat 1 1 1, .pop 1, .toList 0, .toList 1] :
      List (Step Nat)), next.target? ≠ some 0 := by
    simp [Step.target?]
  exact ⟨answers, apart, others 0 apart⟩

end Sequences

end ShellExpr
