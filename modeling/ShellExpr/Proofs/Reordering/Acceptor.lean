import Mathlib.Data.List.Induction
import ShellExpr.Proofs.Parentheses

/-!
# Empty arguments

A group is an argument if it stands behind an operand, or behind another group that is an argument.
An `Acceptor` reads tokens one by one and remembers of every open group whether it is an argument.
It reads them to their end, with no group left open, exactly if they are balanced and none of their
arguments is empty.
-/

namespace ShellExpr

/-! ### The acceptor -/

/-- What a place comes behind. -/
inductive Last where
  /-- An operand or an argument: a group at the place is an argument. -/
  | applied
  /-- The opening parenthesis of an argument. -/
  | opened
  | other
deriving DecidableEq, Repr

/-- What is remembered of the tokens in front of a place. -/
structure Acceptor where
  last : Last
  /-- For every group that is open at the place whether it is an argument, the innermost first. -/
  enclosing : List Bool
deriving DecidableEq, Repr

namespace Acceptor

def start : Acceptor :=
  ⟨.other, []⟩

/-- What the place behind a group comes behind. -/
def behind (argument : Bool) : Last :=
  if argument then .applied else .other

/-- A token is refused if it closes what is not open, or an argument that is empty. -/
def next? (place : Acceptor) : Role → Option Acceptor
  | .operator _ => some ⟨.other, place.enclosing⟩
  | .operand => some ⟨.applied, place.enclosing⟩
  | .opening =>
    if place.last = .applied then some ⟨.opened, true :: place.enclosing⟩
    else some ⟨.other, false :: place.enclosing⟩
  | .closing =>
    if place.last = .opened then none
    else
      match place.enclosing with
      | [] => none
      | argument :: outer => some ⟨behind argument, outer⟩

/-- What a token can lead to. -/
theorem next?_cases {place next : Acceptor} {role : Role} (h : place.next? role = some next) :
    (∃ op, role = .operator op ∧ next = ⟨.other, place.enclosing⟩) ∨
      (role = .operand ∧ next = ⟨.applied, place.enclosing⟩) ∨
      (role = .opening ∧ place.last = .applied ∧ next = ⟨.opened, true :: place.enclosing⟩) ∨
      (role = .opening ∧ place.last ≠ .applied ∧ next = ⟨.other, false :: place.enclosing⟩) ∨
      (role = .closing ∧ place.last ≠ .opened ∧ ∃ argument outer,
        place.enclosing = argument :: outer ∧ next = ⟨behind argument, outer⟩) := by
  cases role with
  | operator op =>
    cases h
    exact .inl ⟨op, rfl, rfl⟩
  | operand =>
    cases h
    exact .inr (.inl ⟨rfl, rfl⟩)
  | opening =>
    rw [next?] at h
    split at h
    · rename_i applied
      cases h
      exact .inr (.inr (.inl ⟨rfl, applied, rfl⟩))
    · rename_i plain
      cases h
      exact .inr (.inr (.inr (.inl ⟨rfl, plain, rfl⟩)))
  | closing =>
    rw [next?] at h
    split at h
    · contradiction
    · rename_i filled
      split at h
      · contradiction
      · rename_i argument outer enclosing
        cases h
        exact .inr (.inr (.inr (.inr ⟨rfl, filled, argument, outer, enclosing, rfl⟩)))

variable {α : Type} [Symbol α]

/-- The place behind some tokens, unless one of them is refused. -/
def after (place : Acceptor) (tokens : List α) : Option Acceptor :=
  tokens.foldlM (fun reached token => reached.next? (Symbol.role token)) place

/-- The tokens are read to their end, and close all groups that are open. -/
def Accepts (place : Acceptor) (tokens : List α) : Prop :=
  (place.after tokens).map enclosing = some []

instance (place : Acceptor) (tokens : List α) : Decidable (place.Accepts tokens) :=
  inferInstanceAs (Decidable ((place.after tokens).map enclosing = some []))

theorem after_cons (place : Acceptor) (token : α) (rest : List α) :
    place.after (token :: rest) =
      (place.next? (Symbol.role token)).bind fun next => next.after rest := rfl

theorem after_append (place : Acceptor) (tokens rest : List α) :
    place.after (tokens ++ rest) = (place.after tokens).bind fun next => next.after rest :=
  List.foldlM_append

theorem accepts_nil (place : Acceptor) :
    place.Accepts ([] : List α) ↔ place.enclosing = [] := by
  simp [Accepts, after]

theorem accepts_of_next {place next : Acceptor} {token : α}
    (h : place.next? (Symbol.role token) = some next) (rest : List α) :
    place.Accepts (token :: rest) ↔ next.Accepts rest := by
  rw [Accepts, after_cons, h]
  rfl

theorem not_accepts_of_next {place : Acceptor} {token : α}
    (h : place.next? (Symbol.role token) = none) (rest : List α) :
    ¬place.Accepts (token :: rest) := by
  rw [Accepts, after_cons, h]
  simp

/-! ### Depth -/

theorem depth_next {place next : Acceptor} {token : α}
    (h : place.next? (Symbol.role token) = some next) (rest : List α) :
    depthAfter place.enclosing.length (token :: rest) =
      depthAfter next.enclosing.length rest := by
  rcases next?_cases h with ⟨op, role, rfl⟩ | ⟨role, rfl⟩ | ⟨role, _, rfl⟩ | ⟨role, _, rfl⟩ |
    ⟨role, _, argument, outer, enclosing, rfl⟩
  · exact depthAfter_other (by simp [role]) _ _
  · exact depthAfter_other (by simp [role]) _ _
  · exact depthAfter_opening role _ _
  · exact depthAfter_opening role _ _
  · rw [enclosing]
    exact depthAfter_closing role _ _

/-- As many groups are open as the depth says. -/
theorem depth_after {place reached : Acceptor} {tokens : List α}
    (h : place.after tokens = some reached) :
    depthAfter place.enclosing.length tokens = some reached.enclosing.length := by
  induction tokens generalizing place with
  | nil =>
    cases h
    rfl
  | cons token rest ih =>
    rw [after_cons, Option.bind_eq_some_iff] at h
    obtain ⟨next, step, later⟩ := h
    rw [depth_next step, ih later]

theorem Accepts.depth {place : Acceptor} {tokens : List α} (h : place.Accepts tokens) :
    depthAfter place.enclosing.length tokens = some 0 := by
  rw [Accepts, Option.map_eq_some_iff] at h
  obtain ⟨reached, walked, closed⟩ := h
  rw [depth_after walked, closed]
  rfl

theorem Accepts.balanced {tokens : List α} (h : start.Accepts tokens) : Balanced tokens :=
  h.depth

/-- Balanced tokens leave no group open. -/
theorem enclosing_of_balanced {tokens : List α} (balanced : Balanced tokens) {reached : Acceptor}
    (walked : start.after tokens = some reached) : reached.enclosing = [] := by
  have depth := depth_after walked
  rw [show depthAfter start.enclosing.length tokens = some 0 from balanced] at depth
  exact List.length_eq_zero_iff.1 (Option.some.inj depth).symm

/-! ### Groups -/

/-- Around the groups that tokens open and close there may be others. -/
theorem after_enclosed (last : Last) (flags : List Bool) {tokens : List α} {depth : Nat}
    (h : depthAfter flags.length tokens = some depth) (outer : List Bool) :
    (⟨last, flags ++ outer⟩ : Acceptor).after tokens =
      ((⟨last, flags⟩ : Acceptor).after tokens).map fun place =>
        ⟨place.last, place.enclosing ++ outer⟩ := by
  induction tokens generalizing last flags with
  | nil => rfl
  | cons token tokens ih =>
    rw [after_cons, after_cons]
    cases role : Symbol.role token with
    | operator op =>
      rw [depthAfter_other (by simp [role])] at h
      exact ih .other flags h
    | operand =>
      rw [depthAfter_other (by simp [role])] at h
      exact ih .applied flags h
    | opening =>
      rw [depthAfter_opening role] at h
      simp only [next?]
      split
      · exact ih .opened (true :: flags) h
      · exact ih .other (false :: flags) h
    | closing =>
      cases flags with
      | nil =>
        rw [List.length_nil, depthAfter_closing_zero role] at h
        contradiction
      | cons argument flags =>
        rw [List.length_cons, depthAfter_closing role] at h
        simp only [next?]
        split
        · rfl
        · exact ih (behind argument) flags h

/-- Behind an opening parenthesis a group is open. -/
theorem opened_after {place reached : Acceptor} {tokens : List α}
    (h : place.after tokens = some reached)
    (opens : place.last = .opened → place.enclosing ≠ []) (opened : reached.last = .opened) :
    reached.enclosing ≠ [] := by
  induction tokens generalizing place with
  | nil =>
    cases h
    exact opens opened
  | cons token rest ih =>
    rw [after_cons, Option.bind_eq_some_iff] at h
    obtain ⟨next, step, later⟩ := h
    refine ih later fun next_opened => ?_
    rcases next?_cases step with ⟨op, _, rfl⟩ | ⟨_, rfl⟩ | ⟨_, _, rfl⟩ | ⟨_, _, rfl⟩ |
      ⟨_, _, argument, outer, _, rfl⟩
    · contradiction
    · contradiction
    · exact List.cons_ne_nil _ _
    · contradiction
    · cases argument <;> contradiction

/-- An argument with some token in it is read like a plain group. -/
theorem after_opened {tokens : List α} (balanced : Balanced tokens) (filled : tokens ≠ [])
    (enclosing : List Bool) :
    (⟨.opened, enclosing⟩ : Acceptor).after tokens =
      (⟨.other, enclosing⟩ : Acceptor).after tokens := by
  cases tokens with
  | nil => contradiction
  | cons token rest =>
    have opens : Symbol.role token ≠ .closing := by
      intro closing
      rw [Balanced, depthAfter_closing_zero closing] at balanced
      contradiction
    rw [after_cons, after_cons]
    cases role : Symbol.role token with
    | closing => contradiction
    | operator op => rfl
    | operand => rfl
    | opening => rfl

/-- Inside a plain group its tokens are read as by themselves. -/
theorem after_inside {right : α} {inner : List α} (balanced : Balanced inner)
    (closing : Symbol.role right = .closing) (argument : Bool) (enclosing : List Bool)
    (rest : List α) :
    (⟨.other, argument :: enclosing⟩ : Acceptor).after (inner ++ right :: rest) =
      if start.Accepts inner then (⟨behind argument, enclosing⟩ : Acceptor).after rest
      else none := by
  have inside := after_enclosed .other [] balanced (argument :: enclosing)
  rw [List.nil_append] at inside
  rw [after_append, inside]
  show Option.bind (Option.map _ (start.after inner)) _ = _
  cases walked : start.after inner with
  | none =>
    have refused : ¬start.Accepts inner := by
      rw [Accepts, walked]
      simp
    rw [if_neg refused]
    rfl
  | some reached =>
    have closed := enclosing_of_balanced balanced walked
    have accepted : start.Accepts inner := by
      rw [Accepts, walked, Option.map_some, closed]
    have not_opened : reached.last ≠ .opened := by
      intro opened
      exact opened_after walked Last.noConfusion opened closed
    rw [if_pos accepted, Option.map_some, Option.bind_some, closed, after_cons, closing, next?,
      if_neg not_opened]
    rfl

/-- A group is read like its tokens by themselves, unless it is an argument without any. -/
theorem after_group {left right : α} {inner : List α} (opening : Symbol.role left = .opening)
    (balanced : Balanced inner) (closing : Symbol.role right = .closing) (place : Acceptor)
    (rest : List α) :
    place.after (left :: (inner ++ right :: rest)) =
      if (place.last = .applied → inner ≠ []) ∧ start.Accepts inner then
        (⟨behind (place.last = .applied), place.enclosing⟩ : Acceptor).after rest
      else none := by
  rw [after_cons, opening, next?]
  by_cases argument : place.last = .applied
  · simp only [argument, if_true, Option.bind_some, decide_true, forall_const]
    cases inner with
    | nil =>
      rw [List.nil_append, after_cons, closing]
      rfl
    | cons first others =>
      have filled : first :: others ≠ [] := List.cons_ne_nil first others
      rw [after_append, after_opened balanced filled, ← after_append,
        after_inside balanced closing]
      simp only [filled, ne_eq, not_false_eq_true, true_and]
  · simp only [argument, if_false, Option.bind_some, decide_false, false_implies, true_and]
    exact after_inside balanced closing false place.enclosing rest

theorem accepts_argument {left right : α} {inner : List α} (opening : Symbol.role left = .opening)
    (balanced : Balanced inner) (closing : Symbol.role right = .closing) (enclosing : List Bool)
    (rest : List α) :
    (⟨.applied, enclosing⟩ : Acceptor).Accepts (left :: (inner ++ right :: rest)) ↔
      (inner ≠ [] ∧ start.Accepts inner) ∧ (⟨.applied, enclosing⟩ : Acceptor).Accepts rest := by
  rw [Accepts, after_group opening balanced closing]
  simp only [forall_const]
  split
  · rename_i fine
    exact (and_iff_right fine).symm
  · rename_i refused
    simp only [refused, false_and, Option.map_none, reduceCtorEq]

end Acceptor

/-! ### Places of arguments -/

variable {α : Type} [Symbol α]

/-- A group behind these tokens is an argument: they end in an operand, or in a group that is an
argument itself. -/
inductive ArgumentPlace : List α → Prop where
  | operand {before : List α} {token : α} (role : Symbol.role token = .operand) :
      ArgumentPlace (before ++ [token])
  | group {before inner : List α} {left right : α} (argument : ArgumentPlace before)
      (opening : Symbol.role left = .opening) (balanced : Balanced inner)
      (closing : Symbol.role right = .closing) :
      ArgumentPlace (before ++ left :: (inner ++ [right]))

/-- No argument is a group with nothing in it. -/
def ArgumentsFilled (tokens : List α) : Prop :=
  ∀ before left right rest, tokens = before ++ left :: right :: rest →
    Symbol.role left = .opening → Symbol.role right = .closing → ¬ArgumentPlace before

theorem ArgumentsFilled.front {tokens later : List α} (h : ArgumentsFilled (tokens ++ later)) :
    ArgumentsFilled tokens := by
  rintro before left right rest rfl
  exact h before left right (rest ++ later) (by simp)

namespace Acceptor

theorem after_snoc {place reached : Acceptor} {front : List α} {token : α}
    (h : place.after (front ++ [token]) = some reached) :
    ∃ middle, place.after front = some middle ∧
      middle.next? (Symbol.role token) = some reached := by
  rw [after_append, Option.bind_eq_some_iff] at h
  obtain ⟨middle, walked, step⟩ := h
  rw [after_cons, Option.bind_eq_some_iff] at step
  obtain ⟨next, step, same⟩ := step
  cases same
  exact ⟨middle, walked, step⟩

/-- The acceptor takes only what is an argument for one. -/
theorem argumentPlace_of_after {before : List α} {place : Acceptor}
    (h : start.after before = some place) (applied : place.last = .applied) :
    ArgumentPlace before := by
  induction hn : before.length using Nat.strongRecOn generalizing before place with
  | _ n ih =>
  subst hn
  rcases List.eq_nil_or_concat before with rfl | ⟨front, token, whole⟩
  · cases h
    contradiction
  rw [List.concat_eq_append] at whole
  subst whole
  obtain ⟨middle, walked, step⟩ := after_snoc h
  rcases next?_cases step with ⟨op, _, rfl⟩ | ⟨role, rfl⟩ | ⟨_, _, rfl⟩ | ⟨_, _, rfl⟩ |
    ⟨role, _, argument, outer, enclosing, rfl⟩
  · contradiction
  · exact .operand role
  · contradiction
  · contradiction
  · -- The group that ends here was opened at a place in front of which the induction holds.
    have reaches := depth_after walked
    rw [enclosing, List.length_cons] at reaches
    obtain ⟨around, left, inner, rfl, opening, balanced, _⟩ := exists_opening_of_depthAfter reaches
    have regroup : around ++ left :: inner ++ [token] = around ++ left :: (inner ++ [token]) := by
      rw [List.append_assoc, List.cons_append]
    rw [regroup, after_append, Option.bind_eq_some_iff] at h
    obtain ⟨place, front, group⟩ := h
    rw [after_group opening balanced role] at group
    split at group
    · have same : behind (place.last = .applied) = behind argument :=
        congrArg Acceptor.last (Option.some.inj group)
      have inside_argument : place.last = .applied := by
        by_contra other
        rw [decide_eq_false other] at same
        rw [← same] at applied
        contradiction
      rw [regroup]
      exact .group (ih _ (by simp) front inside_argument rfl) opening balanced role
    · contradiction

/-- The place behind the opening parenthesis of an argument. -/
theorem argumentPlace_of_opened {before : List α} {place : Acceptor}
    (h : start.after before = some place) (opened : place.last = .opened) :
    ∃ outer left, before = outer ++ [left] ∧ Symbol.role left = .opening ∧
      ArgumentPlace outer := by
  rcases List.eq_nil_or_concat before with rfl | ⟨front, token, whole⟩
  · cases h
    contradiction
  rw [List.concat_eq_append] at whole
  subst whole
  obtain ⟨middle, walked, step⟩ := after_snoc h
  rcases next?_cases step with ⟨op, _, rfl⟩ | ⟨_, rfl⟩ | ⟨role, applied, rfl⟩ | ⟨_, _, rfl⟩ |
    ⟨_, _, argument, outer, _, rfl⟩
  · contradiction
  · contradiction
  · exact ⟨front, token, rfl, role, argumentPlace_of_after walked applied⟩
  · contradiction
  · cases argument <;> contradiction

theorem last_of_argumentPlace {before : List α} (h : ArgumentPlace before) {place : Acceptor}
    (walked : start.after before = some place) : place.last = .applied := by
  induction h generalizing place with
  | operand role =>
    obtain ⟨middle, _, step⟩ := after_snoc walked
    rw [role] at step
    cases step
    rfl
  | group argument opening balanced closing ih =>
    rw [after_append, Option.bind_eq_some_iff] at walked
    obtain ⟨middle, front, group⟩ := walked
    rw [after_group opening balanced closing] at group
    split at group
    · cases group
      rw [ih front]
      rfl
    · contradiction

/-- Where a closing parenthesis is refused, none is open or the argument it closes is empty. -/
theorem exists_next {front : List α} {middle : Acceptor} (walked : start.after front = some middle)
    {token : α} {depth : Nat} (reaches : depthAfter 0 (front ++ [token]) = some depth)
    (filled : ArgumentsFilled (front ++ [token])) :
    ∃ next, middle.next? (Symbol.role token) = some next := by
  cases role : Symbol.role token with
  | operator op => exact ⟨_, rfl⟩
  | operand => exact ⟨_, rfl⟩
  | opening =>
    rw [next?]
    split <;> exact ⟨_, rfl⟩
  | closing =>
    have not_opened : middle.last ≠ .opened := by
      intro opened
      obtain ⟨outer, left, rfl, opening, argument⟩ := argumentPlace_of_opened walked opened
      exact filled outer left token [] (by simp) opening role argument
    rw [next?, if_neg not_opened]
    split
    · rename_i enclosing
      have closed : depthAfter 0 front = some 0 := by
        have count := depth_after walked
        rw [enclosing] at count
        exact count
      rw [depthAfter_append, closed, Option.bind_some, depthAfter_closing_zero role] at reaches
      contradiction
    · exact ⟨_, rfl⟩

/-- Only an empty argument is refused among tokens that have a depth. -/
theorem after_of_filled {tokens : List α} {depth : Nat} (reaches : depthAfter 0 tokens = some depth)
    (filled : ArgumentsFilled tokens) : ∃ place, start.after tokens = some place := by
  induction tokens using List.reverseRecOn generalizing depth with
  | nil => exact ⟨start, rfl⟩
  | append_singleton front token ih =>
    have front_reaches := reaches
    rw [depthAfter_append, Option.bind_eq_some_iff] at front_reaches
    obtain ⟨middle_depth, inside, _⟩ := front_reaches
    obtain ⟨middle, walked⟩ := ih inside filled.front
    obtain ⟨next, step⟩ := exists_next walked reaches filled
    refine ⟨next, ?_⟩
    rw [after_append, walked, Option.bind_some, after_cons, step]
    rfl

/-- The acceptor takes balanced tokens without empty arguments, and no others. -/
theorem accepts_iff {tokens : List α} :
    start.Accepts tokens ↔ Balanced tokens ∧ ArgumentsFilled tokens := by
  constructor
  · intro accepted
    refine ⟨accepted.balanced, ?_⟩
    rintro before left right rest rfl opening closing argument
    rw [Accepts, Option.map_eq_some_iff] at accepted
    obtain ⟨reached, walked, _⟩ := accepted
    rw [after_append, Option.bind_eq_some_iff] at walked
    obtain ⟨middle, front, behind⟩ := walked
    have applied := last_of_argumentPlace argument front
    rw [after_cons, opening, next?, if_pos applied, Option.bind_some, after_cons, closing] at behind
    contradiction
  · rintro ⟨balanced, filled⟩
    obtain ⟨place, walked⟩ := after_of_filled balanced filled
    rw [Accepts, walked, Option.map_some, enclosing_of_balanced balanced walked]

example : start.Accepts ["(", ")", "+", "f", "(", "1", ")", "2"] := by decide
example : ¬start.Accepts ["f", "(", "1", ")", "(", ")"] := by decide

end Acceptor

end ShellExpr
