import ShellExpr.Proofs.Grammar
import ShellExpr.Proofs.Parentheses

/-!
# Places between tokens

Whether a group is an argument depends on what stands in front of it: behind an operand, or behind
a group that is an argument itself, a group is an argument as well.  A walk over the tokens keeps
this in mind for every group that is open.

`GroupsApart` says that nothing but an operator stands right behind a group that is no argument.
The grammar derives only such tokens.
-/

namespace ShellExpr

/-- What stands in front of a place, in the group of that place. -/
inductive Front where
  /-- Nothing, or an operator. -/
  | free
  /-- An operand, or a group that is an argument: an operand or a group at the place is an
  argument. -/
  | applied
  /-- A group that is no argument. -/
  | group
deriving DecidableEq, Repr

/-- A place between two tokens. -/
structure Place where
  front : Front
  /-- For every group that is open at the place whether it is an argument, the innermost first. -/
  enclosing : List Bool
deriving DecidableEq, Repr

namespace Place

/-- The place in front of an expression. -/
def start : Place :=
  ⟨.free, []⟩

/-- What stands in front of the place behind a group. -/
def behind (argument : Bool) : Front :=
  if argument then .applied else .group

/-- The place behind a token.  There is none behind an operand or an opening parenthesis that
follows a group which is no argument. -/
def next? (place : Place) : Role → Option Place
  | .operator _ => some ⟨.free, place.enclosing⟩
  | .operand => if place.front = .group then none else some ⟨.applied, place.enclosing⟩
  | .opening =>
    if place.front = .group then none
    else some ⟨.free, (place.front = .applied) :: place.enclosing⟩
  | .closing =>
    match place.enclosing with
    | [] => some start
    | argument :: outer => some ⟨behind argument, outer⟩

variable {α : Type} [Symbol α]

/-- The place behind some tokens. -/
def after (place : Place) : List α → Option Place
  | [] => some place
  | token :: rest => (place.next? (Symbol.role token)).bind fun next => next.after rest

theorem after_cons (place : Place) (token : α) (rest : List α) :
    place.after (token :: rest) =
      (place.next? (Symbol.role token)).bind fun next => next.after rest := rfl

theorem after_append (place : Place) (tokens rest : List α) :
    place.after (tokens ++ rest) = (place.after tokens).bind fun next => next.after rest := by
  induction tokens generalizing place with
  | nil => rfl
  | cons token tokens ih =>
    rw [List.cons_append, after_cons, after_cons, Option.bind_assoc]
    congr 1
    funext next
    exact ih next

end Place

variable {α : Type} [Symbol α]

/-- Behind a group that is no argument stands no operand and no group. -/
def GroupsApart (tokens : List α) : Prop :=
  (Place.start.after tokens).isSome

instance (tokens : List α) : Decidable (GroupsApart tokens) :=
  inferInstanceAs (Decidable ((Place.start.after tokens).isSome = true))

example : GroupsApart ["f", "(", "1", ")", "(", "2", ")"] := by decide
example : ¬GroupsApart ["(", "f", ")", "(", "1", ")"] := by decide

/-! ### Groups -/

namespace Place

/-- Around the groups that tokens open and close there may be others. -/
theorem after_enclosed (front : Front) (flags : List Bool) {tokens : List α} {depth : Nat}
    (h : depthAfter flags.length tokens = some depth) (outer : List Bool) :
    (⟨front, flags ++ outer⟩ : Place).after tokens =
      ((⟨front, flags⟩ : Place).after tokens).map fun place =>
        ⟨place.front, place.enclosing ++ outer⟩ := by
  induction tokens generalizing front flags with
  | nil => rfl
  | cons token tokens ih =>
    rw [after_cons, after_cons]
    cases role : Symbol.role token with
    | operator op =>
      rw [depthAfter_other (by simp [role])] at h
      exact ih .free flags h
    | operand =>
      rw [depthAfter_other (by simp [role])] at h
      simp only [next?]
      split
      · rfl
      · exact ih .applied flags h
    | opening =>
      rw [depthAfter_opening role] at h
      simp only [next?]
      split
      · rfl
      · exact ih .free ((front = .applied) :: flags) h
    | closing =>
      cases flags with
      | nil =>
        rw [List.length_nil, depthAfter_closing_zero role] at h
        contradiction
      | cons argument flags =>
        rw [List.length_cons, depthAfter_closing role] at h
        exact ih (behind argument) flags h

/-- As many groups are open as the depth says. -/
theorem length_enclosing (place : Place) {reached : Place} {tokens : List α} {depth : Nat}
    (h : depthAfter place.enclosing.length tokens = some depth)
    (walked : place.after tokens = some reached) : reached.enclosing.length = depth := by
  induction tokens generalizing place with
  | nil =>
    cases walked
    exact Option.some.inj h
  | cons token tokens ih =>
    rw [after_cons, Option.bind_eq_some_iff] at walked
    obtain ⟨next, step, later⟩ := walked
    refine ih next ?_ later
    cases role : Symbol.role token with
    | operator op =>
      rw [depthAfter_other (by simp [role])] at h
      rw [role] at step
      cases step
      exact h
    | operand =>
      rw [depthAfter_other (by simp [role])] at h
      rw [role, next?] at step
      split at step <;> cases step
      exact h
    | opening =>
      rw [depthAfter_opening role] at h
      rw [role, next?] at step
      split at step <;> cases step
      exact h
    | closing =>
      rw [role, next?] at step
      cases enclosing : place.enclosing with
      | nil =>
        rw [enclosing, List.length_nil, depthAfter_closing_zero role] at h
        contradiction
      | cons argument outer =>
        rw [enclosing, List.length_cons, depthAfter_closing role] at h
        rw [enclosing] at step
        cases step
        exact h

/-- A walk over a group is one inside the group and one behind it. -/
theorem after_group {left right : α} {inner : List α} (opening : Symbol.role left = .opening)
    (balanced : Balanced inner) (closing : Symbol.role right = .closing) {front : Front}
    (joins : front ≠ .group) (enclosing : List Bool) (rest : List α) :
    (⟨front, enclosing⟩ : Place).after (left :: (inner ++ right :: rest)) =
      if GroupsApart inner then (⟨behind (front = .applied), enclosing⟩ : Place).after rest
      else none := by
  have inside := after_enclosed .free [] balanced
    ((front = .applied : Bool) :: enclosing)
  rw [List.nil_append] at inside
  rw [after_cons, opening, next?, if_neg joins, Option.bind_some, after_append, inside]
  cases walked : Place.start.after inner with
  | none =>
    have crowded : ¬GroupsApart inner := by
      rw [GroupsApart, walked]
      simp
    rw [if_neg crowded]
    show Option.bind (Option.map _ (Place.start.after inner)) _ = none
    rw [walked]
    rfl
  | some reached =>
    have apart : GroupsApart inner := by
      rw [GroupsApart, walked]
      rfl
    have closed : reached.enclosing = [] :=
      List.length_eq_zero_iff.1 (length_enclosing start balanced walked)
    rw [if_pos apart]
    show Option.bind (Option.map _ (Place.start.after inner)) _ = _
    rw [walked, Option.map_some, Option.bind_some, closed, List.nil_append, after_cons, closing]
    rfl

end Place

/-! ### Derived tokens -/

/-- What may stand in front of a phrase. -/
def Phrase.Follows : Phrase α → Front → Prop
  | .argument _, front => front ≠ .group
  | .arguments _ _, front => front = .applied
  | .operations _, _ => True
  | .unit _ _, front | .statement _, front | .program _, front => front = .free

/-- What then stands in front of the place behind a phrase: behind arguments there may be more of
them. -/
def Phrase.Leads : Phrase α → Front → Front → Prop
  | .argument _, front, reached => front = .applied → reached = .applied
  | .arguments _ _, _, reached => reached = .applied
  | _, _, _ => True

/-- A phrase keeps its own groups apart. -/
theorem Derives.after {phrase : Phrase α} {tokens : List α} (h : Derives phrase tokens)
    (front : Front) (follows : phrase.Follows front) (enclosing : List Bool) :
    ∃ reached, (⟨front, enclosing⟩ : Place).after tokens = some ⟨reached, enclosing⟩ ∧
      phrase.Leads front reached := by
  induction h generalizing front enclosing with
  | operand role =>
    refine ⟨.applied, ?_, fun _ => rfl⟩
    rw [Place.after_cons, role, Place.next?, if_neg follows]
    rfl
  | group opening _ closing ih =>
    obtain ⟨reached, inside, _⟩ := ih .free rfl ((front = .applied) :: enclosing)
    refine ⟨Place.behind (front = .applied), ?_, ?_⟩
    · rw [List.cons_append, Place.after_cons, opening, Place.next?, if_neg follows,
        Option.bind_some, Place.after_append, inside, Option.bind_some, Place.after_cons, closing]
      rfl
    · rintro rfl
      rfl
  | lastArgument _ ih =>
    cases follows
    obtain ⟨reached, walked, leads⟩ := ih .applied Front.noConfusion enclosing
    exact ⟨reached, walked, leads rfl⟩
  | moreArguments _ _ ih ih_more =>
    cases follows
    obtain ⟨reached, walked, leads⟩ := ih .applied Front.noConfusion enclosing
    obtain ⟨last, walked_more, leads_more⟩ := ih_more reached (leads rfl) enclosing
    refine ⟨last, ?_, leads_more⟩
    rw [Place.after_append, walked]
    exact walked_more
  | plain _ ih =>
    cases follows
    obtain ⟨reached, walked, _⟩ := ih .free Front.noConfusion enclosing
    exact ⟨reached, walked, trivial⟩
  | application role _ ih =>
    cases follows
    obtain ⟨reached, walked, _⟩ := ih .applied rfl enclosing
    refine ⟨reached, ?_, trivial⟩
    rw [Place.after_cons, role]
    exact walked
  | noOperations => exact ⟨front, rfl, trivial⟩
  | operation role _ _ _ ih ih_later =>
    obtain ⟨reached, walked, _⟩ := ih .free rfl enclosing
    obtain ⟨last, walked_later, _⟩ := ih_later reached trivial enclosing
    refine ⟨last, ?_, trivial⟩
    rw [List.cons_append, Place.after_cons, role, Place.next?, Option.bind_some,
      Place.after_append, walked]
    exact walked_later
  | statement _ _ ih ih_later =>
    cases follows
    obtain ⟨reached, walked, _⟩ := ih .free rfl enclosing
    obtain ⟨last, walked_later, _⟩ := ih_later reached trivial enclosing
    refine ⟨last, ?_, trivial⟩
    rw [Place.after_append, walked]
    exact walked_later
  | single _ ih =>
    cases follows
    obtain ⟨reached, walked, _⟩ := ih .free rfl enclosing
    exact ⟨reached, walked, trivial⟩
  | sequence _ role _ ih ih_last =>
    cases follows
    obtain ⟨reached, walked, _⟩ := ih .free rfl enclosing
    obtain ⟨last, walked_last, _⟩ := ih_last .free rfl enclosing
    refine ⟨last, ?_, trivial⟩
    rw [Place.after_append, walked, Option.bind_some, Place.after_cons, role]
    exact walked_last

/-- In what the grammar derives, groups stand apart. -/
theorem Derives.groupsApart {tree : Tree α} {tokens : List α}
    (h : Derives (.program tree) tokens) : GroupsApart tokens := by
  obtain ⟨reached, walked, _⟩ := h.after .free rfl []
  rw [GroupsApart, Place.start, walked]
  rfl

end ShellExpr
