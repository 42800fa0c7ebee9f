import Mathlib.Logic.Function.Iterate
import Mathlib.Order.Bounds.Basic
import ShellExpr.Proofs.Parentheses

/-!
# Closing parentheses by position

The pass cuts argument groups out of tokens that need not be balanced.  The search for the end of a
group stops at the first position up to which as many parentheses close as open, so what it cuts
out lies inside the tokens, is balanced and is shorter than they are.  This is why the recursion
through argument groups comes to an end.
-/

namespace ShellExpr.Reordering

variable {α : Type} [Symbol α]

/-! ### Positions -/

/-- The token at `c` closes the parenthesis at `i`: it is a closing parenthesis, and what stands
between them is balanced. -/
structure ClosedAt (tokens : List α) (i c : Nat) : Prop where
  later : i < c
  closing : ∃ close, tokens[c]? = some close ∧ Symbol.role close = .closing
  balanced : Balanced (tokens.extract (i + 1) c)

/-- From `i` up to and including `c` as many parentheses close as open. -/
structure LevelAt (tokens : List α) (i c : Nat) : Prop where
  later : i ≤ c
  inside : c < tokens.length
  level : closings (tokens.extract i (c + 1)) = openings (tokens.extract i (c + 1))

variable {tokens : List α} {i : Nat}

theorem closedAt_of_split {inner behind : List α} {close : α}
    (split : tokens.drop (i + 1) = inner ++ close :: behind)
    (closing : Symbol.role close = .closing) (balanced : Balanced inner) :
    ClosedAt tokens i (i + 1 + inner.length) := by
  refine ⟨by omega, ⟨close, ?_, closing⟩, ?_⟩
  · rw [← List.getElem?_drop, split]
    simp
  · rw [List.extract_eq_take_drop, split]
    simpa using balanced

omit [Symbol α] in
theorem extract_append_drop (tokens : List α) {first stop : Nat} (le : first ≤ stop) :
    tokens.extract first stop ++ tokens.drop stop = tokens.drop first := by
  have later : tokens.drop stop = (tokens.drop first).drop (stop - first) := by
    rw [List.drop_drop, Nat.add_sub_cancel' le]
  rw [List.extract_eq_take_drop, later, List.take_append_drop]

theorem ClosedAt.extract_succ {c : Nat} (h : ClosedAt tokens i c) :
    ∃ close, Symbol.role close = .closing ∧
      tokens.extract (i + 1) (c + 1) = tokens.extract (i + 1) c ++ [close] := by
  obtain ⟨close, found, closing⟩ := h.closing
  have later := h.later
  have one_more : c + 1 - (i + 1) = c - (i + 1) + 1 := by omega
  have same_place : i + 1 + (c - (i + 1)) = c := by omega
  refine ⟨close, closing, ?_⟩
  rw [List.extract_eq_take_drop, List.extract_eq_take_drop, one_more, List.take_add_one,
    List.getElem?_drop, same_place, found, Option.toList_some]

theorem ClosedAt.lt_length {c : Nat} (h : ClosedAt tokens i c) : c < tokens.length := by
  obtain ⟨close, found, _⟩ := h.closing
  exact (List.getElem?_eq_some_iff.1 found).1

/-- Where the tokens behind a parenthesis have no depth, it is closed among them. -/
theorem exists_closedAt_of_none {stop : Nat}
    (h : depthAfter 0 (tokens.extract (i + 1) stop) = none) :
    ∃ c, ClosedAt tokens i c ∧ c < stop := by
  obtain ⟨inner, close, rest, split, closing, balanced⟩ := exists_closing_of_none h
  have short : inner.length < stop - (i + 1) := by
    have length := congrArg List.length split
    rw [List.extract_eq_take_drop, List.length_take, List.length_append, List.length_cons] at length
    omega
  have behind : tokens.drop (i + 1) = inner ++ close :: (rest ++ tokens.drop stop) := by
    rw [← extract_append_drop tokens (show i + 1 ≤ stop by omega), split, List.append_assoc,
      List.cons_append]
  exact ⟨i + 1 + inner.length, closedAt_of_split behind closing balanced, by omega⟩

/-! ### The first level position -/

section

variable {left : α} (here : tokens[i]? = some left) (opening : Symbol.role left = .opening)

include here

omit [Symbol α] in
theorem extract_here {stop : Nat} (lt : i < stop) :
    tokens.extract i stop = left :: tokens.extract (i + 1) stop := by
  obtain ⟨inside, rfl⟩ := List.getElem?_eq_some_iff.1 here
  rw [List.extract_eq_take_drop, List.extract_eq_take_drop, List.drop_eq_getElem_cons inside,
    ← List.take_succ_cons]
  congr 1
  omega

include opening

theorem closings_here {stop : Nat} (lt : i < stop) :
    closings (tokens.extract i stop) = closings (tokens.extract (i + 1) stop) := by
  rw [extract_here here lt, closings_cons, opening]
  rfl

theorem openings_here {stop : Nat} (lt : i < stop) :
    openings (tokens.extract i stop) = openings (tokens.extract (i + 1) stop) + 1 := by
  rw [extract_here here lt, openings_cons, opening]
  rfl

theorem ClosedAt.levelAt {c : Nat} (h : ClosedAt tokens i c) : LevelAt tokens i c := by
  obtain ⟨close, closing, longer⟩ := h.extract_succ
  have balanced := h.balanced.group opening closing
  refine ⟨Nat.le_of_lt h.later, h.lt_length, ?_⟩
  rw [extract_here here (Nat.lt_succ_of_lt h.later), longer]
  exact (balanced_iff.1 balanced).2.symm

/-- Inside the group more parentheses are open than close. -/
theorem ClosedAt.le_of_levelAt {c c' : Nat} (h : ClosedAt tokens i c) (level : LevelAt tokens i c') :
    c ≤ c' := by
  by_contra before
  have front : tokens.extract (i + 1) (c' + 1) <+: tokens.extract (i + 1) c := by
    rw [List.extract_eq_take_drop, List.extract_eq_take_drop]
    exact List.take_prefix_take_left (by omega)
  have low := (balanced_iff.1 h.balanced).1 _ front
  have same := level.level
  have lt : i < c' + 1 := Nat.lt_succ_of_le level.later
  rw [closings_here here opening lt, openings_here here opening lt] at same
  omega

theorem exists_closedAt_of_levelAt {c : Nat} (level : LevelAt tokens i c) :
    ∃ c', ClosedAt tokens i c' := by
  have lt : i < c + 1 := Nat.lt_succ_of_le level.later
  have same := level.level
  rw [closings_here here opening lt, openings_here here opening lt] at same
  cases depth : depthAfter 0 (tokens.extract (i + 1) (c + 1)) with
  | none =>
    obtain ⟨c', closed, _⟩ := exists_closedAt_of_none depth
    exact ⟨c', closed⟩
  | some reached =>
    have counts := (depthAfter_eq_some_iff.1 depth).2
    omega

theorem closedAt_iff_isLeast (c : Nat) :
    ClosedAt tokens i c ↔ IsLeast {c | LevelAt tokens i c} c := by
  have least {c : Nat} (closed : ClosedAt tokens i c) : IsLeast {c | LevelAt tokens i c} c :=
    ⟨closed.levelAt here opening, fun _ level => closed.le_of_levelAt here opening level⟩
  constructor
  · exact least
  · intro first
    obtain ⟨c', closed⟩ := exists_closedAt_of_levelAt here opening first.1
    rwa [← (least closed).unique first]

end

/-! ### The search -/

/-- The group is split off at the position that closes it. -/
theorem splitGroup_drop_eq_some_iff {inner behind : List α} :
    splitGroup (tokens.drop (i + 1)) = some (inner, behind) ↔
      ∃ c, ClosedAt tokens i c ∧ inner = tokens.extract (i + 1) c ∧
        behind = tokens.drop (c + 1) := by
  rw [splitGroup_eq_some_iff]
  constructor
  · rintro ⟨balanced, close, closing, split⟩
    refine ⟨i + 1 + inner.length, closedAt_of_split split closing balanced, ?_, ?_⟩
    · rw [List.extract_eq_take_drop, split]
      simp
    · rw [Nat.add_assoc, ← List.drop_drop, split]
      simp
  · rintro ⟨c, closed, rfl, rfl⟩
    obtain ⟨close, closing, longer⟩ := closed.extract_succ
    refine ⟨closed.balanced, close, closing, ?_⟩
    rw [← extract_append_drop tokens (Nat.succ_le_succ (Nat.le_of_lt closed.later)), longer,
      List.append_assoc, List.singleton_append]

/-- As long as the group is not closed, the search stands behind the tokens it has read, in one
group less than are open. -/
theorem splitGroup_counts {left : α} (here : tokens[i]? = some left)
    (opening : Symbol.role left = .opening) {j : Nat} (le : i ≤ j)
    (ahead : ∀ c, ClosedAt tokens i c → j < c) :
    ∃ depth,
      splitGroup (tokens.drop (i + 1)) =
        splitGroupFrom depth (tokens.extract (i + 1) (j + 1)).reverse (tokens.drop (j + 1)) ∧
      openings (tokens.extract i (j + 1)) = closings (tokens.extract i (j + 1)) + (depth + 1) := by
  have lt : i < j + 1 := Nat.lt_succ_of_le le
  cases counted : depthAfter 0 (tokens.extract (i + 1) (j + 1)) with
  | none =>
    obtain ⟨c, closed, before⟩ := exists_closedAt_of_none counted
    have := ahead c closed
    omega
  | some depth =>
    refine ⟨depth, ?_, ?_⟩
    · have reached := splitGroupFrom_reached counted [] (tokens.drop (j + 1))
      rw [extract_append_drop tokens (Nat.succ_le_succ le), List.append_nil] at reached
      exact reached
    · have counts := (depthAfter_eq_some_iff.1 counted).2
      rw [closings_here here opening lt, openings_here here opening lt]
      omega

/-- What the search for the end of the group that opens at `i` comes to. -/
structure Searched (tokens : List α) (i : Nat) : Prop where
  found_iff (inner behind : List α) :
    splitGroup (tokens.drop (i + 1)) = some (inner, behind) ↔
      ∃ c, ClosedAt tokens i c ∧ inner = tokens.extract (i + 1) c ∧ behind = tokens.drop (c + 1)
  /-- No other position may be taken for the closing one. -/
  least_iff (c : Nat) : ClosedAt tokens i c ↔ IsLeast {c | LevelAt tokens i c} c
  in_range (c : Nat) : ClosedAt tokens i c →
    i + 1 ≤ c ∧ c + 1 ≤ tokens.length ∧ (tokens.extract (i + 1) c).length < tokens.length
  /-- The search never counts below one before the closing position. -/
  counts (j : Nat) : i ≤ j → (∀ c, ClosedAt tokens i c → j < c) →
    ∃ depth,
      splitGroup (tokens.drop (i + 1)) =
        splitGroupFrom depth (tokens.extract (i + 1) (j + 1)).reverse (tokens.drop (j + 1)) ∧
      openings (tokens.extract i (j + 1)) = closings (tokens.extract i (j + 1)) + (depth + 1)

theorem ClosedAt.in_range {c : Nat} (h : ClosedAt tokens i c) :
    i + 1 ≤ c ∧ c + 1 ≤ tokens.length ∧ (tokens.extract (i + 1) c).length < tokens.length := by
  have later := h.later
  have inside := h.lt_length
  refine ⟨later, inside, ?_⟩
  rw [List.extract_eq_take_drop, List.length_take]
  omega

theorem searched {left : α} (here : tokens[i]? = some left)
    (opening : Symbol.role left = .opening) : Searched tokens i where
  found_iff _ _ := splitGroup_drop_eq_some_iff
  least_iff c := closedAt_iff_isLeast here opening c
  in_range _ closed := closed.in_range
  counts _ le ahead := splitGroup_counts here opening le ahead

/-! ### Arguments and the recursion through them -/

/-- A run of arguments that begins at `start` ends at a position from there on. -/
theorem arguments_rest_position {group : List α → Except FatalError (List (Postfix α))}
    {start : Nat} (le : start ≤ tokens.length) {args : Arguments α}
    (h : arguments group (tokens.drop start) = .ok args) :
    ∃ next, start ≤ next ∧ next ≤ tokens.length ∧ args.rest = tokens.drop next := by
  obtain ⟨read, whole⟩ := arguments_rest_suffix h
  have length := congrArg List.length whole
  rw [List.length_append, List.length_drop] at length
  refine ⟨start + read.length, by omega, by omega, ?_⟩
  rw [← List.drop_drop, ← whole, List.drop_left]

/-- One pass for each level of argument groups is enough, whatever stands for the passes below. -/
theorem iterate_run (bottom : List α → Except FatalError (List (Postfix α))) {n : Nat}
    {tokens : List α} (h : tokens.length < n) :
    (fun group => run group start)^[n] bottom tokens = reorder tokens := by
  induction n generalizing tokens with
  | zero => contradiction
  | succ n ih =>
    rw [Function.iterate_succ_apply', reorder_eq]
    exact run_congr start fun inner shorter => ih (by omega)

/-- The search for the end of a group finds the first position up to which as many parentheses
close as open, if there is one, and its count does not go below zero.  A group lies inside the
tokens and is shorter than they are, and a run of arguments ends inside them.  So the recursion
through argument groups is no deeper than there are tokens. -/
theorem groups_in_range (tokens : List α) :
    (∀ i left, tokens[i]? = some left → Symbol.role left = .opening → Searched tokens i) ∧
      (∀ first args, first ≤ tokens.length →
        arguments reorder (tokens.drop first) = .ok args →
        ∃ next, first ≤ next ∧ next ≤ tokens.length ∧ args.rest = tokens.drop next) ∧
      reorder tokens = run reorder start tokens ∧
      ∀ bottom n, tokens.length < n →
        (fun group => run group start)^[n] bottom tokens = reorder tokens := by
  refine ⟨?_, ?_, reorder_eq tokens, ?_⟩
  · intro i left here opening
    exact searched here opening
  · intro first args le read
    exact arguments_rest_position le read
  · intro bottom n enough
    exact iterate_run bottom enough

/-- A group in a group, with tokens behind both. -/
theorem groups_in_range_nested :
    IsLeast {c | LevelAt ["f", "(", "(", "1", ")", ")", "2"] 1 c} 5 ∧
      splitGroup ["(", "1", ")", ")", "2"] = some (["(", "1", ")"], ["2"]) ∧
      (fun group => run group start)^[8] (fun _ => .error .emptyExpression)
          ["f", "(", "(", "1", ")", ")", "2"] =
        reorder ["f", "(", "(", "1", ")", ")", "2"] := by
  have closed : ClosedAt ["f", "(", "(", "1", ")", ")", "2"] 1 5 :=
    ⟨by decide, ⟨")", rfl, by decide⟩, by decide⟩
  obtain ⟨search, _, _, recursion⟩ := groups_in_range ["f", "(", "(", "1", ")", ")", "2"]
  have found := search 1 "(" rfl (by decide)
  exact ⟨(found.least_iff 5).1 closed, (found.found_iff _ _).2 ⟨5, closed, rfl, rfl⟩,
    recursion _ 8 (by decide)⟩

end ShellExpr.Reordering
