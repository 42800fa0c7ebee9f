import ShellExpr.Postfix.Reorder

/-!
# Parentheses

The depth of parentheses along a list of tokens.  A group splits off the tokens behind its opening
parenthesis exactly when the tokens inside it are balanced, at the first closing parenthesis that
nothing inside has opened.
-/

namespace ShellExpr

variable {α : Type} [Symbol α]

/-- The depth behind the tokens when they start at `depth`, unless a closing parenthesis among
them has nothing to close. -/
def depthAfter (depth : Nat) : List α → Option Nat
  | [] => some depth
  | token :: rest =>
    match Symbol.role token with
    | .opening => depthAfter (depth + 1) rest
    | .closing =>
      match depth with
      | 0 => none
      | depth + 1 => depthAfter depth rest
    | _ => depthAfter depth rest

/-- Every parenthesis among the tokens has its partner among them. -/
def Balanced (tokens : List α) : Prop :=
  depthAfter 0 tokens = some 0

instance (tokens : List α) : Decidable (Balanced tokens) :=
  inferInstanceAs (Decidable (depthAfter 0 tokens = some 0))

/-- A token is an opening parenthesis, a closing one, or neither. -/
theorem role_cases (token : α) :
    Symbol.role token = .opening ∨ Symbol.role token = .closing ∨
      (Symbol.role token ≠ .opening ∧ Symbol.role token ≠ .closing) := by
  cases Symbol.role token <;> simp

/-! ### The depth along a list -/

theorem depthAfter_nil (depth : Nat) : depthAfter depth ([] : List α) = some depth := rfl

theorem depthAfter_opening {token : α} (h : Symbol.role token = .opening) (depth : Nat)
    (rest : List α) : depthAfter depth (token :: rest) = depthAfter (depth + 1) rest := by
  rw [depthAfter.eq_def]
  simp only [h]

theorem depthAfter_closing {token : α} (h : Symbol.role token = .closing) (depth : Nat)
    (rest : List α) : depthAfter (depth + 1) (token :: rest) = depthAfter depth rest := by
  rw [depthAfter.eq_def]
  simp only [h]

theorem depthAfter_closing_zero {token : α} (h : Symbol.role token = .closing) (rest : List α) :
    depthAfter 0 (token :: rest) = none := by
  rw [depthAfter.eq_def]
  simp only [h]

theorem depthAfter_other {token : α}
    (h : Symbol.role token ≠ .opening ∧ Symbol.role token ≠ .closing) (depth : Nat)
    (rest : List α) : depthAfter depth (token :: rest) = depthAfter depth rest := by
  rw [depthAfter.eq_def]
  obtain ⟨not_opening, not_closing⟩ := h
  cases hr : Symbol.role token with
  | opening => contradiction
  | closing => contradiction
  | operator op => simp only [hr]
  | operand => simp only [hr]

theorem depthAfter_append (depth : Nat) (tokens rest : List α) :
    depthAfter depth (tokens ++ rest) =
      (depthAfter depth tokens).bind fun reached => depthAfter reached rest := by
  induction tokens generalizing depth with
  | nil => rfl
  | cons token tokens ih =>
    rw [List.cons_append]
    rcases role_cases token with h | h | h
    · rw [depthAfter_opening h, depthAfter_opening h, ih]
    · cases depth with
      | zero =>
        rw [depthAfter_closing_zero h, depthAfter_closing_zero h]
        rfl
      | succ depth => rw [depthAfter_closing h, depthAfter_closing h, ih]
    · rw [depthAfter_other h, depthAfter_other h, ih]

/-- Starting deeper, the same tokens end deeper by as much. -/
theorem depthAfter_add {depth reached : Nat} {tokens : List α}
    (h : depthAfter depth tokens = some reached) (more : Nat) :
    depthAfter (depth + more) tokens = some (reached + more) := by
  induction tokens generalizing depth with
  | nil =>
    rw [depthAfter_nil, Option.some.injEq] at h
    rw [depthAfter_nil, h]
  | cons token tokens ih =>
    rcases role_cases token with hr | hr | hr
    · rw [depthAfter_opening hr] at h ⊢
      rw [Nat.add_right_comm]
      exact ih h
    · cases depth with
      | zero =>
        rw [depthAfter_closing_zero hr] at h
        contradiction
      | succ depth =>
        rw [depthAfter_closing hr] at h
        rw [Nat.add_right_comm, depthAfter_closing hr]
        exact ih h
    · rw [depthAfter_other hr] at h ⊢
      exact ih h

theorem Balanced.depthAfter_eq {tokens : List α} (h : Balanced tokens) (depth : Nat) :
    depthAfter depth tokens = some depth := by
  have shifted := depthAfter_add h depth
  rwa [Nat.zero_add] at shifted

theorem Balanced.append {tokens later : List α} (h : Balanced tokens) (hl : Balanced later) :
    Balanced (tokens ++ later) := by
  show depthAfter 0 (tokens ++ later) = some 0
  rw [depthAfter_append, h.depthAfter_eq]
  exact hl

/-- A group of balanced tokens leaves the depth as it is. -/
theorem Balanced.depthAfter_group {left right : α} {tokens : List α}
    (opening : Symbol.role left = .opening) (h : Balanced tokens)
    (closing : Symbol.role right = .closing) (depth : Nat) (rest : List α) :
    depthAfter depth (left :: (tokens ++ right :: rest)) = depthAfter depth rest := by
  rw [depthAfter_opening opening, depthAfter_append, h.depthAfter_eq, Option.bind_some,
    depthAfter_closing closing]

theorem Balanced.group {left right : α} {tokens : List α} (opening : Symbol.role left = .opening)
    (h : Balanced tokens) (closing : Symbol.role right = .closing) :
    Balanced (left :: tokens ++ [right]) :=
  h.depthAfter_group opening closing 0 []

theorem Balanced.cons {token : α} {tokens : List α}
    (other : Symbol.role token ≠ .opening ∧ Symbol.role token ≠ .closing)
    (h : Balanced tokens) : Balanced (token :: tokens) := by
  show depthAfter 0 (token :: tokens) = some 0
  rw [depthAfter_other other]
  exact h

/-- Where there is no depth behind the tokens, one of them closes the group they begin in. -/
theorem exists_closing_of_none {depth : Nat} {tokens : List α} (h : depthAfter depth tokens = none) :
    ∃ inner close rest, tokens = inner ++ close :: rest ∧ Symbol.role close = .closing ∧
      depthAfter depth inner = some 0 := by
  induction tokens generalizing depth with
  | nil => contradiction
  | cons token tokens ih =>
    rcases role_cases token with hr | hr | hr
    · rw [depthAfter_opening hr] at h
      obtain ⟨inner, close, rest, rfl, hc, hi⟩ := ih h
      exact ⟨token :: inner, close, rest, rfl, hc, by rw [depthAfter_opening hr, hi]⟩
    · cases depth with
      | zero => exact ⟨[], token, tokens, rfl, hr, rfl⟩
      | succ depth =>
        rw [depthAfter_closing hr] at h
        obtain ⟨inner, close, rest, rfl, hc, hi⟩ := ih h
        exact ⟨token :: inner, close, rest, rfl, hc, by rw [depthAfter_closing hr, hi]⟩
    · rw [depthAfter_other hr] at h
      obtain ⟨inner, close, rest, rfl, hc, hi⟩ := ih h
      exact ⟨token :: inner, close, rest, rfl, hc, by rw [depthAfter_other hr, hi]⟩

/-- Tokens that lead down from inside a group close it at some token. -/
theorem exists_closing_of_depthAfter {inside depth : Nat} {tokens : List α}
    (h : depthAfter (inside + (depth + 1)) tokens = some 0) :
    ∃ inner close rest, tokens = inner ++ close :: rest ∧ Symbol.role close = .closing ∧
      depthAfter inside inner = some 0 ∧ depthAfter depth rest = some 0 := by
  have closes : depthAfter inside tokens = none := by
    cases hr : depthAfter inside tokens with
    | none => rfl
    | some reached =>
      rw [depthAfter_add hr] at h
      cases h
  obtain ⟨inner, close, rest, rfl, hc, hi⟩ := exists_closing_of_none closes
  refine ⟨inner, close, rest, rfl, hc, hi, ?_⟩
  rwa [depthAfter_append, depthAfter_add hi, Option.bind_some, Nat.zero_add,
    depthAfter_closing hc] at h

/-- Tokens that lead into a group open it at some token, behind which they are balanced. -/
theorem exists_opening_of_depthAfter {depth : Nat} {tokens : List α}
    (h : depthAfter 0 tokens = some (depth + 1)) :
    ∃ outer left inner, tokens = outer ++ left :: inner ∧ Symbol.role left = .opening ∧
      Balanced inner ∧ depthAfter 0 outer = some depth := by
  induction hn : tokens.length using Nat.strongRecOn generalizing depth tokens with
  | _ n ih =>
  subst hn
  rcases List.eq_nil_or_concat tokens with rfl | ⟨before, last, whole⟩
  · cases h
  rw [List.concat_eq_append] at whole
  subst whole
  rw [depthAfter_append, Option.bind_eq_some_iff] at h
  obtain ⟨reached, front, behind⟩ := h
  have shorter : before.length < (before ++ [last]).length := by simp
  rcases role_cases last with hr | hr | hr
  · rw [depthAfter_opening hr, depthAfter_nil] at behind
    cases behind
    exact ⟨before, last, [], rfl, hr, rfl, front⟩
  · cases reached with
    | zero =>
      rw [depthAfter_closing_zero hr] at behind
      contradiction
    | succ reached =>
      rw [depthAfter_closing hr, depthAfter_nil] at behind
      cases behind
      -- The last token closes a group that is opened inside the one sought.
      obtain ⟨middle, first, inside, rfl, opening, balanced, deeper⟩ := ih _ shorter front rfl
      have still_shorter : middle.length < (middle ++ first :: inside ++ [last]).length := by simp
      obtain ⟨outer, left, inner, rfl, hl, hi, ho⟩ := ih _ still_shorter deeper rfl
      refine ⟨outer, left, inner ++ (first :: inside ++ [last]), ?_, hl, ?_, ho⟩
      · simp
      · exact hi.append (balanced.group opening hr)
  · rw [depthAfter_other hr, depthAfter_nil] at behind
    cases behind
    obtain ⟨outer, left, inner, rfl, hl, hi, ho⟩ := ih _ shorter front rfl
    refine ⟨outer, left, inner ++ [last], by simp, hl, ?_, ho⟩
    exact hi.append (Balanced.cons hr rfl)

/-! ### Counting -/

/-- The number of opening parentheses among some tokens. -/
def openings (tokens : List α) : Nat :=
  tokens.countP fun token => Symbol.role token = .opening

/-- The number of closing parentheses among some tokens. -/
def closings (tokens : List α) : Nat :=
  tokens.countP fun token => Symbol.role token = .closing

theorem openings_cons (token : α) (rest : List α) :
    openings (token :: rest) =
      openings rest + if Symbol.role token = .opening then 1 else 0 := by
  simp [openings, List.countP_cons]

theorem closings_cons (token : α) (rest : List α) :
    closings (token :: rest) =
      closings rest + if Symbol.role token = .closing then 1 else 0 := by
  simp [closings, List.countP_cons]

omit [Symbol α] in
theorem forall_prefix_cons {p : List α → Prop} {token : α} {rest : List α} :
    (∀ before, before <+: token :: rest → p before) ↔
      p [] ∧ ∀ before, before <+: rest → p (token :: before) := by
  constructor
  · intro h
    exact ⟨h [] List.nil_prefix, fun before front => h _ (List.cons_prefix_cons.2 ⟨rfl, front⟩)⟩
  · rintro ⟨empty, longer⟩ before front
    rcases List.prefix_cons_iff.1 front with rfl | ⟨later, rfl, inside⟩
    · exact empty
    · exact longer later inside

/-- There is a depth behind the tokens where no front part of them closes more groups than are open
before it and opened in it. -/
theorem depthAfter_eq_some_iff {depth reached : Nat} {tokens : List α} :
    depthAfter depth tokens = some reached ↔
      (∀ before, before <+: tokens → closings before ≤ depth + openings before) ∧
        depth + openings tokens = reached + closings tokens := by
  induction tokens generalizing depth with
  | nil => simp [depthAfter_nil, openings, closings]
  | cons token rest ih =>
    have zero : closings ([] : List α) = 0 := rfl
    simp only [forall_prefix_cons, openings_cons, closings_cons, zero, Nat.zero_le, true_and]
    rcases role_cases token with hr | hr | hr
    · have moved (before : List α) : closings before + 0 ≤ depth + (openings before + 1) ↔
          closings before ≤ depth + 1 + openings before := by omega
      rw [depthAfter_opening hr, ih]
      simp only [hr, if_true, reduceCtorEq, if_false, moved]
      exact and_congr_right fun _ => by omega
    · cases depth with
      | zero =>
        rw [depthAfter_closing_zero hr]
        simp only [hr, if_true, reduceCtorEq, if_false, false_iff, not_and]
        intro low
        have first := low [] List.nil_prefix
        simp [openings, closings] at first
      | succ depth =>
        have moved (before : List α) : closings before + 1 ≤ depth + 1 + (openings before + 0) ↔
            closings before ≤ depth + openings before := by omega
        rw [depthAfter_closing hr, ih]
        simp only [hr, if_true, reduceCtorEq, if_false, moved]
        exact and_congr_right fun _ => by omega
    · rw [depthAfter_other hr, ih]
      simp only [hr.1, hr.2, if_false, Nat.add_zero]

theorem balanced_iff {tokens : List α} :
    Balanced tokens ↔
      (∀ before, before <+: tokens → closings before ≤ openings before) ∧
        openings tokens = closings tokens := by
  rw [Balanced, depthAfter_eq_some_iff]
  simp only [Nat.zero_add]

/-! ### Splitting a group off -/

namespace Reordering

theorem splitGroupFrom_opening {token : α} (h : Symbol.role token = .opening) (depth : Nat)
    (read rest : List α) :
    splitGroupFrom depth read (token :: rest) = splitGroupFrom (depth + 1) (token :: read) rest := by
  rw [splitGroupFrom.eq_def]
  simp only [h]

theorem splitGroupFrom_closing {token : α} (h : Symbol.role token = .closing) (depth : Nat)
    (read rest : List α) :
    splitGroupFrom (depth + 1) read (token :: rest) = splitGroupFrom depth (token :: read) rest := by
  rw [splitGroupFrom.eq_def]
  simp only [h]

theorem splitGroupFrom_closing_zero {token : α} (h : Symbol.role token = .closing)
    (read rest : List α) : splitGroupFrom 0 read (token :: rest) = some (read.reverse, rest) := by
  rw [splitGroupFrom.eq_def]
  simp only [h]

theorem splitGroupFrom_other {token : α}
    (h : Symbol.role token ≠ .opening ∧ Symbol.role token ≠ .closing) (depth : Nat)
    (read rest : List α) :
    splitGroupFrom depth read (token :: rest) = splitGroupFrom depth (token :: read) rest := by
  rw [splitGroupFrom.eq_def]
  obtain ⟨not_opening, not_closing⟩ := h
  cases hr : Symbol.role token with
  | opening => contradiction
  | closing => contradiction
  | operator op => simp only [hr]
  | operand => simp only [hr]

/-- Reading tokens that do not close the group leads to the depth behind them. -/
theorem splitGroupFrom_reached {depth reached : Nat} {front : List α}
    (h : depthAfter depth front = some reached) (read ahead : List α) :
    splitGroupFrom depth read (front ++ ahead) =
      splitGroupFrom reached (front.reverse ++ read) ahead := by
  induction front generalizing depth read with
  | nil =>
    cases h
    rfl
  | cons token front ih =>
    have pushed : (token :: front).reverse ++ read = front.reverse ++ token :: read := by
      rw [List.reverse_cons, List.append_assoc, List.singleton_append]
    rw [List.cons_append, pushed]
    rcases role_cases token with hr | hr | hr
    · rw [depthAfter_opening hr] at h
      rw [splitGroupFrom_opening hr, ih h]
    · cases depth with
      | zero =>
        rw [depthAfter_closing_zero hr] at h
        contradiction
      | succ depth =>
        rw [depthAfter_closing hr] at h
        rw [splitGroupFrom_closing hr, ih h]
    · rw [depthAfter_other hr] at h
      rw [splitGroupFrom_other hr, ih h]

theorem splitGroupFrom_of_depthAfter {depth : Nat} {inner : List α} {close : α}
    (h : depthAfter depth inner = some 0) (closing : Symbol.role close = .closing)
    (read rest : List α) :
    splitGroupFrom depth read (inner ++ close :: rest) = some (read.reverse ++ inner, rest) := by
  rw [splitGroupFrom_reached h, splitGroupFrom_closing_zero closing, List.reverse_append,
    List.reverse_reverse]

theorem depthAfter_of_splitGroupFrom {depth : Nat} {read tokens split rest : List α}
    (h : splitGroupFrom depth read tokens = some (split, rest)) :
    ∃ inner close, split = read.reverse ++ inner ∧ Symbol.role close = .closing ∧
      tokens = inner ++ close :: rest ∧ depthAfter depth inner = some 0 := by
  cases counted : depthAfter depth tokens with
  | none =>
    obtain ⟨inner, close, behind, rfl, closing, level⟩ := exists_closing_of_none counted
    rw [splitGroupFrom_of_depthAfter level closing] at h
    cases h
    exact ⟨inner, close, rfl, closing, rfl, level⟩
  | some reached =>
    -- Nothing closes the group, so the search comes to the end of the tokens.
    have unclosed := splitGroupFrom_reached counted read []
    rw [List.append_nil, h] at unclosed
    contradiction

/-- A group is split off exactly where the tokens inside it are balanced. -/
theorem splitGroup_eq_some_iff {tokens inner rest : List α} :
    splitGroup tokens = some (inner, rest) ↔
      Balanced inner ∧ ∃ close, Symbol.role close = .closing ∧ tokens = inner ++ close :: rest := by
  constructor
  · intro h
    obtain ⟨split, close, hs, hc, ht, hd⟩ := depthAfter_of_splitGroupFrom h
    rw [List.reverse_nil, List.nil_append] at hs
    subst hs
    exact ⟨hd, close, hc, ht⟩
  · rintro ⟨balanced, close, hc, rfl⟩
    exact splitGroupFrom_of_depthAfter balanced hc [] rest

end Reordering

end ShellExpr
