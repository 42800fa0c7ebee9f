import ShellExpr.Proofs.Reordering.Acceptor
import ShellExpr.Proofs.Reordering.Balance
import ShellExpr.Proofs.Reordering.Derivation

/-!
# What the pass accepts

The pass matches parentheses in two ways: those of plain groups on its stack, and those of argument
groups by searching ahead.  Together they accept the balanced tokens without empty arguments, by an
induction over the arguments inside one over the run.
-/

namespace ShellExpr

/-! ### Arguments and runs -/

namespace Reordering

variable {α : Type} [Symbol α] {group : List α → Except FatalError (List (Postfix α))}

/-- Of tokens fewer than `limit`, `group` accepts those that the acceptor does. -/
def Judges (group : List α → Except FatalError (List (Postfix α))) (limit : Nat) : Prop :=
  ∀ inner : List α, inner.length < limit →
    ((∃ items, group inner = .ok items) ↔ Acceptor.start.Accepts inner)

theorem Judges.mono {limit smaller : Nat} (h : Judges group limit) (le : smaller ≤ limit) :
    Judges group smaller := by
  intro inner short
  exact h inner (Nat.lt_of_lt_of_le short le)

/-- Behind a run of arguments stands no other. -/
theorem arguments_rest_ends {tokens : List α} {args : Arguments α}
    (h : arguments group tokens = .ok args) : Ends args.rest := by
  rw [arguments_eq_ok_iff] at h
  induction h with
  | nothing ends => exact ends
  | operand _ _ ih => exact ih
  | group _ _ _ _ _ _ ih => exact ih

/-- Behind an operand the acceptor goes on to the end of the arguments. -/
theorem accepts_arguments {tokens : List α} (judges : Judges group tokens.length)
    (enclosing : List Bool) :
    (⟨.applied, enclosing⟩ : Acceptor).Accepts tokens ↔
      ∃ args, arguments group tokens = .ok args ∧
        (⟨.applied, enclosing⟩ : Acceptor).Accepts args.rest := by
  fun_induction arguments group tokens with
  | case1 => simp
  | case2 token rest role more found ih =>
    rw [Acceptor.accepts_of_next (by rw [role]; rfl), ih (judges.mono (Nat.le_succ _)), found]
    simp
  | case3 token rest role fatal failed ih =>
    rw [Acceptor.accepts_of_next (by rw [role]; rfl), ih (judges.mono (Nat.le_succ _)), failed]
  | case4 token rest role unclosed =>
    simp only [reduceCtorEq, false_and, exists_false, iff_false]
    intro accepted
    have closes := accepted.depth
    rw [depthAfter_opening role, ← Nat.zero_add (_ + 1)] at closes
    obtain ⟨inner, close, behind, rfl, closing, balanced, _⟩ := exists_closing_of_depthAfter closes
    rw [splitGroup_eq_some_iff.2 ⟨balanced, close, closing, rfl⟩] at unclosed
    contradiction
  | case5 token rest role inner behind split shorter empty =>
    obtain ⟨balanced, close, closing, rfl⟩ := splitGroup_eq_some_iff.1 split
    rw [Acceptor.accepts_argument role balanced closing]
    simp [List.isEmpty_iff.1 empty]
  | case6 token rest role inner behind split shorter filled fatal failed =>
    obtain ⟨balanced, close, closing, rfl⟩ := splitGroup_eq_some_iff.1 split
    have inside := judges inner (Nat.lt_succ_of_lt (splitGroup_inner_length split))
    rw [Acceptor.accepts_argument role balanced closing, ← inside, failed]
    simp
  | case7 token rest role inner behind split shorter filled items reordered more found ih =>
    obtain ⟨balanced, close, closing, rfl⟩ := splitGroup_eq_some_iff.1 split
    have inside := judges inner (Nat.lt_succ_of_lt (splitGroup_inner_length split))
    have some_token : inner ≠ [] := by simpa using filled
    rw [Acceptor.accepts_argument role balanced closing, ← inside, reordered,
      ih (judges.mono (Nat.le_of_lt (Nat.lt_succ_of_lt shorter))), found]
    simp [some_token]
  | case8 token rest role inner behind split shorter filled items reordered fatal failed ih =>
    obtain ⟨balanced, close, closing, rfl⟩ := splitGroup_eq_some_iff.1 split
    rw [Acceptor.accepts_argument role balanced closing,
      ih (judges.mono (Nat.le_of_lt (Nat.lt_succ_of_lt shorter))), failed]
    simp
  | case9 => simp

/-! ### The run -/

/-- What the acceptor remembers of a place in the run: none of the groups that are open there is an
argument. -/
def acceptorAt (s : Reordering α) (last : Last) : Acceptor :=
  ⟨last, List.replicate (openGroups s.pending) false⟩

section

variable {s : Reordering α} {last : Last}

omit [Symbol α]

theorem next?_pushOperator (op : Operator) :
    (s.acceptorAt last).next? (.operator op) = some ((s.pushOperator op).acceptorAt .other) := by
  rw [acceptorAt, acceptorAt, openGroups_pushOperator]
  rfl

theorem next?_openGroup (plain : last ≠ .applied) :
    (s.acceptorAt last).next? .opening = some (s.openGroup.acceptorAt .other) := by
  have deeper : openGroups s.openGroup.pending = openGroups s.pending + 1 :=
    openGroups_opening s.pending
  rw [acceptorAt, acceptorAt, deeper, List.replicate_succ]
  exact if_neg plain

/-- The acceptor refuses the closing parentheses that the run does. -/
theorem next?_closeGroup (filled : last ≠ .opened) :
    (s.acceptorAt last).next? .closing =
      s.closeGroup.toOption.map fun closed => closed.acceptorAt .other := by
  rw [acceptorAt, Acceptor.next?, if_neg filled]
  cases depth : openGroups s.pending with
  | zero =>
    rw [closeGroup_of_closed depth]
    rfl
  | succ outer =>
    obtain ⟨closed, closes, outside⟩ := closeGroup_of_open depth
    rw [closes]
    show some (⟨.other, List.replicate outer false⟩ : Acceptor) = some (closed.acceptorAt .other)
    rw [acceptorAt, outside]

end

/-- A run goes on from a place to the end if the acceptor does.  Where an operand or an argument
ends at the place, all arguments have been read. -/
theorem run_accepts {tokens : List α} (judges : Judges group tokens.length) (s : Reordering α)
    {last : Last} (filled : last ≠ .opened) (ends : last = .applied → Ends tokens) :
    (∃ items, run group s tokens = .ok items) ↔ (s.acceptorAt last).Accepts tokens := by
  induction hn : tokens.length using Nat.strongRecOn generalizing s last tokens with
  | _ n ih =>
  subst hn
  cases tokens with
  | nil =>
    rw [run_nil, Acceptor.accepts_nil, acceptorAt, List.replicate_eq_nil_iff]
    exact ⟨fun ⟨_, finished⟩ => openGroups_finish finished, finish_of_closed⟩
  | cons token rest =>
    have within : Judges group rest.length := judges.mono (Nat.le_succ _)
    have shorter : rest.length < (token :: rest).length := Nat.lt_succ_self _
    cases role : Symbol.role token with
    | operator op =>
      rw [run_operator role, Acceptor.accepts_of_next (by rw [role, next?_pushOperator])]
      exact ih _ shorter within _ Last.noConfusion Last.noConfusion rfl
    | opening =>
      have plain : last ≠ .applied := by
        intro applied
        exact (ends applied token rest rfl).2 role
      rw [run_opening role, Acceptor.accepts_of_next (by rw [role, next?_openGroup plain])]
      exact ih _ shorter within _ Last.noConfusion Last.noConfusion rfl
    | closing =>
      have reads := next?_closeGroup (s := s) filled
      rw [← role] at reads
      cases closes : s.closeGroup with
      | error fatal =>
        rw [closes] at reads
        rw [run_cons, step, role, closes]
        simp [Acceptor.not_accepts_of_next reads]
      | ok closed =>
        rw [closes] at reads
        rw [run_closing role group closes, Acceptor.accepts_of_next reads]
        exact ih _ shorter within _ Last.noConfusion Last.noConfusion rfl
    | operand =>
      have reads : (s.acceptorAt last).next? (Symbol.role token) =
          some (s.acceptorAt .applied) := by
        rw [role]
        rfl
      rw [Acceptor.accepts_of_next reads, acceptorAt, accepts_arguments within]
      cases found : arguments group rest with
      | error fatal =>
        rw [run_cons, step, role]
        simp [found]
      | ok args =>
        have suffix := (arguments_rest_suffix found).length_le
        have outcome : (∃ items, run group (s.addUnit token args) args.rest = .ok items) ↔
            ((s.addUnit token args).acceptorAt .applied).Accepts args.rest :=
          ih _ (Nat.lt_of_le_of_lt suffix shorter) (within.mono suffix) (s.addUnit token args)
            Last.noConfusion (fun _ => arguments_rest_ends found) rfl
        rw [acceptorAt, pending_addUnit] at outcome
        rw [run_operand role found, outcome]
        simp

/-! ### Refusals -/

section

variable (inside : ∀ inner fatal, group inner = .error fatal → ∃ cause, fatal = .grammar cause)

include inside

theorem grammar_of_arguments {tokens : List α} {fatal : FatalError}
    (h : arguments group tokens = .error fatal) : ∃ cause, fatal = .grammar cause := by
  fun_induction arguments group tokens with
  | case1 => contradiction
  | case2 => contradiction
  | case3 token rest role other found ih =>
    cases h
    exact ih found
  | case4 =>
    cases h
    exact ⟨_, rfl⟩
  | case5 =>
    cases h
    exact ⟨_, rfl⟩
  | case6 token rest role inner behind split shorter filled other failed =>
    cases h
    exact inside inner fatal failed
  | case7 => contradiction
  | case8 token rest role inner behind split shorter filled items reordered other found ih =>
    cases h
    exact ih found
  | case9 => contradiction

theorem grammar_of_step {s : Reordering α} {token : α} {rest : List α} {fatal : FatalError}
    (h : step group s token rest = .error fatal) : ∃ cause, fatal = .grammar cause := by
  unfold step at h
  split at h
  · contradiction
  · contradiction
  · split at h
    · contradiction
    · rename_i other closes
      cases h
      unfold closeGroup at closes
      split at closes
      · contradiction
      · cases closes
        exact ⟨_, rfl⟩
  · split at h
    · contradiction
    · rename_i other failed
      cases h
      exact grammar_of_arguments inside failed

theorem grammar_of_run {s : Reordering α} {tokens : List α} {fatal : FatalError}
    (h : run group s tokens = .error fatal) : ∃ cause, fatal = .grammar cause := by
  rcases error_of_run (fun _ _ => True) (fun _ _ => trivial) trivial h with
    ⟨last, _, unfinished⟩ | ⟨last, token, rest, _, failed⟩
  · unfold finish at unfinished
    split at unfinished
    · contradiction
    · cases unfinished
      exact ⟨_, rfl⟩
  · exact grammar_of_step inside failed

end

end Reordering

variable {α : Type} [Symbol α]

/-- The pass accepts balanced tokens without empty arguments, and no others. -/
theorem reorder_ok_iff (tokens : List α) :
    (∃ items, reorder tokens = .ok items) ↔ Balanced tokens ∧ ArgumentsFilled tokens := by
  rw [← Acceptor.accepts_iff]
  induction hn : tokens.length using Nat.strongRecOn generalizing tokens with
  | _ n ih =>
  subst hn
  have judges : Reordering.Judges (reorder : List α → Except FatalError (List (Postfix α)))
      tokens.length := fun inner short => ih inner.length short inner rfl
  rw [reorder_eq]
  exact Reordering.run_accepts judges .start Last.noConfusion Last.noConfusion

theorem balanced_of_reorder {tokens : List α} {items : List (Postfix α)}
    (h : reorder tokens = .ok items) : Balanced tokens :=
  ((reorder_ok_iff tokens).1 ⟨items, h⟩).1

theorem grammar_of_reorderWithin {limit : Nat} {tokens : List α} {fatal : FatalError}
    (h : reorderWithin limit tokens = .error fatal) : ∃ cause, fatal = .grammar cause := by
  induction limit generalizing tokens fatal with
  | zero =>
    refine Reordering.grammar_of_run ?_ h
    intro inner other failed
    cases failed
    exact ⟨_, rfl⟩
  | succ limit ih => exact Reordering.grammar_of_run (fun _ _ failed => ih failed) h

/-- Tokens whose parentheses match, and in which no argument is empty. -/
structure Acceptable (tokens : List α) : Prop where
  /-- Nowhere has more been closed than opened. -/
  opened : ∀ before, before <+: tokens → closings before ≤ openings before
  closed : openings tokens = closings tokens
  filled : ArgumentsFilled tokens

theorem acceptable_iff {tokens : List α} :
    Acceptable tokens ↔ Balanced tokens ∧ ArgumentsFilled tokens := by
  rw [balanced_iff]
  exact ⟨fun h => ⟨⟨h.opened, h.closed⟩, h.filled⟩, fun h => ⟨h.1.1, h.1.2, h.2⟩⟩

/-- Whatever the tokens, the pass accepts those whose parentheses match and in which no argument is
empty, and refuses all others with a grammar error. -/
theorem reorder_acceptance (tokens : List α) :
    ((∃ items, reorder tokens = .ok items) ↔ Acceptable tokens) ∧
      ((∃ cause, reorder tokens = .error (.grammar cause)) ↔ ¬Acceptable tokens) := by
  have accepts : (∃ items, reorder tokens = .ok items) ↔ Acceptable tokens := by
    rw [acceptable_iff]
    exact reorder_ok_iff tokens
  refine ⟨accepts, ?_⟩
  rw [← accepts]
  cases outcome : reorder tokens with
  | ok items => simp
  | error fatal =>
    obtain ⟨cause, rfl⟩ := grammar_of_reorderWithin outcome
    simp

end ShellExpr
