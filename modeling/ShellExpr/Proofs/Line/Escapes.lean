import ShellExpr.Proofs.Line.Tokens

/-!
# Escapes at the end of a line

A backslash takes the next character with it, so a line must not stop behind one.  It does not when
the backslashes at its end come in pairs: the readers of a token go over escapes two characters at a
time, and whatever they leave ends in pairs again.  Only a single backslash does not.
-/

namespace ShellExpr

/-- A text whose backslashes at the end come in pairs. -/
def EndsInPairs (text : List Char) : Prop :=
  ∃ front pairs, text = front ++ List.replicate (2 * pairs) '\\' ∧ front.getLast? ≠ some '\\'

theorem endsInPairs_nil : EndsInPairs [] :=
  ⟨[], 0, rfl, by simp⟩

theorem not_endsInPairs_backslash : ¬EndsInPairs ['\\'] := by
  rintro ⟨front, pairs, whole, last⟩
  have length := congrArg List.length whole
  rw [List.length_append, List.length_replicate, List.length_singleton] at length
  have none_paired : pairs = 0 := by omega
  subst none_paired
  rw [List.replicate_zero, List.append_nil] at whole
  rw [← whole] at last
  exact last rfl

namespace EndsInPairs

theorem append {first second : List Char} (h : EndsInPairs first) (h' : EndsInPairs second) :
    EndsInPairs (first ++ second) := by
  obtain ⟨front, pairs, rfl, last⟩ := h
  obtain ⟨middle, more, rfl, last'⟩ := h'
  rcases List.eq_nil_or_concat middle with rfl | ⟨inner, c, rfl⟩
  · -- The two runs meet: pairs behind pairs.
    refine ⟨front, pairs + more, ?_, last⟩
    rw [List.nil_append, List.append_assoc, List.replicate_append_replicate, Nat.mul_add]
  · refine ⟨front ++ List.replicate (2 * pairs) '\\' ++ inner.concat c, more, ?_, ?_⟩
    · rw [List.append_assoc _ (inner.concat c)]
    · rw [List.concat_eq_append, ← List.append_assoc, List.getLast?_concat]
      rw [List.concat_eq_append, List.getLast?_concat] at last'
      exact last'

/-- Behind a character other than a backslash. -/
theorem of_cons {c : Char} {cs : List Char} (h : EndsInPairs (c :: cs)) (other : c ≠ '\\') :
    EndsInPairs cs := by
  obtain ⟨front, pairs, whole, last⟩ := h
  cases front with
  | nil =>
    cases pairs with
    | zero => contradiction
    | succ pairs =>
      rw [List.nil_append, Nat.mul_succ, List.replicate_succ, List.cons.injEq] at whole
      exact absurd whole.1 other
  | cons first front =>
    rw [List.cons_append, List.cons.injEq] at whole
    refine ⟨front, pairs, whole.2, ?_⟩
    intro backslash
    rw [List.getLast?_cons, backslash] at last
    exact last rfl

/-- Behind a backslash and the character that it takes with it. -/
theorem of_escaped {c : Char} {cs : List Char} (h : EndsInPairs ('\\' :: c :: cs)) :
    EndsInPairs cs := by
  obtain ⟨front, pairs, whole, last⟩ := h
  match front with
  | [] =>
    cases pairs with
    | zero => contradiction
    | succ pairs =>
      rw [List.nil_append, Nat.mul_succ, List.replicate_succ, List.replicate_succ,
        List.cons.injEq, List.cons.injEq] at whole
      exact ⟨[], pairs, whole.2.2, by simp⟩
  | [first] =>
    rw [List.singleton_append, List.cons.injEq] at whole
    rw [← whole.1] at last
    exact absurd rfl last
  | first :: second :: front =>
    rw [List.cons_append, List.cons_append, List.cons.injEq, List.cons.injEq] at whole
    refine ⟨front, pairs, whole.2.2, ?_⟩
    intro backslash
    rw [List.getLast?_cons, List.getLast?_cons, backslash] at last
    exact last rfl

theorem dropWhile {p : Char → Bool} (other : p '\\' = false) {cs : List Char}
    (h : EndsInPairs cs) : EndsInPairs (cs.dropWhile p) := by
  induction cs with
  | nil => exact h
  | cons c cs ih =>
    rw [List.dropWhile_cons]
    split
    · rename_i dropped
      refine ih (h.of_cons ?_)
      rintro rfl
      rw [other] at dropped
      contradiction
    · exact h

end EndsInPairs

namespace Line

/-! ### One token -/

/-- A reader that did not stop behind a backslash, and left a text that ends in pairs. -/
def Split.Paired (split : Split) : Prop :=
  split ≠ .error .openEscape ∧ ∀ text rest, split = .ok (text, rest) → EndsInPairs rest

theorem Split.Paired.ok {text rest : List Char} (h : EndsInPairs rest) :
    Split.Paired (.ok (text, rest)) := by
  refine ⟨by simp, ?_⟩
  intro other behind same
  cases same
  exact h

theorem Split.Paired.error {cause : GrammarError} (h : cause ≠ .openEscape) :
    Split.Paired (.error cause) := by
  refine ⟨?_, by simp⟩
  intro same
  cases same
  exact h rfl

theorem Split.Paired.after {split : Split} (h : split.Paired) (read : List Char) :
    Split.Paired (split.after read) := by
  refine ⟨fun failed => h.1 (Split.after_eq_error failed), ?_⟩
  intro text rest found
  obtain ⟨inner, same, _⟩ := Split.after_eq_ok found
  exact h.2 inner rest same

theorem paired_spanDelimited {column : Nat} {due cs : List Char} (h : EndsInPairs cs) :
    (spanDelimited column due cs).Paired := by
  fun_induction spanDelimited column due cs with
  | case1 => exact .ok h
  | case2 => exact .error (by simp)
  | case3 => exact absurd h not_endsInPairs_backslash
  | case4 column due c cs some_due ih => exact (ih h.of_escaped).after _
  | case8 => exact .error (by simp)
  | case5 column outer c cs last escape next ih =>
    exact (ih (h.of_cons (not_backslash last escape))).after _
  | case6 column close outer c cs last escape next bracket inner opens ih =>
    exact (ih (h.of_cons (not_backslash last escape))).after _
  | case7 column outer c cs last escape next bracket no_closer closes ih =>
    exact (ih (h.of_cons (not_backslash last escape))).after _
  | case9 column close outer c cs last escape next bracket no_closer not_closer ih =>
    exact (ih (h.of_cons (not_backslash last escape))).after _

theorem paired_spanWord {column : Nat} {cs : List Char} (h : EndsInPairs cs) :
    (spanWord column cs).Paired := by
  fun_induction spanWord column cs with
  | case1 => exact .ok h
  | case2 => exact absurd h not_endsInPairs_backslash
  | case3 column c cs ih => exact (ih h.of_escaped).after _
  | case4 => exact .ok h
  | case5 => exact .error (by simp)
  | case6 column c cs last escape stays closer ih =>
    exact (ih (h.of_cons (not_backslash last escape))).after _

theorem paired_spanToken {column : Nat} {c : Char} {cs : List Char} (h : EndsInPairs (c :: cs)) :
    (spanToken column c cs).Paired := by
  unfold spanToken
  split
  · exact .ok endsInPairs_nil
  split
  · rename_i close opens
    refine (paired_spanDelimited (h.of_cons ?_)).after _
    rintro rfl
    contradiction
  · exact paired_spanWord h

/-! ### All tokens of a line -/

theorem paired_token? {cursor : Cursor} (h : EndsInPairs cursor.rest) :
    cursor.token? ≠ .error (.grammar .openEscape) ∧
      ∀ token next, cursor.token? = .ok (some (token, next)) → EndsInPairs next.rest := by
  have ahead : EndsInPairs (cursor.rest.dropWhile Text.isBlank) := h.dropWhile (by decide)
  cases dropped : cursor.rest.dropWhile Text.isBlank with
  | nil =>
    rw [token?_nil dropped]
    exact ⟨by simp, by simp⟩
  | cons c cs =>
    rw [dropped] at ahead
    have paired : (spanToken cursor.skipBlanks.column c cs).Paired := paired_spanToken ahead
    rw [token?_cons dropped]
    split
    · rename_i text rest found
      refine ⟨by simp, ?_⟩
      intro token next same
      cases same
      exact paired.2 text rest found
    · rename_i cause found
      refine ⟨?_, by simp⟩
      intro failed
      cases failed
      exact paired.1 found

theorem tokensFrom_ne_openEscape {cursor : Cursor} (h : EndsInPairs cursor.rest) :
    tokensFrom cursor ≠ .error (.grammar .openEscape) := by
  induction hn : cursor.rest.length using Nat.strongRecOn generalizing cursor with
  | _ n ih =>
  subst hn
  obtain ⟨no_escape, behind⟩ := paired_token? h
  rw [tokensFrom_eq]
  cases next_token : cursor.token? with
  | error fatal =>
    rintro ⟨rfl⟩
    exact no_escape next_token
  | ok outcome =>
    cases outcome with
    | none => simp
    | some pair =>
      obtain ⟨token, next⟩ := pair
      have later := ih next.rest.length (Cursor.token?_rest_length next_token)
        (behind token next next_token) rfl
      cases found : tokensFrom next with
      | ok tokens => simp [found]
      | error fatal =>
        simp only [found]
        rintro ⟨rfl⟩
        exact later found

/-- A line whose backslashes at the end come in pairs does not stop inside an escape. -/
theorem tokenize_ne_openEscape {line : String} (h : EndsInPairs line.toList) :
    tokenize line ≠ .error (.grammar .openEscape) := by
  unfold tokenize
  split
  · simp
  · exact tokensFrom_ne_openEscape h

end Line

end ShellExpr
