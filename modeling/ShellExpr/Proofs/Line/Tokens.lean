import Mathlib.Data.List.TakeWhile
import ShellExpr.Proofs.Line.Spans

/-!
# The language of lines

A line that is not blank has tokens exactly when it falls into tokens and blanks by the grammar, and
the tokens are those of the grammar.  Every other line is a grammar error.
-/

namespace ShellExpr

namespace Line

/-! ### One token -/

theorem span_of_closes {c close : Char} (opens : closer? c = some close) {inner : List Char}
    (h : Closes [close] inner) : Span (c :: inner) := by
  obtain ⟨inside, later, rfl, fills, rfl⟩ := h
  rcases closer?_eq_some_iff.1 opens with pair | ⟨rfl, rfl⟩
  · have bracket : close ≠ '"' := by
      cases pair <;> decide
    exact .bracketed pair ((fills_bracket bracket).1 fills)
  · exact .quoted (fills_quote.1 fills)

theorem closes_of_span {text : List Char} (h : Span text) :
    ∃ c close inner, text = c :: inner ∧ closer? c = some close ∧ Closes [close] inner := by
  cases h with
  | @bracketed left right inner pair inside =>
    have bracket : right ≠ '"' := by
      cases pair <;> decide
    exact ⟨left, right, inner ++ [right], rfl, closer?_eq_some_iff.2 (.inl pair), inner, [], rfl,
      (fills_bracket bracket).2 inside, rfl⟩
  | @quoted inner inside =>
    exact ⟨'"', '"', inner ++ ['"'], rfl, rfl, inner, [], rfl, fills_quote.2 inside, rfl⟩

theorem areClosers_of_closer? {c close : Char} (opens : closer? c = some close) :
    AreClosers [close] := by
  intro other member
  rw [List.mem_singleton.1 member]
  rcases closer?_eq_some_iff.1 opens with pair | ⟨_, rfl⟩
  · exact .inl (isCloser_of_bracket pair)
  · exact .inr rfl

theorem wordText_cons {c : Char} {rest : List Char} (h : WordText (c :: rest)) :
    Text.isBlank c = false ∧ c ≠ '#' ∧ closer? c = none := by
  cases h with
  | escaped => exact ⟨by decide, by decide, by decide⟩
  | ordinary itself _ => exact ⟨itself.1, itself.2.1, (isPlain_iff.1 itself.2.2).2.1⟩

/-- A token does not start with a blank. -/
theorem isBlank_first {first : Char} {rest behind : List Char}
    (h : IsToken (first :: rest) behind) : Text.isBlank first = false := by
  cases h with
  | span span behind =>
    obtain ⟨c, close, inner, same, opens, _⟩ := closes_of_span span
    cases same
    rcases closer?_eq_some_iff.1 opens with pair | ⟨rfl, _⟩
    · cases pair <;> decide
    · decide
  | comment => decide
  | word _ word _ => exact (wordText_cons word).1

theorem isToken_of_spanToken {c : Char} (filled : Text.isBlank c = false) {column : Nat}
    {cs text rest : List Char} (h : spanToken column c cs = .ok (text, rest)) :
    IsToken text rest := by
  have some_text := spanToken_text_ne_nil filled h
  unfold spanToken at h
  split at h
  · rename_i comment
    cases h
    rw [comment]
    exact .comment cs
  split at h
  · rename_i close opens
    obtain ⟨inner, found, rfl⟩ := Split.after_eq_ok h
    exact .span (span_of_closes opens (closes_of_spanDelimited found)) rest
  · obtain ⟨word, ends⟩ := wordText_of_spanWord h
    exact .word some_text word ends

theorem spanToken_of_isToken {c : Char} {text rest : List Char} (token : IsToken (c :: text) rest)
    (column : Nat) : spanToken column c (text ++ rest) = .ok (c :: text, rest) := by
  unfold spanToken
  cases token with
  | span span =>
    obtain ⟨first, close, inner, same, opens, closes⟩ := closes_of_span span
    cases same
    have not_comment : c ≠ '#' := by
      rintro rfl
      contradiction
    rw [if_neg not_comment, opens]
    show Split.after [c] (spanDelimited _ [close] (text ++ rest)) = _
    rw [spanDelimited_of_closes (areClosers_of_closer? opens) closes]
    rfl
  | comment later => rw [List.append_nil, if_pos rfl]
  | word some_text word ends =>
    obtain ⟨_, not_comment, no_closer⟩ := wordText_cons word
    rw [if_neg not_comment, no_closer]
    exact (spanWord_eq_ok_iff column).2 ⟨rfl, word, ends⟩

/-! ### The next token of a line -/

theorem token?_nil {cursor : Cursor} (h : cursor.rest.dropWhile Text.isBlank = []) :
    cursor.token? = .ok none := by
  have place : cursor.skipBlanks.rest = [] := h
  unfold Cursor.token?
  generalize cursor.skipBlanks = start at place
  obtain ⟨column, rest⟩ := start
  cases place
  rfl

theorem token?_cons {cursor : Cursor} {c : Char} {cs : List Char}
    (h : cursor.rest.dropWhile Text.isBlank = c :: cs) :
    cursor.token? =
      match spanToken cursor.skipBlanks.column c cs with
      | .ok (text, rest) =>
        .ok (some (⟨kindOf c, String.ofList text⟩,
          Cursor.move ⟨cursor.skipBlanks.column, c :: cs⟩ text rest))
      | .error cause => .error (.grammar cause) := by
  have place : cursor.skipBlanks.rest = c :: cs := h
  unfold Cursor.token?
  generalize cursor.skipBlanks = start at place
  obtain ⟨column, rest⟩ := start
  cases place
  rfl

theorem isBlank_of_dropWhile {line cs : List Char} {c : Char}
    (h : line.dropWhile Text.isBlank = c :: cs) : Text.isBlank c = false := by
  have head := List.head?_dropWhile_not Text.isBlank line
  rw [h] at head
  simpa using head

/-- With nothing but blanks ahead there is no token, and with no token ahead nothing but blanks. -/
theorem token?_eq_none_iff (cursor : Cursor) :
    cursor.token? = .ok none ↔ ∀ c ∈ cursor.rest, Text.isBlank c = true := by
  rw [← List.dropWhile_eq_nil_iff]
  cases h : cursor.rest.dropWhile Text.isBlank with
  | nil => simp only [token?_nil h]
  | cons c cs =>
    rw [token?_cons h]
    split
    · simp only [Except.ok.injEq, reduceCtorEq]
    · simp only [reduceCtorEq]

/-- A token that is read stands behind some blanks. -/
theorem token?_sound {cursor next : Cursor} {token : Token}
    (h : cursor.token? = .ok (some (token, next))) :
    ∃ (gap : List Char) (first : Char) (rest : List Char),
      (∀ c ∈ gap, Text.isBlank c = true) ∧
      cursor.rest = gap ++ (first :: rest) ++ next.rest ∧
      IsToken (first :: rest) next.rest ∧
      token = ⟨kindOf first, String.ofList (first :: rest)⟩ := by
  cases dropped : cursor.rest.dropWhile Text.isBlank with
  | nil =>
    rw [token?_nil dropped] at h
    cases h
  | cons c cs =>
    rw [token?_cons dropped] at h
    split at h
    · rename_i text rest found
      cases h
      have filled : Text.isBlank c = false := isBlank_of_dropWhile dropped
      have whole : c :: cs = text ++ rest := (spanToken_append found).symm
      have token : IsToken text rest := isToken_of_spanToken filled found
      have some_text := spanToken_text_ne_nil filled found
      cases text with
      | nil => contradiction
      | cons first later =>
        have same : c = first := (List.cons.inj whole).1
        refine ⟨cursor.rest.takeWhile Text.isBlank, first, later, ?_, ?_, token, ?_⟩
        · intro blank member
          exact List.mem_takeWhile_imp member
        · show cursor.rest = cursor.rest.takeWhile Text.isBlank ++ (first :: later) ++ rest
          rw [List.append_assoc, ← whole, ← dropped, List.takeWhile_append_dropWhile]
        · rw [same]
    · contradiction

/-- A token behind some blanks is read. -/
theorem token?_complete {cursor : Cursor} {gap rest behind : List Char} {first : Char}
    (blank : ∀ c ∈ gap, Text.isBlank c = true) (token : IsToken (first :: rest) behind)
    (whole : cursor.rest = gap ++ (first :: rest) ++ behind) :
    ∃ next, cursor.token? = .ok (some (⟨kindOf first, String.ofList (first :: rest)⟩, next)) ∧
      next.rest = behind := by
  have filled : Text.isBlank first = false := isBlank_first token
  have dropped : cursor.rest.dropWhile Text.isBlank = first :: (rest ++ behind) := by
    rw [whole, List.append_assoc, List.dropWhile_append_of_pos blank, List.cons_append,
      List.dropWhile_cons_of_neg (by simp [filled])]
  rw [token?_cons dropped, spanToken_of_isToken token]
  exact ⟨_, rfl, rfl⟩

/-! ### All tokens of a line -/

theorem tokensFrom_blanks {cursor : Cursor} (h : cursor.token? = .ok none) :
    tokensFrom cursor = .ok [] := by
  rw [tokensFrom_eq, h]

theorem tokensFrom_token {cursor next : Cursor} {token : Token} {tokens : List Token}
    (h : cursor.token? = .ok (some (token, next))) (later : tokensFrom next = .ok tokens) :
    tokensFrom cursor = .ok (token :: tokens) := by
  rw [tokensFrom_eq, h]
  simp only [later]

theorem falls_of_tokensFrom {cursor : Cursor} {tokens : List Token}
    (h : tokensFrom cursor = .ok tokens) : Falls cursor.rest tokens := by
  induction hn : cursor.rest.length using Nat.strongRecOn generalizing cursor tokens with
  | _ n ih =>
  subst hn
  rw [tokensFrom_eq] at h
  cases next_token : cursor.token? with
  | error fatal =>
    rw [next_token] at h
    contradiction
  | ok outcome =>
    rw [next_token] at h
    cases outcome with
    | none =>
      cases h
      exact .blanks ((token?_eq_none_iff cursor).1 next_token)
    | some pair =>
      obtain ⟨token, next⟩ := pair
      cases later : tokensFrom next with
      | error fatal =>
        simp only [later] at h
        contradiction
      | ok others =>
        simp only [later] at h
        cases h
        have shorter := Cursor.token?_rest_length next_token
        obtain ⟨gap, first, rest, blank, whole, is_token, rfl⟩ := token?_sound next_token
        rw [whole]
        exact .token blank is_token (ih next.rest.length shorter later rfl)

theorem tokensFrom_of_falls {cs : List Char} {tokens : List Token} (h : Falls cs tokens)
    {cursor : Cursor} (whole : cursor.rest = cs) : tokensFrom cursor = .ok tokens := by
  induction h generalizing cursor with
  | blanks blank =>
    rw [← whole] at blank
    exact tokensFrom_blanks ((token?_eq_none_iff cursor).2 blank)
  | token blank token _ ih =>
    obtain ⟨next, found, behind⟩ := token?_complete blank token whole
    exact tokensFrom_token found (ih behind)

/-- A line falls into no tokens only when it is blank. -/
theorem falls_nil {cs : List Char} (h : Falls cs []) : ∀ c ∈ cs, Text.isBlank c = true := by
  cases h with
  | blanks blank => exact blank

/-- A blank line falls into no tokens. -/
theorem Falls.eq_nil {cs : List Char} {tokens : List Token} (h : Falls cs tokens)
    (blank : ∀ c ∈ cs, Text.isBlank c = true) : tokens = [] := by
  cases h with
  | blanks => rfl
  | @token gap rest behind first tokens _ token _ =>
    have filled := isBlank_first token
    rw [blank first (by simp)] at filled
    contradiction

theorem isBlankLine_iff (line : String) :
    isBlankLine line = true ↔ ∀ c ∈ line.toList, Text.isBlank c = true := by
  unfold isBlankLine
  rw [List.all_eq_true]

/-! ### Lines without tokens -/

/-- The causes for which a line has no tokens. -/
inductive Refuses : GrammarError → Prop where
  | openEscape : Refuses .openEscape
  | mismatched (expected found : Char) (column : Nat) :
      Refuses (.mismatched expected found column)
  | unmatchedAt (found : Char) (column : Nat) : Refuses (.unmatchedAt found column)
  | unclosed (close : Char) : Refuses (.unclosed close)

theorem Split.after_eq_error {read : List Char} {split : Split} {cause : GrammarError}
    (h : split.after read = .error cause) : split = .error cause := by
  cases split with
  | error other =>
    cases h
    rfl
  | ok outcome => contradiction

theorem spanDelimited_error {column : Nat} {due cs : List Char} {cause : GrammarError}
    (h : spanDelimited column due cs = .error cause) : Refuses cause := by
  fun_induction spanDelimited column due cs with
  | case1 => contradiction
  | case2 column close outer =>
    cases h
    exact .unclosed close
  | case3 =>
    cases h
    exact .openEscape
  | case8 column close outer c =>
    cases h
    exact .mismatched close c column
  | _ =>
    rename_i ih
    exact ih (Split.after_eq_error h)

theorem spanWord_error {column : Nat} {cs : List Char} {cause : GrammarError}
    (h : spanWord column cs = .error cause) : Refuses cause := by
  fun_induction spanWord column cs with
  | case1 => contradiction
  | case2 =>
    cases h
    exact .openEscape
  | case4 => contradiction
  | case5 column c =>
    cases h
    exact .unmatchedAt c column
  | _ =>
    rename_i ih
    exact ih (Split.after_eq_error h)

theorem spanToken_error {column : Nat} {c : Char} {cs : List Char} {cause : GrammarError}
    (h : spanToken column c cs = .error cause) : Refuses cause := by
  unfold spanToken at h
  split at h
  · contradiction
  split at h
  · exact spanDelimited_error (Split.after_eq_error h)
  · exact spanWord_error h

theorem token?_error {cursor : Cursor} {fatal : FatalError} (h : cursor.token? = .error fatal) :
    ∃ cause, fatal = .grammar cause ∧ Refuses cause := by
  unfold Cursor.token? at h
  split at h
  · contradiction
  split at h
  · contradiction
  · rename_i cause found
    cases h
    exact ⟨cause, rfl, spanToken_error found⟩

theorem tokensFrom_error {cursor : Cursor} {fatal : FatalError}
    (h : tokensFrom cursor = .error fatal) : ∃ cause, fatal = .grammar cause ∧ Refuses cause := by
  induction hn : cursor.rest.length using Nat.strongRecOn generalizing cursor with
  | _ n ih =>
  subst hn
  rw [tokensFrom_eq] at h
  cases next_token : cursor.token? with
  | error other =>
    rw [next_token] at h
    cases h
    exact token?_error next_token
  | ok outcome =>
    rw [next_token] at h
    cases outcome with
    | none => contradiction
    | some pair =>
      obtain ⟨token, next⟩ := pair
      cases later : tokensFrom next with
      | ok others =>
        simp only [later] at h
        contradiction
      | error other =>
        simp only [later] at h
        cases h
        exact ih next.rest.length (Cursor.token?_rest_length next_token) later rfl

theorem tokenize_error {line : String} {fatal : FatalError} (h : tokenize line = .error fatal) :
    ∃ cause, fatal = .grammar cause ∧ Refuses cause := by
  unfold tokenize at h
  split at h
  · contradiction
  · exact tokensFrom_error h

/-! ### The language -/

/-- The tokens of a line by the grammar: a single empty one for a blank line, or else those into
which the line falls. -/
def HasTokens (line : String) (tokens : List Token) : Prop :=
  ((∀ c ∈ line.toList, Text.isBlank c = true) ∧ tokens = [⟨.empty, line⟩]) ∨
    (tokens ≠ [] ∧ Falls line.toList tokens)

theorem hasTokens_of_tokenize {line : String} {tokens : List Token}
    (h : tokenize line = .ok tokens) : HasTokens line tokens := by
  unfold tokenize at h
  split at h
  · rename_i blank
    cases h
    exact .inl ⟨(isBlankLine_iff line).1 blank, rfl⟩
  · rename_i filled
    have falls := falls_of_tokensFrom h
    refine .inr ⟨?_, falls⟩
    rintro rfl
    exact filled ((isBlankLine_iff line).2 (falls_nil falls))

theorem tokenize_of_hasTokens {line : String} {tokens : List Token}
    (h : HasTokens line tokens) : tokenize line = .ok tokens := by
  unfold tokenize
  rcases h with ⟨blank, rfl⟩ | ⟨some_token, falls⟩
  · rw [if_pos ((isBlankLine_iff line).2 blank)]
  · have filled : ¬isBlankLine line = true := by
      intro blank
      exact some_token (falls.eq_nil ((isBlankLine_iff line).1 blank))
    rw [if_neg filled]
    exact tokensFrom_of_falls falls rfl

end Line

/-- The tokens of a line are those of the grammar, and a line without tokens by the grammar is a
grammar error. -/
theorem tokenize_iff_hasTokens (line : String) :
    (∀ tokens, tokenize line = .ok tokens ↔ Line.HasTokens line tokens) ∧
      ((∃ cause, tokenize line = .error (.grammar cause)) ↔
        ∀ tokens, ¬Line.HasTokens line tokens) := by
  refine ⟨fun tokens => ⟨Line.hasTokens_of_tokenize, Line.tokenize_of_hasTokens⟩, ?_⟩
  constructor
  · rintro ⟨cause, failed⟩ tokens h
    rw [Line.tokenize_of_hasTokens h] at failed
    contradiction
  · intro none_fits
    cases h : tokenize line with
    | ok tokens => exact absurd (Line.hasTokens_of_tokenize h) (none_fits tokens)
    | error fatal =>
      obtain ⟨cause, rfl, _⟩ := Line.tokenize_error h
      exact ⟨cause, rfl⟩

end ShellExpr
