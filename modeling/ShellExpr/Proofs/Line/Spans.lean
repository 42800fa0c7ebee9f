import ShellExpr.Proofs.Line.Grammar

/-!
# Reading spans and words

The reader of delimited spans works with the closing delimiters that are due.  `Closes` says the
same in terms of the grammar: for each delimiter that is due, the text holds what may stand in
front of it, and then the delimiter.  The reader splits off exactly such a text, and the reader of
words exactly the longest word.
-/

namespace ShellExpr.Line

/-! ### Classes of characters -/

theorem closer?_eq_some_iff {c close : Char} :
    closer? c = some close ↔ Bracket c close ∨ (c = '"' ∧ close = '"') := by
  constructor
  · intro h
    unfold closer? at h
    split at h
    · rename_i same
      cases h
      rw [same]
      exact .inl .round
    split at h
    · rename_i same
      cases h
      rw [same]
      exact .inl .square
    split at h
    · rename_i same
      cases h
      rw [same]
      exact .inl .curly
    split at h
    · rename_i same
      cases h
      exact .inr ⟨same, rfl⟩
    · contradiction
  · rintro (pair | ⟨rfl, rfl⟩)
    · cases pair <;> rfl
    · rfl

theorem isCloser_of_bracket {left right : Char} (pair : Bracket left right) :
    isCloser right = true := by
  cases pair <;> rfl

theorem closer?_eq_none_iff {c : Char} : closer? c = none ↔ c ∉ ['(', '[', '{', '"'] := by
  unfold closer?
  grind

theorem isCloser_iff {c : Char} : isCloser c = true ↔ c ∈ [')', ']', '}'] := by
  unfold isCloser
  grind

theorem isPlain_iff {c : Char} :
    IsPlain c ↔ c ≠ '\\' ∧ closer? c = none ∧ isCloser c = false := by
  rw [closer?_eq_none_iff, ← Bool.not_eq_true, isCloser_iff]
  unfold IsPlain
  grind

theorem isOrdinary_iff {c : Char} :
    IsOrdinary c ↔ c ≠ '\\' ∧ (Text.isBlank c || startsToken c) = false ∧ isCloser c = false := by
  unfold IsOrdinary startsToken
  rw [isPlain_iff]
  cases closer? c with
  | none => grind
  | some close => simp

/-- What the readers know of a character that starts no escape. -/
theorem not_backslash {c : Char} {cs : List Char} (last : c = '\\' → cs = [] → False)
    (escape : ∀ next rest, c = '\\' → cs = next :: rest → False) : c ≠ '\\' := by
  intro same
  cases cs with
  | nil => exact last same rfl
  | cons next rest => exact escape next rest same rfl

/-! ### Steps of the reader -/

theorem spanDelimited_cons {c : Char} (backslash : c ≠ '\\') (column : Nat) (close : Char)
    (outer cs : List Char) :
    spanDelimited column (close :: outer) (c :: cs) =
      if close = '"' then
        (spanDelimited (column + c.utf8Size) (if c = '"' then outer else close :: outer) cs).after [c]
      else
        match closer? c with
        | some inner =>
          (spanDelimited (column + c.utf8Size) (inner :: close :: outer) cs).after [c]
        | none =>
          if isCloser c then
            if c = close then (spanDelimited (column + c.utf8Size) outer cs).after [c]
            else .error (.mismatched close c column)
          else (spanDelimited (column + c.utf8Size) (close :: outer) cs).after [c] :=
  spanDelimited.eq_5 column close outer c cs (fun same _ => backslash same)
    (fun _ _ same _ => backslash same)

theorem spanDelimited_escaped (column : Nat) (close : Char) (outer : List Char) (c : Char)
    (cs : List Char) :
    spanDelimited column (close :: outer) ('\\' :: c :: cs) =
      (spanDelimited (column + 1 + c.utf8Size) (close :: outer) cs).after ['\\', c] :=
  spanDelimited.eq_4 column (close :: outer) c cs (List.cons_ne_nil close outer)

theorem spanDelimited_quote (column : Nat) (outer cs : List Char) :
    spanDelimited column ('"' :: outer) ('"' :: cs) =
      (spanDelimited (column + '"'.utf8Size) outer cs).after ['"'] := by
  rw [spanDelimited_cons (by decide), if_pos rfl, if_pos rfl]

theorem spanDelimited_in_quotes {c : Char} (backslash : c ≠ '\\') (quote : c ≠ '"') (column : Nat)
    (outer cs : List Char) :
    spanDelimited column ('"' :: outer) (c :: cs) =
      (spanDelimited (column + c.utf8Size) ('"' :: outer) cs).after [c] := by
  rw [spanDelimited_cons backslash, if_pos rfl, if_neg quote]

theorem spanDelimited_opening {c inner : Char} (opens : closer? c = some inner) {close : Char}
    (bracket : close ≠ '"') (column : Nat) (outer cs : List Char) :
    spanDelimited column (close :: outer) (c :: cs) =
      (spanDelimited (column + c.utf8Size) (inner :: close :: outer) cs).after [c] := by
  have backslash : c ≠ '\\' := by
    rintro rfl
    contradiction
  rw [spanDelimited_cons backslash, if_neg bracket, opens]

theorem spanDelimited_closing {c : Char} (closes : isCloser c = true) (column : Nat)
    (outer cs : List Char) :
    spanDelimited column (c :: outer) (c :: cs) =
      (spanDelimited (column + c.utf8Size) outer cs).after [c] := by
  have facts : c ≠ '\\' ∧ c ≠ '"' ∧ closer? c = none := by
    have member := isCloser_iff.1 closes
    simp only [List.mem_cons, List.not_mem_nil, or_false] at member
    rcases member with rfl | rfl | rfl <;> decide
  rw [spanDelimited_cons facts.1, if_neg facts.2.1, facts.2.2]
  simp only [closes, if_true]

theorem spanDelimited_plain {c : Char} (plain : IsPlain c) {close : Char} (bracket : close ≠ '"')
    (column : Nat) (outer cs : List Char) :
    spanDelimited column (close :: outer) (c :: cs) =
      (spanDelimited (column + c.utf8Size) (close :: outer) cs).after [c] := by
  obtain ⟨backslash, no_closer, not_closer⟩ := isPlain_iff.1 plain
  rw [spanDelimited_cons backslash, if_neg bracket, no_closer]
  simp only [not_closer, Bool.false_eq_true, if_false]

/-! ### The text in front of the delimiters that are due -/

/-- What may stand in front of a closing delimiter that is due. -/
def Fills (close : Char) (inside : List Char) : Prop :=
  if close = '"' then Quoted inside else Inside inside

/-- A text that closes all delimiters that are due, the first of them first, and ends there. -/
def Closes : List Char → List Char → Prop
  | [], text => text = []
  | close :: outer, text =>
    ∃ inside later, text = inside ++ close :: later ∧ Fills close inside ∧ Closes outer later

theorem fills_quote {inside : List Char} : Fills '"' inside ↔ Quoted inside := by
  unfold Fills
  rw [if_pos rfl]

theorem fills_bracket {close : Char} (bracket : close ≠ '"') {inside : List Char} :
    Fills close inside ↔ Inside inside := by
  unfold Fills
  rw [if_neg bracket]

theorem fills_nil (close : Char) : Fills close [] := by
  unfold Fills
  split
  · exact .nil
  · exact .nil

theorem fills_escaped {close : Char} (c : Char) {rest : List Char} (h : Fills close rest) :
    Fills close ('\\' :: c :: rest) := by
  unfold Fills at h ⊢
  split at h
  · rename_i same
    rw [if_pos same]
    exact .escaped c h
  · rename_i bracket
    rw [if_neg bracket]
    exact .escaped c h

theorem closes_close (close : Char) {outer text : List Char} (h : Closes outer text) :
    Closes (close :: outer) (close :: text) :=
  ⟨[], text, rfl, fills_nil close, h⟩

/-- Characters that may stand in front of what fills a span may stand in front of a text that
closes it. -/
theorem closes_extend {close : Char} {outer read text : List Char}
    (extend : ∀ inside, Fills close inside → Fills close (read ++ inside))
    (h : Closes (close :: outer) text) : Closes (close :: outer) (read ++ text) := by
  obtain ⟨inside, later, rfl, fills, closes⟩ := h
  exact ⟨read ++ inside, later, by rw [List.append_assoc], extend inside fills, closes⟩

/-- A delimiter that opens a span inside a bracket: the span is closed first. -/
theorem closes_opening {c inner close : Char} (opens : closer? c = some inner)
    (bracket : close ≠ '"') {outer text : List Char} (h : Closes (inner :: close :: outer) text) :
    Closes (close :: outer) (c :: text) := by
  obtain ⟨within, later, rfl, fills, inside, last, rfl, fills_close, closes⟩ := h
  refine ⟨c :: within ++ inner :: inside, last, ?_, ?_, closes⟩
  · simp only [List.cons_append, List.append_assoc]
  · rw [fills_bracket bracket] at fills_close ⊢
    rcases closer?_eq_some_iff.1 opens with pair | ⟨rfl, rfl⟩
    · have not_quote : inner ≠ '"' := by
        cases pair <;> decide
      exact .bracketed pair ((fills_bracket not_quote).1 fills) fills_close
    · exact .quoted (fills_quote.1 fills) fills_close

/-! ### The reader splits off such a text -/

theorem closes_of_spanDelimited {column : Nat} {due cs text rest : List Char}
    (h : spanDelimited column due cs = .ok (text, rest)) : Closes due text := by
  fun_induction spanDelimited column due cs generalizing text with
  | case1 =>
    cases h
    rfl
  | case2 => contradiction
  | case3 => contradiction
  | case4 column due c cs some_due ih =>
    obtain ⟨inner, found, rfl⟩ := Split.after_eq_ok h
    cases due with
    | nil => exact absurd rfl some_due
    | cons close outer => exact closes_extend (fun inside => fills_escaped c) (ih found)
  | case5 =>
    rename_i c cs last escape _ ih
    obtain ⟨inner, found, rfl⟩ := Split.after_eq_ok h
    have inside := ih found
    by_cases quote : c = '"'
    · rw [if_pos quote] at inside
      rw [quote]
      exact closes_close '"' inside
    · rw [if_neg quote] at inside
      exact closes_extend (fun _ fills =>
        fills_quote.2 (.plain (not_backslash last escape) quote (fills_quote.1 fills))) inside
  | case6 =>
    rename_i bracket inner opens ih
    obtain ⟨text, found, rfl⟩ := Split.after_eq_ok h
    exact closes_opening opens bracket (ih found)
  | case7 =>
    rename_i c cs _ _ _ _ _ _ ih
    obtain ⟨text, found, rfl⟩ := Split.after_eq_ok h
    exact closes_close c (ih found)
  | case8 => contradiction
  | case9 =>
    rename_i c cs last escape _ bracket no_closer not_closer ih
    obtain ⟨text, found, rfl⟩ := Split.after_eq_ok h
    have plain : IsPlain c := by
      rw [isPlain_iff]
      exact ⟨not_backslash last escape, no_closer, by simpa using not_closer⟩
    exact closes_extend (fun _ fills =>
      (fills_bracket bracket).2 (.plain plain ((fills_bracket bracket).1 fills))) (ih found)

/-! ### Every such text is split off -/

theorem Split.after_nil (split : Split) : split.after [] = split := by
  cases split <;> rfl

theorem Split.after_after (split : Split) (read later : List Char) :
    (split.after later).after read = split.after (read ++ later) := by
  cases split with
  | error cause => rfl
  | ok outcome =>
    show Except.ok (read ++ (later ++ outcome.1), outcome.2) = _
    rw [← List.append_assoc]
    rfl

theorem spanDelimited_quoted {inside : List Char} (h : Quoted inside) (column : Nat)
    (outer rest : List Char) :
    ∃ next, spanDelimited column ('"' :: outer) (inside ++ rest) =
      (spanDelimited next ('"' :: outer) rest).after inside := by
  induction h generalizing column with
  | nil => exact ⟨column, (Split.after_nil _).symm⟩
  | escaped c _ ih =>
    obtain ⟨next, read⟩ := ih (column + 1 + c.utf8Size)
    refine ⟨next, ?_⟩
    rw [List.cons_append, List.cons_append, spanDelimited_escaped, read, Split.after_after]
    rfl
  | @plain c _ backslash quote _ ih =>
    obtain ⟨next, read⟩ := ih (column + c.utf8Size)
    refine ⟨next, ?_⟩
    rw [List.cons_append, spanDelimited_in_quotes backslash quote, read, Split.after_after]
    rfl

theorem spanDelimited_inside {inside : List Char} (h : Inside inside) {close : Char}
    (bracket : close ≠ '"') (column : Nat) (outer rest : List Char) :
    ∃ next, spanDelimited column (close :: outer) (inside ++ rest) =
      (spanDelimited next (close :: outer) rest).after inside := by
  induction h generalizing close column outer rest with
  | nil => exact ⟨column, (Split.after_nil _).symm⟩
  | @bracketed left right inner others pair _ _ ih_inner ih_later =>
    -- Up to the closing bracket, then over it, then the rest.
    have opens : closer? left = some right := closer?_eq_some_iff.2 (.inl pair)
    have closes : isCloser right = true := isCloser_of_bracket pair
    have not_quote : right ≠ '"' := by
      cases pair <;> decide
    obtain ⟨at_right, read_inner⟩ := ih_inner not_quote (column + left.utf8Size) (close :: outer)
      (right :: (others ++ rest))
    obtain ⟨next, read_later⟩ := ih_later bracket (at_right + right.utf8Size) outer rest
    refine ⟨next, ?_⟩
    rw [List.append_assoc, List.cons_append, List.cons_append, spanDelimited_opening opens bracket,
      read_inner, spanDelimited_closing closes, read_later, Split.after_after, Split.after_after,
      Split.after_after]
    simp only [List.append_assoc, List.cons_append, List.nil_append]
  | @quoted inner others inside _ ih =>
    obtain ⟨at_quote, read_inner⟩ := spanDelimited_quoted inside (column + '"'.utf8Size)
      (close :: outer) ('"' :: (others ++ rest))
    obtain ⟨next, read_later⟩ := ih bracket (at_quote + '"'.utf8Size) outer rest
    refine ⟨next, ?_⟩
    rw [List.append_assoc, List.cons_append, List.cons_append,
      spanDelimited_opening (closer?_eq_some_iff.2 (.inr ⟨rfl, rfl⟩)) bracket, read_inner,
      spanDelimited_quote, read_later, Split.after_after, Split.after_after, Split.after_after]
    simp only [List.append_assoc, List.cons_append, List.nil_append]
  | escaped c _ ih =>
    obtain ⟨next, read⟩ := ih bracket (column + 1 + c.utf8Size) outer rest
    refine ⟨next, ?_⟩
    rw [List.cons_append, List.cons_append, spanDelimited_escaped, read, Split.after_after]
    rfl
  | @plain c _ plain _ ih =>
    obtain ⟨next, read⟩ := ih bracket (column + c.utf8Size) outer rest
    refine ⟨next, ?_⟩
    rw [List.cons_append, spanDelimited_plain plain bracket, read, Split.after_after]
    rfl

/-- Delimiters that close something. -/
def AreClosers (due : List Char) : Prop :=
  ∀ close ∈ due, isCloser close = true ∨ close = '"'

theorem spanDelimited_of_closes {due text : List Char} (closers : AreClosers due)
    (h : Closes due text) (column : Nat) (rest : List Char) :
    spanDelimited column due (text ++ rest) = .ok (text, rest) := by
  induction due generalizing column text with
  | nil =>
    have empty : text = [] := h
    rw [empty, List.nil_append, spanDelimited]
  | cons close outer ih =>
    obtain ⟨inside, later, rfl, fills, closes⟩ := h
    have outer_closers : AreClosers outer := by
      intro other member
      exact closers other (List.mem_cons_of_mem _ member)
    rw [List.append_assoc, List.cons_append]
    by_cases quote : close = '"'
    · subst quote
      obtain ⟨next, read⟩ :=
        spanDelimited_quoted (fills_quote.1 fills) column outer ('"' :: (later ++ rest))
      rw [read, spanDelimited_quote, ih outer_closers closes]
      rfl
    · have closing : isCloser close = true := by
        rcases closers close List.mem_cons_self with closing | same
        · exact closing
        · exact absurd same quote
      obtain ⟨next, read⟩ := spanDelimited_inside ((fills_bracket quote).1 fills) quote column outer
        (close :: (later ++ rest))
      rw [read, spanDelimited_closing closing, ih outer_closers closes]
      rfl

/-- The reader of delimited spans splits off exactly the texts that close what is due. -/
theorem spanDelimited_eq_ok_iff {due : List Char} (closers : AreClosers due) (column : Nat)
    {cs text rest : List Char} :
    spanDelimited column due cs = .ok (text, rest) ↔ cs = text ++ rest ∧ Closes due text := by
  constructor
  · intro h
    exact ⟨(spanDelimited_append h).symm, closes_of_spanDelimited h⟩
  · rintro ⟨rfl, closes⟩
    exact spanDelimited_of_closes closers closes column rest

/-! ### Words -/

theorem startsToken_iff {c : Char} : startsToken c = true ↔ c ∈ ['#', '(', '[', '{', '"'] := by
  unfold startsToken closer?
  grind

theorem endsWord_nil : EndsWord [] := by
  intro c rest h
  cases h

theorem endsWord_cons {c : Char} (h : (Text.isBlank c || startsToken c) = true)
    (rest : List Char) : EndsWord (c :: rest) := by
  intro first others same
  cases same
  rw [← startsToken_iff, ← Bool.or_eq_true]
  exact h

theorem wordText_of_spanWord {column : Nat} {cs text rest : List Char}
    (h : spanWord column cs = .ok (text, rest)) : WordText text ∧ EndsWord rest := by
  fun_induction spanWord column cs generalizing text with
  | case1 =>
    cases h
    exact ⟨.nil, endsWord_nil⟩
  | case2 => contradiction
  | case3 column c cs ih =>
    obtain ⟨inner, found, rfl⟩ := Split.after_eq_ok h
    obtain ⟨word, ends⟩ := ih found
    exact ⟨.escaped c word, ends⟩
  | case4 column c cs last escape stops =>
    cases h
    exact ⟨.nil, endsWord_cons stops cs⟩
  | case5 => contradiction
  | case6 column c cs last escape goes_on not_closer ih =>
    obtain ⟨inner, found, rfl⟩ := Split.after_eq_ok h
    obtain ⟨word, ends⟩ := ih found
    have ordinary : IsOrdinary c := by
      rw [isOrdinary_iff]
      exact ⟨not_backslash last escape, by simpa using goes_on, by simpa using not_closer⟩
    exact ⟨.ordinary ordinary word, ends⟩

theorem spanWord_cons {c : Char} (backslash : c ≠ '\\') (column : Nat) (cs : List Char) :
    spanWord column (c :: cs) =
      if Text.isBlank c || startsToken c then .ok ([], c :: cs)
      else if isCloser c then .error (.unmatchedAt c column)
      else (spanWord (column + c.utf8Size) cs).after [c] :=
  spanWord.eq_4 column c cs (fun same _ => backslash same) (fun _ _ same _ => backslash same)

theorem spanWord_of_endsWord {rest : List Char} (ends : EndsWord rest) (column : Nat) :
    spanWord column rest = .ok ([], rest) := by
  cases rest with
  | nil => rw [spanWord]
  | cons c cs =>
    have stops : (Text.isBlank c || startsToken c) = true := by
      rw [Bool.or_eq_true, startsToken_iff]
      exact ends c cs rfl
    have backslash : c ≠ '\\' := by
      rintro rfl
      revert stops
      decide
    rw [spanWord_cons backslash, if_pos stops]

/-- The reader of words splits off exactly a word with an end behind it. -/
theorem spanWord_eq_ok_iff (column : Nat) {cs text rest : List Char} :
    spanWord column cs = .ok (text, rest) ↔
      cs = text ++ rest ∧ WordText text ∧ EndsWord rest := by
  constructor
  · intro h
    exact ⟨(spanWord_append h).symm, wordText_of_spanWord h⟩
  · rintro ⟨rfl, word, ends⟩
    induction word generalizing column with
    | nil => exact spanWord_of_endsWord ends column
    | escaped c _ ih =>
      rw [List.cons_append, List.cons_append, spanWord, ih]
      rfl
    | ordinary itself _ ih =>
      obtain ⟨backslash, goes_on, not_closer⟩ := isOrdinary_iff.1 itself
      rw [List.cons_append, spanWord_cons backslash, goes_on, not_closer, ih]
      rfl

end ShellExpr.Line
