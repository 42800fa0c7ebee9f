import ShellExpr.Proofs.Atom.Literal
import ShellExpr.Proofs.Atom.Numbers

/-!
# The scanner takes the longest lexemes

A text is scanned into atoms if and only if it falls into blanks and lexemes, each of them the
longest at its place.  A scan fails in the column of a character at which no lexeme starts, or at
which the longest one is a number that is too large.
-/

namespace ShellExpr.Atom

/-! ### What is read is a lexeme -/

theorem spells_of_lexeme? {c : Char} {cs : List Char} {lexeme : Lexeme}
    (h : lexeme? c cs = .ok lexeme) : Spells lexeme.text lexeme.atom := by
  unfold lexeme? at h
  split at h
  · rename_i digit
    rcases number?_cases digit cs with ⟨number, read, _, spells⟩ | ⟨failed, _⟩
    · rw [read] at h
      cases h
      exact spells
    · rw [failed] at h
      contradiction
  split at h
  · rename_i quote
    split at h
    · rename_i body rest found
      cases h
      obtain ⟨inside, rfl, body⟩ := literalBody_of_spanLiteral found
      rw [beq_iff_eq.1 quote, List.dropLast_concat]
      exact .literal body
    · contradiction
  split at h
  · rename_i start
    cases h
    exact .name start (List.all_eq_true.1 List.all_takeWhile)
  split at h
  · rename_i opening
    cases h
    rw [beq_iff_eq.1 opening]
    exact .opening
  split at h
  · rename_i closing
    cases h
    rw [beq_iff_eq.1 closing]
    exact .closing
  split at h
  · rename_i op text rest found
    cases h
    rw [(longest_of_operatorAt? found).1]
    exact .operator op
  · contradiction

/-! ### What spells an atom is read -/

theorem not_isSpace_of_isDigit {c : Char} (h : c.isDigit = true) : isSpace c = false := by
  rw [Bool.eq_false_iff]
  intro space
  have ends := endsAtoms_of_isSpace space
  rw [ends.not_isDigit] at h
  contradiction

theorem lexeme?_number {text : List Char} (h : Digits text ∨ RealText text) :
    ∃ c cs, text = c :: cs ∧ isSpace c = false ∧ lexeme? c cs =
      match numberAtom? text with
      | some atom => .ok ⟨atom, text, []⟩
      | none => .error text := by
  obtain ⟨c, cs, rfl, digit⟩ := number_head h
  refine ⟨c, cs, rfl, not_isSpace_of_isDigit digit, ?_⟩
  obtain ⟨_, rest, read⟩ := number?_eq digit cs
  rw [numberText_of_number h] at read
  rw [lexeme?, if_pos digit]
  cases value : numberAtom? (c :: cs) with
  | some atom =>
    rw [value] at read
    have nothing : rest = [] := List.append_right_eq_self.1 (number?_append read)
    rw [read, nothing]
  | none =>
    rw [value] at read
    exact read

theorem Spells.lexeme? {text : List Char} {atom : Atom} (h : Spells text atom) :
    ∃ c cs, text = c :: cs ∧ isSpace c = false ∧ lexeme? c cs = .ok ⟨atom, text, []⟩ := by
  cases h with
  | @real _ r real value finite =>
    have kept : (some r).filter Float.isFinite = some r := if_pos finite
    have read := lexeme?_number (.inr real)
    rwa [numberAtom?_real real, value, kept] at read
  | @integer _ n digits value =>
    have read := lexeme?_number (.inl digits)
    rwa [numberAtom?_digits digits, Integer.ofInt?_eq_some_iff.2 value] at read
  | @literal inside _ body => exact ⟨'"', inside ++ ['"'], rfl, by decide, lexeme?_literal body []⟩
  | @name c cs start others =>
    refine ⟨c, cs, rfl, not_isSpace_of_isNameStart start, ?_⟩
    have read := lexeme?_name start (cs ++ [])
    rwa [List.takeWhile_append_of_pos others, List.dropWhile_append_of_pos others,
      List.takeWhile_nil, List.dropWhile_nil, List.append_nil] at read
  | operator op =>
    have found := operatorAt?_symbol op
    obtain ⟨c, others, spelled, _⟩ := symbol_cons op
    rw [spelled] at found ⊢
    obtain ⟨visible, read⟩ := lexeme?_operator spelled found
    exact ⟨c, others, rfl, visible, read⟩
  | opening => exact ⟨'(', [], rfl, by decide, rfl⟩
  | closing => exact ⟨')', [], rfl, by decide, rfl⟩

theorem Spells.unique {text : List Char} {atom other : Atom} (h : Spells text atom)
    (h' : Spells text other) : atom = other := by
  obtain ⟨c, cs, rfl, _, read⟩ := h.lexeme?
  obtain ⟨_, _, same, _, read_other⟩ := h'.lexeme?
  cases same
  rw [read] at read_other
  cases read_other
  rfl

theorem Spells.not_tooLarge {text : List Char} {atom : Atom} (h : Spells text atom) :
    ¬TooLarge text := by
  intro large
  obtain ⟨c, cs, rfl, _, read⟩ := h.lexeme?
  obtain ⟨_, _, same, _, failed⟩ := lexeme?_number large.number
  cases same
  rw [read, large.numberAtom?] at failed
  contradiction

/-! ### No lexeme in front is missed -/

/-- What is read at the front of a text is as long as a given front of it. -/
inductive Reaches (front whole : List Char) : Except (List Char) Lexeme → Prop where
  | atom {lexeme : Lexeme} (reach : front.length ≤ lexeme.text.length) :
      Reaches front whole (.ok lexeme)
  | tooLarge {text : List Char} (reach : front.length ≤ text.length) (taken : text <+: whole)
      (large : TooLarge text) : Reaches front whole (.error text)

theorem reaches_number {front : List Char} (h : Digits front ∨ RealText front) {c : Char}
    {cs behind : List Char} (whole : front ++ behind = c :: cs) :
    Reaches front (c :: cs) (lexeme? c cs) := by
  have reach := length_number_le_numberText h behind
  obtain ⟨first, others, rfl, digit⟩ := number_head h
  rw [whole] at reach
  obtain ⟨rfl, _⟩ := List.cons.inj whole
  have number : lexeme? first cs = number? first cs := if_pos digit
  rw [number]
  rcases number?_cases digit cs with ⟨lexeme, read, text, _⟩ | ⟨failed, large⟩
  · rw [read]
    exact .atom (text ▸ reach)
  · rw [failed]
    exact .tooLarge reach (numberText_in_front _) large

theorem reaches_name {c : Char} {cs : List Char} (start : isNameStart c = true)
    (others : ∀ x ∈ cs, isNameRest x = true) (behind : List Char) :
    Reaches (c :: cs) (c :: (cs ++ behind)) (lexeme? c (cs ++ behind)) := by
  rw [lexeme?_name start, List.takeWhile_append_of_pos others]
  refine .atom ?_
  simp only [List.length_cons, List.length_append]
  omega

theorem reaches_operator (op : Operator) {c : Char} {cs behind : List Char}
    (whole : op.symbol.toList ++ behind = c :: cs) :
    Reaches op.symbol.toList (c :: cs) (lexeme? c cs) := by
  have front : op.symbol.toList <+: c :: cs := ⟨behind, whole⟩
  obtain ⟨first, others, spelled, _⟩ := symbol_cons op
  rw [spelled, List.cons_append] at whole
  obtain ⟨rfl, _⟩ := List.cons.inj whole
  cases found : operatorAt? (first :: cs) with
  | none => exact absurd found (operatorAt?_ne_none front)
  | some reading =>
    obtain ⟨taken, text, rest⟩ := reading
    rw [(lexeme?_operator spelled found).2]
    exact .atom ((longest_of_operatorAt? found).2.2 op front)

theorem IsLexeme.reaches {front : List Char} (h : IsLexeme front) {c : Char} {cs behind : List Char}
    (whole : front ++ behind = c :: cs) : Reaches front (c :: cs) (lexeme? c cs) := by
  cases h with
  | real real => exact reaches_number (.inr real) whole
  | integer digits => exact reaches_number (.inl digits) whole
  | literal body =>
    simp only [List.cons_append, List.append_assoc, List.nil_append] at whole
    obtain ⟨rfl, rfl⟩ := List.cons.inj whole
    rw [lexeme?_literal body]
    exact .atom (Nat.le_refl _)
  | name start others =>
    cases whole
    exact reaches_name start others behind
  | operator op => exact reaches_operator op whole
  | opening =>
    cases whole
    exact .atom (Nat.le_refl 1)
  | closing =>
    cases whole
    exact .atom (Nat.le_refl 1)

theorem longest_of_lexeme? {c : Char} {cs : List Char} {lexeme : Lexeme}
    (h : lexeme? c cs = .ok lexeme) : Longest lexeme.text (c :: cs) where
  isLexeme := (spells_of_lexeme? h).isLexeme
  front := ⟨lexeme.rest, lexeme?_append h⟩
  longest := by
    rintro other fits ⟨behind, whole⟩
    have reaches := fits.reaches whole
    rw [h] at reaches
    cases reaches with
    | atom reach => exact reach

theorem stuck_of_lexeme? {c : Char} {cs text : List Char} (h : lexeme? c cs = .error text) :
    Stuck (c :: cs) := by
  have reaches (front : List Char) (fits : IsLexeme front) (in_front : front <+: c :: cs) :
      front.length ≤ text.length ∧ text <+: c :: cs ∧ TooLarge text := by
    obtain ⟨behind, whole⟩ := in_front
    have read := fits.reaches whole
    rw [h] at read
    cases read with
    | tooLarge reach taken large => exact ⟨reach, taken, large⟩
  -- One lexeme in front is enough for what failed to be a number, and the longest lexeme there.
  by_cases some_fits : ∃ front, front <+: c :: cs ∧ IsLexeme front
  · obtain ⟨front, in_front, fits⟩ := some_fits
    obtain ⟨_, taken, large⟩ := reaches front fits in_front
    have longest : Longest text (c :: cs) :=
      ⟨large.isLexeme, taken, fun other fits in_front => (reaches other fits in_front).1⟩
    exact .tooLarge longest large
  · exact .nothing fun front in_front fits => some_fits ⟨front, in_front, fits⟩

theorem Longest.unique {text other whole : List Char} (h : Longest text whole)
    (h' : Longest other whole) : text = other := by
  have shorter := h'.longest text h.isLexeme h.front
  have longer := h.longest other h'.isLexeme h'.front
  exact (List.prefix_of_prefix_length_le h.front h'.front shorter).eq_of_length_le longer

/-- The longest lexeme is the one that is read. -/
theorem Longest.lexeme? {text behind : List Char} {atom : Atom}
    (longest : Longest text (text ++ behind)) (spells : Spells text atom) :
    ∃ c cs, text ++ behind = c :: cs ∧ isSpace c = false ∧
      lexeme? c cs = .ok ⟨atom, text, behind⟩ := by
  obtain ⟨c, cs, rfl, visible, _⟩ := spells.lexeme?
  refine ⟨c, cs ++ behind, rfl, visible, ?_⟩
  cases found : Atom.lexeme? c (cs ++ behind) with
  | error taken =>
    cases stuck_of_lexeme? found with
    | nothing none_fits => exact absurd longest.isLexeme (none_fits _ longest.front)
    | tooLarge other large =>
      rw [other.unique longest] at large
      exact absurd large spells.not_tooLarge
  | ok lexeme =>
    -- Two longest lexemes are the same text, and a text spells one atom only.
    have same := (longest_of_lexeme? found).unique longest
    have spelled := spells_of_lexeme? found
    have whole := lexeme?_append found
    rw [same] at spelled whole
    obtain ⟨other, text, rest⟩ := lexeme
    cases same
    cases spelled.unique spells
    cases List.append_cancel_left whole
    rfl

/-! ### All lexemes -/

/-- How a scan ends: all of the text falls into lexemes, or the text before some character that is
no blank, and this character stands in the column of the error. -/
inductive Ended (column : Nat) (cs : List Char) : Except FatalError (List Atom) → Prop where
  | complete {atoms : List Atom} (lexed : Lexed cs atoms []) : Ended column cs (.ok atoms)
  | stuck {before others : List Char} {c : Char} {atoms : List Atom} (text : String)
      (whole : cs = before ++ c :: others) (lexed : Lexed cs atoms (c :: others))
      (visible : isSpace c = false) (stuck : Stuck (c :: others)) :
      Ended column cs (.error (.grammar (.unexpected text (column + Text.byteLength before))))

section

variable {column : Nat} {result : Except FatalError (List Atom)}

theorem Ended.space {c : Char} {cs : List Char} (space : isSpace c = true)
    (h : Ended (column + c.utf8Size) cs result) : Ended column (c :: cs) result := by
  cases h with
  | complete lexed => exact .complete (.space space lexed)
  | @stuck before others d atoms text whole lexed visible stuck =>
    have bytes : column + c.utf8Size + Text.byteLength before =
        column + Text.byteLength (c :: before) := Nat.add_assoc ..
    rw [bytes]
    exact .stuck text (congrArg (c :: ·) whole) (.space space lexed) visible stuck

theorem Ended.lexeme {text behind : List Char} {atom : Atom}
    (longest : Longest text (text ++ behind)) (spells : Spells text atom)
    (h : Ended (column + Text.byteLength text) behind result) :
    Ended column (text ++ behind) (result.map (atom :: ·)) := by
  cases h with
  | complete lexed => exact .complete (.lexeme longest spells lexed)
  | @stuck before others d atoms message whole lexed visible stuck =>
    have bytes : column + Text.byteLength text + Text.byteLength before =
        column + Text.byteLength (text ++ before) := by
      rw [Text.byteLength_append, Nat.add_assoc]
    have split : text ++ behind = text ++ before ++ d :: others := by
      rw [whole, List.append_assoc]
    show Ended column (text ++ behind) (.error _)
    rw [bytes]
    exact .stuck message split (.lexeme longest spells lexed) visible stuck

theorem Ended.lexeme? {c : Char} {cs : List Char} {lexeme : Lexeme}
    (found : lexeme? c cs = .ok lexeme)
    (h : Ended (column + Text.byteLength lexeme.text) lexeme.rest result) :
    Ended column (c :: cs) (result.map (lexeme.atom :: ·)) := by
  have longest := longest_of_lexeme? found
  rw [← lexeme?_append found] at longest ⊢
  exact .lexeme longest (spells_of_lexeme? found) h

end

theorem ended_scanFrom (column : Nat) (cs : List Char) : Ended column cs (scanFrom column cs) := by
  fun_induction scanFrom column cs with
  | case1 column => exact .complete (.done [])
  | case2 column c cs space ih => exact ih.space space
  | case3 column c cs visible text failed =>
    exact .stuck _ (List.nil_append _).symm (.done _) (Bool.eq_false_iff.2 visible)
      (stuck_of_lexeme? failed)
  | case4 column c cs visible lexeme found _ atoms scanned ih =>
    rw [scanned] at ih
    exact ih.lexeme? found
  | case5 column c cs visible lexeme found _ fatal scanned ih =>
    rw [scanned] at ih
    exact ih.lexeme? found

theorem Lexed.scans {cs rest : List Char} {atoms behind : List Atom} (h : Lexed cs atoms rest)
    (later : Scans rest behind) : Scans cs (atoms ++ behind) := by
  induction h with
  | done => exact later
  | space space _ ih => exact (ih later).space space
  | lexeme longest spells _ ih =>
    obtain ⟨c, cs, whole, visible, read⟩ := longest.lexeme? spells
    rw [whole]
    exact Scans.lexeme (ih later) visible read

theorem scan_eq_ok_iff {source : String} {atoms : List Atom} :
    scan source = .ok atoms ↔ Lexed source.toList atoms [] := by
  constructor
  · intro scanned
    have ended := ended_scanFrom 1 source.toList
    rw [scan] at scanned
    rw [scanned] at ended
    cases ended with
    | complete lexed => exact lexed
  · intro lexed
    have scans := lexed.scans scans_nil
    rw [List.append_nil] at scans
    exact scan_of_scans scans

/-- Every text is scanned into its longest lexemes as far as they go, and a text that falls into
longest lexemes has exactly their atoms. -/
theorem scan_longest (source : String) :
    Ended 1 source.toList (scan source) ∧
      ∀ atoms, scan source = .ok atoms ↔ Lexed source.toList atoms [] :=
  ⟨ended_scanFrom 1 source.toList, fun _ => scan_eq_ok_iff⟩

end ShellExpr.Atom
