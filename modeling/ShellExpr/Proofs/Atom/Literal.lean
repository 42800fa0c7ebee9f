import ShellExpr.Proofs.Atom.Languages

/-!
# Texts that scan into given atoms

The writing side of the scanner: a name is scanned as itself, and every text at all has a literal
that stands for it, in which a backslash stands in front of each backslash and each quote.

`Scans cs atoms` leaves the column out, which only error messages need, so that texts are put
together from the back to the front by one lemma for each kind of atom.
-/

namespace ShellExpr.Atom

/-- The characters scan into the atoms, in whatever column they stand. -/
def Scans (cs : List Char) (atoms : List Atom) : Prop :=
  ∀ column, scanFrom column cs = .ok atoms

theorem scan_of_scans {source : String} {atoms : List Atom} (h : Scans source.toList atoms) :
    scan source = .ok atoms :=
  h 1

theorem scans_nil : Scans [] [] :=
  scanFrom_nil

theorem Scans.space {c : Char} {cs : List Char} {atoms : List Atom} (h : Scans cs atoms)
    (space : isSpace c = true) : Scans (c :: cs) atoms := by
  intro column
  rw [scanFrom_cons, if_pos space]
  exact h _

theorem Scans.spaces {gap cs : List Char} {atoms : List Atom} (h : Scans cs atoms)
    (spaces : ∀ c ∈ gap, isSpace c = true) : Scans (gap ++ cs) atoms := by
  induction gap with
  | nil => exact h
  | cons c gap ih =>
    obtain ⟨space, others⟩ := List.forall_mem_cons.1 spaces
    exact (ih others).space space

theorem Scans.lexeme {c : Char} {cs : List Char} {lexeme : Lexeme} {atoms : List Atom}
    (h : Scans lexeme.rest atoms) (visible : isSpace c = false)
    (found : lexeme? c cs = .ok lexeme) : Scans (c :: cs) (lexeme.atom :: atoms) := by
  intro column
  rw [scanFrom_cons, visible, found]
  simp only [Bool.false_eq_true, if_false, h _]

/-! ### Literals -/

/-- A text between quotes, with a backslash in front of every backslash and every quote. -/
def escapeQuotes : List Char → List Char
  | [] => []
  | c :: cs => if c = '\\' ∨ c = '"' then '\\' :: c :: escapeQuotes cs else c :: escapeQuotes cs

theorem escapeQuotes_escaped {c : Char} (h : c = '\\' ∨ c = '"') (cs : List Char) :
    escapeQuotes (c :: cs) = '\\' :: c :: escapeQuotes cs := by
  rw [escapeQuotes, if_pos h]

theorem escapeQuotes_plain {c : Char} (h : ¬(c = '\\' ∨ c = '"')) (cs : List Char) :
    escapeQuotes (c :: cs) = c :: escapeQuotes cs := by
  rw [escapeQuotes, if_neg h]

/-- The literal that stands for a text. -/
def literal (text : String) : List Char :=
  '"' :: escapeQuotes text.toList ++ ['"']

theorem literalBody_escapeQuotes (cs : List Char) : LiteralBody (escapeQuotes cs) cs := by
  induction cs with
  | nil => exact .nil
  | cons c cs ih =>
    by_cases special : c = '\\' ∨ c = '"'
    · rw [escapeQuotes_escaped special]
      -- Neither character is one that stands for a control character behind a backslash.
      rcases special with rfl | rfl
      · exact .escaped (by decide) ih
      · exact .escaped (by decide) ih
    · rw [escapeQuotes_plain special]
      exact .plain (fun same => special (.inl same)) (fun same => special (.inr same)) ih

theorem lexeme?_literal {inside meant : List Char} (body : LiteralBody inside meant)
    (rest : List Char) :
    lexeme? '"' (inside ++ '"' :: rest) =
      .ok ⟨.str (String.ofList meant), '"' :: inside ++ ['"'], rest⟩ := by
  unfold lexeme?
  rw [body.spanLiteral]
  simp [body.unescape]

theorem Scans.quoted {rest : List Char} {atoms : List Atom} (h : Scans rest atoms)
    {inside meant : List Char} (body : LiteralBody inside meant) :
    Scans ('"' :: (inside ++ '"' :: rest)) (.str (String.ofList meant) :: atoms) :=
  Scans.lexeme h (by decide) (lexeme?_literal body rest)

theorem Scans.literal {rest : List Char} {atoms : List Atom} (h : Scans rest atoms)
    (text : String) : Scans (Atom.literal text ++ rest) (.str text :: atoms) := by
  have quoted := h.quoted (literalBody_escapeQuotes text.toList)
  rw [String.ofList_toList] at quoted
  have whole : Atom.literal text ++ rest = '"' :: (escapeQuotes text.toList ++ '"' :: rest) := by
    simp [Atom.literal]
  rwa [whole]

/-! ### Names -/

/-- A letter or an underscore, and then letters, digits and underscores. -/
def isIdentifier (name : String) : Bool :=
  match name.toList with
  | [] => false
  | c :: cs => isNameStart c && cs.all isNameRest

theorem not_isDigit_of_isNameStart {c : Char} (h : isNameStart c = true) : c.isDigit = false := by
  have letter : c.isAlpha = (decide (c.val ≥ 'A'.val ∧ c.val ≤ 'Z'.val) ||
      decide (c.val ≥ 'a'.val) && decide (c.val ≤ 'z'.val)) := rfl
  simp only [isNameStart, letter, Bool.or_eq_true, Bool.and_eq_true, decide_eq_true_eq,
    beq_iff_eq] at h
  simp only [Char.isDigit, Bool.and_eq_false_iff, decide_eq_false_iff_not]
  rcases h with (⟨upper, _⟩ | ⟨lower, _⟩) | rfl
  · refine .inr fun digit => ?_
    have between := UInt32.le_trans upper digit
    contradiction
  · refine .inr fun digit => ?_
    have between := UInt32.le_trans lower digit
    contradiction
  · decide

theorem not_isSpace_of_isNameStart {c : Char} (h : isNameStart c = true) : isSpace c = false := by
  rw [Bool.eq_false_iff]
  intro space
  simp only [isSpace, Bool.or_eq_true, beq_iff_eq] at space
  rcases space with (((rfl | rfl) | rfl) | rfl) | rfl <;> contradiction

theorem lexeme?_name {c : Char} (start : isNameStart c = true) (cs : List Char) :
    lexeme? c cs = .ok ⟨.identifier (String.ofList (c :: cs.takeWhile isNameRest)),
      c :: cs.takeWhile isNameRest, cs.dropWhile isNameRest⟩ := by
  have no_digit : c.isDigit = false := not_isDigit_of_isNameStart start
  have no_quote : (c == '"') = false := by
    rw [beq_eq_false_iff_ne]
    rintro rfl
    contradiction
  simp [lexeme?, no_digit, no_quote, start]

/-- A name that nothing goes on behind is scanned as a whole. -/
theorem Scans.identifier {name : String} {rest : List Char} {atoms : List Atom}
    (h : Scans rest atoms) (valid : isIdentifier name = true)
    (ends : ∀ c ∈ rest.head?, isNameRest c = false) :
    Scans (name.toList ++ rest) (.identifier name :: atoms) := by
  unfold isIdentifier at valid
  split at valid
  · contradiction
  · rename_i c cs spelled
    obtain ⟨start, inside⟩ := Bool.and_eq_true_iff.1 valid
    have among := List.all_eq_true.1 inside
    have nothing : rest.takeWhile isNameRest = [] ∧ rest.dropWhile isNameRest = rest := by
      cases rest with
      | nil => exact ⟨rfl, rfl⟩
      | cons x xs =>
        have other := ends x rfl
        exact ⟨List.takeWhile_cons_of_neg (by simp [other]),
          List.dropWhile_cons_of_neg (by simp [other])⟩
    have found := lexeme?_name start (cs ++ rest)
    rw [List.takeWhile_append_of_pos among, List.dropWhile_append_of_pos among, nothing.1,
      nothing.2, List.append_nil, ← spelled, String.ofList_toList] at found
    rw [spelled]
    exact Scans.lexeme h (not_isSpace_of_isNameStart start) found

/-! ### Operators -/

theorem operatorAt?_symbol (op : Operator) :
    operatorAt? op.symbol.toList = some (op, op.symbol.toList, []) := by
  have found := operatorAt?_of_longest op [] fun other front => by
    rw [List.append_nil] at front
    exact front.length_le
  rwa [List.append_nil] at found

theorem symbol_cons (op : Operator) :
    ∃ c cs, op.symbol.toList = c :: cs ∧ isSpace c = false ∧ c.isDigit = false ∧
      (c == '"') = false ∧ isNameStart c = false ∧ (c == '(') = false ∧ (c == ')') = false := by
  cases op <;> exact ⟨_, _, rfl, by decide⟩

theorem lexeme?_operator {op taken : Operator} {c : Char} {others cs text rest : List Char}
    (spelled : op.symbol.toList = c :: others)
    (found : operatorAt? (c :: cs) = some (taken, text, rest)) :
    isSpace c = false ∧ lexeme? c cs = .ok ⟨.operator taken, text, rest⟩ := by
  obtain ⟨first, behind, same, visible, digit, quote, start, opening, closing⟩ := symbol_cons op
  rw [spelled] at same
  obtain ⟨rfl, _⟩ := List.cons.inj same
  refine ⟨visible, ?_⟩
  simp only [lexeme?, digit, quote, start, opening, closing, found, Bool.false_eq_true, if_false]

theorem Scans.operator {cs : List Char} {atoms : List Atom} (h : Scans (' ' :: cs) atoms)
    (op : Operator) : Scans (op.symbol.toList ++ ' ' :: cs) (.operator op :: atoms) := by
  -- A blank ends an operator also where the operator is the beginning of a longer one.
  have ends : EndsAtoms ' ' := endsAtoms_of_isSpace (by decide)
  have found := operatorAt?_before ends cs (operatorAt?_symbol op)
  rw [List.nil_append] at found
  obtain ⟨c, rest, spelled, _⟩ := symbol_cons op
  rw [spelled, List.cons_append] at found ⊢
  obtain ⟨visible, single⟩ := lexeme?_operator spelled found
  exact Scans.lexeme h visible single

/-! ### Texts in front of texts -/

/-- In front of a character that ends every atom a text scans into its own atoms. -/
theorem Scans.before {x : Char} (ends : EndsAtoms x) {later : List Char} {behind : List Atom}
    (h : Scans (x :: later) behind) {column : Nat} {cs : List Char} {atoms : List Atom}
    (scanned : scanFrom column cs = .ok atoms) : Scans (cs ++ x :: later) (atoms ++ behind) := by
  fun_induction scanFrom column cs generalizing atoms with
  | case1 =>
    cases scanned
    exact h
  | case2 column c cs space ih => exact (ih scanned).space space
  | case3 => contradiction
  | case4 column c cs visible lexeme found _ others rest_scanned ih =>
    cases scanned
    exact @Scans.lexeme c _ ⟨lexeme.atom, lexeme.text, lexeme.rest ++ x :: later⟩ _
      (ih rest_scanned) (Bool.eq_false_iff.2 visible) (lexeme?_before ends later found)
  | case5 => contradiction

/-- A text in parentheses, with another one behind them. -/
theorem Scans.group {later : List Char} {behind : List Atom} (h : Scans later behind)
    {column : Nat} {cs : List Char} {atoms : List Atom} (scanned : scanFrom column cs = .ok atoms) :
    Scans ('(' :: (cs ++ ')' :: later)) (.opening :: (atoms ++ .closing :: behind)) := by
  have opens : lexeme? '(' (cs ++ ')' :: later) = .ok ⟨.opening, ['('], cs ++ ')' :: later⟩ := rfl
  have closes : lexeme? ')' later = .ok ⟨.closing, [')'], later⟩ := rfl
  have closing : Scans (')' :: later) (.closing :: behind) := Scans.lexeme h (by decide) closes
  exact Scans.lexeme (Scans.before endsAtoms_closing closing scanned) (by decide) opens

theorem scan_parenthesized {source : String} {atoms : List Atom} (h : scan source = .ok atoms) :
    scan ("(" ++ source ++ ")") = .ok (.opening :: (atoms ++ [.closing])) := by
  have whole : ("(" ++ source ++ ")").toList = '(' :: (source.toList ++ [')']) := by
    rw [String.toList_append, String.toList_append, List.append_assoc]
    rfl
  refine scan_of_scans ?_
  rw [whole]
  exact scans_nil.group h

end ShellExpr.Atom
