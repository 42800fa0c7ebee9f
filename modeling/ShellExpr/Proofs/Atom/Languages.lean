import ShellExpr.Proofs.Atom.Boundaries

/-!
# The languages of atoms

Which texts are atoms, and what they stand for: reals, integers, quoted texts, names, operators and
parentheses.  None of this mentions the scanner.  `Lexed` says how a text falls into lexemes, each
of them the longest text of any language at its place.
-/

namespace ShellExpr.Atom

/-! ### Numbers -/

/-- One or more digits. -/
structure Digits (cs : List Char) : Prop where
  filled : cs ≠ []
  each : ∀ c ∈ cs, c.isDigit = true

/-- The letter `e`, a sign or none, and digits. -/
inductive Exponent : List Char → Prop where
  | mk {mark : Char} {sign digits : List Char} (marked : mark = 'e' ∨ mark = 'E')
      (signed : sign = [] ∨ sign = ['+'] ∨ sign = ['-']) (ends : Digits digits) :
      Exponent (mark :: (sign ++ digits))

/-- Digits with a point among them, with an exponent or without, or digits with an exponent. -/
inductive RealText : List Char → Prop where
  | point {whole fraction exponent : List Char} (before : Digits whole) (behind : Digits fraction)
      (scaled : exponent = [] ∨ Exponent exponent) :
      RealText (whole ++ '.' :: (fraction ++ exponent))
  | scaled {whole exponent : List Char} (before : Digits whole) (scaled : Exponent exponent) :
      RealText (whole ++ exponent)

/-! ### Quoted texts -/

/-- The character that an escaped one stands for. -/
def unescaped (c : Char) : Char :=
  match c with
  | 'n' => '\n'
  | 't' => '\t'
  | 'r' => '\r'
  | c => c

/-- What stands between the quotes of a literal, and the characters that it stands for. -/
inductive LiteralBody : List Char → List Char → Prop where
  | nil : LiteralBody [] []
  | escaped {c : Char} {inside meant : List Char} (unbroken : c ≠ '\n')
      (later : LiteralBody inside meant) :
      LiteralBody ('\\' :: c :: inside) (unescaped c :: meant)
  | plain {c : Char} {inside meant : List Char} (backslash : c ≠ '\\') (quote : c ≠ '"')
      (later : LiteralBody inside meant) : LiteralBody (c :: inside) (c :: meant)

/-! ### Lexemes -/

/-- The texts of all languages. -/
inductive IsLexeme : List Char → Prop where
  | real {text : List Char} (real : RealText text) : IsLexeme text
  | integer {text : List Char} (digits : Digits text) : IsLexeme text
  | literal {inside meant : List Char} (body : LiteralBody inside meant) :
      IsLexeme ('"' :: inside ++ ['"'])
  | name {c : Char} {cs : List Char} (start : isNameStart c = true)
      (others : ∀ x ∈ cs, isNameRest x = true) : IsLexeme (c :: cs)
  | operator (op : Operator) : IsLexeme op.symbol.toList
  | opening : IsLexeme ['(']
  | closing : IsLexeme [')']

/-- The texts of all languages with the atoms that they stand for. -/
inductive Spells : List Char → Atom → Prop where
  | real {text : List Char} {r : Float} (real : RealText text)
      (value : Double.readDecimal? text = some r) (finite : r.isFinite = true) :
      Spells text (.real r)
  | integer {text : List Char} {n : Int64} (digits : Digits text)
      (value : n.toInt = Text.digitsValue text) : Spells text (.int n)
  | literal {inside meant : List Char} (body : LiteralBody inside meant) :
      Spells ('"' :: inside ++ ['"']) (.str (String.ofList meant))
  | name {c : Char} {cs : List Char} (start : isNameStart c = true)
      (others : ∀ x ∈ cs, isNameRest x = true) :
      Spells (c :: cs) (.identifier (String.ofList (c :: cs)))
  | operator (op : Operator) : Spells op.symbol.toList (.operator op)
  | opening : Spells ['('] .opening
  | closing : Spells [')'] .closing

/-- The numbers that stand for no atom: integers that 64 bits do not hold, and reals that overflow
to infinity. -/
inductive TooLarge : List Char → Prop where
  | integer {text : List Char} (digits : Digits text)
      (large : Int64.maxValue.toInt < Text.digitsValue text) : TooLarge text
  | real {text : List Char} (real : RealText text)
      (infinite : Double.readDecimal? text = some Double.infinity) : TooLarge text

theorem Spells.isLexeme {text : List Char} {atom : Atom} (h : Spells text atom) :
    IsLexeme text := by
  cases h with
  | real real => exact .real real
  | integer digits => exact .integer digits
  | literal body => exact .literal body
  | name start others => exact .name start others
  | operator op => exact .operator op
  | opening => exact .opening
  | closing => exact .closing

theorem TooLarge.isLexeme {text : List Char} (h : TooLarge text) : IsLexeme text := by
  cases h with
  | integer digits => exact .integer digits
  | real real => exact .real real

/-- The longest text of any language at the front of another text. -/
structure Longest (text whole : List Char) : Prop where
  isLexeme : IsLexeme text
  front : text <+: whole
  longest : ∀ other, IsLexeme other → other <+: whole → other.length ≤ text.length

/-- A text that falls into blanks and the longest lexemes, up to a rest. -/
inductive Lexed : List Char → List Atom → List Char → Prop where
  | done (rest : List Char) : Lexed rest [] rest
  | space {c : Char} {cs rest : List Char} {atoms : List Atom} (space : isSpace c = true)
      (later : Lexed cs atoms rest) : Lexed (c :: cs) atoms rest
  | lexeme {text behind rest : List Char} {atom : Atom} {atoms : List Atom}
      (longest : Longest text (text ++ behind)) (spells : Spells text atom)
      (later : Lexed behind atoms rest) : Lexed (text ++ behind) (atom :: atoms) rest

/-- A text with no lexeme in front, or with a number that is too large. -/
inductive Stuck : List Char → Prop where
  | nothing {cs : List Char} (none_fits : ∀ front, front <+: cs → ¬IsLexeme front) : Stuck cs
  | tooLarge {text cs : List Char} (longest : Longest text cs) (large : TooLarge text) : Stuck cs

/-! ### Literals are read -/

theorem spanLiteral_escaped {c : Char} (h : c ≠ '\n') (cs : List Char) :
    spanLiteral ('\\' :: c :: cs) = ('\\' :: c :: (spanLiteral cs).1, (spanLiteral cs).2) := by
  rw [spanLiteral, if_neg (by simpa using h)]

theorem unescape_escaped (c : Char) (cs : List Char) :
    unescape ('\\' :: c :: cs) = unescaped c :: unescape cs :=
  rfl

theorem unescape_plain {c : Char} (h : c ≠ '\\') (cs : List Char) :
    unescape (c :: cs) = c :: unescape cs := by
  rw [unescape]
  · exact fun same _ => h same
  · exact fun _ _ same _ => h same

theorem LiteralBody.spanLiteral {inside meant : List Char} (h : LiteralBody inside meant)
    (rest : List Char) : spanLiteral (inside ++ '"' :: rest) = (inside ++ ['"'], some rest) := by
  induction h with
  | nil => rfl
  | escaped unbroken _ ih =>
    simp only [List.cons_append]
    rw [spanLiteral_escaped unbroken, ih]
  | plain backslash quote _ ih =>
    simp only [List.cons_append]
    rw [spanLiteral_plain (by simp [backslash, quote]), ih]

theorem LiteralBody.unescape {inside meant : List Char} (h : LiteralBody inside meant) :
    unescape inside = meant := by
  induction h with
  | nil => rfl
  | escaped _ _ ih => rw [unescape_escaped, ih]
  | plain backslash _ _ ih => rw [unescape_plain backslash, ih]

/-- What is read as a literal is one. -/
theorem literalBody_of_spanLiteral {cs body rest : List Char}
    (h : Atom.spanLiteral cs = (body, some rest)) :
    ∃ inside, body = inside ++ ['"'] ∧ LiteralBody inside (Atom.unescape inside) := by
  induction cs using spanLiteral.induct generalizing body with
  | case1 =>
    rw [Atom.spanLiteral] at h
    cases h
  | case2 cs =>
    rw [Atom.spanLiteral] at h
    cases h
    exact ⟨[], rfl, .nil⟩
  | case3 =>
    rw [Atom.spanLiteral] at h
    cases h
  | case4 c cs newline =>
    rw [Atom.spanLiteral, if_pos newline] at h
    cases h
  | case5 c cs newline inner tail read ih =>
    rw [Atom.spanLiteral, if_neg newline, read] at h
    cases h
    obtain ⟨inside, rfl, meant⟩ := ih read
    refine ⟨'\\' :: c :: inside, rfl, ?_⟩
    rw [unescape_escaped]
    exact .escaped (by simpa using newline) meant
  | case6 c cs not_quote not_alone not_escape inner tail read ih =>
    rw [Atom.spanLiteral, read] at h
    · cases h
      obtain ⟨inside, rfl, meant⟩ := ih read
      have special := not_special not_quote not_alone not_escape
      have backslash : c ≠ '\\' := fun same => special (.inl same)
      refine ⟨c :: inside, rfl, ?_⟩
      rw [unescape_plain backslash]
      exact .plain backslash not_quote meant
    · exact not_quote
    · exact not_alone
    · exact not_escape

end ShellExpr.Atom
