import ShellExpr.Proofs.Atom.Literal
import ShellExpr.Proofs.Reordering.Acceptance
import ShellExpr.Proofs.Reordering.Roles

/-!
# Atoms and their texts

A text is an operator or a parenthesis by its spelling, an atom by what it is.  Both come to the
same for the text of an atom: literals and names have a letter, a digit, a quote or a blank in them,
which no operator and no parenthesis has.  So the texts of some atoms are reordered like the atoms.
-/

namespace ShellExpr

/-! ### Texts that are operands -/

/-- Letters, digits, underscores, quotes and blanks. -/
def isOperandChar (c : Char) : Bool :=
  Atom.isNameRest c || c == '"' || c == ' '

theorem not_isOperandChar_symbol (op : Operator) :
    ∀ c ∈ op.symbol.toList, isOperandChar c = false := by
  have none : op.symbol.toList.any isOperandChar = false := by
    cases op <;> decide
  exact fun c member => Bool.eq_false_iff.2 (List.any_eq_false.1 none c member)

/-- A text with such a character in it is an operand. -/
theorem role_of_isOperandChar {text : String} {c : Char} (member : c ∈ text.toList)
    (operand : isOperandChar c = true) : Symbol.role text = .operand := by
  have no_opening : text ≠ "(" := by
    rintro rfl
    rw [List.mem_singleton.1 member] at operand
    contradiction
  have no_closing : text ≠ ")" := by
    rintro rfl
    rw [List.mem_singleton.1 member] at operand
    contradiction
  have no_operator : Operator.ofSymbol? text = none := by
    cases found : Operator.ofSymbol? text with
    | none => rfl
    | some op =>
      rw [← Operator.symbol_of_ofSymbol? found] at member
      rw [not_isOperandChar_symbol op c member] at operand
      contradiction
  simp only [Symbol.role, if_neg no_opening, if_neg no_closing, no_operator]

theorem role_symbol (op : Operator) : Symbol.role op.symbol = .operator op := by
  cases op <;> decide

/-! ### Numbers -/

theorem isOperandChar_of_isDigit {c : Char} (h : c.isDigit = true) : isOperandChar c = true := by
  simp [isOperandChar, Atom.isNameRest, Char.isAlphanum, h]

/-- Every number has a digit. -/
theorem exists_digit (n : Nat) :
    ∃ first rest, Nat.toDigits 10 n = first :: rest ∧ first.isDigit = true := by
  obtain ⟨first, rest, digits⟩ :=
    List.exists_cons_of_ne_nil (Nat.toDigits_ne_nil (b := 10) (n := n))
  have member : first ∈ Nat.toDigits 10 n := digits ▸ List.mem_cons_self
  exact ⟨first, rest, digits, Nat.isDigit_of_mem_toDigits (by decide) (by decide) member⟩

theorem exists_operandChar_integer (n : Int64) :
    ∃ c ∈ (Integer.written n).toList, isOperandChar c = true := by
  obtain ⟨first, rest, digits, digit⟩ := exists_digit n.toInt.natAbs
  refine ⟨first, ?_, isOperandChar_of_isDigit digit⟩
  rw [Integer.written, String.toList_ofList, Integer.digits, digits]
  split <;> simp

theorem exists_operandChar_positional {first : Char} (digit : first.isDigit = true)
    (rest : List Char) (leading : Int) :
    ∃ c ∈ Double.positional (first :: rest) leading, isOperandChar c = true := by
  unfold Double.positional
  split
  · exact ⟨'0', by simp, by decide⟩
  · exact ⟨first, by simp, isOperandChar_of_isDigit digit⟩

theorem exists_operandChar_scientific (digits : List Char) (leading : Int) :
    ∃ c ∈ Double.scientific digits leading, isOperandChar c = true :=
  ⟨'e', by simp [Double.scientific], by decide⟩

theorem exists_operandChar_magnitude (mantissa : Nat) (exponent : Int) :
    ∃ c ∈ Double.writtenMagnitude mantissa exponent, isOperandChar c = true := by
  unfold Double.writtenMagnitude
  split
  · exact ⟨'0', by simp, by decide⟩
  · -- What the digits are does not matter, and computing them is a long way.
    generalize Double.shortest mantissa exponent = decimal
    obtain ⟨first, rest, digits, digit⟩ := exists_digit decimal.digits
    simp only [digits]
    split
    · exact exists_operandChar_positional digit rest _
    · exact exists_operandChar_scientific _ _

theorem exists_operandChar_real (r : Float) :
    ∃ c ∈ (Double.written r).toList, isOperandChar c = true := by
  unfold Double.written
  split
  · exact ⟨'N', by decide, by decide⟩
  · rename_i negative _
    cases negative
    · exact ⟨'i', by decide, by decide⟩
    · exact ⟨'i', by decide, by decide⟩
  · rename_i negative mantissa exponent _
    obtain ⟨c, member, operand⟩ := exists_operandChar_magnitude mantissa exponent
    rw [String.toList_ofList]
    exact ⟨c, List.mem_append_right _ member, operand⟩

/-! ### Atoms -/

/-- An atom whose name, if it is one, has the form of a name. -/
def Atom.Named (atom : Atom) : Prop :=
  ∀ name, atom = .identifier name → isIdentifier name = true

/-- The text of an atom has the role of the atom: no literal and no name reads as an operator or as
a parenthesis. -/
theorem Atom.role_text {atom : Atom} (named : atom.Named) :
    Symbol.role atom.text = Symbol.role atom := by
  cases atom with
  | real r =>
    obtain ⟨c, member, operand⟩ := exists_operandChar_real r
    exact role_of_isOperandChar member operand
  | int n =>
    obtain ⟨c, member, operand⟩ := exists_operandChar_integer n
    exact role_of_isOperandChar member operand
  | str text =>
    have quoted : '"' ∈ (Text.quote text).toList := by simp [Text.toList_quote, Text.quoteChars]
    exact role_of_isOperandChar quoted (by decide)
  | identifier name =>
    have valid := named name rfl
    unfold isIdentifier at valid
    split at valid
    · contradiction
    · rename_i c cs spelled
      have start := (Bool.and_eq_true_iff.1 valid).1
      have member : c ∈ name.toList := spelled ▸ List.mem_cons_self
      refine role_of_isOperandChar member ?_
      simp only [isOperandChar, isNameRest, isNameStart, Char.isAlphanum] at start ⊢
      grind
  | operator op => exact role_symbol op
  | opening => decide
  | closing => decide
  | blank => decide

/-! ### Reordering -/

/-- The text of the item that an item becomes. -/
def Postfix.atomText (item : Postfix Atom) : String :=
  (item.map Atom.text).text

theorem reorderTexts_map_text {atoms : List Atom} (named : ∀ atom ∈ atoms, atom.Named) :
    reorderTexts (atoms.map Atom.text) =
      (reorder atoms).map fun items => items.map Postfix.atomText := by
  have keeps : ∀ atom ∈ atoms,
      Symbol.role ((Classified.ofText ∘ Atom.text) atom) = Symbol.role atom :=
    fun atom member => Atom.role_text (named atom member)
  have item (item : Postfix Atom) :
      ((item.map (Classified.ofText ∘ Atom.text)).map Classified.text).text = item.atomText := by
    cases item <;> rfl
  rw [reorderTexts, List.map_map, reorder_map_of_mem keeps, relabel]
  cases reorder atoms with
  | error fatal => rfl
  | ok items => simp [Except.map, item]

/-- The texts of atoms whose names have the form of names play the roles of the atoms.  So they are
reordered into the texts of the items of the atoms, and where they are refused the atoms are refused
with the same grammar error. -/
theorem reorderTexts_text {atoms : List Atom}
    (named : ∀ name, .identifier name ∈ atoms → Atom.isIdentifier name = true) :
    (∀ atom ∈ atoms, Symbol.role atom.text = Symbol.role atom) ∧
      reorderTexts (atoms.map Atom.text) =
        (reorder atoms).map (fun items => items.map Postfix.atomText) ∧
      ∀ fatal, (reorderTexts (atoms.map Atom.text) = .error fatal ↔ reorder atoms = .error fatal) ∧
        (reorder atoms = .error fatal → ∃ cause, fatal = .grammar cause) := by
  have each : ∀ atom ∈ atoms, atom.Named := by
    rintro atom member name rfl
    exact named name member
  have same := reorderTexts_map_text each
  refine ⟨fun atom member => Atom.role_text (each atom member), same, ?_⟩
  intro fatal
  refine ⟨?_, grammar_of_reorderWithin⟩
  rw [same]
  cases reorder atoms <;> simp [Except.map]

/-- Quoted texts that look like operators and parentheses, and a negative number, in an expression
that is accepted and in one that is not. -/
theorem reorderTexts_text_quoted :
    reorderTexts ["f", "\"(\"", "(", "-1", "-", "\"+\"", ")", "++", "\";\""] =
        .ok ["\"(\"", "-1", "\"+\"", "-", "f", "\";\"", "++"] ∧
      reorderTexts ["\"(\"", ")"] = .error (.grammar .unmatchedClose) := by
  have accepted : reorder [Atom.identifier "f", .str "(", .opening, .int (-1), .operator .sub,
      .str "+", .closing, .operator .concat, .str ";"] =
      .ok [.operand (.str "("), .operand (.int (-1)), .operand (.str "+"), .operator .sub,
        .apply (.identifier "f") 2, .operand (.str ";"), .operator .concat] := by
    decide +kernel
  have refused : reorder [Atom.str "(", .closing] = .error (.grammar .unmatchedClose) := by
    decide +kernel
  have first := @reorderTexts_text [.identifier "f", .str "(", .opening, .int (-1),
    .operator .sub, .str "+", .closing, .operator .concat, .str ";"] (by simp; decide)
  have second := @reorderTexts_text [.str "(", .closing] (by simp)
  rw [accepted] at first
  exact ⟨first.2.1, (second.2.2 _).1.2 refused⟩

end ShellExpr
