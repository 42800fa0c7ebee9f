import ShellExpr.Postfix
import ShellExpr.Proofs.Atom.Longest
import ShellExpr.Proofs.Line.Grammar

/-!
# The texts of atoms

What the text of an atom is to the grammar of lines.  A literal is a quoted span, a parenthesis is
itself, and every other atom is made of plain characters.
-/

namespace ShellExpr.Atom

open Line

/-- A class without the backslash, the quote and the brackets is made of plain characters. -/
theorem isPlain_of_class {p : Char → Bool}
    (without : ['\\', '"', '(', ')', '[', ']', '{', '}'].any p = false) {c : Char}
    (h : p c = true) : IsPlain c := by
  intro member
  exact List.any_eq_false.1 without c member h

/-! ### Numbers -/

theorem isPlain_digit {c : Char} (h : c.isDigit = true) : IsPlain c :=
  isPlain_of_class (by decide) h

theorem Digits.isPlain {cs : List Char} (h : Digits cs) : ∀ c ∈ cs, IsPlain c :=
  fun c member => isPlain_digit (h.each c member)

theorem Exponent.isPlain {cs : List Char} (h : Exponent cs) : ∀ c ∈ cs, IsPlain c := by
  cases h with
  | @mk mark sign digits marked signed ends =>
    have plain_mark : IsPlain mark := by
      rcases marked with rfl | rfl <;> decide
    have plain_sign : ∀ c ∈ sign, IsPlain c := by
      rcases signed with rfl | rfl | rfl
      · exact List.forall_mem_nil _
      · exact List.forall_mem_singleton.2 (by decide)
      · exact List.forall_mem_singleton.2 (by decide)
    exact List.forall_mem_cons.2
      ⟨plain_mark, List.forall_mem_append.2 ⟨plain_sign, ends.isPlain⟩⟩

theorem RealText.isPlain {cs : List Char} (h : RealText cs) : ∀ c ∈ cs, IsPlain c := by
  cases h with
  | @point whole fraction exponent before behind scaled =>
    have plain_point : IsPlain '.' := by decide
    have plain_exponent : ∀ c ∈ exponent, IsPlain c := by
      rcases scaled with rfl | scaled
      · exact List.forall_mem_nil _
      · exact scaled.isPlain
    exact List.forall_mem_append.2 ⟨before.isPlain, List.forall_mem_cons.2
      ⟨plain_point, List.forall_mem_append.2 ⟨behind.isPlain, plain_exponent⟩⟩⟩
  | scaled before scaled => exact List.forall_mem_append.2 ⟨before.isPlain, scaled.isPlain⟩

/-! ### Literals, names and operators -/

theorem LiteralBody.quoted {inside meant : List Char} (h : LiteralBody inside meant) :
    Quoted inside := by
  induction h with
  | nil => exact .nil
  | @escaped c _ _ _ _ ih => exact .escaped c ih
  | plain backslash quote _ ih => exact .plain backslash quote ih

theorem isPlain_symbol (op : Operator) : ∀ c ∈ op.symbol.toList, IsPlain c := by
  have all : op.symbol.toList.all (fun c => decide (IsPlain c)) = true := by
    cases op <;> decide
  intro c member
  exact of_decide_eq_true (List.all_eq_true.1 all c member)

/-! ### Every atom -/

/-- The kinds of atoms by their texts. -/
inductive Spelled : Lexeme → Prop where
  | opening (rest : List Char) : Spelled ⟨.opening, ['('], rest⟩
  | closing (rest : List Char) : Spelled ⟨.closing, [')'], rest⟩
  | literal (text : String) {inside : List Char} (quoted : Quoted inside) (rest : List Char) :
      Spelled ⟨.str text, '"' :: inside ++ ['"'], rest⟩
  | plain {lexeme : Lexeme} (plain : ∀ c ∈ lexeme.text, IsPlain c)
      (other : Symbol.role lexeme.atom ≠ .opening ∧ Symbol.role lexeme.atom ≠ .closing) :
      Spelled lexeme

theorem spelled_of_lexeme? {c : Char} {cs : List Char} {lexeme : Lexeme}
    (h : lexeme? c cs = .ok lexeme) : Spelled lexeme := by
  have spells := spells_of_lexeme? h
  obtain ⟨atom, text, rest⟩ := lexeme
  cases spells with
  | real real => exact .plain real.isPlain ⟨by simp [Symbol.role], by simp [Symbol.role]⟩
  | integer digits => exact .plain digits.isPlain ⟨by simp [Symbol.role], by simp [Symbol.role]⟩
  | literal body => exact .literal _ body.quoted rest
  | name start others =>
    have plain := List.forall_mem_cons.2 ⟨isPlain_of_class (by decide) start,
      fun x member => isPlain_of_class (by decide) (others x member)⟩
    exact .plain plain ⟨by simp [Symbol.role], by simp [Symbol.role]⟩
  | operator op =>
    exact .plain (isPlain_symbol op) ⟨by simp [Symbol.role], by simp [Symbol.role]⟩
  | opening => exact .opening rest
  | closing => exact .closing rest

/-! ### Texts without atoms -/

theorem scanFrom_error {column : Nat} {cs : List Char} {fatal : FatalError}
    (h : scanFrom column cs = .error fatal) :
    ∃ text column, fatal = .grammar (.unexpected text column) := by
  have ended := ended_scanFrom column cs
  rw [h] at ended
  cases ended with
  | stuck text => exact ⟨text, _, rfl⟩

end ShellExpr.Atom
