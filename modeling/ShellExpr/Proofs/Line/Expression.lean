import ShellExpr.Proofs.Atom.Lexemes
import ShellExpr.Proofs.Line.Tokens
import ShellExpr.Proofs.Parentheses

/-!
# The expressions of a line

The reader of lines finds the end of an expression by its own rules for texts, escapes and brackets,
and the scanner of expressions then reads the same characters by others.  Where both succeed they
agree: the parentheses that the reader still has due are those the scanned atoms still have to
close.
-/

namespace ShellExpr.Line

/-! ### What stays due behind an atom -/

theorem Split.after_eq_all {split : Split} {read text : List Char}
    (h : split.after read = .ok (read ++ text, [])) : split = .ok (text, []) := by
  obtain ⟨inner, found, same⟩ := Split.after_eq_ok h
  rw [found, List.append_cancel_left same]

/-- That many closing parentheses are due. -/
def rounds (depth : Nat) : List Char :=
  List.replicate depth ')'

theorem areClosers_rounds (depth : Nat) : AreClosers (rounds depth) := by
  intro close member
  rw [List.eq_of_mem_replicate member]
  exact .inl rfl

/-- The reader takes all of a text that closes what is due. -/
theorem spanDelimited_rounds {depth : Nat} {text : List Char} (h : Closes (rounds depth) text) :
    spanDelimited 0 (rounds depth) text = .ok (text, []) :=
  (spanDelimited_eq_ok_iff (areClosers_rounds depth) 0).2 ⟨(List.append_nil text).symm, h⟩

theorem Closes.plain {c : Char} (plain : IsPlain c) {depth : Nat} {text : List Char}
    (h : Closes (rounds (depth + 1)) (c :: text)) : Closes (rounds (depth + 1)) text := by
  have read := spanDelimited_rounds h
  rw [rounds, List.replicate_succ, spanDelimited_plain plain (by decide)] at read
  exact closes_of_spanDelimited (Split.after_eq_all read)

theorem Closes.opening {depth : Nat} {text : List Char}
    (h : Closes (rounds (depth + 1)) ('(' :: text)) : Closes (rounds (depth + 2)) text := by
  have read := spanDelimited_rounds h
  rw [rounds, List.replicate_succ, spanDelimited_opening rfl (by decide)] at read
  exact closes_of_spanDelimited (Split.after_eq_all read)

theorem Closes.closing {depth : Nat} {text : List Char}
    (h : Closes (rounds (depth + 1)) (')' :: text)) : Closes (rounds depth) text := by
  have read := spanDelimited_rounds h
  rw [rounds, List.replicate_succ, spanDelimited_closing rfl] at read
  exact closes_of_spanDelimited (Split.after_eq_all read)

theorem Closes.plains {read : List Char} (plain : ∀ c ∈ read, IsPlain c) {depth : Nat}
    {text : List Char} (h : Closes (rounds (depth + 1)) (read ++ text)) :
    Closes (rounds (depth + 1)) text := by
  induction read with
  | nil => exact h
  | cons c read ih =>
    exact ih (fun later member => plain later (List.mem_cons_of_mem c member))
      (Closes.plain (plain c List.mem_cons_self) h)

theorem Closes.literal {inside : List Char} (quoted : Quoted inside) {depth : Nat}
    {text : List Char} (h : Closes (rounds (depth + 1)) ('"' :: inside ++ ['"'] ++ text)) :
    Closes (rounds (depth + 1)) text := by
  have read := spanDelimited_rounds h
  rw [List.append_assoc, List.cons_append, rounds, List.replicate_succ,
    spanDelimited_opening rfl (by decide)] at read
  have within := Split.after_eq_all read
  obtain ⟨next, passed⟩ := spanDelimited_quoted quoted (0 + '"'.utf8Size) (rounds (depth + 1))
    (['"'] ++ text)
  rw [rounds, List.replicate_succ] at passed
  rw [passed] at within
  have behind := Split.after_eq_all within
  rw [List.singleton_append, spanDelimited_quote] at behind
  exact closes_of_spanDelimited (Split.after_eq_all behind)

/-! ### The scanner agrees with the reader -/

/-- An atom changes the depth of the atoms as its text changes what is due, unless it is the closing
parenthesis behind which nothing is due any more and the text ends. -/
theorem depthAfter_of_spelled {depth : Nat} {lexeme : Atom.Lexeme} (spelled : Atom.Spelled lexeme)
    (closes : Closes (rounds (depth + 1)) (lexeme.text ++ lexeme.rest)) :
    (depth = 0 ∧ lexeme.atom = .closing ∧ lexeme.rest = []) ∨
      ∃ next, Closes (rounds (next + 1)) lexeme.rest ∧
        ∀ later, depthAfter depth (lexeme.atom :: later) = depthAfter next later := by
  cases spelled with
  | opening rest => exact .inr ⟨depth + 1, closes.opening, depthAfter_opening rfl depth⟩
  | closing rest =>
    have behind : Closes (rounds depth) rest := closes.closing
    cases depth with
    | zero => exact .inl ⟨rfl, rfl, behind⟩
    | succ depth => exact .inr ⟨depth, behind, depthAfter_closing rfl depth⟩
  | literal text quoted rest =>
    have other : Symbol.role (Atom.str text) ≠ .opening ∧ Symbol.role (Atom.str text) ≠ .closing :=
      ⟨by simp [Symbol.role], by simp [Symbol.role]⟩
    exact .inr ⟨depth, closes.literal quoted, depthAfter_other other depth⟩
  | plain plain other => exact .inr ⟨depth, closes.plains plain, depthAfter_other other depth⟩

/-- A text that closes one parenthesis more than `depth` scans into atoms that close as many, the
last of them at the end. -/
theorem depthAfter_of_scanFrom {depth column : Nat} {text : List Char} {atoms : List Atom}
    (closes : Closes (rounds (depth + 1)) text) (scanned : Atom.scanFrom column text = .ok atoms) :
    ∃ inner, atoms = inner ++ [.closing] ∧ depthAfter depth inner = some 0 := by
  fun_induction Atom.scanFrom column text generalizing depth atoms with
  | case1 =>
    obtain ⟨inside, later, same, _⟩ := closes
    exact absurd same.symm (by simp)
  | case2 column c cs space ih =>
    have plain : IsPlain c := Atom.isPlain_of_class (by decide) space
    exact ih (closes.plain plain) scanned
  | case3 => contradiction
  | case4 column c cs visible lexeme found _ more later ih =>
    cases scanned
    rw [← Atom.lexeme?_append found] at closes
    rcases depthAfter_of_spelled (Atom.spelled_of_lexeme? found) closes with
      ⟨rfl, closing, none_left⟩ | ⟨next, behind, depths⟩
    · rw [none_left, Atom.scanFrom_nil] at later
      cases later
      rw [closing]
      exact ⟨[], rfl, rfl⟩
    · obtain ⟨inner, rfl, deep⟩ := ih behind later
      refine ⟨lexeme.atom :: inner, rfl, ?_⟩
      rw [depths]
      exact deep
  | case5 => contradiction

/-! ### The atoms of an expression token -/

/-- Atoms that one pair of parentheses holds together: the first opens the group that the last
closes, and between them the depth stays positive. -/
structure Enclosed (atoms : List Atom) : Prop where
  opens : atoms.head? = some .opening
  closes : atoms.getLast? = some .closing
  paired : Reordering.splitGroup atoms.tail = some (atoms.tail.dropLast, [])
  balanced : Balanced atoms
  positive : ∀ front back, atoms = front ++ back → front ≠ [] → back ≠ [] →
    ∃ depth, depthAfter 0 front = some (depth + 1)

theorem enclosed_of_balanced {inner : List Atom} (h : Balanced inner) :
    Enclosed (.opening :: inner ++ [.closing]) where
  opens := rfl
  closes := List.getLast?_concat
  paired := by
    rw [List.cons_append, List.tail_cons, List.dropLast_concat]
    exact Reordering.splitGroup_eq_some_iff.2 ⟨h, .closing, rfl, rfl⟩
  balanced := h.group rfl rfl
  positive := by
    intro front back whole some_front some_back
    cases front with
    | nil => contradiction
    | cons first front =>
      rw [List.cons_append, List.cons_append, List.cons.injEq] at whole
      obtain ⟨rfl, whole⟩ := whole
      obtain ⟨rest, rfl⟩ : ∃ rest, inner = front ++ rest := by
        rcases List.eq_nil_or_concat back with none_back | ⟨rest, last, rfl⟩
        · contradiction
        · rw [List.concat_eq_append, ← List.append_assoc] at whole
          exact ⟨rest, (List.append_inj' whole rfl).1⟩
      -- The depth in front of `rest` is some depth because `rest` goes on to zero from there.
      have reaches : depthAfter 0 (front ++ rest) = some 0 := h
      rw [depthAfter_append] at reaches
      cases at_front : depthAfter 0 front with
      | none =>
        rw [at_front] at reaches
        contradiction
      | some depth =>
        refine ⟨depth, ?_⟩
        rw [depthAfter_opening rfl]
        exact depthAfter_add at_front 1

theorem closes_of_expression {cs : List Char} {tokens : List Token} (h : Falls cs tokens)
    {token : Token} (member : token ∈ tokens) (expression : token.kind = .expression) :
    ∃ inner, token.text = String.ofList ('(' :: inner) ∧ Closes (rounds 1) inner := by
  induction h with
  | blanks => contradiction
  | @token _ rest behind first _ _ token _ ih =>
    rcases List.mem_cons.1 member with rfl | later
    · have round : first = '(' := by
        unfold kindOf at expression
        grind
      subst round
      refine ⟨rest, rfl, ?_⟩
      cases token with
      | span span =>
        obtain ⟨c, close, inner, same, opens, closes⟩ := closes_of_span span
        cases same
        cases opens
        exact closes
      | word _ word _ =>
        have no_closer := (wordText_cons word).2.2
        contradiction
    · exact ih later

/-- The atoms of an expression token are held together by its parentheses. -/
theorem enclosed_of_tokenize {line : String} {tokens : List Token}
    (h : tokenize line = .ok tokens) {token : Token} (member : token ∈ tokens)
    (expression : token.kind = .expression) {atoms : List Atom}
    (scanned : Atom.scan token.text = .ok atoms) : Enclosed atoms := by
  rcases hasTokens_of_tokenize h with ⟨_, rfl⟩ | ⟨_, falls⟩
  · rw [List.mem_singleton.1 member] at expression
    contradiction
  · obtain ⟨inner, text, closes⟩ := closes_of_expression falls member expression
    rw [text, Atom.scan, String.toList_ofList, Atom.scanFrom_cons] at scanned
    have opens : Atom.lexeme? '(' inner = .ok ⟨.opening, ['('], inner⟩ := rfl
    rw [if_neg (by decide), opens] at scanned
    simp only at scanned
    split at scanned
    · rename_i more later
      cases scanned
      obtain ⟨inside, rfl, deep⟩ := depthAfter_of_scanFrom closes later
      exact enclosed_of_balanced deep
    · contradiction

end ShellExpr.Line
