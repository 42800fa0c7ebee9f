import ShellExpr.Atom.Scan

/-!
# Where atoms end

Atoms are as long as they can be, so what is scanned in front of some text may depend on how the
text goes on.  It does not where the text starts with a character that belongs to no number, name
or operator: a text that scans by itself then scans to the same atoms in front of it.
-/

namespace ShellExpr.Atom

/-- A character that no number, name or operator goes on with. -/
structure EndsAtoms (c : Char) : Prop where
  name : isNameRest c = false
  point : c ≠ '.'
  symbol : ∀ op : Operator, c ∉ op.symbol.toList

theorem endsAtoms_closing : EndsAtoms ')' where
  name := by decide
  point := by decide
  symbol op := by cases op <;> decide

theorem endsAtoms_of_isSpace {c : Char} (h : isSpace c = true) : EndsAtoms c := by
  simp only [isSpace, Bool.or_eq_true, beq_iff_eq] at h
  have name : isNameRest c = false := by
    rcases h with (((rfl | rfl) | rfl) | rfl) | rfl <;> decide
  have point : c ≠ '.' := by
    rcases h with (((rfl | rfl) | rfl) | rfl) | rfl <;> decide
  have symbol (op : Operator) : c ∉ op.symbol.toList := by
    rcases h with (((rfl | rfl) | rfl) | rfl) | rfl <;> cases op <;> decide
  exact ⟨name, point, symbol⟩

/-! ### Readers that find nothing -/

theorem takeWhile_before {p : Char → Bool} {x : Char} (stops : p x = false) (cs later : List Char) :
    (cs ++ x :: later).takeWhile p = cs.takeWhile p := by
  induction cs with
  | nil => exact List.takeWhile_cons_of_neg (by simp [stops])
  | cons c cs ih =>
    rw [List.cons_append, List.takeWhile_cons, List.takeWhile_cons, ih]

theorem dropWhile_before {p : Char → Bool} {x : Char} (stops : p x = false) (cs later : List Char) :
    (cs ++ x :: later).dropWhile p = cs.dropWhile p ++ x :: later := by
  induction cs with
  | nil => exact List.dropWhile_cons_of_neg (by simp [stops])
  | cons c cs ih =>
    rw [List.cons_append, List.dropWhile_cons, List.dropWhile_cons, ih]
    split <;> rfl

theorem spanFraction_other {c : Char} (h : c ≠ '.') (cs : List Char) :
    spanFraction (c :: cs) = ([], c :: cs) := by
  rw [spanFraction]
  exact fun _ same => h (List.cons.inj same).1

theorem spanSign_other {c : Char} (plus : c ≠ '+') (minus : c ≠ '-') (cs : List Char) :
    spanSign (c :: cs) = ([], c :: cs) := by
  rw [spanSign]
  · exact fun _ same => plus (List.cons.inj same).1
  · exact fun _ same => minus (List.cons.inj same).1

section

variable {x : Char} (ends : EndsAtoms x) (later : List Char)

include ends

/-! ### Numbers -/

theorem EndsAtoms.not_isDigit : x.isDigit = false := by
  have rest := ends.name
  simp only [isNameRest, Char.isAlphanum, Bool.or_eq_false_iff] at rest
  exact rest.1.2

theorem spanDigits_before (cs : List Char) :
    Text.spanDigits (cs ++ x :: later) =
      ((Text.spanDigits cs).1, (Text.spanDigits cs).2 ++ x :: later) := by
  have stops := ends.not_isDigit
  exact Prod.ext (takeWhile_before stops cs later) (dropWhile_before stops cs later)

theorem spanFraction_before (cs : List Char) :
    spanFraction (cs ++ x :: later) =
      ((spanFraction cs).1, (spanFraction cs).2 ++ x :: later) := by
  cases cs with
  | nil => exact spanFraction_other ends.point later
  | cons c cs =>
    by_cases point : c = '.'
    · subst point
      simp only [List.cons_append, spanFraction, spanDigits_before ends later cs]
      split <;> rfl
    · rw [List.cons_append, spanFraction_other point, spanFraction_other point]
      rfl

theorem spanSign_before (cs : List Char) :
    spanSign (cs ++ x :: later) = ((spanSign cs).1, (spanSign cs).2 ++ x :: later) := by
  cases cs with
  | nil =>
    refine spanSign_other ?_ ?_ later
    · rintro rfl
      exact absurd (ends.symbol .add) (by decide)
    · rintro rfl
      exact absurd (ends.symbol .sub) (by decide)
  | cons c cs =>
    by_cases plus : c = '+'
    · subst plus
      rfl
    by_cases minus : c = '-'
    · subst minus
      rfl
    rw [List.cons_append, spanSign_other plus minus, spanSign_other plus minus]
    rfl

theorem spanExponent_before (cs : List Char) :
    spanExponent (cs ++ x :: later) =
      ((spanExponent cs).1, (spanExponent cs).2 ++ x :: later) := by
  cases cs with
  | nil =>
    have no_mark : (x == 'e' || x == 'E') = false := by
      rw [Bool.or_eq_false_iff, beq_eq_false_iff_ne, beq_eq_false_iff_ne]
      constructor
      · rintro rfl
        exact absurd ends.name (by decide)
      · rintro rfl
        exact absurd ends.name (by decide)
    show spanExponent (x :: later) = ([], x :: later)
    rw [spanExponent, no_mark]
    rfl
  | cons c cs =>
    simp only [List.cons_append, spanExponent, spanSign_before ends later cs,
      spanDigits_before ends later]
    split
    · split <;> rfl
    · rfl

theorem number?_before {c : Char} {cs : List Char} {lexeme : Lexeme}
    (h : number? c cs = .ok lexeme) :
    number? c (cs ++ x :: later) = .ok { lexeme with rest := lexeme.rest ++ x :: later } := by
  simp only [number?, spanDigits_before ends later, spanFraction_before ends later,
    spanExponent_before ends later] at h ⊢
  split at h
  · rename_i atom found
    cases h
    rfl
  · contradiction

end

/-! ### Texts -/

theorem spanLiteral_plain {c : Char} (h : ¬(c = '\\' ∨ c = '"')) (cs : List Char) :
    spanLiteral (c :: cs) = (c :: (spanLiteral cs).1, (spanLiteral cs).2) := by
  rw [spanLiteral]
  · exact fun same => h (.inr same)
  · exact fun same _ => h (.inl same)
  · exact fun _ _ same _ => h (.inl same)

/-- What the reader of literals knows of a character that stands for itself. -/
theorem not_special {c : Char} {cs : List Char} (not_quote : c = '"' → False)
    (not_alone : c = '\\' → cs = [] → False)
    (not_escape : ∀ next others, c = '\\' → cs = next :: others → False) :
    ¬(c = '\\' ∨ c = '"') := by
  rintro (same | same)
  · cases cs with
    | nil => exact not_alone same rfl
    | cons next others => exact not_escape next others same rfl
  · exact not_quote same

/-- A literal ends with its closing quote, whatever follows. -/
theorem spanLiteral_before {cs body rest : List Char} (h : spanLiteral cs = (body, some rest))
    (later : List Char) : spanLiteral (cs ++ later) = (body, some (rest ++ later)) := by
  induction cs using spanLiteral.induct generalizing body with
  | case1 =>
    rw [spanLiteral] at h
    cases h
  | case2 cs =>
    rw [spanLiteral] at h
    cases h
    rw [List.cons_append, spanLiteral]
  | case3 =>
    rw [spanLiteral] at h
    cases h
  | case4 c cs newline =>
    rw [spanLiteral, if_pos newline] at h
    cases h
  | case5 c cs newline inner tail read ih =>
    rw [spanLiteral, if_neg newline, read] at h
    cases h
    rw [List.cons_append, List.cons_append, spanLiteral, if_neg newline, ih read]
  | case6 c cs not_quote not_alone not_escape inner tail read ih =>
    have plain := not_special not_quote not_alone not_escape
    rw [spanLiteral_plain plain, read] at h
    cases h
    rw [List.cons_append, spanLiteral_plain plain, ih read]

/-! ### The longest operator -/

theorem ofSymbol?_eq_some_iff {text : List Char} {op : Operator} :
    Operator.ofSymbol? (String.ofList text) = some op ↔ text = op.symbol.toList := by
  constructor
  · intro found
    rw [Operator.symbol_of_ofSymbol? found, String.toList_ofList]
  · rintro rfl
    rw [String.ofList_toList, Operator.ofSymbol?_symbol]

theorem length_symbol (op : Operator) : op.symbol.toList.length ∈ [3, 2, 1] := by
  cases op <;> decide

/-- What is found is an operator at the front, and every other one there is no longer. -/
theorem longest_of_operatorAt? {cs text rest : List Char} {op : Operator}
    (h : operatorAt? cs = some (op, text, rest)) :
    text = op.symbol.toList ∧ cs = text ++ rest ∧
      ∀ other : Operator, other.symbol.toList <+: cs →
        other.symbol.toList.length ≤ text.length := by
  obtain ⟨longer, n, shorter, sizes, found, missed⟩ := List.findSome?_eq_some_iff.1 h
  obtain ⟨_, symbol, same⟩ := Option.map_eq_some_iff.1 found
  cases same
  refine ⟨ofSymbol?_eq_some_iff.1 symbol, (List.take_append_drop n cs).symm, ?_⟩
  intro other front
  have taken := List.prefix_iff_eq_take.1 front
  have long := front.length_le
  have among := length_symbol other
  have descending : List.Pairwise (· > ·) [3, 2, 1] := by decide
  rw [sizes] at among descending
  have no_longer : other.symbol.toList.length ≤ n := by
    rcases List.mem_append.1 among with before | behind
    · have nothing := missed _ before
      rw [Option.map_eq_none_iff, ofSymbol?_eq_some_iff.2 taken.symm] at nothing
      contradiction
    · rcases List.mem_cons.1 behind with same | below
      · exact Nat.le_of_eq same
      · have ordered := (List.pairwise_append.1 descending).2.1
        exact Nat.le_of_lt (List.rel_of_pairwise_cons ordered below)
  rw [List.length_take]
  exact Nat.le_min.2 ⟨no_longer, long⟩

theorem operatorAt?_ne_none {op : Operator} {cs : List Char} (front : op.symbol.toList <+: cs) :
    operatorAt? cs ≠ none := by
  intro missed
  have nothing := List.findSome?_eq_none_iff.1 missed _ (length_symbol op)
  rw [Option.map_eq_none_iff, ← List.prefix_iff_eq_take.1 front,
    ofSymbol?_eq_some_iff.2 rfl] at nothing
  contradiction

/-- The operator at the front that is longer than every other one there is found. -/
theorem operatorAt?_of_longest (op : Operator) (rest : List Char)
    (longest : ∀ other : Operator, other.symbol.toList <+: op.symbol.toList ++ rest →
      other.symbol.toList.length ≤ op.symbol.toList.length) :
    operatorAt? (op.symbol.toList ++ rest) = some (op, op.symbol.toList, rest) := by
  cases found : operatorAt? (op.symbol.toList ++ rest) with
  | none => exact absurd found (operatorAt?_ne_none (List.prefix_append _ rest))
  | some reading =>
    obtain ⟨other, text, behind⟩ := reading
    obtain ⟨rfl, whole, above⟩ := longest_of_operatorAt? found
    have length : op.symbol.toList.length = other.symbol.toList.length :=
      Nat.le_antisymm (above op (List.prefix_append _ _))
        (longest other (whole ▸ List.prefix_append _ _))
    obtain ⟨symbol, rfl⟩ := List.append_inj whole length
    rw [Operator.symbol_injective (String.toList_injective symbol)]

section

variable {x : Char} (ends : EndsAtoms x) (later : List Char)

include ends

theorem operatorAt?_before {cs text rest : List Char} {op : Operator}
    (h : operatorAt? cs = some (op, text, rest)) :
    operatorAt? (cs ++ x :: later) = some (op, text, rest ++ x :: later) := by
  obtain ⟨rfl, rfl, longest⟩ := longest_of_operatorAt? h
  rw [List.append_assoc]
  refine operatorAt?_of_longest op _ fun other front => longest other ?_
  rw [← List.append_assoc] at front
  rcases List.prefix_or_prefix_of_prefix front (List.prefix_append _ _) with
    within | ⟨beyond, reaches⟩
  · exact within
  · rw [← reaches, List.prefix_append_right_inj] at front
    cases beyond with
    | nil =>
      rw [List.append_nil] at reaches
      exact reaches ▸ List.prefix_rfl
    | cons c beyond =>
      -- An operator that reaches beyond the text would have `x` in it.
      obtain ⟨rfl, _⟩ := List.cons_prefix_cons.1 front
      refine absurd ?_ (ends.symbol other)
      rw [← reaches]
      exact List.mem_append_right _ List.mem_cons_self

/-! ### One atom -/

theorem lexeme?_before {c : Char} {cs : List Char} {lexeme : Lexeme}
    (h : lexeme? c cs = .ok lexeme) :
    lexeme? c (cs ++ x :: later) = .ok { lexeme with rest := lexeme.rest ++ x :: later } := by
  unfold lexeme? at h ⊢
  split at h
  · rename_i digit
    rw [if_pos digit]
    exact number?_before ends later h
  rename_i digit
  rw [if_neg digit]
  split at h
  · rename_i quote
    rw [if_pos quote]
    split at h
    · rename_i body rest closes
      cases h
      rw [spanLiteral_before closes]
    · contradiction
  rename_i quote
  rw [if_neg quote]
  split at h
  · rename_i start
    cases h
    rw [if_pos start, takeWhile_before ends.name, dropWhile_before ends.name]
  rename_i start
  rw [if_neg start]
  split at h
  · rename_i opening
    cases h
    rw [if_pos opening]
  rename_i opening
  rw [if_neg opening]
  split at h
  · rename_i closing
    cases h
    rw [if_pos closing]
  rename_i closing
  rw [if_neg closing]
  split at h
  · rename_i op text rest found
    cases h
    rw [← List.cons_append, operatorAt?_before ends later found]
  · contradiction

end

end ShellExpr.Atom
