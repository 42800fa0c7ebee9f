import ShellExpr.Atom
import ShellExpr.Double.Reading
import ShellExpr.FatalError
import ShellExpr.Text.Basic

/-!
# Scanning an expression into atoms

At every position the longest text that is an atom is taken: `1.5e` is the real `1.5` and the name
`e`, `<=>` is one operator.  The readers below split the text of one atom off the front of the
remaining characters; what they split off and what they leave make up what they were given, so
the remaining text gets shorter with every atom.
-/

namespace ShellExpr.Atom

/-- The blanks between atoms. -/
def isSpace (c : Char) : Bool :=
  c == ' ' || c == '\t' || c == '\r' || c == '\n' || c == '\x0c'

/-! ### Numbers -/

/-- A point with digits behind it, if there is one. -/
def spanFraction : List Char → List Char × List Char
  | '.' :: cs =>
    let (digits, rest) := Text.spanDigits cs
    if digits.isEmpty then ([], '.' :: cs) else ('.' :: digits, rest)
  | cs => ([], cs)

/-- A sign, if there is one. -/
def spanSign : List Char → List Char × List Char
  | '+' :: cs => (['+'], cs)
  | '-' :: cs => (['-'], cs)
  | cs => ([], cs)

/-- The letter `e` with an optional sign and digits behind it, if there is one. -/
def spanExponent : List Char → List Char × List Char
  | [] => ([], [])
  | c :: cs =>
    if c == 'e' || c == 'E' then
      let (sign, unsigned) := spanSign cs
      let (digits, rest) := Text.spanDigits unsigned
      if digits.isEmpty then ([], c :: cs) else (c :: sign ++ digits, rest)
    else ([], c :: cs)

theorem spanFraction_append (cs : List Char) : (spanFraction cs).1 ++ (spanFraction cs).2 = cs := by
  unfold spanFraction
  split
  · rename_i cs
    have whole := Text.spanDigits_append cs
    by_cases none_read : (Text.spanDigits cs).1.isEmpty <;> simp_all
  · rfl

theorem spanSign_append (cs : List Char) : (spanSign cs).1 ++ (spanSign cs).2 = cs := by
  unfold spanSign
  split <;> rfl

theorem spanExponent_append (cs : List Char) : (spanExponent cs).1 ++ (spanExponent cs).2 = cs := by
  unfold spanExponent
  split
  · rfl
  · rename_i c cs
    have signed := spanSign_append cs
    have whole := Text.spanDigits_append (spanSign cs).2
    split
    · by_cases none_read : (Text.spanDigits (spanSign cs).2).1.isEmpty
      · simp [none_read]
      · simp [none_read, whole, signed]
    · rfl

/-! ### Texts -/

/-- What follows an opening quote: the characters that belong to the literal, its closing quote
included, and the rest behind them.  A literal that does not close ends in front of a backslash
that escapes nothing or a line break. -/
def spanLiteral : List Char → List Char × Option (List Char)
  | [] => ([], none)
  | '"' :: cs => (['"'], some cs)
  | ['\\'] => ([], none)
  | '\\' :: c :: cs =>
    if c == '\n' then ([], none)
    else
      let (body, rest) := spanLiteral cs
      ('\\' :: c :: body, rest)
  | c :: cs =>
    let (body, rest) := spanLiteral cs
    (c :: body, rest)

/-- The characters that a literal stands for: a backslash makes a control character of `n`, `t`
and `r` and takes every other character as it is. -/
def unescape : List Char → List Char
  | [] => []
  | ['\\'] => []
  | '\\' :: c :: cs =>
    let plain := match c with
      | 'n' => '\n'
      | 't' => '\t'
      | 'r' => '\r'
      | c => c
    plain :: unescape cs
  | c :: cs => c :: unescape cs

theorem spanLiteral_append {cs body rest : List Char} (h : spanLiteral cs = (body, some rest)) :
    body ++ rest = cs := by
  induction cs using spanLiteral.induct generalizing body with
  | case1 => simp [spanLiteral] at h
  | case2 cs =>
    simp only [spanLiteral, Prod.mk.injEq, Option.some.injEq] at h
    simp [← h.1, ← h.2]
  | case3 => simp [spanLiteral] at h
  | case4 c cs newline => simp [spanLiteral, newline] at h
  | case5 c cs newline inner tail read ih =>
    simp only [spanLiteral, newline, read, Bool.false_eq_true, if_false, Prod.mk.injEq] at h
    have whole := ih (read.trans (Prod.ext rfl h.2))
    simp [← h.1, whole]
  | case6 c cs notQuote notAlone notEscape inner tail read ih =>
    rw [spanLiteral] at h
    · simp only [read, Prod.mk.injEq] at h
      have whole := ih (read.trans (Prod.ext rfl h.2))
      simp [← h.1, whole]
    · exact notQuote
    · exact notAlone
    · exact notEscape

/-! ### Names and operators -/

def isNameStart (c : Char) : Bool :=
  c.isAlpha || c == '_'

def isNameRest (c : Char) : Bool :=
  c.isAlphanum || c == '_'

/-- The longest operator at the front. -/
def operatorAt? (cs : List Char) : Option (Operator × List Char × List Char) :=
  [3, 2, 1].findSome? fun n =>
    (Operator.ofSymbol? (String.ofList (cs.take n))).map fun op => (op, cs.take n, cs.drop n)

theorem operatorAt?_append {cs text rest : List Char} {op : Operator}
    (h : operatorAt? cs = some (op, text, rest)) : text ++ rest = cs := by
  obtain ⟨n, _, found⟩ := List.exists_of_findSome?_eq_some h
  obtain ⟨_, _, same⟩ := Option.map_eq_some_iff.1 found
  simp only [Prod.mk.injEq] at same
  rw [← same.2.1, ← same.2.2, List.take_append_drop]

/-! ### One atom -/

/-- An atom at the front of a text, its characters and the characters behind them. -/
structure Lexeme where
  atom : Atom
  text : List Char
  rest : List Char

/-- A number with the first digit `c`. -/
def number? (c : Char) (cs : List Char) : Except (List Char) Lexeme :=
  let (digits, afterDigits) := Text.spanDigits cs
  let (fraction, afterFraction) := spanFraction afterDigits
  let (exponent, rest) := spanExponent afterFraction
  let text := c :: digits ++ fraction ++ exponent
  let atom :=
    if fraction.isEmpty && exponent.isEmpty then (Integer.read? text).map Atom.int
    else ((Double.readDecimal? text).filter Float.isFinite).map Atom.real
  match atom with
  | some atom => .ok ⟨atom, text, rest⟩
  | none => .error text

/-- The atom at the front of a text that starts with `c`, or the characters that are no atom:
a number too large, a literal as far as it goes, or the first character. -/
def lexeme? (c : Char) (cs : List Char) : Except (List Char) Lexeme :=
  if c.isDigit then number? c cs
  else if c == '"' then
    match spanLiteral cs with
    | (body, some rest) =>
      .ok ⟨.str (String.ofList (unescape body.dropLast)), c :: body, rest⟩
    | (body, none) => .error (c :: body)
  else if isNameStart c then
    let name := c :: cs.takeWhile isNameRest
    .ok ⟨.identifier (String.ofList name), name, cs.dropWhile isNameRest⟩
  else if c == '(' then .ok ⟨.opening, [c], cs⟩
  else if c == ')' then .ok ⟨.closing, [c], cs⟩
  else
    match operatorAt? (c :: cs) with
    | some (op, text, rest) => .ok ⟨.operator op, text, rest⟩
    | none => .error [c]

theorem number?_append {c : Char} {cs : List Char} {lexeme : Lexeme}
    (h : number? c cs = .ok lexeme) : lexeme.text ++ lexeme.rest = c :: cs := by
  have digits := Text.spanDigits_append cs
  have fraction := spanFraction_append (Text.spanDigits cs).2
  have exponent := spanExponent_append (spanFraction (Text.spanDigits cs).2).2
  simp only [number?] at h
  split at h
  · cases h
    simp [exponent, fraction, digits]
  · contradiction

theorem lexeme?_append {c : Char} {cs : List Char} {lexeme : Lexeme}
    (h : lexeme? c cs = .ok lexeme) : lexeme.text ++ lexeme.rest = c :: cs := by
  unfold lexeme? at h
  split at h
  · exact number?_append h
  split at h
  · split at h
    · rename_i body rest found
      cases h
      simp [spanLiteral_append found]
    · contradiction
  split at h
  · cases h
    simp [List.takeWhile_append_dropWhile]
  split at h
  · cases h
    rfl
  split at h
  · cases h
    rfl
  split at h
  · rename_i op text rest found
    cases h
    exact operatorAt?_append found
  · contradiction

theorem lexeme?_text_ne_nil {c : Char} {cs : List Char} {lexeme : Lexeme}
    (h : lexeme? c cs = .ok lexeme) : lexeme.text ≠ [] := by
  unfold lexeme? at h
  split at h
  · simp only [number?] at h
    split at h <;> cases h
    simp
  split at h
  · split at h <;> cases h
    simp
  split at h
  · cases h
    simp
  split at h
  · cases h
    simp
  split at h
  · cases h
    simp
  split at h
  · rename_i op text rest found
    cases h
    intro empty
    simp only at empty
    obtain ⟨n, _, at_n⟩ := List.exists_of_findSome?_eq_some found
    obtain ⟨_, symbol, same⟩ := Option.map_eq_some_iff.1 at_n
    simp only [Prod.mk.injEq] at same
    have nothing : Operator.ofSymbol? (String.ofList []) = none := by decide
    rw [same.2.1, empty, nothing] at symbol
    contradiction
  · contradiction

theorem lexeme?_rest_length {c : Char} {cs : List Char} {lexeme : Lexeme}
    (h : lexeme? c cs = .ok lexeme) : lexeme.rest.length ≤ cs.length := by
  have whole := congrArg List.length (lexeme?_append h)
  have some_text := List.length_pos_iff.2 (lexeme?_text_ne_nil h)
  simp only [List.length_append, List.length_cons] at whole
  omega

/-! ### All atoms -/

/-- The atoms of a text whose first character stands in `column`. -/
def scanFrom (column : Nat) : List Char → Except FatalError (List Atom)
  | [] => .ok []
  | c :: cs =>
    if isSpace c then scanFrom (column + c.utf8Size) cs
    else
      match found : lexeme? c cs with
      | .error text => .error (.grammar (.unexpected (String.ofList text) column))
      | .ok lexeme =>
        have := lexeme?_rest_length found
        match scanFrom (column + Text.byteLength lexeme.text) lexeme.rest with
        | .ok atoms => .ok (lexeme.atom :: atoms)
        | .error fatal => .error fatal
termination_by cs => cs.length

theorem scanFrom_nil (column : Nat) : scanFrom column [] = .ok [] := by
  rw [scanFrom]

theorem scanFrom_cons (column : Nat) (c : Char) (cs : List Char) :
    scanFrom column (c :: cs) =
      if isSpace c then scanFrom (column + c.utf8Size) cs
      else
        match lexeme? c cs with
        | .error text => .error (.grammar (.unexpected (String.ofList text) column))
        | .ok lexeme =>
          match scanFrom (column + Text.byteLength lexeme.text) lexeme.rest with
          | .ok atoms => .ok (lexeme.atom :: atoms)
          | .error fatal => .error fatal := by
  rw [scanFrom]
  split
  · rfl
  · split <;> rename_i found <;> simp only [found]

/-- The atoms of an expression. -/
def scan (source : String) : Except FatalError (List Atom) :=
  scanFrom 1 source.toList

end ShellExpr.Atom
