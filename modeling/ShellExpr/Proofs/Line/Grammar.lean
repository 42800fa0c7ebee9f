import ShellExpr.Line.Tokenize

/-!
# The grammar of lines

Which characters form a delimited span, a word and a whole line.  A span nests: between brackets
stand further spans, escaped characters and plain ones, between quotes nothing but escaped
characters and those that are neither a quote nor a backslash.

`Falls` says into which tokens a line falls.
-/

namespace ShellExpr.Line

/-! ### Spans -/

/-- An opening bracket and the one that closes it. -/
inductive Bracket : Char → Char → Prop where
  | round : Bracket '(' ')'
  | square : Bracket '[' ']'
  | curly : Bracket '{' '}'

/-- A character that means nothing but itself inside brackets. -/
def IsPlain (c : Char) : Prop :=
  c ∉ ['\\', '"', '(', ')', '[', ']', '{', '}']

instance : DecidablePred IsPlain := fun c =>
  inferInstanceAs (Decidable (c ∉ ['\\', '"', '(', ')', '[', ']', '{', '}']))

/-- What may stand between two quotes. -/
inductive Quoted : List Char → Prop where
  | nil : Quoted []
  | escaped (c : Char) {rest : List Char} (later : Quoted rest) : Quoted ('\\' :: c :: rest)
  | plain {c : Char} {rest : List Char} (backslash : c ≠ '\\') (quote : c ≠ '"')
      (later : Quoted rest) : Quoted (c :: rest)

/-- What may stand between two brackets. -/
inductive Inside : List Char → Prop where
  | nil : Inside []
  | bracketed {left right : Char} {inner rest : List Char} (pair : Bracket left right)
      (inside : Inside inner) (later : Inside rest) : Inside (left :: inner ++ right :: rest)
  | quoted {inner rest : List Char} (inside : Quoted inner) (later : Inside rest) :
      Inside ('"' :: inner ++ '"' :: rest)
  | escaped (c : Char) {rest : List Char} (later : Inside rest) : Inside ('\\' :: c :: rest)
  | plain {c : Char} {rest : List Char} (itself : IsPlain c) (later : Inside rest) :
      Inside (c :: rest)

/-- A delimited span, both delimiters included. -/
inductive Span : List Char → Prop where
  | bracketed {left right : Char} {inner : List Char} (pair : Bracket left right)
      (inside : Inside inner) : Span (left :: inner ++ [right])
  | quoted {inner : List Char} (inside : Quoted inner) : Span ('"' :: inner ++ ['"'])

/-! ### Words and tokens -/

/-- A character that belongs to a word. -/
def IsOrdinary (c : Char) : Prop :=
  Text.isBlank c = false ∧ c ≠ '#' ∧ IsPlain c

/-- The characters of a word, escaped ones and ordinary ones. -/
inductive WordText : List Char → Prop where
  | nil : WordText []
  | escaped (c : Char) {rest : List Char} (later : WordText rest) : WordText ('\\' :: c :: rest)
  | ordinary {c : Char} {rest : List Char} (itself : IsOrdinary c) (later : WordText rest) :
      WordText (c :: rest)

/-- What may follow a word: nothing, a blank, or the start of a comment or of a span. -/
def EndsWord (behind : List Char) : Prop :=
  ∀ c rest, behind = c :: rest → Text.isBlank c = true ∨ c ∈ ['#', '(', '[', '{', '"']

/-- A token and what stands behind it. -/
inductive IsToken : List Char → List Char → Prop where
  | span {text : List Char} (span : Span text) (behind : List Char) : IsToken text behind
  | comment (text : List Char) : IsToken ('#' :: text) []
  | word {text behind : List Char} (filled : text ≠ []) (word : WordText text)
      (ends : EndsWord behind) : IsToken text behind

/-- The characters of a line, and the tokens that stand among its blanks. -/
inductive Falls : List Char → List Token → Prop where
  | blanks {gap : List Char} (blank : ∀ c ∈ gap, Text.isBlank c = true) : Falls gap []
  | token {gap rest behind : List Char} {first : Char} {tokens : List Token}
      (blank : ∀ c ∈ gap, Text.isBlank c = true) (token : IsToken (first :: rest) behind)
      (later : Falls behind tokens) :
      Falls (gap ++ (first :: rest) ++ behind)
        (⟨kindOf first, String.ofList (first :: rest)⟩ :: tokens)

end ShellExpr.Line
