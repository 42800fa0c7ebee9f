import ShellExpr.Line.Token
import ShellExpr.Text.Basic

/-!
# The tokens of a line

Blanks part tokens and belong to none, and a token ends where the next one has to start.  A line
of blanks is a single empty token.  `Tokens` reads one token at a time, `tokenize` all of them.
-/

namespace ShellExpr

namespace Line

/-- A place in a line: the column of the next character and the characters from there on. -/
structure Cursor where
  column : Nat
  rest : List Char

def Cursor.start (line : String) : Cursor :=
  ⟨1, line.toList⟩

/-- The place behind `text`. -/
def Cursor.move (cursor : Cursor) (text rest : List Char) : Cursor :=
  ⟨cursor.column + Text.byteLength text, rest⟩

/-- The place of the next character that is not blank. -/
def Cursor.skipBlanks (cursor : Cursor) : Cursor :=
  cursor.move (cursor.rest.takeWhile Text.isBlank) (cursor.rest.dropWhile Text.isBlank)

/-- The next token and the place behind it, or nothing at the end of the line. -/
def Cursor.token? (cursor : Cursor) : Except FatalError (Option (Token × Cursor)) :=
  match cursor.skipBlanks with
  | ⟨_, []⟩ => .ok none
  | ⟨column, c :: cs⟩ =>
    match spanToken column c cs with
    | .ok (text, rest) =>
      .ok (some (⟨kindOf c, String.ofList text⟩, Cursor.move ⟨column, c :: cs⟩ text rest))
    | .error cause => .error (.grammar cause)

theorem Cursor.token?_rest_length {cursor next : Cursor} {token : Token}
    (h : cursor.token? = .ok (some (token, next))) : next.rest.length < cursor.rest.length := by
  have dropped : cursor.skipBlanks.rest = cursor.rest.dropWhile Text.isBlank := rfl
  unfold Cursor.token? at h
  split at h
  · cases h
  · rename_i column c cs place
    split at h
    · rename_i text rest found
      cases h
      rw [place] at dropped
      have filled : Text.isBlank c = false := by
        have head := List.head?_dropWhile_not Text.isBlank cursor.rest
        simpa [← dropped] using head
      have whole := congrArg List.length (spanToken_append found)
      have some_text := List.length_pos_iff.2 (spanToken_text_ne_nil filled found)
      have shorter := (List.dropWhile_suffix (l := cursor.rest) Text.isBlank).length_le
      rw [← dropped] at shorter
      simp only [List.length_append, List.length_cons] at whole shorter
      show rest.length < cursor.rest.length
      omega
    · contradiction

/-- All tokens from a place on. -/
def tokensFrom (cursor : Cursor) : Except FatalError (List Token) :=
  match found : cursor.token? with
  | .error fatal => .error fatal
  | .ok none => .ok []
  | .ok (some (token, next)) =>
    have := Cursor.token?_rest_length found
    match tokensFrom next with
    | .ok tokens => .ok (token :: tokens)
    | .error fatal => .error fatal
termination_by cursor.rest.length

theorem tokensFrom_eq (cursor : Cursor) :
    tokensFrom cursor =
      match cursor.token? with
      | .error fatal => .error fatal
      | .ok none => .ok []
      | .ok (some (token, next)) =>
        match tokensFrom next with
        | .ok tokens => .ok (token :: tokens)
        | .error fatal => .error fatal := by
  rw [tokensFrom]
  split <;> rename_i found <;> simp only [found]

/-- Whether a line holds nothing but blanks. -/
def isBlankLine (line : String) : Bool :=
  line.toList.all Text.isBlank

end Line

/-- The tokens of a line. -/
def tokenize (line : String) : Except FatalError (List Token) :=
  if Line.isBlankLine line then .ok [⟨.empty, line⟩] else Line.tokensFrom (Line.Cursor.start line)

/-! ### One token at a time -/

/-- A line that is read token by token. -/
inductive Tokens where
  | fresh (line : String)
  | scanning (cursor : Line.Cursor)
  | done

namespace Tokens

/-- The next token from a place on.  Nothing follows the end or an error. -/
def scan (cursor : Line.Cursor) : Option (Except FatalError Token) × Tokens :=
  match cursor.token? with
  | .ok (some (token, next)) => (some (.ok token), scanning next)
  | .ok none => (none, done)
  | .error fatal => (some (.error fatal), done)

def next : Tokens → Option (Except FatalError Token) × Tokens
  | fresh line =>
    if Line.isBlankLine line then (some (.ok ⟨.empty, line⟩), done) else scan (.start line)
  | scanning cursor => scan cursor
  | done => (none, done)

/-- The results of the next `count` calls. -/
def take : Nat → Tokens → List (Option (Except FatalError Token))
  | 0, _ => []
  | count + 1, tokens => tokens.next.1 :: take count tokens.next.2

end Tokens

end ShellExpr
