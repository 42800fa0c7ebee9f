import ShellExpr.FatalError
import ShellExpr.Text.Basic

/-!
# Tokens of a line

A line falls into tokens: parenthesised expressions, bracketed packs, braced scripts, quoted
texts, words and a comment.  The kind of a token is decided by its first character, its text is
the part of the line that it spans.

Inside a delimited span delimiters nest, and a quoted text takes everything but its closing quote.
A backslash takes the next character with it, everywhere but in a comment.
-/

namespace ShellExpr

inductive TokenKind where
  | comment | empty | expression | name | operator | option | pack | script | string
deriving DecidableEq, Repr

structure Token where
  kind : TokenKind
  text : String
deriving DecidableEq, Repr

namespace Line

/-! ### Delimiters -/

/-- The delimiter that closes a span opened by `c`. -/
def closer? (c : Char) : Option Char :=
  if c = '(' then some ')'
  else if c = '[' then some ']'
  else if c = '{' then some '}'
  else if c = '"' then some '"'
  else none

/-- The closing delimiters that are not opening ones as well. -/
def isCloser (c : Char) : Bool :=
  c == ')' || c == ']' || c == '}'

/-- Characters that start a new token even right behind a word. -/
def startsToken (c : Char) : Bool :=
  c == '#' || (closer? c).isSome

/-- The kind of a token by its first character. -/
def kindOf (first : Char) : TokenKind :=
  if first = '#' then .comment
  else if first = '(' then .expression
  else if first = '-' then .option
  else if first = '[' then .pack
  else if first = '{' then .script
  else if first = '"' then .string
  else if first = '<' ∨ first = '>' ∨ first = '|' ∨ first = '&' then .operator
  else .name

/-! ### Spans -/

/-- The outcome of reading a token: its characters and those behind it. -/
abbrev Split : Type :=
  Except GrammarError (List Char × List Char)

/-- A split with more characters in front of its token. -/
def Split.after (read : List Char) (split : Split) : Split :=
  match split with
  | .ok (text, rest) => .ok (read ++ text, rest)
  | .error cause => .error cause

/-- Reads the inside of a delimited span up to the end of its closing delimiter.  The closing
delimiters that are due, the innermost first, are in `due`; `column` is that of the first
character. -/
def spanDelimited (column : Nat) : List Char → List Char → Split
  | [], cs => .ok ([], cs)
  | close :: _, [] => .error (.unclosed close)
  | _ :: _, ['\\'] => .error .openEscape
  | due, '\\' :: c :: cs =>
    (spanDelimited (column + 1 + c.utf8Size) due cs).after ['\\', c]
  | close :: outer, c :: cs =>
    let next := column + c.utf8Size
    if close = '"' then
      (spanDelimited next (if c = '"' then outer else close :: outer) cs).after [c]
    else
      match closer? c with
      | some inner => (spanDelimited next (inner :: close :: outer) cs).after [c]
      | none =>
        if isCloser c then
          if c = close then (spanDelimited next outer cs).after [c]
          else .error (.mismatched close c column)
        else (spanDelimited next (close :: outer) cs).after [c]

/-- Reads a word up to the next blank or the start of the next token. -/
def spanWord (column : Nat) : List Char → Split
  | [] => .ok ([], [])
  | ['\\'] => .error .openEscape
  | '\\' :: c :: cs => (spanWord (column + 1 + c.utf8Size) cs).after ['\\', c]
  | c :: cs =>
    if Text.isBlank c || startsToken c then .ok ([], c :: cs)
    else if isCloser c then .error (.unmatchedAt c column)
    else (spanWord (column + c.utf8Size) cs).after [c]

/-- Reads the token that starts with `c`. -/
def spanToken (column : Nat) (c : Char) (cs : List Char) : Split :=
  if c = '#' then .ok (c :: cs, [])
  else
    match closer? c with
    | some close => (spanDelimited (column + c.utf8Size) [close] cs).after [c]
    | none => spanWord column (c :: cs)

/-! ### What is split is what was given -/

theorem Split.after_eq_ok {read text rest : List Char} {split : Split}
    (h : split.after read = .ok (text, rest)) :
    ∃ inner, split = .ok (inner, rest) ∧ text = read ++ inner := by
  unfold Split.after at h
  split at h
  · rename_i inner behind
    cases h
    exact ⟨inner, rfl, rfl⟩
  · contradiction

theorem spanDelimited_append {column : Nat} {due cs text rest : List Char}
    (h : spanDelimited column due cs = .ok (text, rest)) : text ++ rest = cs := by
  fun_induction spanDelimited column due cs generalizing text with
  | case1 => cases h; rfl
  | case2 => contradiction
  | case3 => contradiction
  | case8 => contradiction
  | _ =>
    rename_i ih
    obtain ⟨inner, found, rfl⟩ := Split.after_eq_ok h
    simp [← ih found]

theorem spanWord_append {column : Nat} {cs text rest : List Char}
    (h : spanWord column cs = .ok (text, rest)) : text ++ rest = cs := by
  fun_induction spanWord column cs generalizing text with
  | case1 => cases h; rfl
  | case2 => contradiction
  | case4 => cases h; rfl
  | case5 => contradiction
  | _ =>
    rename_i ih
    obtain ⟨inner, found, rfl⟩ := Split.after_eq_ok h
    simp [← ih found]

theorem spanToken_append {column : Nat} {c : Char} {cs text rest : List Char}
    (h : spanToken column c cs = .ok (text, rest)) : text ++ rest = c :: cs := by
  unfold spanToken at h
  split at h
  · cases h
    simp
  · split at h
    · obtain ⟨inner, found, rfl⟩ := Split.after_eq_ok h
      simp [← spanDelimited_append found]
    · exact spanWord_append h

theorem spanToken_text_ne_nil {column : Nat} {c : Char} {cs text rest : List Char}
    (filled : Text.isBlank c = false) (h : spanToken column c cs = .ok (text, rest)) :
    text ≠ [] := by
  unfold spanToken at h
  split at h
  · cases h
    simp
  · rename_i not_comment
    split at h
    · obtain ⟨inner, _, rfl⟩ := Split.after_eq_ok h
      simp
    · rename_i no_closer
      have inside : (Text.isBlank c || startsToken c) = false := by
        simp [filled, startsToken, not_comment, no_closer]
      unfold spanWord at h
      split at h
      · contradiction
      · contradiction
      · obtain ⟨inner, _, rfl⟩ := Split.after_eq_ok h
        simp
      · rename_i first others _ _ same
        cases same
        rw [if_neg (by simp [inside])] at h
        split at h
        · contradiction
        · obtain ⟨inner, _, rfl⟩ := Split.after_eq_ok h
          simp

end Line

end ShellExpr
