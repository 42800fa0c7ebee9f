import ShellExpr.Proofs.Line.Spacing
import ShellExpr.Script.Run

/-!
# Lines side by side

Two lines with a blank between them fall into the tokens of the first and those of the second,
unless the first one ends in a comment, which would take the second with it.  So the joined line
runs as the two of them run after each other.
-/

namespace ShellExpr

namespace Line

/-- Behind a line without a comment and a blank stand the tokens of the next line. -/
theorem Falls.append {cs more : List Char} {tokens later : List Token} (falls : Falls cs tokens)
    (no_comment : ∀ token ∈ tokens, token.kind ≠ .comment) {c : Char}
    (blank : Text.isBlank c = true) (next : Falls more later) :
    Falls (cs ++ c :: more) (tokens ++ later) := by
  induction falls with
  | @blanks gap gap_blank =>
    rw [← List.singleton_append, ← List.append_assoc]
    exact next.behind_blanks
      (List.forall_mem_append.2 ⟨gap_blank, List.forall_mem_singleton.2 blank⟩)
  | @token gap rest behind first tokens gap_blank token _ ih =>
    rw [List.append_assoc]
    have here := no_comment _ List.mem_cons_self
    exact .token gap_blank (token.before_blank here blank more)
      (ih fun other member => no_comment other (List.mem_cons_of_mem _ member))

/-- A line with tokens falls into some of them: into all, or into none if it is blank. -/
theorem exists_falls {line : String} {tokens : List Token} (h : tokenize line = .ok tokens) :
    ∃ parts, Falls line.toList parts ∧ parts ⊆ tokens := by
  rcases hasTokens_of_tokenize h with ⟨blank, _⟩ | ⟨_, falls⟩
  · exact ⟨[], .blanks blank, List.nil_subset _⟩
  · exact ⟨tokens, falls, List.Subset.refl _⟩

end Line

namespace Script

open Line Eval

/-! ### Values of tokens side by side -/

/-- The tokens of a run are those into which its line falls, since the token of a blank line does
nothing. -/
theorem runLine_of_falls {line : String} {parts : List Token} (falls : Falls line.toList parts)
    (depth : Nat) : runLine depth line = runTokens depth parts := by
  cases parts with
  | nil =>
    have read : tokenize line = .ok [⟨.empty, line⟩] :=
      tokenize_of_hasTokens (.inl ⟨falls_nil falls, rfl⟩)
    rw [runLine, read]
    rfl
  | cons token rest =>
    have read : tokenize line = .ok (token :: rest) :=
      tokenize_of_hasTokens (.inr ⟨List.cons_ne_nil token rest, falls⟩)
    rw [runLine, read]
    rfl

theorem runTokens_append (depth : Nat) (tokens later : List Token) :
    runTokens depth (tokens ++ later) = (do
      let vs ← runTokens depth tokens
      let ws ← runTokens depth later
      pure (vs ++ ws)) := by
  induction tokens with
  | nil => simp only [List.nil_append, runTokens, pure_bind, bind_pure]
  | cons token rest ih =>
    rw [List.cons_append, runTokens, runTokens]
    split
    · simp only [ih, bind_assoc, pure_bind, List.cons_append]
    · exact ih

/-- A line, a space and another line run as the one and then the other, unless the first ends in a
comment.  A line that does not fall into tokens runs nothing. -/
theorem runLine_append (depth : Nat) :
    (∀ (first second : String) (tokens later : List Token), tokenize first = .ok tokens →
      (∀ token ∈ tokens, token.kind ≠ .comment) → tokenize second = .ok later →
      runLine depth (first ++ " " ++ second) = (do
        let vs ← runLine depth first
        let ws ← runLine depth second
        pure (vs ++ ws))) ∧
    ∀ (line : String) (fatal : FatalError), tokenize line = .error fatal →
      ∀ s, (runLine depth line).run s = some (.error fatal, s) := by
  constructor
  · intro first second tokens later read no_comment read_later
    obtain ⟨parts, falls, among⟩ := exists_falls read
    obtain ⟨others, falls_later, _⟩ := exists_falls read_later
    have joined : Falls (first ++ " " ++ second).toList (parts ++ others) := by
      rw [String.toList_append, String.toList_append, List.append_assoc]
      exact falls.append (fun token member => no_comment token (among member)) (by decide)
        falls_later
    rw [runLine_of_falls joined, runLine_of_falls falls, runLine_of_falls falls_later,
      runTokens_append]
  · intro line fatal refused s
    rw [runLine, refused]
    rfl

/-- The escaped space at the end of the first line stays in its word, and the second line sees the
binding of the first.  An unmatched delimiter keeps the expression in front of it from running. -/
theorem runLine_append_escaped :
    tokenize "(x <- 2) \\ " = .ok [⟨.expression, "(x <- 2)"⟩, ⟨.name, "\\ "⟩] ∧
      tokenize "(x + 1) # b" = .ok [⟨.expression, "(x + 1)"⟩, ⟨.comment, "# b"⟩] ∧
      (runLine 0 "(x <- 2) \\  (x + 1) # b").run .initial =
        some (.ok [.int 2, .int 3], ⟨⟨[("x", .int 2)]⟩, 0⟩) ∧
      tokenize "(x <- 2) )" = .error (.grammar (.unmatchedAt ')' 10)) ∧
      (runLine 0 "(x <- 2) )").run .initial =
        some (.error (.grammar (.unmatchedAt ')' 10)), .initial) := by
  have read : tokenize "(x <- 2) \\ " = .ok [⟨.expression, "(x <- 2)"⟩, ⟨.name, "\\ "⟩] := by
    have binding : Cursor.token? (.start "(x <- 2) \\ ") =
        .ok (some (⟨.expression, "(x <- 2)"⟩, ⟨9, " \\ ".toList⟩)) := rfl
    have word : Cursor.token? ⟨9, " \\ ".toList⟩ = .ok (some (⟨.name, "\\ "⟩, ⟨12, []⟩)) := rfl
    rw [tokenize, if_neg (by decide)]
    exact tokensFrom_token binding (tokensFrom_token word (tokensFrom_blanks rfl))
  have read_later : tokenize "(x + 1) # b" = .ok [⟨.expression, "(x + 1)"⟩, ⟨.comment, "# b"⟩] := by
    have sum : Cursor.token? (.start "(x + 1) # b") =
        .ok (some (⟨.expression, "(x + 1)"⟩, ⟨8, " # b".toList⟩)) := rfl
    have comment : Cursor.token? ⟨8, " # b".toList⟩ =
        .ok (some (⟨.comment, "# b"⟩, ⟨12, []⟩)) := rfl
    rw [tokenize, if_neg (by decide)]
    exact tokensFrom_token sum (tokensFrom_token comment (tokensFrom_blanks rfl))
  have refused : tokenize "(x <- 2) )" = .error (.grammar (.unmatchedAt ')' 10)) := by
    have binding : Cursor.token? (.start "(x <- 2) )") =
        .ok (some (⟨.expression, "(x <- 2)"⟩, ⟨9, " )".toList⟩)) := rfl
    have closing : Cursor.token? ⟨9, " )".toList⟩ = .error (.grammar (.unmatchedAt ')' 10)) := rfl
    rw [tokenize, if_neg (by decide), tokensFrom_eq, binding]
    simp only [tokensFrom_eq, closing]
  have parted := (runLine_append 0).1 _ _ _ _ read (by decide) read_later
  have unharmed := (runLine_append 0).2 _ _ refused .initial
  let bound : Session := ⟨⟨[("x", .int 2)]⟩, 0⟩
  have assigned : (Machine.evaluate 0 "(x <- 2)").run .initial = some (.ok (.int 2), bound) := by
    have scanned : Atom.scan "(x <- 2)" =
        .ok [.opening, .identifier "x", .operator .assign, .int 2, .closing] := by
      decide +kernel
    have reordered : reorder [Atom.opening, .identifier "x", .operator .assign, .int 2, .closing] =
        .ok [.operand (.identifier "x"), .operand (.int 2), .operator .assign] := by
      decide +kernel
    rw [Machine.evaluate, Machine.evaluateWith_eq _ scanned reordered]
    rfl
  have added : (Machine.evaluate 0 "(x + 1)").run bound = some (.ok (.int 3), bound) := by
    have scanned : Atom.scan "(x + 1)" =
        .ok [.opening, .identifier "x", .operator .add, .int 1, .closing] := by
      decide +kernel
    have reordered : reorder [Atom.opening, .identifier "x", .operator .add, .int 1, .closing] =
        .ok [.operand (.identifier "x"), .operand (.int 1), .operator .add] := by
      decide +kernel
    rw [Machine.evaluate, Machine.evaluateWith_eq _ scanned reordered]
    rfl
  have first_run : (runLine 0 "(x <- 2) \\ ").run .initial = some (.ok [.int 2], bound) := by
    rw [runLine, read, ofExcept_ok, pure_bind, runTokens, if_pos rfl, run_bind, assigned]
    rfl
  have second_run : (runLine 0 "(x + 1) # b").run bound = some (.ok [.int 3], bound) := by
    rw [runLine, read_later, ofExcept_ok, pure_bind, runTokens, if_pos rfl, run_bind, added]
    rfl
  have ran : (runLine 0 "(x <- 2) \\  (x + 1) # b").run .initial =
      some (.ok [.int 2, .int 3], bound) := by
    have joined : "(x <- 2) \\ " ++ " " ++ "(x + 1) # b" = "(x <- 2) \\  (x + 1) # b" := by decide
    rw [← joined, parted, run_bind, first_run]
    simp only [run_bind, second_run, run_pure, List.cons_append, List.nil_append]
  exact ⟨read, read_later, ran, refused, unharmed⟩

end Script

end ShellExpr
