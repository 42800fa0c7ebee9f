import ShellExpr.Proofs.Script.Failures

/-!
# The parentheses of a line

What a line takes for an expression has its parentheses in order by the time the expression is
reordered.
-/

namespace ShellExpr

open Eval

/-- The reordering pass did not fail over a parenthesis. -/
def NotOverParentheses (fatal : FatalError) : Prop :=
  fatal ≠ .grammar .missingClose ∧ fatal ≠ .grammar .unmatchedClose

theorem notOverParentheses_ofExecution (fatal : FatalError) (h : Machine.OfExecution fatal) :
    NotOverParentheses fatal := by
  constructor
  · rintro rfl
    rcases h with h | h <;> cases h
  · rintro rfl
    rcases h with h | h <;> cases h

theorem notOverParentheses_refuses {cause : GrammarError} (h : Line.Refuses cause) :
    NotOverParentheses (.grammar cause) := by
  cases h <;> exact ⟨by simp, by simp⟩

namespace Script

theorem notOverParentheses_ofExpression (fatal : FatalError) (h : OfExpression fatal) :
    NotOverParentheses fatal := by
  cases h with
  | unexpected text column => exact ⟨by simp, by simp⟩
  | emptyGroup => exact ⟨by simp, by simp⟩
  | execution h => exact notOverParentheses_ofExecution fatal h

theorem failsOnly_runLine (depth : Nat) (line : String) :
    FailsOnly NotOverParentheses (runLine depth line) := by
  refine failsOnly_runLine_of ?_ notOverParentheses_ofExpression depth
  intro fatal refused
  obtain ⟨cause, rfl, refuses⟩ := Line.tokenize_error refused
  exact notOverParentheses_refuses refuses

/-- Every expression of a line scans into atoms that its parentheses enclose, so that running the
line never fails over a parenthesis that is missing or unmatched among them. -/
theorem expressions_enclosed (line : String) :
    (∀ tokens token atoms, tokenize line = .ok tokens → token ∈ tokens →
      token.kind = .expression → Atom.scan token.text = .ok atoms → Line.Enclosed atoms) ∧
    ∀ depth s fatal after, (runLine depth line).run s = some (.error fatal, after) →
      fatal ≠ .grammar .missingClose ∧ fatal ≠ .grammar .unmatchedClose := by
  refine ⟨?_, ?_⟩
  · intro tokens token atoms read member expression scanned
    exact Line.enclosed_of_tokenize read member expression scanned
  · intro depth s fatal after failed
    exact failsOnly_runLine depth line s fatal after failed

/-- A parenthesis inside a text belongs to no group. -/
theorem expressions_enclosed_text :
    tokenize "(#) (f \")\")" = .ok [⟨.expression, "(#)"⟩, ⟨.expression, "(f \")\")"⟩] ∧
      Atom.scan "(f \")\")" = .ok [.opening, .identifier "f", .str ")", .closing] ∧
      Line.Enclosed [.opening, .identifier "f", .str ")", .closing] ∧
      (runLine 0 "(#) (f \")\")").run .initial =
        some (.error (.grammar (.unexpected "#" 2)), .initial) ∧
      FatalError.grammar (.unexpected "#" 2) ≠ .grammar .missingClose ∧
      FatalError.grammar (.unexpected "#" 2) ≠ .grammar .unmatchedClose := by
  have read : tokenize "(#) (f \")\")" =
      .ok [⟨.expression, "(#)"⟩, ⟨.expression, "(f \")\")"⟩] := by
    have first : Line.Cursor.token? (.start "(#) (f \")\")") =
        .ok (some (⟨.expression, "(#)"⟩, ⟨4, " (f \")\")".toList⟩)) := rfl
    have second : Line.Cursor.token? ⟨4, " (f \")\")".toList⟩ =
        .ok (some (⟨.expression, "(f \")\")"⟩, ⟨12, []⟩)) := rfl
    rw [tokenize, if_neg (by decide)]
    exact Line.tokensFrom_token first
      (Line.tokensFrom_token second (Line.tokensFrom_blanks rfl))
  have scanned : Atom.scan "(f \")\")" = .ok [.opening, .identifier "f", .str ")", .closing] := by
    decide +kernel
  have failed : (runLine 0 "(#) (f \")\")").run .initial =
      some (.error (.grammar (.unexpected "#" 2)), .initial) := by
    have unscanned : Atom.scan "(#)" = .error (.grammar (.unexpected "#" 2)) := by
      decide +kernel
    rw [runLine, read, ofExcept_ok, pure_bind, runTokens, if_pos rfl, Machine.evaluate,
      Machine.evaluateWith, unscanned]
    rfl
  have enclosed := (expressions_enclosed "(#) (f \")\")").1 _ ⟨.expression, "(f \")\")"⟩ _ read
    (by simp) rfl scanned
  have unharmed := (expressions_enclosed "(#) (f \")\")").2 0 .initial _ .initial failed
  exact ⟨read, scanned, enclosed, failed, unharmed⟩

end Script

end ShellExpr
