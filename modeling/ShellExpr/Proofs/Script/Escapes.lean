import ShellExpr.Proofs.Line.Escapes
import ShellExpr.Proofs.Script.Failures

/-!
# Logical lines end outside an escape

A physical line whose backslashes at the end do not come in pairs gives up the last of them and goes
on in the next one.  So every part of a logical line ends in pairs, and with the parts the whole
does, where runs of backslashes meet at a joint and where the script ends inside a continuation.
-/

namespace ShellExpr

namespace LogicalLine

/-! ### The backslashes at the end of a line -/

/-- A line in front of the backslashes at its end. -/
theorem exists_front (line : List Char) :
    ∃ front, line = front ++ List.replicate (trailingBackslashes line) '\\' ∧
      front.getLast? ≠ some '\\' := by
  refine ⟨(line.reverse.dropWhile (· == '\\')).reverse, ?_, ?_⟩
  · have run : line.reverse.takeWhile (· == '\\') =
        List.replicate (trailingBackslashes line) '\\' := by
      refine List.eq_replicate_of_mem ?_
      intro c member
      have backslash : (c == '\\') = true := List.all_eq_true.1 List.all_takeWhile c member
      exact beq_iff_eq.1 backslash
    have split : line.reverse = List.replicate (trailingBackslashes line) '\\' ++
        line.reverse.dropWhile (· == '\\') := by
      rw [← run, List.takeWhile_append_dropWhile]
    calc line = line.reverse.reverse := (List.reverse_reverse line).symm
      _ = (List.replicate (trailingBackslashes line) '\\' ++
          line.reverse.dropWhile (· == '\\')).reverse := by rw [← split]
      _ = (line.reverse.dropWhile (· == '\\')).reverse ++
          List.replicate (trailingBackslashes line) '\\' := by
        rw [List.reverse_append, List.reverse_replicate]
  · rw [List.getLast?_reverse]
    intro last
    have head := List.head?_dropWhile_not (· == '\\') line.reverse
    rw [last] at head
    contradiction

theorem endsInPairs_of_not_continues {line : List Char} (h : continues line = false) :
    EndsInPairs line := by
  obtain ⟨front, whole, last⟩ := exists_front line
  have not_odd : trailingBackslashes line % 2 ≠ 1 := by simpa [continues] using h
  obtain ⟨pairs, even⟩ : ∃ pairs, trailingBackslashes line = 2 * pairs :=
    ⟨trailingBackslashes line / 2, by omega⟩
  rw [even] at whole
  exact ⟨front, pairs, whole, last⟩

/-- A line that goes on gives up the backslash that has no partner. -/
theorem endsInPairs_dropLast {line : List Char} (h : continues line = true) :
    EndsInPairs line.dropLast := by
  obtain ⟨front, whole, last⟩ := exists_front line
  have odd : trailingBackslashes line % 2 = 1 := by simpa [continues] using h
  obtain ⟨pairs, count⟩ : ∃ pairs, trailingBackslashes line = 2 * pairs + 1 :=
    ⟨trailingBackslashes line / 2, by omega⟩
  rw [count, List.replicate_succ', ← List.append_assoc] at whole
  rw [whole, List.dropLast_concat]
  exact ⟨front, pairs, rfl, last⟩

/-! ### Joining -/

theorem endsInPairs_of_joinFrom {number : Nat} {lines : List (List Char)} :
    ∀ joined ∈ joinFrom number lines, EndsInPairs joined.2 := by
  induction lines generalizing number with
  | nil => simp [joinFrom]
  | cons line rest ih =>
    intro joined member
    rw [joinFrom] at member
    split at member
    · rename_i goes_on
      have part := endsInPairs_dropLast goes_on
      split at member
      · rw [List.mem_singleton.1 member]
        exact part
      · rename_i later text others found
        have among : ∀ joined ∈ joinFrom (number + 1) rest, EndsInPairs joined.2 := ih
        rw [found] at among
        rcases List.mem_cons.1 member with rfl | member
        · exact part.append (among _ List.mem_cons_self)
        · exact among joined (List.mem_cons_of_mem _ member)
    · rename_i ends
      rcases List.mem_cons.1 member with rfl | member
      · exact endsInPairs_of_not_continues (by simpa using ends)
      · exact ih joined member

theorem endsInPairs_of_logicalLines {source : String} {line : LogicalLine}
    (h : line ∈ logicalLines source) : EndsInPairs line.text.toList := by
  obtain ⟨joined, member, rfl⟩ := List.mem_map.1 h
  rw [String.toList_ofList]
  exact endsInPairs_of_joinFrom joined member

end LogicalLine

namespace Script

open Eval

theorem ofExpression_ne_openEscape (fatal : FatalError) (h : OfExpression fatal) :
    fatal ≠ .grammar .openEscape := by
  rintro rfl
  rcases h with _ | _ | h | h <;> cases h

/-- The backslashes at the end of a logical line come in pairs, the line never stops inside an
escape, and no run of a script, however it goes on after an error, ever reports that one of its
lines does. -/
theorem logicalLines_escaped (source : String) :
    (∀ line ∈ logicalLines source,
      EndsInPairs line.text.toList ∧ tokenize line.text ≠ .error (.grammar .openEscape)) ∧
    ∀ depth keepGoing s reports after, run depth keepGoing source s = some (reports, after) →
      ∀ report ∈ reports, report.outcome ≠ .error (.grammar .openEscape) := by
  have lines : ∀ line ∈ logicalLines source,
      EndsInPairs line.text.toList ∧ tokenize line.text ≠ .error (.grammar .openEscape) := by
    intro line member
    have pairs := LogicalLine.endsInPairs_of_logicalLines member
    exact ⟨pairs, Line.tokenize_ne_openEscape pairs⟩
  refine ⟨lines, ?_⟩
  intro depth keepGoing s reports after ran report member failed
  have fails : ∀ line ∈ logicalLines source,
      FailsOnly (fun fatal => fatal ≠ .grammar .openEscape) (runLine depth line.text) := by
    intro line among
    refine failsOnly_runLine_of ?_ ofExpression_ne_openEscape depth
    rintro fatal refused rfl
    exact (lines line among).2 refused
  exact failed_of_runLines fails ran report member _ failed rfl

/-- Three physical lines whose runs of backslashes meet, joined to a line that fails otherwise. -/
theorem logicalLines_escaped_joined :
    logicalLines "(1)\\\\\\\n\\\n\\\\(2\\" = [⟨1, "(1)\\\\\\\\(2"⟩] ∧
      EndsInPairs "(1)\\\\\\\\(2".toList ∧
      tokenize "(1)\\\\\\\\(2" ≠ .error (.grammar .openEscape) ∧
      run 0 true "(1)\\\\\\\n\\\n\\\\(2\\" .initial =
        some ([⟨1, .error (.grammar (.unclosed ')'))⟩], .initial) ∧
      (.error (.grammar (.unclosed ')')) : Except FatalError (List Value)) ≠
        .error (.grammar .openEscape) := by
  have lines : logicalLines "(1)\\\\\\\n\\\n\\\\(2\\" = [⟨1, "(1)\\\\\\\\(2"⟩] := by
    decide +kernel
  have refused : tokenize "(1)\\\\\\\\(2" = .error (.grammar (.unclosed ')')) := by
    have first : Line.Cursor.token? (.start "(1)\\\\\\\\(2") =
        .ok (some (⟨.expression, "(1)"⟩, ⟨4, "\\\\\\\\(2".toList⟩)) := rfl
    have second : Line.Cursor.token? ⟨4, "\\\\\\\\(2".toList⟩ =
        .ok (some (⟨.name, "\\\\\\\\"⟩, ⟨8, "(2".toList⟩)) := rfl
    have third : Line.Cursor.token? ⟨8, "(2".toList⟩ = .error (.grammar (.unclosed ')')) := rfl
    rw [tokenize, if_neg (by decide), Line.tokensFrom_eq, first]
    simp only [Line.tokensFrom_eq, second, third]
  have ran : run 0 true "(1)\\\\\\\n\\\n\\\\(2\\" .initial =
      some ([⟨1, .error (.grammar (.unclosed ')'))⟩], .initial) := by
    rw [run, lines, runLines, runLine, refused]
    rfl
  obtain ⟨among, reported⟩ := logicalLines_escaped "(1)\\\\\\\n\\\n\\\\(2\\"
  obtain ⟨pairs, unharmed⟩ := among ⟨1, "(1)\\\\\\\\(2"⟩ (by rw [lines]; simp)
  have unreported := reported 0 true .initial _ _ ran _ (List.mem_singleton_self _)
  exact ⟨lines, pairs, unharmed, ran, unreported⟩

end Script

end ShellExpr
