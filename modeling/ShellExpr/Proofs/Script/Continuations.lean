import Mathlib.Data.List.Basic
import ShellExpr.Script.LogicalLine

/-!
# Lines broken by continuations

A text may be broken anywhere outside an escape: a backslash and a line break go in between two
pieces of it.  The logical lines of texts broken in this way are the texts again, each with the
number of its first physical line.

Whether a break stands outside an escape is said of the text in front of it, while a continuation
is decided by one physical line.  The two agree because a piece begins behind an even run of
backslashes.
-/

namespace ShellExpr

namespace LogicalLine

/-! ### Runs of backslashes over several pieces -/

theorem trailingBackslashes_append (front back : List Char) :
    trailingBackslashes (front ++ back) =
      if trailingBackslashes back = back.length then trailingBackslashes front + back.length
      else trailingBackslashes back := by
  unfold trailingBackslashes
  rw [List.reverse_append, List.takeWhile_append, List.length_reverse]
  split
  · rw [List.length_append, List.length_reverse, Nat.add_comm]
  · rfl

/-- Behind an even run of backslashes a piece ends in an even run if the whole does. -/
theorem even_of_append {front back : List Char} (before : trailingBackslashes front % 2 = 0)
    (whole : trailingBackslashes (front ++ back) % 2 = 0) : trailingBackslashes back % 2 = 0 := by
  rw [trailingBackslashes_append] at whole
  split at whole
  · omega
  · exact whole

/-- Even runs in front of all breaks are even runs at the end of all pieces. -/
theorem even_of_take {pieces : List (List Char)}
    (outside : ∀ k ≤ pieces.length, trailingBackslashes (pieces.take k).flatten % 2 = 0)
    {piece : List Char} (member : piece ∈ pieces) : trailingBackslashes piece % 2 = 0 := by
  obtain ⟨k, bound, rfl⟩ := List.getElem_of_mem member
  have before := outside k (Nat.le_of_lt bound)
  have whole := outside (k + 1) bound
  rw [List.take_succ_eq_append_getElem bound, List.flatten_concat] at whole
  exact even_of_append before whole

theorem continues_eq_false {line : List Char} (h : trailingBackslashes line % 2 = 0) :
    continues line = false := by
  simp [continues, h]

theorem continues_concat {line : List Char} (h : trailingBackslashes line % 2 = 0) :
    continues (line ++ ['\\']) = true := by
  have one : trailingBackslashes ['\\'] = 1 := rfl
  rw [continues, trailingBackslashes_append, one, List.length_singleton, if_pos rfl, beq_iff_eq]
  omega

/-! ### Physical lines -/

theorem withoutReturn_of_head? {line : List Char} (h : line.head? ≠ some '\r') :
    withoutReturn line = line := by
  unfold withoutReturn
  split
  · exact absurd rfl h
  · rfl

theorem physicalFrom_append {line : List Char} (unbroken : '\n' ∉ line) (front rest : List Char) :
    physicalFrom front (line ++ '\n' :: rest) =
      (withoutReturn (line.reverse ++ front)).reverse :: physicalFrom [] rest := by
  induction line generalizing front with
  | nil => rfl
  | cons c cs ih =>
    obtain ⟨no_break, later⟩ := not_or.1 (List.mem_cons.not.1 unbroken)
    rw [List.cons_append, physicalFrom.eq_3 _ _ _ fun h => no_break h.symm, ih later,
      List.reverse_cons, List.append_assoc, List.singleton_append]

/-- The first physical line of a text that starts with a line and its break. -/
theorem physicalFrom_line {line : List Char} (unbroken : '\n' ∉ line)
    (no_return : line.getLast? ≠ some '\r') (rest : List Char) :
    physicalFrom [] (line ++ '\n' :: rest) = line :: physicalFrom [] rest := by
  rw [physicalFrom_append unbroken, List.append_nil,
    withoutReturn_of_head? (by rwa [List.head?_reverse]), List.reverse_reverse]

/-! ### Joining the pieces of a line -/

/-- The continuation between two pieces of a line. -/
def lineBreak : List Char :=
  ['\\', '\n']

/-- A piece with a continuation behind it stands in front of what the text goes on with. -/
theorem joinFrom_continued {piece : List Char} (unbroken : '\n' ∉ piece)
    (even : trailingBackslashes piece % 2 = 0) {number start : Nat} {source text : List Char}
    {others : List (Nat × List Char)}
    (later : joinFrom (number + 1) (physicalFrom [] source) = (start, text) :: others) :
    joinFrom number (physicalFrom [] (piece ++ lineBreak ++ source)) =
      (number, piece ++ text) :: others := by
  have first : '\n' ∉ piece ++ ['\\'] := by simp [unbroken]
  have split : piece ++ lineBreak ++ source = (piece ++ ['\\']) ++ '\n' :: source := by
    simp [lineBreak]
  rw [split, physicalFrom_line first (by simp), joinFrom, later, continues_concat even,
    List.dropLast_concat]
  rfl

/-- The pieces of a line are joined again, and the next line comes behind their continuations. -/
theorem joinFrom_intercalate {pieces : List (List Char)}
    (unbroken : ∀ piece ∈ pieces, '\n' ∉ piece) (no_return : pieces.flatten.getLast? ≠ some '\r')
    (even : ∀ piece ∈ pieces, trailingBackslashes piece % 2 = 0) (number : Nat)
    (rest : List Char) :
    joinFrom number (physicalFrom [] (lineBreak.intercalate pieces ++ '\n' :: rest)) =
      (number, pieces.flatten) ::
        joinFrom (number + (lineBreak.intercalate pieces).count '\n' + 1)
          (physicalFrom [] rest) := by
  induction pieces generalizing number with
  | nil => rfl
  | cons piece others ih =>
    have here := unbroken piece List.mem_cons_self
    have ends := even piece List.mem_cons_self
    cases others with
    | nil =>
      rw [List.flatten_singleton] at no_return ⊢
      rw [List.intercalate_singleton, physicalFrom_line here no_return, joinFrom,
        continues_eq_false ends, List.count_eq_zero.2 here]
      rfl
    | cons next others =>
      have later := ih (fun other member => unbroken other (List.mem_cons_of_mem _ member))
        (fun last => no_return (by rw [List.flatten_cons, List.getLast?_append, last]; rfl))
        (fun other member => even other (List.mem_cons_of_mem _ member)) (number + 1)
      have one : lineBreak.count '\n' = 1 := rfl
      have behind (count : Nat) : number + 1 + count + 1 = number + (0 + 1 + count) + 1 := by omega
      rw [List.intercalate_cons_cons, List.append_assoc (piece ++ lineBreak),
        joinFrom_continued here ends later, List.count_append, List.count_append, one,
        List.count_eq_zero.2 here, behind]
      rfl

end LogicalLine

open LogicalLine

/-- A text that stands in a script in pieces.  No piece ends inside an escape. -/
structure BrokenLine where
  pieces : List (List Char)
  unbroken : '\n' ∉ pieces.flatten
  no_return : pieces.flatten.getLast? ≠ some '\r'
  /-- The backslashes in front of each break, and at the end of the text, come in pairs. -/
  outside : ∀ k ≤ pieces.length, trailingBackslashes (pieces.take k).flatten % 2 = 0

namespace BrokenLine

def text (line : BrokenLine) : List Char :=
  line.pieces.flatten

/-- The text with a continuation between any two pieces and a line break behind the last. -/
def source (line : BrokenLine) : List Char :=
  lineBreak.intercalate line.pieces ++ ['\n']

theorem joinFrom_source (line : BrokenLine) (number : Nat) (rest : List Char) :
    joinFrom number (physicalFrom [] (line.source ++ rest)) =
      (number, line.text) ::
        joinFrom (number + line.source.count '\n') (physicalFrom [] rest) := by
  have unbroken : ∀ piece ∈ line.pieces, '\n' ∉ piece := fun piece member inside =>
    line.unbroken (List.mem_flatten.2 ⟨piece, member, inside⟩)
  have joined := joinFrom_intercalate unbroken line.no_return
    (fun piece member => even_of_take line.outside member) number rest
  rw [source, List.append_assoc, List.singleton_append, joined, text, List.count_append,
    List.count_singleton_self, Nat.add_assoc]

theorem joinFrom_sources (lines : List BrokenLine) (number : Nat) :
    joinFrom number (physicalFrom [] (lines.flatMap source)) =
      lines.mapIdx fun k line =>
        (number + ((lines.take k).flatMap source).count '\n', line.text) := by
  induction lines generalizing number with
  | nil => rfl
  | cons line rest ih =>
    rw [List.flatMap_cons, joinFrom_source, ih, List.mapIdx_cons]
    simp only [List.take_zero, List.flatMap_nil, List.count_nil, Nat.add_zero,
      List.take_succ_cons, List.flatMap_cons, List.count_append, Nat.add_assoc]

end BrokenLine

/-- The logical lines of texts broken by continuations are the texts in order, and the number of
each is one more than the line breaks in front of it. -/
theorem logicalLines_broken (lines : List BrokenLine) :
    logicalLines (String.ofList (lines.flatMap BrokenLine.source)) =
      lines.mapIdx fun k line =>
        ⟨1 + ((lines.take k).flatMap BrokenLine.source).count '\n', String.ofList line.text⟩ := by
  rw [logicalLines, physicalLines, String.toList_ofList, BrokenLine.joinFrom_sources,
    List.mapIdx_eq_zipIdx_map, List.map_map, List.mapIdx_eq_zipIdx_map]
  rfl

/-- Breaks at the start, twice in one place and between two pairs of backslashes. -/
example : (⟨[[], ['a', '\\', '\\'], [], ['\\', '\\', 'b']], by decide, by decide, by decide⟩ :
    BrokenLine).source = "\\\na\\\\\\\n\\\n\\\\b\n".toList := by decide

end ShellExpr
