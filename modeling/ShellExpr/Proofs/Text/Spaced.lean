/-!
# Texts with blanks between them

Texts one behind the other, each kept apart from the next by one or more blanks, whichever
characters count as blanks.
-/

namespace ShellExpr.Text

/-- The characters of texts in their order, with blanks between each and the next. -/
inductive Spaced (blank : Char → Bool) : List (List Char) → List Char → Prop where
  | nothing : Spaced blank [] []
  | single (text : List Char) : Spaced blank [text] text
  | before (text : List Char) {c : Char} {gap : List Char} (first : blank c = true)
      (blanks : ∀ x ∈ gap, blank x = true) {second : List Char} {others : List (List Char)}
      {rest : List Char} (later : Spaced blank (second :: others) rest) :
      Spaced blank (text :: second :: others) (text ++ (c :: gap) ++ rest)

/-- The blanks given as a whole. -/
theorem Spaced.behind {blank : Char → Bool} (text gap : List Char)
    (blanks : gap.isEmpty = false ∧ gap.all blank = true) {second : List Char}
    {others : List (List Char)} {rest : List Char} (later : Spaced blank (second :: others) rest) :
    Spaced blank (text :: second :: others) (text ++ gap ++ rest) := by
  cases gap with
  | nil => exact absurd blanks.1 (by decide)
  | cons c gap =>
    obtain ⟨first, following⟩ := List.forall_mem_cons.1 (List.all_eq_true.1 blanks.2)
    exact .before text first following later

theorem Spaced.eq_of_single {blank : Char → Bool} {text cs : List Char}
    (h : Spaced blank [text] cs) : cs = text := by
  cases h
  rfl

end ShellExpr.Text
