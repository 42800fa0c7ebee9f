import ShellExpr.Proofs.Atom.Longest
import ShellExpr.Proofs.Text.Spaced

/-!
# Printed atoms are scanned back

A text that spells an atom is scanned into this atom alone, and blanks keep such texts apart.  The
printed text spells its atom if the atom is an integer without a sign, a name, an operator, a
parenthesis or a text that is quoted with short escapes only.
-/

namespace ShellExpr.Atom

/-! ### Texts with blanks between them -/

theorem Spells.scans {text : List Char} {atom : Atom} (h : Spells text atom) :
    Scans text [atom] := by
  obtain ⟨c, cs, rfl, visible, read⟩ := h.lexeme?
  exact Scans.lexeme scans_nil visible read

/-- Blanks keep texts that spell atoms apart. -/
theorem scans_spaced {atoms : List Atom}
    (spells : ∀ atom ∈ atoms, Spells atom.text.toList atom) {cs : List Char}
    (spaced : Text.Spaced isSpace (atoms.map fun atom => atom.text.toList) cs) :
    Scans cs atoms := by
  induction atoms generalizing cs with
  | nil =>
    cases spaced
    exact scans_nil
  | cons atom atoms ih =>
    have alone := (spells atom List.mem_cons_self).scans
    have others := fun other member => spells other (List.mem_cons_of_mem atom member)
    cases atoms with
    | nil =>
      rw [spaced.eq_of_single]
      exact alone
    | cons second atoms =>
      cases spaced with
      | @before _ c gap blank blanks _ _ rest later =>
        have behind : Scans (gap ++ rest) (second :: atoms) := (ih others later).spaces blanks
        rw [List.append_assoc]
        exact Scans.before (endsAtoms_of_isSpace blank) (behind.space blank) (alone 1)

/-! ### Printed texts -/

/-- A character that is quoted as itself or with a short escape. -/
def EscapesShort (c : Char) : Prop :=
  Text.escape c ∈ [[c], ['\\', '"'], ['\\', '\\'], ['\\', 'n'], ['\\', 't'], ['\\', 'r']]

instance (c : Char) : Decidable (EscapesShort c) :=
  inferInstanceAs (Decidable (_ ∈ _))

/-- The atoms whose printed texts spell them. -/
inductive Legible : Atom → Prop where
  | integer {n : Int64} (unsigned : 0 ≤ n.toInt) : Legible (.int n)
  | literal {text : String} (short : ∀ c ∈ text.toList, EscapesShort c) : Legible (.str text)
  | name {name : String} (valid : isIdentifier name = true) : Legible (.identifier name)
  | operator (op : Operator) : Legible (.operator op)
  | opening : Legible .opening
  | closing : Legible .closing

theorem LiteralBody.escape {c : Char} (short : EscapesShort c) {inside meant : List Char}
    (later : LiteralBody inside meant) : LiteralBody (Text.escape c ++ inside) (c :: meant) := by
  unfold EscapesShort at short
  unfold Text.escape at short ⊢
  split at short
  · contradiction
  · exact .escaped (c := 't') (by decide) later
  · exact .escaped (c := 'n') (by decide) later
  · exact .escaped (c := 'r') (by decide) later
  · exact .escaped (c := '"') (by decide) later
  · exact .escaped (c := '\\') (by decide) later
  · rename_i quote backslash
    split at short
    · rename_i printable
      rw [if_pos printable]
      exact .plain backslash quote later
    · simp [Text.codeEscape] at short

theorem literalBody_quoted {cs : List Char} (short : ∀ c ∈ cs, EscapesShort c) :
    LiteralBody (cs.flatMap Text.escape) cs := by
  induction cs with
  | nil => exact .nil
  | cons c cs ih =>
    obtain ⟨first, others⟩ := List.forall_mem_cons.1 short
    rw [List.flatMap_cons]
    exact .escape first (ih others)

theorem spells_written {n : Int64} (unsigned : 0 ≤ n.toInt) :
    Spells (Integer.written n).toList (.int n) := by
  have written : (Integer.written n).toList = Nat.toDigits 10 n.toInt.natAbs := by
    rw [Integer.written, String.toList_ofList, Integer.digits, if_neg (Int.not_lt.2 unsigned)]
  rw [written]
  refine .integer ⟨Nat.toDigits_ne_nil, fun c member => ?_⟩ ?_
  · exact Nat.isDigit_of_mem_toDigits (by decide) (by decide) member
  · rw [Text.digitsValue, Nat.ofDigitChars_ten_toDigits, Int.natAbs_of_nonneg unsigned]

theorem spells_name {name : String} (valid : isIdentifier name = true) :
    Spells name.toList (.identifier name) := by
  unfold isIdentifier at valid
  split at valid
  · contradiction
  · rename_i c cs spelled
    obtain ⟨start, others⟩ := Bool.and_eq_true_iff.1 valid
    have spells : Spells (c :: cs) (.identifier (String.ofList (c :: cs))) :=
      .name start (List.all_eq_true.1 others)
    rwa [← spelled, String.ofList_toList] at spells

theorem Legible.spells {atom : Atom} (h : Legible atom) : Spells atom.text.toList atom := by
  cases h with
  | integer unsigned => exact spells_written unsigned
  | @literal text short =>
    have spells := Spells.literal (literalBody_quoted short)
    rw [String.ofList_toList] at spells
    rwa [Atom.text, Text.toList_quote]
  | name valid => exact spells_name valid
  | operator op => exact .operator op
  | opening => exact .opening
  | closing => exact .closing

/-- Legible atoms are scanned back from their printed texts, whatever blanks stand between them. -/
theorem scan_printed {atoms : List Atom} (legible : ∀ atom ∈ atoms, Legible atom) {source : String}
    (spaced : Text.Spaced isSpace (atoms.map fun atom => atom.text.toList) source.toList) :
    scan source = .ok atoms :=
  scan_of_scans (scans_spaced (fun atom member => (legible atom member).spells) spaced)

/-- Two operators that make a third one where nothing stands between them, and a text with a
backslash and a line break. -/
theorem scan_printed_operators :
    scan "a < = \"\\\\\\n\"\t\n 7" =
      .ok [.identifier "a", .operator .less, .operator .equal, .str "\\\n", .int 7] := by
  have short : ∀ c ∈ "\\\n".toList, EscapesShort c := by
    have all : "\\\n".toList.all (fun c => decide (EscapesShort c)) = true := by decide
    exact fun c member => of_decide_eq_true (List.all_eq_true.1 all c member)
  have legible : ∀ atom ∈ [Atom.identifier "a", .operator .less, .operator .equal,
      .str "\\\n", .int 7], Legible atom := by
    simp only [List.forall_mem_cons]
    exact ⟨.name (by decide), .operator _, .operator _, .literal short, .integer (by decide),
      List.forall_mem_nil _⟩
  have texts : [Atom.identifier "a", .operator .less, .operator .equal, .str "\\\n", .int 7].map
      (fun atom => atom.text.toList) =
      ["a".toList, "<".toList, "=".toList, "\"\\\\\\n\"".toList, "7".toList] := by
    decide
  have spaced : Text.Spaced isSpace
      ["a".toList, "<".toList, "=".toList, "\"\\\\\\n\"".toList, "7".toList]
      "a < = \"\\\\\\n\"\t\n 7".toList := by
    have number : Text.Spaced isSpace ["7".toList] "7".toList := .single _
    have literal := number.behind "\"\\\\\\n\"".toList ['\t', '\n', ' '] (by decide)
    have equal := literal.behind "=".toList [' '] (by decide)
    have less := equal.behind "<".toList [' '] (by decide)
    exact less.behind "a".toList [' '] (by decide)
  rw [← texts] at spaced
  exact scan_printed legible spaced

end ShellExpr.Atom
