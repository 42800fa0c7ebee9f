import ShellExpr.Operation.Arithmetic
import ShellExpr.Operation.Logic
import ShellExpr.Proofs.Value.Alike

/-!
# Results of the rules

The rules of the operators that broadcast yield numbers, texts and failures, and a tuple where they
join two tuples.  Only the product may have no result, between a text and a count whose repetition
no text holds.
-/

namespace ShellExpr.Operation

/-! ### Repetition -/

/-- A repetition that has a result is the characters of the text as often as the count says, or an
overflow. -/
theorem repeatText_eq_some_iff {count : Int64} {text : String} {v : Value} :
    repeatText count text = some v ↔
      repeatedSize count text < Nat.pow 2 63 ∧ (∃ result : String, v = .str result ∧
          result.toList = (List.replicate (repeatCount count) text.toList).flatten) ∨
        Nat.pow 2 64 ≤ repeatedSize count text ∧ v = Failure.overflow := by
  have whole : (if text.isEmpty then "" else Text.repeatOnto "" text (repeatCount count)).toList =
      (List.replicate (repeatCount count) text.toList).flatten := by
    split
    · rename_i empty
      rw [String.isEmpty_iff.1 empty]
      simp
    · exact Text.toList_repeatOnto "" text (repeatCount count)
  have limits : Nat.pow 2 63 ≤ Nat.pow 2 64 := by decide
  unfold repeatText
  generalize repeatedSize count text = size
  split
  · rename_i small
    rw [Option.some.injEq]
    constructor
    · rintro rfl
      exact .inl ⟨small, _, rfl, whole⟩
    · rintro (⟨_, result, rfl, characters⟩ | ⟨large, _⟩)
      · rw [Value.str.injEq, ← String.toList_inj, whole, characters]
      · omega
  · split
    · refine iff_of_false nofun ?_
      rintro (⟨small, _⟩ | ⟨large, _⟩) <;> omega
    · rename_i large _
      rw [Option.some.injEq]
      constructor
      · rintro rfl
        exact .inr ⟨by omega, rfl⟩
      · rintro (⟨small, _⟩ | ⟨_, rfl⟩)
        · omega
        · rfl

/-- A size that 64 bits hold, but no text has. -/
def NoTextSize (size : Nat) : Prop :=
  Nat.pow 2 63 ≤ size ∧ size < Nat.pow 2 64

instance (size : Nat) : Decidable (NoTextSize size) :=
  inferInstanceAs (Decidable (_ ∧ _))

theorem repeatText_eq_none_iff {count : Int64} {text : String} :
    repeatText count text = none ↔ NoTextSize (repeatedSize count text) := by
  unfold repeatText NoTextSize
  generalize repeatedSize count text = size
  split
  · exact iff_of_false nofun (by omega)
  · split
    · exact iff_of_true rfl (by omega)
    · exact iff_of_false nofun (by omega)

theorem isFlat_repeatText {count : Int64} {text : String} {v : Value}
    (h : repeatText count text = some v) : v.isFlat = true := by
  obtain ⟨_, result, rfl, _⟩ | ⟨_, rfl⟩ := repeatText_eq_some_iff.1 h <;> rfl

/-- An operator between a text and a count whose repetition has a size that no text has. -/
inductive Oversized : Operator → Value → Value → Prop where
  | times {count : Int64} {text : String} (size : NoTextSize (repeatedSize count text)) :
      Oversized .mul (.int count) (.str text)
  | repeated {text : String} {count : Int64} (size : NoTextSize (repeatedSize count text)) :
      Oversized .mul (.str text) (.int count)

theorem mul_eq_none_iff {left right : Value} :
    mul left right = none ↔ Oversized .mul left right := by
  constructor
  · intro h
    unfold mul at h
    split at h
    · exact .times (repeatText_eq_none_iff.1 h)
    · exact .repeated (repeatText_eq_none_iff.1 h)
    · split at h <;> contradiction
  · intro h
    cases h with
    | times size => exact repeatText_eq_none_iff.2 size
    | repeated size => exact repeatText_eq_none_iff.2 size

/-! ### Arithmetic -/

theorem isFlat_exact (n : Int) : (exact n).isFlat = true := by
  unfold exact
  split <;> rfl

theorem isFlat_add {left right : Value} (other : ¬(left.kind = .tuple ∧ right.kind = .tuple)) :
    (add left right).isFlat = true := by
  unfold add
  split
  · rfl
  · exact absurd ⟨rfl, rfl⟩ other
  split
  · exact isFlat_exact _
  · rfl
  · rfl

theorem isFlat_sub (left right : Value) : (sub left right).isFlat = true := by
  unfold sub
  split
  · exact isFlat_exact _
  · rfl
  · rfl

theorem isFlat_mul {left right v : Value} (h : mul left right = some v) : v.isFlat = true := by
  unfold mul at h
  split at h
  · exact isFlat_repeatText h
  · exact isFlat_repeatText h
  · split at h <;> cases h
    · exact isFlat_exact _
    · rfl
    · rfl

theorem isFlat_div (left right : Value) : (div left right).isFlat = true := by
  unfold div
  split
  · split
    · rfl
    · exact isFlat_exact _
  · split <;> rfl
  · rfl

theorem isFlat_rem (left right : Value) : (rem left right).isFlat = true := by
  unfold rem
  split
  · split
    · rfl
    split
    · exact isFlat_exact _
    · rfl
  · split <;> rfl
  · rfl

theorem isFlat_pow (left right : Value) : (pow left right).isFlat = true := by
  unfold pow
  split <;> rfl

/-! ### Bits and truth -/

theorem isFlat_bitAnd (left right : Value) : (bitAnd left right).isFlat = true := by
  unfold bitAnd
  split <;> rfl

theorem isFlat_bitOr (left right : Value) : (bitOr left right).isFlat = true := by
  unfold bitOr
  split <;> rfl

theorem isFlat_shl (left right : Value) : (shl left right).isFlat = true := by
  unfold shl
  split
  · split <;> rfl
  · rfl

theorem isFlat_shr (left right : Value) : (shr left right).isFlat = true := by
  unfold shr
  split
  · split <;> rfl
  · rfl

theorem isFlat_and (left right : Value) : (and left right).isFlat = true := by
  unfold and
  split <;> rfl

theorem isFlat_or (left right : Value) : (or left right).isFlat = true := by
  unfold or
  split <;> rfl

/-! ### Texts and tuples -/

theorem isFlat_concat {left right : Value} (other : ¬(left.kind = .tuple ∧ right.kind = .tuple)) :
    (concat left right).isFlat = true := by
  unfold concat
  split
  · rfl
  · exact absurd ⟨rfl, rfl⟩ other
  · rfl

end ShellExpr.Operation
