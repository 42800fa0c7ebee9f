import Mathlib.Data.Int.ModEq
import Mathlib.Data.Rat.Floor
import ShellExpr.Proofs.Operation.Broadcast

/-!
# Shifts of integers

A shift is defined on the bits of a word.  On numbers one to the left multiplies by a power of two,
modulo the number of words, and one to the right divides by it and rounds down.  So a shift back
undoes one to the left where no bit was lost, and two shifts in one direction are one by the sum of
the amounts.
-/

namespace ShellExpr

open Machine

namespace Operation

/-- The numbers of places by which 64 bits are shifted. -/
def IsShiftAmount (b : Int64) : Prop :=
  0 ≤ b.toInt ∧ b.toInt < 64

/-! ### Words -/

namespace IsShiftAmount

variable {b : Int64} (h : IsShiftAmount b)

include h

/-- The amount is not reduced to the width of words. -/
theorem toNat_smod : (b.toBitVec.smod 64).toNat = b.toInt.toNat := by
  have same : (b.toBitVec.smod 64).toInt = b.toInt := by
    rw [BitVec.toInt_smod]
    exact Int.fmod_eq_of_lt h.1 h.2
  have small : (b.toBitVec.smod 64).toInt < 64 := by
    rw [same]
    exact h.2
  have nonneg : 0 ≤ (b.toBitVec.smod 64).toInt := by
    rw [same]
    exact h.1
  rw [← same]
  rw [BitVec.toInt_eq_toNat_cond] at nonneg small ⊢
  omega

theorem toInt_shiftLeft (a : Int64) :
    (a <<< b).toInt = (a.toInt * 2 ^ b.toInt.toNat).bmod (2 ^ 64) := by
  show (a <<< b).toBitVec.toInt = (a.toBitVec.toInt * 2 ^ b.toInt.toNat).bmod (2 ^ 64)
  rw [Int64.toBitVec_shiftLeft, BitVec.shiftLeft_eq', BitVec.toInt_shiftLeft, h.toNat_smod,
    BitVec.toInt_eq_toNat_bmod a.toBitVec, Int.bmod_mul_bmod, Nat.shiftLeft_eq]
  push_cast
  rfl

theorem toInt_shiftRight (a : Int64) : (a >>> b).toInt = a.toInt / 2 ^ b.toInt.toNat := by
  show (a >>> b).toBitVec.toInt = a.toBitVec.toInt / 2 ^ b.toInt.toNat
  rw [Int64.toBitVec_shiftRight, BitVec.toInt_sshiftRight', h.toNat_smod,
    Int.shiftRight_eq_div_pow]
  push_cast
  rfl

theorem shiftLeft_modEq (a : Int64) :
    (a <<< b).toInt ≡ a.toInt * 2 ^ b.toInt.toNat [ZMOD 2 ^ 64] := by
  rw [h.toInt_shiftLeft]
  exact Int.bmod_emod

theorem shiftRight_eq_floor (a : Int64) :
    (a >>> b).toInt = ⌊(a.toInt : ℚ) / 2 ^ b.toInt.toNat⌋ := by
  have floor := Rat.floor_intCast_div_natCast a.toInt (2 ^ b.toInt.toNat)
  push_cast at floor
  rw [h.toInt_shiftRight, floor]

/-- No bit is lost where 64 bits hold the product. -/
theorem toInt_shiftLeft_eq_iff (a : Int64) :
    (a <<< b).toInt = a.toInt * 2 ^ b.toInt.toNat ↔
      Integer.Fits (a.toInt * 2 ^ b.toInt.toNat) := by
  constructor
  · intro same
    rw [← same]
    exact Integer.fits_toInt (a <<< b)
  · intro fits
    rw [h.toInt_shiftLeft]
    exact Int64.toInt_ofInt.symm.trans (Int64.toInt_ofInt_of_le fits.1 (Int.lt_add_one_of_le fits.2))

theorem dvd_toInt_shiftLeft (a : Int64) : 2 ^ b.toInt.toNat ∣ (a <<< b).toInt := by
  have narrow : b.toInt.toNat ≤ 64 := by
    have := h.2
    omega
  have congruent := (h.shiftLeft_modEq a).of_dvd (pow_dvd_pow 2 narrow)
  exact congruent.dvd_iff.2 (Int.dvd_mul_left _ _)

theorem shiftRight_shiftLeft_eq_iff (a : Int64) :
    (a <<< b) >>> b = a ↔ Integer.Fits (a.toInt * 2 ^ b.toInt.toNat) := by
  rw [← Int64.toInt_inj, h.toInt_shiftRight, ← h.toInt_shiftLeft_eq_iff]
  exact Int.ediv_eq_iff_eq_mul_left (by positivity) (h.dvd_toInt_shiftLeft a)

end IsShiftAmount

/-- Two amounts that 64 bits have room for together. -/
structure AddAmounts (n m : Int64) : Prop where
  first : 0 ≤ n.toInt
  second : 0 ≤ m.toInt
  both : n.toInt + m.toInt < 64

namespace AddAmounts

variable {n m : Int64} (h : AddAmounts n m)

include h

theorem left : IsShiftAmount n := by
  obtain ⟨first, second, both⟩ := h
  exact ⟨first, by omega⟩

theorem right : IsShiftAmount m := by
  obtain ⟨first, second, both⟩ := h
  exact ⟨second, by omega⟩

theorem toInt_add : (n + m).toInt = n.toInt + m.toInt := by
  obtain ⟨first, second, both⟩ := h
  rw [Int64.toInt_add]
  exact Int.bmod_eq_of_le (by omega) (by omega)

theorem sum : IsShiftAmount (n + m) := by
  obtain ⟨first, second, both⟩ := h
  rw [IsShiftAmount, toInt_add ⟨first, second, both⟩]
  exact ⟨by omega, both⟩

theorem pow_sum : (2 : Int) ^ (n + m).toInt.toNat = 2 ^ n.toInt.toNat * 2 ^ m.toInt.toNat := by
  rw [h.toInt_add, Int.toNat_add h.first h.second, pow_add]

theorem shiftLeft_shiftLeft (a : Int64) : (a <<< n) <<< m = a <<< (n + m) := by
  rw [← Int64.toInt_inj, h.right.toInt_shiftLeft, h.left.toInt_shiftLeft, h.sum.toInt_shiftLeft,
    Int.bmod_mul_bmod, h.pow_sum, Int.mul_assoc]

theorem shiftRight_shiftRight (a : Int64) : (a >>> n) >>> m = a >>> (n + m) := by
  rw [← Int64.toInt_inj, h.right.toInt_shiftRight, h.left.toInt_shiftRight,
    h.sum.toInt_shiftRight, Int.ediv_ediv_of_nonneg (by positivity), h.pow_sum]

end AddAmounts

/-! ### Values -/

theorem shiftAmount?_of_amount {b : Int64} (h : IsShiftAmount b) :
    shiftAmount? b = some b.toInt.toNat :=
  if_pos h

theorem shiftAmount?_of_not_amount {b : Int64} (h : ¬IsShiftAmount b) : shiftAmount? b = none :=
  if_neg h

theorem ofNat_amount {b : Int64} (h : IsShiftAmount b) : Int64.ofNat b.toInt.toNat = b := by
  have whole : ((b.toInt.toNat : Nat) : Int) = b.toInt := Int.toNat_of_nonneg h.1
  rw [← Int64.ofInt_eq_ofNat, whole, Int64.ofInt_toInt]

/-- A shift between integers: `word` where there are as many places, and a failure where there are
not. -/
structure IsShift (rule : Value → Value → Value) (word : Int64 → Int64 → Int64) : Prop where
  inside {b : Int64} (h : IsShiftAmount b) (a : Int64) : rule (.int a) (.int b) = .int (word a b)
  outside {b : Int64} (h : ¬IsShiftAmount b) (a : Int64) :
    rule (.int a) (.int b) = Failure.shiftOutOfRange

theorem isShift_shl : IsShift (broadcast shl) (· <<< ·) where
  inside {b} h a := by
    show shl (.int a) (.int b) = .int (a <<< b)
    simp only [shl, shiftAmount?_of_amount h, ofNat_amount h]
  outside {b} h a := by
    show shl (.int a) (.int b) = Failure.shiftOutOfRange
    simp only [shl, shiftAmount?_of_not_amount h]

theorem isShift_shr : IsShift (broadcast shr) (· >>> ·) where
  inside {b} h a := by
    show shr (.int a) (.int b) = .int (a >>> b)
    simp only [shr, shiftAmount?_of_amount h, ofNat_amount h]
  outside {b} h a := by
    show shr (.int a) (.int b) = Failure.shiftOutOfRange
    simp only [shr, shiftAmount?_of_not_amount h]

/-- What holds of a shift of integers in either direction, where `meant a n` is the exact result of
a shift of `a` by `n` places. -/
structure ShiftLaws (rule : Value → Value → Value) (meant : Int → Nat → Int → Prop) : Prop where
  isInt_iff (a b : Int64) : (∃ n, rule (.int a) (.int b) = .int n) ↔ IsShiftAmount b
  refused (a b : Int64) :
    ¬IsShiftAmount b → rule (.int a) (.int b) = .error "Shift amount out of range"
  means (a b n : Int64) :
    rule (.int a) (.int b) = .int n → meant a.toInt b.toInt.toNat n.toInt
  twice (a n m : Int64) : AddAmounts n m →
    rule (rule (.int a) (.int n)) (.int m) = rule (.int a) (.int (n + m))

theorem IsShift.laws {rule : Value → Value → Value} {word : Int64 → Int64 → Int64}
    (h : IsShift rule word) {meant : Int → Nat → Int → Prop}
    (means : ∀ {b}, IsShiftAmount b → ∀ a : Int64, meant a.toInt b.toInt.toNat (word a b).toInt)
    (twice : ∀ {n m}, AddAmounts n m → ∀ a, word (word a n) m = word a (n + m)) :
    ShiftLaws rule meant where
  isInt_iff a b := by
    constructor
    · rintro ⟨n, result⟩
      by_contra outside
      rw [h.outside outside] at result
      cases result
    · intro inside
      exact ⟨_, h.inside inside a⟩
  refused a b outside := h.outside outside a
  means a b n result := by
    by_cases amount : IsShiftAmount b
    · rw [h.inside amount, Value.int.injEq] at result
      rw [← result]
      exact means amount a
    · rw [h.outside amount] at result
      cases result
  twice a n m both := by
    rw [h.inside both.left, h.inside both.right, h.inside both.sum, twice both]

/-- A shift back to the right undoes one to the left exactly where 64 bits hold the product. -/
theorem shr_shl_eq_iff (a b : Int64) :
    broadcast shr (broadcast shl (.int a) (.int b)) (.int b) = .int a ↔
      IsShiftAmount b ∧ Integer.Fits (a.toInt * 2 ^ b.toInt.toNat) := by
  by_cases amount : IsShiftAmount b
  · rw [isShift_shl.inside amount, isShift_shr.inside amount, Value.int.injEq,
      amount.shiftRight_shiftLeft_eq_iff, and_iff_right amount]
  · rw [isShift_shl.outside amount, broadcast_error_left rfl]
    exact iff_of_false Value.noConfusion fun both => amount both.1

/-- In every session the two shifts are what they are on numbers, for amounts from zero to below
64, and the same failure for all other amounts. -/
theorem shifts_exact :
    ∃ left right : Value → Value → Value,
      (∀ call u v, binary call .shl u v = pure (left u v)) ∧
      (∀ call u v, binary call .shr u v = pure (right u v)) ∧
      ShiftLaws left (fun a n result => result ≡ a * 2 ^ n [ZMOD 2 ^ 64]) ∧
      ShiftLaws right (fun a n result => result = ⌊(a : ℚ) / 2 ^ n⌋) ∧
      ∀ a b : Int64, right (left (.int a) (.int b)) (.int b) = .int a ↔
        IsShiftAmount b ∧ Integer.Fits (a.toInt * 2 ^ b.toInt.toNat) :=
  ⟨broadcast shl, broadcast shr, binary_of_total rfl, binary_of_total rfl,
    isShift_shl.laws IsShiftAmount.shiftLeft_modEq AddAmounts.shiftLeft_shiftLeft,
    isShift_shr.laws IsShiftAmount.shiftRight_eq_floor AddAmounts.shiftRight_shiftRight,
    shr_shl_eq_iff⟩

/-- The top bit is lost on the way to the left, and the sign is what comes back. -/
example :
    broadcast shr (broadcast shl (.int Int64.maxValue) (.int 1)) (.int 1) = .int (-1) := by
  rfl

end Operation

end ShellExpr
