import ShellExpr.Double.Reading

/-!
# Decimals that are too large

What is read from a decimal is a double without a sign: it is finite, or it is infinity because the
decimal is too large.  It is never the double that is no number.  The facts are those of the
unpacked forms on which core defines the reading of decimals.
-/

namespace ShellExpr.Double

open Float.Model
open UnpackedFloat (Accuracy Sign packComponents packedInfinity roundWithAccuracy unpackSign)

/-! ### Unpacked forms -/

/-- Zero, a positive number or positive infinity. -/
inductive Unsigned : UnpackedFloat → Prop where
  | zero : Unsigned (.zero .positive)
  | finite (mantissa : Nat) (exponent : Int) (pos : 0 < mantissa) :
      Unsigned (.finite .positive mantissa exponent pos)
  | infinity : Unsigned (.infinity .positive)

def isPositive : UnpackedFloat → Bool
  | .finite .positive .. => true
  | _ => false

theorem unsigned_mantissa (m : Nat) (e : Int) :
    Unsigned (if h : m = 0 then .zero .positive
      else .finite .positive m e (Nat.pos_of_ne_zero h)) := by
  by_cases h : m = 0
  · rw [dif_pos h]
    exact .zero
  · rw [dif_neg h]
    exact .finite _ _ _

theorem unsigned_round (format : Format) (m : Nat) (e : Int) (accuracy : Accuracy) :
    Unsigned (roundWithAccuracy format .positive m e accuracy) :=
  unsigned_mantissa _ _

theorem exists_of_isPositive {x : UnpackedFloat} (h : isPositive x = true) :
    ∃ m e pos, x = .finite .positive m e pos := by
  cases x with
  | finite sign m e pos =>
    cases sign with
    | positive => exact ⟨m, e, pos, rfl⟩
    | negative => contradiction
  | zero | infinity | notANumber => contradiction

theorem unsigned_mul {x y : UnpackedFloat} (hx : Unsigned x) (hy : isPositive y = true)
    (format : Format) : Unsigned (x.mul format y) := by
  obtain ⟨m, e, pos, rfl⟩ := exists_of_isPositive hy
  cases hx with
  | zero => exact .zero
  | finite => exact unsigned_round format _ _ _
  | infinity => exact .infinity

theorem unsigned_div {x y : UnpackedFloat} (hx : Unsigned x) (hy : isPositive y = true)
    (format : Format) : Unsigned (x.div format y) := by
  obtain ⟨m, e, pos, rfl⟩ := exists_of_isPositive hy
  cases hx with
  | zero => exact .zero
  | finite => exact unsigned_round format _ _ _
  | infinity => exact .infinity

theorem unsigned_ofScientific (format : Format) (m : Nat) (e : Int) :
    Unsigned (UnpackedFloat.ofScientific format m e) := by
  unfold UnpackedFloat.ofScientific
  by_cases hm : m = 0
  · rw [dif_pos hm]
    exact .zero
  rw [dif_neg hm]
  refine iteInduction (fun _ => .infinity) fun _ => iteInduction (fun _ => .zero) fun _ =>
    iteInduction (fun _ => ?_) fun _ => ?_
  · exact unsigned_mul (.finite _ _ _) rfl format
  · exact unsigned_div (.finite _ _ _) rfl format

theorem unsigned_ofNat (format : Format) (n : Nat) : Unsigned (UnpackedFloat.ofNat format n) := by
  show Unsigned (UnpackedFloat.normalize format n 0 .positive)
  unfold UnpackedFloat.normalize
  cases order : compare (n : Int) 0 with
  | lt => exact absurd (Int.compare_eq_lt.1 order) (Int.not_lt.2 (Int.natCast_nonneg n))
  | eq => exact .zero
  | gt => exact unsigned_round format _ _ _

/-! ### Packed forms -/

theorem unpackSign_positive {format : Format} (exponent : BitVec format.exponentBits)
    (mantissa : BitVec format.mantissaBitsWithoutImplicit) :
    unpackSign (packComponents format .positive exponent mantissa) = 0#1 := by
  -- The sign stands above the exponent, and the exponent above the mantissa.
  show BitVec.cast _ (BitVec.extractLsb _ _ (0#1 ++ exponent ++ mantissa)) = _
  rw [BitVec.extractLsb, BitVec.extractLsb'_append_eq_of_le (Nat.le_add_right _ _),
    Nat.add_sub_cancel_left, BitVec.extractLsb'_append_eq_of_le (Nat.le_refl _)]
  refine BitVec.eq_of_toNat_eq ?_
  rw [BitVec.toNat_cast, BitVec.extractLsb'_toNat, Nat.sub_self, Nat.sub_self]
  rfl

/-- Below the exponent of infinity stand zero and the positive numbers. -/
theorem unpack_packComponents {exponent : BitVec Format.binary64.exponentBits}
    (below : exponent ≠ -1#_) (mantissa : BitVec Format.binary64.mantissaBitsWithoutImplicit)
    {bits : BitVec Format.binary64.numBits}
    (h : bits = packComponents .binary64 .positive exponent mantissa) :
    Unsigned (.unpack .binary64 bits) ∧ (UnpackedFloat.unpack .binary64 bits).isFinite = true := by
  have sign : Sign.ofBitVec (unpackSign bits) = .positive := by
    rw [h, unpackSign_positive]
    rfl
  have small : UnpackedFloat.unpackExponent bits ≠ -1#_ := by
    rwa [h, UnpackedFloat.unpackExponent_packComponents]
  unfold UnpackedFloat.unpack
  dsimp only
  rw [sign, if_neg small]
  by_cases least : UnpackedFloat.unpackExponent bits = 0#_
  · rw [if_pos least]
    by_cases nothing : UnpackedFloat.unpackMantissa bits = 0#_
    · rw [dif_pos nothing]
      exact ⟨.zero, rfl⟩
    · rw [dif_neg nothing]
      exact ⟨.finite _ _ _, rfl⟩
  · rw [if_neg least]
    exact ⟨.finite _ _ _, rfl⟩

theorem pack_cases {x : UnpackedFloat} (hx : Unsigned x) :
    x.pack .binary64 = packedInfinity .binary64 .positive ∨
      ∃ exponent mantissa, exponent ≠ -1#_ ∧
        x.pack .binary64 = packComponents .binary64 .positive exponent mantissa := by
  cases hx with
  | zero => exact .inr ⟨0, 0, by decide, rfl⟩
  | infinity => exact .inl rfl
  | finite m e pos =>
    unfold UnpackedFloat.pack
    dsimp only
    split
    · exact .inl rfl
    · rename_i small
      split
      · refine .inr ⟨_, _, ?_, rfl⟩
        intro top
        have same := congrArg BitVec.toNat top
        rw [BitVec.toNat_ofNat, Nat.mod_eq_of_lt (by omega)] at same
        exact small (Nat.le_of_eq (congrArg Nat.succ same).symm)
      · exact .inr ⟨_, _, by decide, rfl⟩

/-- A double without a sign that is finite or infinity. -/
structure IsMagnitude (x : Float) : Prop where
  unsigned : Unsigned x.toModel.unpack
  within : x.isFinite = true ∨ x = infinity

theorem infinity_eq : infinity = .ofModel (.pack (.infinity .positive)) := by
  decide +kernel

theorem isMagnitude_infinity : IsMagnitude infinity := by
  have form : infinity.toModel.unpack = .infinity .positive := rfl
  exact ⟨form ▸ .infinity, .inr rfl⟩

theorem model_ext {x y : Float.Model} (h : x.toBits = y.toBits) : x = y := by
  cases x
  cases y
  cases h
  rfl

theorem isMagnitude_pack {x : UnpackedFloat} (hx : Unsigned x) :
    IsMagnitude (.ofModel (.pack x)) := by
  rcases pack_cases hx with same | ⟨exponent, mantissa, below, same⟩
  · have infinite : Float.Model.pack x = .pack (.infinity .positive) :=
      model_ext (congrArg UInt64.ofBitVec same)
    exact infinite ▸ infinity_eq ▸ isMagnitude_infinity
  · have unpacked := unpack_packComponents below mantissa same
    exact ⟨unpacked.1, .inl unpacked.2⟩

/-! ### Decimals -/

theorem isPositive_power (e : Nat) (h : e < Float.exactlyRepresentablePowersOfTen.size) :
    isPositive (Float.exactlyRepresentablePowersOfTen[e]).toModel.unpack = true := by
  have all : Float.exactlyRepresentablePowersOfTen.all
      (fun x => isPositive x.toModel.unpack) = true := by decide +kernel
  exact Array.all_eq_true.1 all e h

theorem isMagnitude_ofScientific (m : Nat) (negative : Bool) (e : Nat) :
    IsMagnitude (OfScientific.ofScientific m negative e) := by
  show IsMagnitude (Float.ofScientific m negative e)
  unfold Float.ofScientific
  split
  · have whole : IsMagnitude m.toUInt64.toFloat := isMagnitude_pack (unsigned_ofNat _ _)
    dsimp only
    split
    · exact isMagnitude_pack (unsigned_div whole.unsigned (isPositive_power e _) _)
    · exact isMagnitude_pack (unsigned_mul whole.unsigned (isPositive_power e _) _)
  · exact isMagnitude_pack (unsigned_ofScientific _ _ _)

theorem isMagnitude_ofDecimal (mantissa : Nat) (exponent : Int) :
    IsMagnitude (ofDecimal mantissa exponent) := by
  unfold ofDecimal
  dsimp only
  split
  · exact isMagnitude_ofScientific _ _ _
  split
  · exact isMagnitude_infinity
  split
  · exact isMagnitude_ofScientific _ _ _
  · exact isMagnitude_ofScientific _ _ _

end ShellExpr.Double
