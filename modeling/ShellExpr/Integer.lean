import ShellExpr.Text.Basic

/-!
# Integers of 64 bits

The range of the integers of the language, and their decimal texts.
-/

namespace ShellExpr.Integer

/-- Whether 64 bits hold the number. -/
def Fits (n : Int) : Prop :=
  Int64.minValue.toInt ≤ n ∧ n ≤ Int64.maxValue.toInt

instance (n : Int) : Decidable (Fits n) :=
  inferInstanceAs (Decidable (_ ∧ _))

/-- The integer with this value, if 64 bits hold it. -/
def ofInt? (n : Int) : Option Int64 :=
  if Fits n then some (Int64.ofInt n) else none

theorem fits_toInt (n : Int64) : Fits n.toInt :=
  ⟨Int64.minValue_le_toInt n, Int64.toInt_le n⟩

theorem ofInt?_eq_some_iff {n : Int} {m : Int64} : ofInt? n = some m ↔ m.toInt = n := by
  constructor
  · intro h
    unfold ofInt? at h
    split at h
    · rename_i fits
      rw [← Option.some.inj h]
      exact Int64.toInt_ofInt_of_le fits.1 (Int.lt_add_one_of_le fits.2)
    · contradiction
  · intro h
    subst h
    simp [ofInt?, fits_toInt]

/-! ### Decimal texts -/

/-- The sign and the digits of a number. -/
def digits (n : Int) : List Char :=
  if n < 0 then '-' :: Nat.toDigits 10 n.natAbs else Nat.toDigits 10 n.natAbs

def written (n : Int64) : String :=
  String.ofList (digits n.toInt)

/-- A number with an optional sign in front of its digits. -/
def readSigned? : List Char → Option Int
  | '+' :: cs => (Text.readDigits? cs).map fun n => (n : Int)
  | '-' :: cs => (Text.readDigits? cs).map fun n => -(n : Int)
  | cs => (Text.readDigits? cs).map fun n => (n : Int)

/-- The integer that a whole text stands for. -/
def read? (cs : List Char) : Option Int64 :=
  (readSigned? cs).bind ofInt?

end ShellExpr.Integer
