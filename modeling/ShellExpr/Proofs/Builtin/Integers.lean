import Mathlib.Data.List.Induction
import ShellExpr.Builtin.Rule

/-!
# Texts as integers

The texts that the builtin `int` turns into integers are the signed numerals with any blanks around
them, as far as 64 bits hold what they write.  Every other text is a failure.  The text of an
integer is turned back into it.
-/

namespace ShellExpr

namespace Text

/-! ### Blanks at both ends -/

/-- What is left of a text without the blanks at its ends. -/
structure Trims (whole core : List Char) : Prop where
  around : ∃ before after, whole = before ++ core ++ after ∧
    (∀ c ∈ before, isBlank c = true) ∧ ∀ c ∈ after, isBlank c = true
  first : ∀ c ∈ core.head?, isBlank c = false
  last : ∀ c ∈ core.getLast?, isBlank c = false

theorem trims_self {cs : List Char} (solid : ∀ c ∈ cs, isBlank c = false) : Trims cs cs where
  around := ⟨[], [], by simp, nofun, nofun⟩
  first := fun c first => solid c (List.mem_of_head? first)
  last := fun c last => solid c (List.mem_of_getLast? last)

theorem dropWhile_blanks {before core : List Char} (blank : ∀ c ∈ before, isBlank c = true)
    (first : ∀ c ∈ core.head?, isBlank c = false) :
    (before ++ core).dropWhile isBlank = core := by
  rw [List.dropWhile_append_of_pos blank]
  cases core with
  | nil => rfl
  | cons c cs => exact List.dropWhile_cons_of_neg (by simp [first c rfl])

theorem head?_dropWhile_blanks (cs : List Char) :
    ∀ c ∈ (cs.dropWhile isBlank).head?, isBlank c = false := by
  intro c first
  have stop := List.head?_dropWhile_not isBlank cs
  rw [first] at stop
  exact stop

theorem exists_blanks_behind_trim (whole : List Char) :
    ∃ after, whole.dropWhile isBlank = trim whole ++ after ∧ ∀ c ∈ after, isBlank c = true := by
  have split := List.takeWhile_append_dropWhile (p := isBlank)
    (l := (whole.dropWhile isBlank).reverse)
  refine ⟨((whole.dropWhile isBlank).reverse.takeWhile isBlank).reverse, ?_, ?_⟩
  · rw [trim, ← List.reverse_append, split, List.reverse_reverse]
  · intro c member
    exact List.all_eq_true.1 List.all_takeWhile c (List.mem_reverse.1 member)

theorem trims_trim (whole : List Char) : Trims whole (trim whole) := by
  obtain ⟨after, behind, blank⟩ := exists_blanks_behind_trim whole
  refine ⟨⟨whole.takeWhile isBlank, after, ?_, ?_, blank⟩, ?_, ?_⟩
  · rw [List.append_assoc, ← behind, List.takeWhile_append_dropWhile]
  · exact List.all_eq_true.1 List.all_takeWhile
  · intro c first
    refine head?_dropWhile_blanks whole c ?_
    rw [behind, List.head?_append, first]
    rfl
  · intro c last
    refine head?_dropWhile_blanks (whole.dropWhile isBlank).reverse c ?_
    rw [← List.head?_reverse, trim, List.reverse_reverse] at last
    exact last

theorem Trims.trim_eq {whole core : List Char} (h : Trims whole core) : trim whole = core := by
  obtain ⟨⟨before, after, rfl, blank, blank'⟩, first, last⟩ := h
  cases core with
  | nil =>
    have nothing : (before ++ [] ++ after).dropWhile isBlank = [] := by
      rw [List.append_nil, List.dropWhile_append_of_pos blank]
      exact List.append_nil after ▸ dropWhile_blanks blank' nofun
    rw [trim, nothing]
    rfl
  | cons c cs =>
    have behind : (before ++ c :: cs ++ after).dropWhile isBlank = c :: cs ++ after := by
      rw [List.append_assoc]
      exact dropWhile_blanks blank first
    have blank_reverse : ∀ x ∈ after.reverse, isBlank x = true :=
      fun x member => blank' x (List.mem_reverse.1 member)
    rw [← List.head?_reverse] at last
    rw [trim, behind, List.reverse_append, dropWhile_blanks blank_reverse last,
      List.reverse_reverse]

end Text

/-! ### Numerals -/

/-- Decimal digits and the number that they write: each of them counts ten times what the next one
does. -/
inductive Numeral : List Char → Nat → Prop where
  | digit {d : Nat} (small : d < 10) : Numeral [Nat.digitChar d] d
  | more {cs : List Char} {n d : Nat} (front : Numeral cs n) (small : d < 10) :
      Numeral (cs ++ [Nat.digitChar d]) (10 * n + d)

/-- A numeral, with one sign in front of it or with none. -/
inductive SignedNumeral : List Char → Int → Prop where
  | unsigned {cs : List Char} {n : Nat} (digits : Numeral cs n) : SignedNumeral cs n
  | plus {cs : List Char} {n : Nat} (digits : Numeral cs n) : SignedNumeral ('+' :: cs) n
  | minus {cs : List Char} {n : Nat} (digits : Numeral cs n) : SignedNumeral ('-' :: cs) (-n)

/-! ### Numerals are read -/

theorem isDigit_digitChar {d : Nat} (small : d < 10) : (Nat.digitChar d).isDigit = true := by
  rw [Nat.isDigit_digitChar]
  exact decide_eq_true small

theorem exists_digitChar_of_isDigit {c : Char} (h : c.isDigit = true) :
    ∃ d < 10, c = Nat.digitChar d := by
  rw [Char.isDigit_iff_toNat] at h
  have bounds : 48 ≤ c.toNat ∧ c.toNat ≤ 57 := h
  have small : c.toNat - 48 < 10 := by omega
  refine ⟨c.toNat - 48, small, ?_⟩
  rw [← Char.toNat_inj, Nat.toNat_digitChar_of_lt_ten small]
  omega

theorem isBlank_of_isDigit {c : Char} (h : c.isDigit = true) : Text.isBlank c = false := by
  have each : ∀ d < 10, Text.isBlank (Nat.digitChar d) = false := by decide
  obtain ⟨d, small, rfl⟩ := exists_digitChar_of_isDigit h
  exact each d small

theorem digitsValue_concat (cs : List Char) {d : Nat} (small : d < 10) :
    Text.digitsValue (cs ++ [Nat.digitChar d]) = 10 * Text.digitsValue cs + d := by
  rw [Text.digitsValue, Nat.ofDigitChars_append,
    Nat.ofDigitChars_cons_digitChar_of_lt_ten small, Nat.ofDigitChars_nil]
  rfl

/-- What a numeral is made of. -/
theorem Numeral.digits {cs : List Char} {n : Nat} (h : Numeral cs n) :
    cs ≠ [] ∧ (∀ c ∈ cs, c.isDigit = true) ∧ Text.digitsValue cs = n := by
  induction h with
  | @digit d small =>
    refine ⟨List.cons_ne_nil _ _, ?_, ?_⟩
    · intro c member
      rw [List.mem_singleton.1 member]
      exact isDigit_digitChar small
    · have value := digitsValue_concat [] small
      rw [List.nil_append] at value
      rw [value]
      exact Nat.zero_add d
  | more _ small ih =>
    obtain ⟨_, each, value⟩ := ih
    refine ⟨by simp, ?_, ?_⟩
    · intro c member
      rw [List.mem_append, List.mem_singleton] at member
      rcases member with front | rfl
      · exact each c front
      · exact isDigit_digitChar small
    · rw [digitsValue_concat _ small, value]

theorem numeral_digitsValue {cs : List Char} (filled : cs ≠ [])
    (each : ∀ c ∈ cs, c.isDigit = true) : Numeral cs (Text.digitsValue cs) := by
  induction cs using List.reverseRecOn with
  | nil => exact absurd rfl filled
  | append_singleton front c ih =>
    have last : c.isDigit = true := each c (by simp)
    obtain ⟨d, small, rfl⟩ := exists_digitChar_of_isDigit last
    rw [digitsValue_concat front small]
    by_cases alone : front = []
    · rw [alone]
      show Numeral [Nat.digitChar d] (10 * 0 + d)
      rw [Nat.mul_zero, Nat.zero_add]
      exact .digit small
    · exact .more (ih alone fun c member => each c (by simp [member])) small

theorem readDigits?_eq_some_iff {cs : List Char} {n : Nat} :
    Text.readDigits? cs = some n ↔ Numeral cs n := by
  constructor
  · intro read
    unfold Text.readDigits? at read
    split at read
    · rename_i digits
      rw [Bool.and_eq_true, List.all_eq_true] at digits
      rw [← Option.some.inj read]
      exact numeral_digitsValue (by simpa using digits.1) digits.2
    · contradiction
  · intro numeral
    obtain ⟨filled, each, value⟩ := numeral.digits
    have digits : (!cs.isEmpty && cs.all Char.isDigit) = true := by
      rw [Bool.and_eq_true, List.all_eq_true]
      exact ⟨by simpa using filled, each⟩
    rw [Text.readDigits?, if_pos digits, value]

theorem exists_size_of_counted {cs : List Char} {n : Int}
    (counted : ((Text.readDigits? cs).bind fun size => some (size : Int)) = some n) :
    ∃ size : Nat, Text.readDigits? cs = some size ∧ (size : Int) = n := by
  obtain ⟨size, digits, same⟩ := Option.bind_eq_some_iff.1 counted
  exact ⟨size, digits, Option.some.inj same⟩

theorem readSigned?_eq_some_iff {cs : List Char} {n : Int} :
    Integer.readSigned? cs = some n ↔ SignedNumeral cs n := by
  constructor
  · intro read
    unfold Integer.readSigned? at read
    split at read
    · obtain ⟨m, counted, rfl⟩ := Option.map_eq_some_iff.1 read
      obtain ⟨size, digits, rfl⟩ := exists_size_of_counted counted
      exact .plus (readDigits?_eq_some_iff.1 digits)
    · obtain ⟨m, counted, rfl⟩ := Option.map_eq_some_iff.1 read
      obtain ⟨size, digits, rfl⟩ := exists_size_of_counted counted
      exact .minus (readDigits?_eq_some_iff.1 digits)
    · obtain ⟨m, counted, rfl⟩ := Option.map_eq_some_iff.1 read
      obtain ⟨size, digits, rfl⟩ := exists_size_of_counted counted
      exact .unsigned (readDigits?_eq_some_iff.1 digits)
  · intro numeral
    cases numeral with
    | unsigned digits =>
      have read := readDigits?_eq_some_iff.2 digits
      have digit := digits.digits.2.1
      unfold Integer.readSigned?
      split
      · exact absurd (digit '+' List.mem_cons_self) (by decide)
      · exact absurd (digit '-' List.mem_cons_self) (by decide)
      · rw [read]
        rfl
    | plus digits =>
      rw [Integer.readSigned?, readDigits?_eq_some_iff.2 digits]
      rfl
    | minus digits =>
      rw [Integer.readSigned?, readDigits?_eq_some_iff.2 digits]
      rfl

theorem read?_eq_some_iff {cs : List Char} {n : Int64} :
    Integer.read? cs = some n ↔ SignedNumeral cs n.toInt := by
  rw [Integer.read?, Option.bind_eq_some_iff, ← readSigned?_eq_some_iff]
  constructor
  · intro h
    obtain ⟨m, read, fits⟩ := h
    rw [read, Integer.ofInt?_eq_some_iff.1 fits]
  · intro read
    exact ⟨n.toInt, read, Integer.ofInt?_eq_some_iff.2 rfl⟩

/-! ### Integers are written -/

theorem numeral_toDigits (n : Nat) : Numeral (Nat.toDigits 10 n) n := by
  have value := Text.readDigits?_toDigits n
  exact readDigits?_eq_some_iff.1 value

theorem signedNumeral_digits (n : Int) : SignedNumeral (Integer.digits n) n := by
  have size := numeral_toDigits n.natAbs
  by_cases negative : n < 0
  · have value : n = -(n.natAbs : Int) := by omega
    have signed := SignedNumeral.minus size
    rw [← value] at signed
    rw [Integer.digits, if_pos negative]
    exact signed
  · have value : n = (n.natAbs : Int) := by omega
    have signed := SignedNumeral.unsigned size
    rw [← value] at signed
    rw [Integer.digits, if_neg negative]
    exact signed

/-! ### The builtin -/

/-- No character of a numeral is a blank. -/
theorem SignedNumeral.trims {cs : List Char} {n : Int} (h : SignedNumeral cs n) :
    Text.Trims cs cs := by
  have digit : ∀ {ds : List Char} {k : Nat}, Numeral ds k → ∀ c ∈ ds, Text.isBlank c = false :=
    fun numeral c member => isBlank_of_isDigit (numeral.digits.2.1 c member)
  refine Text.trims_self ?_
  cases h with
  | unsigned digits => exact digit digits
  | plus digits => exact List.forall_mem_cons.2 ⟨by decide, digit digits⟩
  | minus digits => exact List.forall_mem_cons.2 ⟨by decide, digit digits⟩

theorem int_str (text : String) :
    Builtin.int.call (.str text) =
      match Integer.read? (Text.trim text.toList) with
      | some n => .int n
      | none => .error (FatalError.invalidConversion .str .int).message := by
  show Builtin.converting Value.toInt .int (.str text) = _
  cases found : Integer.read? (Text.trim text.toList) <;>
    simp [Builtin.converting, Value.toInt, found, Value.kind]

theorem int_str_eq_int_iff {text : String} {n : Int64} :
    Builtin.int.call (.str text) = .int n ↔
      ∃ core, Text.Trims text.toList core ∧ SignedNumeral core n.toInt := by
  have read : Builtin.int.call (.str text) = .int n ↔
      Integer.read? (Text.trim text.toList) = some n := by
    rw [int_str]
    cases Integer.read? (Text.trim text.toList) <;> simp
  rw [read, read?_eq_some_iff]
  constructor
  · intro numeral
    exact ⟨Text.trim text.toList, Text.trims_trim text.toList, numeral⟩
  · intro h
    obtain ⟨core, trims, numeral⟩ := h
    rw [trims.trim_eq]
    exact numeral

/-- The builtin `int` makes of a text the number that is written there: one sign or none and then
digits, with any blanks around them, for a number of 64 bits.  Every other text is a failure, and
the text that `str` makes of an integer is turned back into it. -/
theorem int_of_text :
    (∀ (text : String) (m : Int),
      (∃ n : Int64, n.toInt = m ∧ Builtin.int.call (.str text) = .int n) ↔
        (∃ core, Text.Trims text.toList core ∧ SignedNumeral core m) ∧ Integer.Fits m) ∧
    (∀ text : String, (∃ n, Builtin.int.call (.str text) = .int n) ∨
      Builtin.int.call (.str text) =
        .error (FatalError.invalidConversion .str .int).message) ∧
    ∀ n : Int64, Builtin.int.call (Builtin.str.call (.int n)) = .int n := by
  refine ⟨?_, ?_, ?_⟩
  · intro text m
    constructor
    · intro h
      obtain ⟨n, rfl, converted⟩ := h
      exact ⟨int_str_eq_int_iff.1 converted, Integer.fits_toInt n⟩
    · intro h
      obtain ⟨written, fits⟩ := h
      have value : (Int64.ofInt m).toInt = m :=
        Integer.ofInt?_eq_some_iff.1 (if_pos fits)
      exact ⟨Int64.ofInt m, value, int_str_eq_int_iff.2 (value.symm ▸ written)⟩
  · intro text
    rw [int_str]
    cases Integer.read? (Text.trim text.toList) with
    | none => exact .inr rfl
    | some n => exact .inl ⟨n, rfl⟩
  · intro n
    have numeral := signedNumeral_digits n.toInt
    have text : (Integer.written n).toList = Integer.digits n.toInt := String.toList_ofList
    show Builtin.int.call (.str (Integer.written n)) = .int n
    refine int_str_eq_int_iff.2 ⟨Integer.digits n.toInt, ?_, numeral⟩
    rw [text]
    exact numeral.trims

end ShellExpr
