import ShellExpr.Proofs.Atom.Languages
import ShellExpr.Proofs.Double.Overflow

/-!
# Reading numbers

The reader of numbers takes digits, then a fraction and then an exponent where there are such.  What
it takes is the longest number at the front of a text, an integer or a real, and it has no value
only if it is too large.
-/

namespace ShellExpr.Atom

/-! ### The first digit -/

theorem Digits.head {text : List Char} (h : Digits text) :
    ∃ c cs, text = c :: cs ∧ c.isDigit = true := by
  obtain ⟨c, cs, rfl⟩ := List.exists_cons_of_ne_nil h.filled
  exact ⟨c, cs, rfl, h.each c List.mem_cons_self⟩

theorem number_head {text : List Char} (h : Digits text ∨ RealText text) :
    ∃ c cs, text = c :: cs ∧ c.isDigit = true := by
  rcases h with digits | real
  · exact digits.head
  · cases real with
    | point before | scaled before =>
      obtain ⟨c, cs, rfl, digit⟩ := before.head
      exact ⟨c, _, List.cons_append, digit⟩

/-! ### What the readers take -/

theorem not_isDigit_of_mark {mark : Char} (marked : mark = 'e' ∨ mark = 'E') :
    mark.isDigit = false := by
  rcases marked with rfl | rfl <;> decide

theorem Exponent.ne_nil {cs : List Char} (h : Exponent cs) : cs ≠ [] := by
  cases h with
  | mk => exact List.cons_ne_nil _ _

theorem digits_of_spanDigits {cs : List Char} (h : (Text.spanDigits cs).1.isEmpty = false) :
    Digits (Text.spanDigits cs).1 where
  filled := by simpa using h
  each c member := List.all_eq_true.1 List.all_takeWhile c member

theorem fraction_cases (cs : List Char) :
    (spanFraction cs).1 = [] ∨ ∃ digits, Digits digits ∧ (spanFraction cs).1 = '.' :: digits := by
  unfold spanFraction
  split
  · rename_i cs
    dsimp only
    split
    · exact .inl rfl
    · rename_i filled
      exact .inr ⟨_, digits_of_spanDigits (by simpa using filled), rfl⟩
  · exact .inl rfl

theorem sign_cases (cs : List Char) :
    (spanSign cs).1 = [] ∨ (spanSign cs).1 = ['+'] ∨ (spanSign cs).1 = ['-'] := by
  unfold spanSign
  split
  · exact .inr (.inl rfl)
  · exact .inr (.inr rfl)
  · exact .inl rfl

theorem exponent_cases (cs : List Char) :
    (spanExponent cs).1 = [] ∨ Exponent (spanExponent cs).1 := by
  unfold spanExponent
  split
  · exact .inl rfl
  · rename_i c cs
    split
    · rename_i mark
      dsimp only
      split
      · exact .inl rfl
      · rename_i filled
        have marked : c = 'e' ∨ c = 'E' := by simpa using mark
        exact .inr (.mk marked (sign_cases cs) (digits_of_spanDigits (by simpa using filled)))
    · exact .inl rfl

/-! ### What the readers do not miss -/

theorem spanDigits_append_digits {digits : List Char} (each : ∀ c ∈ digits, c.isDigit = true)
    (behind : List Char) :
    Text.spanDigits (digits ++ behind) =
      (digits ++ (Text.spanDigits behind).1, (Text.spanDigits behind).2) :=
  Prod.ext (List.takeWhile_append_of_pos each) (List.dropWhile_append_of_pos each)

theorem spanDigits_other {c : Char} (h : c.isDigit = false) (cs : List Char) :
    Text.spanDigits (c :: cs) = ([], c :: cs) :=
  Prod.ext (List.takeWhile_cons_of_neg (by simp [h])) (List.dropWhile_cons_of_neg (by simp [h]))

theorem spanDigits_exponent {exponent : List Char} (h : Exponent exponent) (behind : List Char) :
    Text.spanDigits (exponent ++ behind) = ([], exponent ++ behind) := by
  cases h with
  | mk marked => exact spanDigits_other (not_isDigit_of_mark marked) _

theorem spanFraction_point {digits : List Char} (h : Digits digits) (behind : List Char) :
    spanFraction ('.' :: (digits ++ behind)) =
      ('.' :: (digits ++ (Text.spanDigits behind).1), (Text.spanDigits behind).2) := by
  have filled : (digits ++ (Text.spanDigits behind).1).isEmpty = false := by
    simp [h.filled]
  simp only [spanFraction, spanDigits_append_digits h.each, filled, Bool.false_eq_true, if_false]

theorem spanFraction_exponent {exponent : List Char} (h : Exponent exponent)
    (behind : List Char) : spanFraction (exponent ++ behind) = ([], exponent ++ behind) := by
  cases h with
  | mk marked =>
    refine spanFraction_other ?_ _
    rcases marked with rfl | rfl <;> decide

theorem spanSign_of_sign {sign digits : List Char}
    (signed : sign = [] ∨ sign = ['+'] ∨ sign = ['-']) (h : Digits digits) (behind : List Char) :
    spanSign (sign ++ (digits ++ behind)) = (sign, digits ++ behind) := by
  rcases signed with rfl | rfl | rfl
  · obtain ⟨c, others, rfl, digit⟩ := h.head
    refine spanSign_other ?_ ?_ _
    · rintro rfl
      contradiction
    · rintro rfl
      contradiction
  · rfl
  · rfl

/-- An exponent in front is read, with all digits that follow. -/
theorem spanExponent_exponent {exponent : List Char} (h : Exponent exponent)
    (behind : List Char) :
    (spanExponent (exponent ++ behind)).1 = exponent ++ (Text.spanDigits behind).1 := by
  cases h with
  | @mk mark sign digits marked signed ends =>
    have read : (mark == 'e' || mark == 'E') = true := by simpa using marked
    have filled : (digits ++ (Text.spanDigits behind).1).isEmpty = false := by
      simp [ends.filled]
    simp only [List.cons_append, List.append_assoc, spanExponent, read, if_true,
      spanSign_of_sign signed ends, spanDigits_append_digits ends.each, filled, Bool.false_eq_true,
      if_false]

/-! ### The longest number -/

/-- The characters that the reader of numbers takes. -/
def numberText (cs : List Char) : List Char :=
  let (digits, afterDigits) := Text.spanDigits cs
  let (fraction, afterFraction) := spanFraction afterDigits
  digits ++ fraction ++ (spanExponent afterFraction).1

theorem numberText_in_front (cs : List Char) : numberText cs <+: cs := by
  have digits := Text.spanDigits_append cs
  have fraction := spanFraction_append (Text.spanDigits cs).2
  have exponent := spanExponent_append (spanFraction (Text.spanDigits cs).2).2
  refine ⟨(spanExponent (spanFraction (Text.spanDigits cs).2).2).2, ?_⟩
  simp only [numberText, List.append_assoc]
  rw [exponent, fraction, digits]

theorem length_digits_le_numberText {digits : List Char} (h : Digits digits)
    (behind : List Char) : digits.length ≤ (numberText (digits ++ behind)).length := by
  simp only [numberText, spanDigits_append_digits h.each, List.length_append]
  omega

theorem length_real_le_numberText {text : List Char} (h : RealText text) (behind : List Char) :
    text.length ≤ (numberText (text ++ behind)).length := by
  cases h with
  | @point whole fraction exponent before fractional scaled =>
    have point : Text.spanDigits ('.' :: (fraction ++ exponent ++ behind)) =
        ([], '.' :: (fraction ++ exponent ++ behind)) := spanDigits_other (by decide) _
    simp only [numberText, List.append_assoc, List.cons_append,
      spanDigits_append_digits before.each] at point ⊢
    simp only [point, spanFraction_point fractional, List.length_append,
      List.length_cons]
    rcases scaled with rfl | scaled
    · simp only [List.length_nil]
      omega
    · simp only [spanDigits_exponent scaled, spanExponent_exponent scaled, List.length_append]
      omega
  | @scaled whole exponent before scaled =>
    simp only [numberText, List.append_assoc, spanDigits_append_digits before.each,
      spanDigits_exponent scaled, List.append_nil, spanFraction_exponent scaled,
      spanExponent_exponent scaled, List.length_append]
    omega

theorem length_number_le_numberText {text : List Char} (h : Digits text ∨ RealText text)
    (behind : List Char) : text.length ≤ (numberText (text ++ behind)).length := by
  rcases h with digits | real
  · exact length_digits_le_numberText digits behind
  · exact length_real_le_numberText real behind

theorem numberText_of_number {text : List Char} (h : Digits text ∨ RealText text) :
    numberText text = text := by
  have reach := length_number_le_numberText h []
  rw [List.append_nil] at reach
  exact (numberText_in_front text).eq_of_length_le reach

/-! ### The value of a number -/

theorem readDigits?_of_digits {text : List Char} (h : Digits text) :
    Text.readDigits? text = some (Text.digitsValue text) := by
  have filled : text.isEmpty = false := by simp [h.filled]
  rw [Text.readDigits?, filled, List.all_eq_true.2 h.each]
  rfl

theorem readSigned?_of_digits {text : List Char} (h : Digits text) :
    Integer.readSigned? text = some (Text.digitsValue text : Int) := by
  obtain ⟨c, others, rfl, digit⟩ := h.head
  rw [Integer.readSigned?, readDigits?_of_digits h]
  · rfl
  · rintro cs same
    cases same
    contradiction
  · rintro cs same
    cases same
    contradiction

theorem readSigned?_of_sign {sign digits : List Char}
    (signed : sign = [] ∨ sign = ['+'] ∨ sign = ['-']) (h : Digits digits) :
    ∃ n, Integer.readSigned? (sign ++ digits) = some n := by
  have read := readDigits?_of_digits h
  rcases signed with rfl | rfl | rfl
  · exact ⟨_, readSigned?_of_digits h⟩
  · refine ⟨Text.digitsValue digits, ?_⟩
    rw [List.cons_append, List.nil_append, Integer.readSigned?, read]
    rfl
  · refine ⟨-Text.digitsValue digits, ?_⟩
    rw [List.cons_append, List.nil_append, Integer.readSigned?, read]
    rfl

theorem read?_of_digits {text : List Char} (h : Digits text) :
    Integer.read? text = Integer.ofInt? (Text.digitsValue text) := by
  rw [Integer.read?, readSigned?_of_digits h]
  rfl

/-- A value that depends on an exponent, at the one that is written. -/
def scaledBy (value : Int → Float) : List Char → Option Float
  | [] => some (value 0)
  | 'e' :: cs => (Integer.readSigned? cs).map value
  | 'E' :: cs => (Integer.readSigned? cs).map value
  | _ => none

theorem exists_scaledBy {exponent : List Char} (scaled : exponent = [] ∨ Exponent exponent)
    (value : Int → Float) : ∃ n, scaledBy value exponent = some (value n) := by
  rcases scaled with rfl | ⟨marked, signed, ends⟩
  · exact ⟨0, rfl⟩
  · obtain ⟨n, found⟩ := readSigned?_of_sign signed ends
    refine ⟨n, ?_⟩
    rcases marked with rfl | rfl
    · exact congrArg (Option.map value) found
    · exact congrArg (Option.map value) found

/-- A real is read, and what is read has no sign. -/
theorem readDecimal?_of_real {text : List Char} (h : RealText text) :
    ∃ r, Double.readDecimal? text = some r ∧ Double.IsMagnitude r := by
  cases h with
  | @point whole fraction exponent before fractional scaled =>
    have rest : Text.spanDigits exponent = ([], exponent) := by
      rcases scaled with rfl | scaled
      · rfl
      · have alone := spanDigits_exponent scaled []
        rwa [List.append_nil] at alone
    have digits : Text.spanDigits (whole ++ '.' :: (fraction ++ exponent)) =
        (whole, '.' :: (fraction ++ exponent)) := by
      rw [spanDigits_append_digits before.each, spanDigits_other (by decide), List.append_nil]
    have fractions : Text.spanDigits (fraction ++ exponent) = (fraction, exponent) := by
      rw [spanDigits_append_digits fractional.each, rest, List.append_nil]
    have filled : (whole.isEmpty && fraction.isEmpty) = false := by
      simp [before.filled]
    have read : Double.readDecimal? (whole ++ '.' :: (fraction ++ exponent)) =
        scaledBy (fun n => Double.ofDecimal (Text.digitsValue (whole ++ fraction))
          (n - fraction.length)) exponent := by
      simp only [Double.readDecimal?, digits, fractions, filled]
      rfl
    obtain ⟨n, value⟩ := exists_scaledBy scaled _
    exact ⟨_, read.trans value, Double.isMagnitude_ofDecimal _ _⟩
  | @scaled whole exponent before scaled =>
    have rest := spanDigits_exponent scaled []
    rw [List.append_nil] at rest
    have digits : Text.spanDigits (whole ++ exponent) = (whole, exponent) := by
      rw [spanDigits_append_digits before.each, rest, List.append_nil]
    have filled : whole.isEmpty = false := by
      simp [before.filled]
    have read : Double.readDecimal? (whole ++ exponent) =
        scaledBy (fun n => Double.ofDecimal (Text.digitsValue (whole ++ []))
          (n - ([] : List Char).length)) exponent := by
      cases scaled with
      | mk marked signed ends =>
        rcases marked with rfl | rfl
        · simp only [Double.readDecimal?, digits, filled, Bool.false_and, Bool.false_eq_true,
            if_false]
          rfl
        · simp only [Double.readDecimal?, digits, filled, Bool.false_and, Bool.false_eq_true,
            if_false]
          rfl
    obtain ⟨n, value⟩ := exists_scaledBy (.inr scaled) _
    exact ⟨_, read.trans value, Double.isMagnitude_ofDecimal _ _⟩

/-! ### What becomes of a number -/

/-- The atom of a number, unless it is too large. -/
def numberAtom? (text : List Char) : Option Atom :=
  if text.all Char.isDigit then (Integer.read? text).map .int
  else ((Double.readDecimal? text).filter Float.isFinite).map .real

theorem numberAtom?_digits {text : List Char} (h : Digits text) :
    numberAtom? text = (Integer.ofInt? (Text.digitsValue text)).map .int := by
  rw [numberAtom?, if_pos (List.all_eq_true.2 h.each), read?_of_digits h]

/-- A point or the letter of an exponent is no digit. -/
theorem RealText.not_digits {text : List Char} (h : RealText text) :
    text.all Char.isDigit = false := by
  cases h with
  | point => simp
  | scaled _ scaled =>
    cases scaled with
    | mk marked => simp [not_isDigit_of_mark marked]

theorem numberAtom?_real {text : List Char} (h : RealText text) :
    numberAtom? text = ((Double.readDecimal? text).filter Float.isFinite).map .real := by
  rw [numberAtom?, h.not_digits]
  rfl

theorem ofInt?_of_large {n : Nat} (h : Int64.maxValue.toInt < n) : Integer.ofInt? n = none :=
  if_neg fun fits => Int.not_le.2 h fits.2

theorem TooLarge.number {text : List Char} (h : TooLarge text) : Digits text ∨ RealText text := by
  cases h with
  | integer digits => exact .inl digits
  | real real => exact .inr real

theorem TooLarge.numberAtom? {text : List Char} (h : TooLarge text) : numberAtom? text = none := by
  cases h with
  | integer digits large => rw [numberAtom?_digits digits, ofInt?_of_large large, Option.map_none]
  | real real infinite =>
    rw [numberAtom?_real real, infinite]
    rfl

theorem number_cases {text : List Char} (h : Digits text ∨ RealText text) :
    (∃ atom, numberAtom? text = some atom ∧ Spells text atom) ∨
      (numberAtom? text = none ∧ TooLarge text) := by
  rcases h with digits | real
  · rw [numberAtom?_digits digits]
    cases found : Integer.ofInt? (Text.digitsValue text) with
    | some n => exact .inl ⟨_, rfl, .integer digits (Integer.ofInt?_eq_some_iff.1 found)⟩
    | none =>
      refine .inr ⟨rfl, .integer digits (Int.not_le.1 fun small => ?_)⟩
      have fits : Integer.Fits (Text.digitsValue text) :=
        ⟨Int.le_trans (by decide) (Int.natCast_nonneg _), small⟩
      rw [Integer.ofInt?, if_pos fits] at found
      contradiction
  · obtain ⟨r, value, magnitude⟩ := readDecimal?_of_real real
    rw [numberAtom?_real real, value]
    rcases magnitude.within with finite | rfl
    · have kept : (some r).filter Float.isFinite = some r := if_pos finite
      rw [kept]
      exact .inl ⟨_, rfl, .real real value finite⟩
    · exact .inr ⟨rfl, .real real value⟩

/-- Digits are an integer if nothing is read behind them, and a real otherwise. -/
theorem number_kind {digits : List Char} (h : Digits digits) (cs behind : List Char) :
    let fraction := (spanFraction cs).1
    let exponent := (spanExponent behind).1
    ((fraction.isEmpty && exponent.isEmpty) = true ∧ Digits (digits ++ fraction ++ exponent)) ∨
      ((fraction.isEmpty && exponent.isEmpty) = false ∧
        RealText (digits ++ fraction ++ exponent)) := by
  intro fraction exponent
  have fractional : fraction = [] ∨ ∃ ends, Digits ends ∧ fraction = '.' :: ends :=
    fraction_cases cs
  have scaled : exponent = [] ∨ Exponent exponent := exponent_cases behind
  rcases fractional with none_read | ⟨ends, some_read, point⟩
  · rw [none_read, List.append_nil]
    rcases scaled with no_scale | scale
    · rw [no_scale, List.append_nil]
      exact .inl ⟨rfl, h⟩
    · have filled : exponent ≠ [] := scale.ne_nil
      exact .inr ⟨by simp [filled], .scaled h scale⟩
  · rw [point, List.append_assoc]
    exact .inr ⟨rfl, .point h some_read scaled⟩

/-- The longest number at the front is read, and its text alone says what becomes of it. -/
theorem number?_eq {c : Char} (digit : c.isDigit = true) (cs : List Char) :
    (Digits (numberText (c :: cs)) ∨ RealText (numberText (c :: cs))) ∧
      ∃ rest, number? c cs =
        match numberAtom? (numberText (c :: cs)) with
        | some atom => .ok ⟨atom, numberText (c :: cs), rest⟩
        | none => .error (numberText (c :: cs)) := by
  have first : Text.spanDigits (c :: cs) = (c :: (Text.spanDigits cs).1, (Text.spanDigits cs).2) :=
    Prod.ext (List.takeWhile_cons_of_pos digit) (List.dropWhile_cons_of_pos digit)
  have digits := @digits_of_spanDigits (c :: cs) (by rw [first]; rfl)
  rw [first] at digits
  have kind := number_kind digits (Text.spanDigits cs).2 (spanFraction (Text.spanDigits cs).2).2
  simp only [number?, numberText, first]
  rcases kind with ⟨alone, integer⟩ | ⟨more, real⟩
  · refine ⟨.inl integer, (spanExponent (spanFraction (Text.spanDigits cs).2).2).2, ?_⟩
    rw [alone, numberAtom?, if_pos (List.all_eq_true.2 integer.each)]
    rfl
  · refine ⟨.inr real, (spanExponent (spanFraction (Text.spanDigits cs).2).2).2, ?_⟩
    rw [more, numberAtom?_real real]
    rfl

/-- The longest number at the front is an atom or too large. -/
theorem number?_cases {c : Char} (digit : c.isDigit = true) (cs : List Char) :
    (∃ lexeme, number? c cs = .ok lexeme ∧ lexeme.text = numberText (c :: cs) ∧
      Spells lexeme.text lexeme.atom) ∨
    (number? c cs = .error (numberText (c :: cs)) ∧ TooLarge (numberText (c :: cs))) := by
  obtain ⟨number, rest, read⟩ := number?_eq digit cs
  rcases number_cases number with ⟨atom, found, spells⟩ | ⟨missing, large⟩
  · rw [found] at read
    exact .inl ⟨_, read, rfl, spells⟩
  · rw [missing] at read
    exact .inr ⟨read, large⟩

end ShellExpr.Atom
