/-!
# Texts

Sizes in bytes, blanks, runs of decimal digits, joined texts and repeated texts.
-/

namespace ShellExpr.Text

/-! ### Sizes in bytes -/

/-- The size of a text in bytes. -/
def byteLength (cs : List Char) : Nat :=
  cs.foldr (fun c size => c.utf8Size + size) 0

theorem byteLength_append (cs ds : List Char) :
    byteLength (cs ++ ds) = byteLength cs + byteLength ds := by
  induction cs with
  | nil => exact (Nat.zero_add (byteLength ds)).symm
  | cons c cs ih =>
    show c.utf8Size + byteLength (cs ++ ds) = c.utf8Size + byteLength cs + byteLength ds
    rw [ih, Nat.add_assoc]

/-! ### Blanks -/

/-- The code points with the Unicode property White_Space, as closed intervals. -/
def blankRanges : List (Nat × Nat) :=
  [(0x9, 0xd), (0x20, 0x20), (0x85, 0x85), (0xa0, 0xa0), (0x1680, 0x1680), (0x2000, 0x200a),
    (0x2028, 0x2029), (0x202f, 0x202f), (0x205f, 0x205f), (0x3000, 0x3000)]

def isBlank (c : Char) : Bool :=
  blankRanges.any fun range => range.1 ≤ c.toNat && c.toNat ≤ range.2

/-- The characters between the leading and the trailing blanks. -/
def trim (cs : List Char) : List Char :=
  ((cs.dropWhile isBlank).reverse.dropWhile isBlank).reverse

/-! ### Digits -/

/-- The digits at the front and the rest. -/
def spanDigits (cs : List Char) : List Char × List Char :=
  (cs.takeWhile Char.isDigit, cs.dropWhile Char.isDigit)

theorem spanDigits_append (cs : List Char) : (spanDigits cs).1 ++ (spanDigits cs).2 = cs :=
  List.takeWhile_append_dropWhile

/-- The number written with these digits. -/
def digitsValue (cs : List Char) : Nat :=
  Nat.ofDigitChars 10 cs 0

/-- One or more digits and nothing else. -/
def readDigits? (cs : List Char) : Option Nat :=
  if !cs.isEmpty && cs.all Char.isDigit then some (digitsValue cs) else none

theorem readDigits?_toDigits (n : Nat) : readDigits? (Nat.toDigits 10 n) = some n := by
  have digits : (Nat.toDigits 10 n).all Char.isDigit = true :=
    List.all_eq_true.2 fun c hc => Nat.isDigit_of_mem_toDigits (by omega) (by omega) hc
  have some_digit : (Nat.toDigits 10 n).isEmpty = false := by
    simp [Nat.toDigits_ne_nil]
  simp [readDigits?, digits, some_digit, digitsValue, Nat.ofDigitChars_ten_toDigits]

/-! ### Joined texts -/

/-- The text `start` with every part behind it, each behind a separator. -/
def joinOnto (separator start : String) : List String → String
  | [] => start
  | part :: rest => joinOnto separator (start ++ separator ++ part) rest

theorem joinOnto_append (separator start more : String) (parts : List String) :
    joinOnto separator (start ++ more) parts = start ++ joinOnto separator more parts := by
  induction parts generalizing more with
  | nil => rfl
  | cons part rest ih =>
    have regroup : start ++ more ++ separator ++ part = start ++ (more ++ separator ++ part) := by
      simp [String.append_assoc]
    rw [joinOnto, joinOnto, regroup, ih]

/-- Texts in a row with a separator between each and the next. -/
def joinWith (separator : String) : List String → String
  | [] => ""
  | part :: rest => joinOnto separator part rest

theorem joinWith_cons_cons (separator first second : String) (rest : List String) :
    joinWith separator (first :: second :: rest) =
      first ++ separator ++ joinWith separator (second :: rest) :=
  joinOnto_append separator (first ++ separator) second rest

/-! ### Repeated texts -/

/-- The text `start` with `text` behind it `times` times. -/
def repeatOnto (start text : String) : Nat → String
  | 0 => start
  | times + 1 => repeatOnto (start ++ text) text times

theorem toList_repeatOnto (start text : String) (times : Nat) :
    (repeatOnto start text times).toList =
      start.toList ++ (List.replicate times text.toList).flatten := by
  induction times generalizing start with
  | zero => simp [repeatOnto]
  | succ times ih => simp [repeatOnto, ih, List.replicate_succ]

end ShellExpr.Text
