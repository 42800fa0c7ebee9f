import ShellExpr.Integer
import ShellExpr.Text.Quoted

/-!
# Texts that show where they end

Two quoted texts at the front of one text are the same, whatever stands behind them, and so are two
numbers where no digit stands behind them.  For a quoted text this comes down to its characters: no
escape is the beginning of another one, and none begins with the closing quote.
-/

namespace ShellExpr

namespace Text

/-! ### Digits -/

theorem digitChar_injective {m n : Nat} (hm : m < 16) (hn : n < 16)
    (h : Nat.digitChar m = Nat.digitChar n) : m = n := by
  have all : ∀ i : Fin 16, ∀ j : Fin 16, Nat.digitChar i = Nat.digitChar j → i = j := by decide
  exact congrArg Fin.val (all ⟨m, hm⟩ ⟨n, hn⟩ h)

/-- A single digit is not the text of a larger number. -/
theorem toDigits_ne {b m n : Nat} (low : 1 < b) (few : m < b) (many : b ≤ n) :
    Nat.toDigits b m ≠ Nat.toDigits b n := by
  intro h
  rw [Nat.toDigits_of_lt_base few, Nat.toDigits_of_base_le low many] at h
  have lengths := congrArg List.length h
  have front : 0 < (Nat.toDigits b (n / b)).length := Nat.length_toDigits_pos
  simp only [List.length_append, List.length_cons, List.length_nil] at lengths
  omega

/-- Digits to a base up to sixteen determine the number. -/
theorem toDigits_injective {b : Nat} (low : 1 < b) (high : b ≤ 16) {m n : Nat}
    (h : Nat.toDigits b m = Nat.toDigits b n) : m = n := by
  induction m using Nat.strongRecOn generalizing n with
  | ind m ih =>
    by_cases few : m < b
    · by_cases few' : n < b
      · rw [Nat.toDigits_of_lt_base few, Nat.toDigits_of_lt_base few'] at h
        exact digitChar_injective (by omega) (by omega) (List.cons.inj h).1
      · exact absurd h (toDigits_ne low few (by omega))
    · by_cases few' : n < b
      · exact absurd h.symm (toDigits_ne low few' (by omega))
      · rw [Nat.toDigits_of_base_le low (Nat.not_lt.1 few),
          Nat.toDigits_of_base_le low (Nat.not_lt.1 few')] at h
        obtain ⟨front, last⟩ := List.append_inj' h rfl
        have hm : m % b < b := Nat.mod_lt m (by omega)
        have hn : n % b < b := Nat.mod_lt n (by omega)
        have quotients : m / b = n / b := ih (m / b) (Nat.div_lt_self (by omega) low) front
        have remainders : m % b = n % b :=
          digitChar_injective (by omega) (by omega) (List.cons.inj last).1
        rw [← Nat.div_add_mod m b, ← Nat.div_add_mod n b, quotients, remainders]

theorem exists_digitChar {b n : Nat} (low : 1 < b) {c : Char} (h : c ∈ Nat.toDigits b n) :
    ∃ d < b, c = Nat.digitChar d := by
  induction n using Nat.strongRecOn with
  | ind n ih =>
    by_cases few : n < b
    · rw [Nat.toDigits_of_lt_base few, List.mem_singleton] at h
      exact ⟨n, few, h⟩
    · rw [Nat.toDigits_of_base_le low (Nat.not_lt.1 few), List.mem_append,
        List.mem_singleton] at h
      rcases h with front | last
      · exact ih (n / b) (Nat.div_lt_self (by omega) low) front
      · exact ⟨n % b, Nat.mod_lt n (by omega), last⟩

/-! ### Runs of characters -/

/-- A text that does not go on with a character of the kind `p`. -/
def StopsAt (p : Char → Bool) (rest : List Char) : Prop :=
  ∀ c ∈ rest.head?, p c = false

/-- Two runs of characters of one kind are the same where the rests do not go on with such a
character. -/
theorem run_append_inj {p : Char → Bool} {xs ys r s : List Char} (hx : ∀ c ∈ xs, p c = true)
    (hy : ∀ c ∈ ys, p c = true) (hr : StopsAt p r) (hs : StopsAt p s)
    (h : xs ++ r = ys ++ s) : xs = ys ∧ r = s := by
  have stop {rest : List Char} (stops : StopsAt p rest) : rest.takeWhile p = [] := by
    cases rest with
    | nil => rfl
    | cons c cs => exact List.takeWhile_cons_of_neg (by simp [stops c rfl])
  have front := congrArg (List.takeWhile p) h
  rw [List.takeWhile_append_of_pos hx, List.takeWhile_append_of_pos hy, stop hr, stop hs,
    List.append_nil, List.append_nil] at front
  subst front
  exact ⟨rfl, List.append_cancel_left h⟩

/-! ### Quoted texts -/

/-- The characters with an escape of a single letter, and the letters. -/
def letters : List (Char × Char) :=
  [('\x00', '0'), ('\t', 't'), ('\n', 'n'), ('\r', 'r'), ('"', '"'), ('\\', '\\')]

/-- The three forms in which a character stands between quotes. -/
inductive Escaped (c : Char) : List Char → Prop where
  | letter {letter : Char} (known : (c, letter) ∈ letters) : Escaped c ['\\', letter]
  | plain (quote : c ≠ '"') (backslash : c ≠ '\\') : Escaped c [c]
  | code : Escaped c (codeEscape c)

theorem escaped_escape (c : Char) : Escaped c (escape c) := by
  unfold escape
  split
  · exact .letter (by decide)
  · exact .letter (by decide)
  · exact .letter (by decide)
  · exact .letter (by decide)
  · exact .letter (by decide)
  · exact .letter (by decide)
  · rename_i quote backslash
    split
    · exact .plain quote backslash
    · exact .code

theorem letters_injective {c d letter : Char} (hc : (c, letter) ∈ letters)
    (hd : (d, letter) ∈ letters) : c = d := by
  have all : ∀ x ∈ letters, ∀ y ∈ letters, x.2 = y.2 → x.1 = y.1 := by decide
  exact all _ hc _ hd rfl

/-- The letter of codes is no letter of its own. -/
theorem not_mem_letters (c : Char) : (c, 'u') ∉ letters := by
  have all : ∀ x ∈ letters, x.2 ≠ 'u' := by decide
  exact fun member => all _ member rfl

theorem ne_brace_of_hexDigit {c : Char} {n : Nat} (h : c ∈ Nat.toDigits 16 n) :
    (c != '\x7d') = true := by
  obtain ⟨d, small, rfl⟩ := exists_digitChar (by decide) h
  have all : ∀ i : Fin 16, (Nat.digitChar i != '\x7d') = true := by decide
  exact all ⟨d, small⟩

theorem codeEscape_append (c : Char) (r : List Char) :
    codeEscape c ++ r = '\\' :: 'u' :: '\x7b' :: (Nat.toDigits 16 c.toNat ++ '\x7d' :: r) := by
  simp [codeEscape]

theorem codeEscape_append_inj {c d : Char} {r s : List Char}
    (h : codeEscape c ++ r = codeEscape d ++ s) : c = d ∧ r = s := by
  simp only [codeEscape_append, List.cons.injEq, true_and] at h
  have stops (rest : List Char) : StopsAt (fun x => x != '\x7d') ('\x7d' :: rest) := by
    intro x first
    rw [← Option.some.inj first]
    rfl
  obtain ⟨digits, rest⟩ := run_append_inj (fun _ => ne_brace_of_hexDigit)
    (fun _ => ne_brace_of_hexDigit) (stops r) (stops s) h
  have same : c.toNat = d.toNat := toDigits_injective (by decide) (by decide) digits
  exact ⟨Char.toNat_inj.1 same, (List.cons.inj rest).2⟩

/-- No escape is the beginning of another one. -/
theorem escape_append_inj {c d : Char} {r s : List Char} (h : escape c ++ r = escape d ++ s) :
    c = d ∧ r = s := by
  have hc := escaped_escape c
  have hd := escaped_escape d
  generalize escape c = x at h hc
  generalize escape d = y at h hd
  cases hc with
  | letter known =>
    cases hd with
    | letter known' =>
      simp only [List.cons_append, List.nil_append, List.cons.injEq, true_and] at h
      obtain ⟨rfl, rest⟩ := h
      exact ⟨letters_injective known known', rest⟩
    | plain _ backslash => exact absurd (List.cons.inj h).1.symm backslash
    | code =>
      rw [codeEscape_append] at h
      obtain ⟨rfl, _⟩ := List.cons.inj (List.cons.inj h).2
      exact absurd known (not_mem_letters c)
  | plain _ backslash =>
    cases hd with
    | letter known' => exact absurd (List.cons.inj h).1 backslash
    | plain => exact List.cons.inj h
    | code => exact absurd (List.cons.inj h).1 backslash
  | code =>
    cases hd with
    | letter known' =>
      rw [codeEscape_append] at h
      obtain ⟨rfl, _⟩ := List.cons.inj (List.cons.inj h).2
      exact absurd known' (not_mem_letters d)
    | plain _ backslash => exact absurd (List.cons.inj h).1.symm backslash
    | code => exact codeEscape_append_inj h

/-- No escape begins with the closing quote. -/
theorem escape_append_ne_quote (c : Char) (r s : List Char) : escape c ++ r ≠ '"' :: s := by
  intro h
  have hc := escaped_escape c
  generalize escape c = x at h hc
  cases hc with
  | letter => exact absurd (List.cons.inj h).1 (by decide)
  | plain quote => exact absurd (List.cons.inj h).1 quote
  | code => exact absurd (List.cons.inj h).1 (by decide)

theorem quoteChars_append (cs r : List Char) :
    quoteChars cs ++ r = '"' :: (cs.flatMap escape ++ '"' :: r) := by
  simp [quoteChars]

/-- A quoted text ends at its closing quote. -/
theorem quoteChars_append_inj {cs ds r s : List Char}
    (h : quoteChars cs ++ r = quoteChars ds ++ s) : cs = ds ∧ r = s := by
  rw [quoteChars_append, quoteChars_append, List.cons.injEq] at h
  obtain ⟨_, h⟩ := h
  induction cs generalizing ds with
  | nil =>
    cases ds with
    | nil => exact ⟨rfl, (List.cons.inj h).2⟩
    | cons d ds =>
      rw [List.flatMap_cons, List.append_assoc] at h
      exact absurd h.symm (escape_append_ne_quote d _ r)
  | cons c cs ih =>
    cases ds with
    | nil =>
      rw [List.flatMap_cons, List.append_assoc] at h
      exact absurd h (escape_append_ne_quote c _ s)
    | cons d ds =>
      rw [List.flatMap_cons, List.flatMap_cons, List.append_assoc, List.append_assoc] at h
      obtain ⟨rfl, behind⟩ := escape_append_inj h
      obtain ⟨rfl, rest⟩ := ih behind
      exact ⟨rfl, rest⟩

end Text

namespace Integer

/-! ### Integers -/

theorem isDigit_of_mem_digits {n : Nat} : ∀ c ∈ Nat.toDigits 10 n, c.isDigit = true :=
  fun _ member => Nat.isDigit_of_mem_toDigits (by decide) (by decide) member

theorem toDigits_append_inj {m n : Nat} {r s : List Char} (hr : Text.StopsAt Char.isDigit r)
    (hs : Text.StopsAt Char.isDigit s)
    (h : Nat.toDigits 10 m ++ r = Nat.toDigits 10 n ++ s) : m = n ∧ r = s := by
  obtain ⟨digits, rest⟩ :=
    Text.run_append_inj isDigit_of_mem_digits isDigit_of_mem_digits hr hs h
  exact ⟨Text.toDigits_injective (by decide) (by decide) digits, rest⟩

/-- A number without a sign does not begin with one. -/
theorem toDigits_append_ne_sign (n : Nat) (r s : List Char) :
    Nat.toDigits 10 n ++ r ≠ '-' :: s := by
  intro h
  obtain ⟨c, cs, digits⟩ := List.exists_cons_of_ne_nil (Nat.toDigits_ne_nil (b := 10) (n := n))
  have digit : c.isDigit = true := isDigit_of_mem_digits (n := n) c (digits ▸ List.mem_cons_self)
  rw [digits] at h
  rw [(List.cons.inj h).1] at digit
  contradiction

/-- An integer ends where no digit follows. -/
theorem digits_append_inj {m n : Int} {r s : List Char} (hr : Text.StopsAt Char.isDigit r)
    (hs : Text.StopsAt Char.isDigit s) (h : digits m ++ r = digits n ++ s) : m = n ∧ r = s := by
  unfold digits at h
  by_cases below : m < 0
  · by_cases below' : n < 0
    · rw [if_pos below, if_pos below'] at h
      obtain ⟨sizes, rest⟩ := toDigits_append_inj hr hs (List.cons.inj h).2
      exact ⟨by omega, rest⟩
    · rw [if_pos below, if_neg below'] at h
      exact absurd h.symm (toDigits_append_ne_sign _ _ _)
  · by_cases below' : n < 0
    · rw [if_neg below, if_pos below'] at h
      exact absurd h (toDigits_append_ne_sign _ _ _)
    · rw [if_neg below, if_neg below'] at h
      obtain ⟨sizes, rest⟩ := toDigits_append_inj hr hs h
      exact ⟨by omega, rest⟩

end Integer

end ShellExpr
