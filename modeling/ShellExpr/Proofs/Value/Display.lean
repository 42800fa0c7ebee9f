import ShellExpr.Proofs.Text.Delimited
import ShellExpr.Proofs.Value.Order
import ShellExpr.Value.Display

/-!
# Containers and their texts

Two lists or tuples of discrete values with one text are the same value.  Texts are quoted in
containers, so what stands in a container shows by its first character of which kind it is, and
shows where it ends: an integer where no digit follows, all other values by their last character.
-/

namespace ShellExpr

open Text (StopsAt)

/-! ### The characters of containers -/

/-- The characters behind an item of a container, up to and behind its closing bracket. -/
def behindItem (closing : Char) (rest : List Char) : List Value → List Char
  | [] => closing :: rest
  | v :: vs => ',' :: ' ' :: (v.nestedText.toList ++ behindItem closing rest vs)

/-- The characters behind the opening bracket. -/
def behindOpening (closing : Char) (rest : List Char) : List Value → List Char
  | [] => closing :: rest
  | v :: vs => v.nestedText.toList ++ behindItem closing rest vs

theorem toList_joinWith (closing : Char) (rest : List Char) (items : List Value) :
    (Text.joinWith ", " (items.map Value.nestedText)).toList ++ closing :: rest =
      behindOpening closing rest items := by
  cases items with
  | nil => rfl
  | cons v vs =>
    show _ = v.nestedText.toList ++ behindItem closing rest vs
    induction vs generalizing v with
    | nil => rfl
    | cons w vs ih =>
      have later := ih w
      rw [List.map_cons] at later
      rw [List.map_cons, List.map_cons, Text.joinWith_cons_cons, behindItem, ← later]
      simp

theorem toList_nestedText_list (items : List Value) (rest : List Char) :
    (Value.list items).nestedText.toList ++ rest = '[' :: behindOpening ']' rest items := by
  show (bracketed "[" (itemTexts items) "]").toList ++ rest = _
  rw [← toList_joinWith, itemTexts_eq]
  simp [bracketed]

theorem toList_nestedText_tuple (items : Tuple Value) (rest : List Char) :
    (Value.tuple items).nestedText.toList ++ rest =
      '(' :: behindOpening ')' rest items.toList := by
  show (bracketed "(" (elementTexts items) ")").toList ++ rest = _
  rw [← toList_joinWith, elementTexts_eq]
  simp [bracketed]

theorem toList_nestedText_int (n : Int64) :
    (Value.int n).nestedText.toList = Integer.digits n.toInt := by
  simp [Value.nestedText, Value.text, Integer.written]

theorem toList_nestedText_str (text : String) :
    (Value.str text).nestedText.toList = Text.quoteChars text.toList :=
  Text.toList_quote text

/-! ### First characters -/

/-- The kind of the value in a container whose text begins with this character. -/
def kindOfFirst (c : Char) : Kind :=
  if c = '"' then .str else if c = '[' then .list else if c = '(' then .tuple else .int

def IsClosing (c : Char) : Prop :=
  c = ']' ∨ c = ')'

theorem kindOfFirst_digit {c : Char} (h : c.isDigit = true) :
    kindOfFirst c = .int ∧ ¬IsClosing c := by
  have other {d : Char} (no_digit : d.isDigit = false) : c ≠ d := by
    intro same
    rw [same, no_digit] at h
    contradiction
  constructor
  · rw [kindOfFirst, if_neg (other rfl), if_neg (other rfl), if_neg (other rfl)]
  · exact fun closing => closing.elim (other rfl) (other rfl)

theorem exists_first_digits (n : Int) :
    ∃ c cs, Integer.digits n = c :: cs ∧ kindOfFirst c = .int ∧ ¬IsClosing c := by
  have filled : Nat.toDigits 10 n.natAbs ≠ [] := Nat.toDigits_ne_nil
  obtain ⟨c, cs, digits⟩ := List.exists_cons_of_ne_nil filled
  have digit : c.isDigit = true := Integer.isDigit_of_mem_digits c (digits ▸ List.mem_cons_self)
  unfold Integer.digits
  by_cases negative : n < 0
  · rw [if_pos negative]
    exact ⟨'-', _, rfl, by decide, by simp [IsClosing]⟩
  · rw [if_neg negative, digits]
    exact ⟨c, cs, rfl, kindOfFirst_digit digit⟩

/-- The first character tells the kind, and no value begins as a container ends. -/
theorem exists_first {v : Value} (h : v.Discrete) (r : List Char) :
    ∃ c cs, v.nestedText.toList ++ r = c :: cs ∧ kindOfFirst c = v.kind ∧ ¬IsClosing c := by
  cases h with
  | int n =>
    obtain ⟨c, cs, digits, first⟩ := exists_first_digits n.toInt
    rw [toList_nestedText_int, digits]
    exact ⟨c, cs ++ r, rfl, first⟩
  | str text =>
    rw [toList_nestedText_str, Text.quoteChars_append]
    exact ⟨'"', _, rfl, rfl, by simp [IsClosing]⟩
  | list =>
    rw [toList_nestedText_list]
    exact ⟨'[', _, rfl, rfl, by simp [IsClosing]⟩
  | tuple =>
    rw [toList_nestedText_tuple]
    exact ⟨'(', _, rfl, rfl, by simp [IsClosing]⟩

theorem kind_of_append {v w : Value} (hv : v.Discrete) (hw : w.Discrete) {r s : List Char}
    (h : v.nestedText.toList ++ r = w.nestedText.toList ++ s) : v.kind = w.kind := by
  obtain ⟨c, cs, front, kind, _⟩ := exists_first hv r
  obtain ⟨d, ds, front', kind', _⟩ := exists_first hw s
  rw [front, front'] at h
  rw [← kind, ← kind', (List.cons.inj h).1]

/-! ### One reading -/

theorem stopsAt_of_isClosing {closing : Char} (h : IsClosing closing) (rest : List Char) :
    StopsAt Char.isDigit (closing :: rest) := by
  intro c first
  rw [← Option.some.inj first]
  rcases h with rfl | rfl <;> decide

theorem stopsAt_behindItem {closing : Char} (h : IsClosing closing) (rest : List Char)
    (items : List Value) : StopsAt Char.isDigit (behindItem closing rest items) := by
  cases items with
  | nil => exact stopsAt_of_isClosing h rest
  | cons v vs =>
    intro c first
    rw [← Option.some.inj first]
    decide

/-- No other discrete value has the same text in front of the rest of a container. -/
def ReadsOnce (v : Value) : Prop :=
  ∀ w : Value, w.Discrete → ∀ r s : List Char, StopsAt Char.isDigit r → StopsAt Char.isDigit s →
    v.nestedText.toList ++ r = w.nestedText.toList ++ s → v = w ∧ r = s

section

variable {closing : Char} (closes : IsClosing closing) {xs ys : List Value} {r s : List Char}

include closes

theorem behindItem_inj (once : ∀ x ∈ xs, ReadsOnce x) (hy : ∀ y ∈ ys, y.Discrete)
    (h : behindItem closing r xs = behindItem closing s ys) : xs = ys ∧ r = s := by
  have no_comma : closing ≠ ',' := by
    rcases closes with rfl | rfl <;> decide
  induction xs generalizing ys with
  | nil =>
    cases ys with
    | nil => exact ⟨rfl, (List.cons.inj h).2⟩
    | cons y ys => exact absurd (List.cons.inj h).1 no_comma
  | cons x xs ih =>
    cases ys with
    | nil => exact absurd (List.cons.inj h).1.symm no_comma
    | cons y ys =>
      rw [List.forall_mem_cons] at once hy
      have behind := (List.cons.inj (List.cons.inj h).2).2
      obtain ⟨rfl, later⟩ := once.1 y hy.1 _ _ (stopsAt_behindItem closes r xs)
        (stopsAt_behindItem closes s ys) behind
      obtain ⟨rfl, rest⟩ := ih once.2 hy.2 later
      exact ⟨rfl, rest⟩

theorem behindOpening_inj (hx : ∀ x ∈ xs, x.Discrete) (once : ∀ x ∈ xs, ReadsOnce x)
    (hy : ∀ y ∈ ys, y.Discrete) (h : behindOpening closing r xs = behindOpening closing s ys) :
    xs = ys ∧ r = s := by
  have filled {v : Value} (hv : v.Discrete) (behind rest : List Char) :
      v.nestedText.toList ++ behind ≠ closing :: rest := by
    intro same
    obtain ⟨c, cs, front, _, opens⟩ := exists_first hv behind
    rw [front] at same
    rw [(List.cons.inj same).1] at opens
    exact opens closes
  cases xs with
  | nil =>
    cases ys with
    | nil => exact ⟨rfl, (List.cons.inj h).2⟩
    | cons y ys =>
      rw [List.forall_mem_cons] at hy
      exact absurd h.symm (filled hy.1 _ r)
  | cons x xs =>
    rw [List.forall_mem_cons] at hx once
    cases ys with
    | nil => exact absurd h (filled hx.1 _ s)
    | cons y ys =>
      rw [List.forall_mem_cons] at hy
      obtain ⟨rfl, later⟩ := once.1 y hy.1 _ _ (stopsAt_behindItem closes r xs)
        (stopsAt_behindItem closes s ys) h
      obtain ⟨rfl, rest⟩ := behindItem_inj closes once.2 hy.2 later
      exact ⟨rfl, rest⟩

end

theorem readsOnce {v : Value} (h : v.Discrete) : ReadsOnce v := by
  induction h with
  | int n =>
    intro w hw r s hr hs same
    have kind := kind_of_append (.int n) hw same
    cases hw with
    | int m =>
      rw [toList_nestedText_int, toList_nestedText_int] at same
      obtain ⟨numbers, rest⟩ := Integer.digits_append_inj hr hs same
      exact ⟨congrArg Value.int (Int64.toInt_inj.1 numbers), rest⟩
    | _ => cases kind
  | str text =>
    intro w hw r s _ _ same
    have kind := kind_of_append (.str text) hw same
    cases hw with
    | str other =>
      rw [toList_nestedText_str, toList_nestedText_str] at same
      obtain ⟨characters, rest⟩ := Text.quoteChars_append_inj same
      exact ⟨congrArg Value.str (String.toList_inj.1 characters), rest⟩
    | _ => cases kind
  | list each ih =>
    intro w hw r s _ _ same
    have kind := kind_of_append (.list each) hw same
    cases hw with
    | list others =>
      rw [toList_nestedText_list, toList_nestedText_list] at same
      obtain ⟨rfl, rest⟩ :=
        behindOpening_inj (.inl rfl) each ih others (List.cons.inj same).2
      exact ⟨rfl, rest⟩
    | _ => cases kind
  | tuple each ih =>
    intro w hw r s _ _ same
    have kind := kind_of_append (.tuple each) hw same
    cases hw with
    | tuple others =>
      rw [toList_nestedText_tuple, toList_nestedText_tuple] at same
      obtain ⟨elements, rest⟩ :=
        behindOpening_inj (.inr rfl) each ih others (List.cons.inj same).2
      exact ⟨congrArg Value.tuple (Tuple.toList_inj.1 elements), rest⟩
    | _ => cases kind

/-- Lists and tuples. -/
def Value.IsContainer (v : Value) : Prop :=
  v.kind = .list ∨ v.kind = .tuple

theorem nestedText_of_isContainer {v : Value} (h : v.IsContainer) : v.nestedText = v.text := by
  cases v with
  | str text => rcases h with kind | kind <;> cases kind
  | _ => rfl

/-- Containers of discrete values, at any depth, have the same text only if they are the same
value, whatever characters the texts in them have. -/
theorem container_text_inj {a b : Value} (ha : a.Discrete) (hb : b.Discrete)
    (ca : a.IsContainer) (cb : b.IsContainer) : a.text = b.text ↔ a = b := by
  constructor
  · intro same
    rw [← nestedText_of_isContainer ca, ← nestedText_of_isContainer cb] at same
    have front : a.nestedText.toList ++ [] = b.nestedText.toList ++ [] := by rw [same]
    exact (readsOnce ha b hb [] [] nofun nofun front).1
  · intro same
    rw [same]

/-- A text and a tuple, and one text that looks like both between its quotes. -/
theorem container_text_inj_quotes :
    Value.text (.list [.str "a", .tuple (.ofList [.str "b\\"])]) ≠
      Value.text (.list [.str "a\", (\"b\\"]) := by
  have inner : Value.Discrete (.tuple (.ofList [.str "b\\"])) :=
    .tuple (by simp [Value.Discrete.str])
  have first : Value.Discrete (.list [.str "a", .tuple (.ofList [.str "b\\"])]) :=
    .list (by simp [Value.Discrete.str, inner])
  have second : Value.Discrete (.list [.str "a\", (\"b\\"]) :=
    .list (by simp [Value.Discrete.str])
  rw [Ne, container_text_inj first second (.inl rfl) (.inl rfl)]
  simp

end ShellExpr
