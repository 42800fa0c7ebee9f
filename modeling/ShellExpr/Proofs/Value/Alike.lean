import Mathlib.Logic.Relation
import ShellExpr.Value.Conversion
import ShellExpr.Value.Ordering

/-!
# Values that differ in the numbers of functions only

Two evaluations that make the same functions may number them differently.  `Alike pairs v w` says
that `v` and `w` are the same value up to that: function by function, the number on the left and
the number on the right are one of the `pairs`.  The bindings that a lambda captured are compared
name by name, since their order means nothing.

With the pairs `a = b ∧ a < n` a value is like itself exactly when all its functions have numbers
below `n`, so the lemmas about values that are alike are about numbers given out so far as well.
-/

namespace ShellExpr

mutual

inductive Value.Alike (pairs : Nat → Nat → Prop) : Value → Value → Prop where
  | int (n : Int64) : Value.Alike pairs (.int n) (.int n)
  | real (r : Float) : Value.Alike pairs (.real r) (.real r)
  | str (text : String) : Value.Alike pairs (.str text) (.str text)
  | list {xs ys : List Value} (items : AlikeItems pairs xs ys) :
      Value.Alike pairs (.list xs) (.list ys)
  | tuple {xs ys : Tuple Value} (elements : AlikeItems pairs xs.toList ys.toList) :
      Value.Alike pairs (.tuple xs) (.tuple ys)
  | func {f g : Func} (same : Func.Alike pairs f g) : Value.Alike pairs (.func f) (.func g)
  | error (message : String) : Value.Alike pairs (.error message) (.error message)

/-- Item by item. -/
inductive AlikeItems (pairs : Nat → Nat → Prop) : List Value → List Value → Prop where
  | nil : AlikeItems pairs [] []
  | cons {v w : Value} {vs ws : List Value} (first : Value.Alike pairs v w)
      (rest : AlikeItems pairs vs ws) : AlikeItems pairs (v :: vs) (w :: ws)

inductive Func.Alike (pairs : Nat → Nat → Prop) : Func → Func → Prop where
  | builtin {i j : Nat} (pair : pairs i j) (rule : Builtin) :
      Func.Alike pairs (.builtin i rule) (.builtin j rule)
  | constant {i j : Nat} {v w : Value} (pair : pairs i j) (value : Value.Alike pairs v w) :
      Func.Alike pairs (.constant i v) (.constant j w)
  | lambda {i j : Nat} {scope scope' : Environment Value} (pair : pairs i j)
      (parameter body : String)
      (bindings : ∀ name, AlikeBinding pairs (scope.lookup name) (scope'.lookup name)) :
      Func.Alike pairs (.lambda i parameter body scope) (.lambda j parameter body scope')

/-- What a name is bound to on both sides, if it is bound. -/
inductive AlikeBinding (pairs : Nat → Nat → Prop) : Option Value → Option Value → Prop where
  | unbound : AlikeBinding pairs none none
  | bound {v w : Value} (value : Value.Alike pairs v w) : AlikeBinding pairs (some v) (some w)

end

variable {pairs more : Nat → Nat → Prop}

/-! ### More pairs -/

mutual

theorem Value.Alike.mono (h : ∀ a b, pairs a b → more a b) {v w : Value} :
    v.Alike pairs w → v.Alike more w
  | .int n => .int n
  | .real r => .real r
  | .str text => .str text
  | .list items => .list (items.mono h)
  | .tuple elements => .tuple (elements.mono h)
  | .func same => .func (same.mono h)
  | .error message => .error message

theorem AlikeItems.mono (h : ∀ a b, pairs a b → more a b) {vs ws : List Value} :
    AlikeItems pairs vs ws → AlikeItems more vs ws
  | .nil => .nil
  | .cons first rest => .cons (first.mono h) (rest.mono h)

theorem Func.Alike.mono (h : ∀ a b, pairs a b → more a b) {f g : Func} :
    f.Alike pairs g → f.Alike more g
  | .builtin pair rule => .builtin (h _ _ pair) rule
  | .constant pair value => .constant (h _ _ pair) (value.mono h)
  | .lambda pair parameter body bindings =>
    .lambda (h _ _ pair) parameter body fun name => (bindings name).mono h

theorem AlikeBinding.mono (h : ∀ a b, pairs a b → more a b) {v w : Option Value} :
    AlikeBinding pairs v w → AlikeBinding more v w
  | .unbound => .unbound
  | .bound value => .bound (value.mono h)

end

/-! ### Alike by way of a third value -/

section

variable {others : Nat → Nat → Prop}

mutual

theorem Value.Alike.comp {v w u : Value} :
    v.Alike pairs w → w.Alike others u → v.Alike (Relation.Comp pairs others) u
  | .int n, h' => by cases h'; exact .int n
  | .real r, h' => by cases h'; exact .real r
  | .str text, h' => by cases h'; exact .str text
  | .error message, h' => by cases h'; exact .error message
  | .list items, h' => by
    cases h' with
    | list items' => exact .list (items.comp items')
  | .tuple elements, h' => by
    cases h' with
    | tuple elements' => exact .tuple (elements.comp elements')
  | .func same, h' => by
    cases h' with
    | func same' => exact .func (same.comp same')

theorem AlikeItems.comp {vs ws us : List Value} :
    AlikeItems pairs vs ws → AlikeItems others ws us →
      AlikeItems (Relation.Comp pairs others) vs us
  | .nil, h' => by cases h'; exact .nil
  | .cons first rest, h' => by
    cases h' with
    | cons first' rest' => exact .cons (first.comp first') (rest.comp rest')

theorem Func.Alike.comp {f g h : Func} :
    f.Alike pairs g → g.Alike others h → f.Alike (Relation.Comp pairs others) h
  | .builtin pair rule, h' => by
    cases h' with
    | builtin pair' => exact .builtin ⟨_, pair, pair'⟩ rule
  | .constant pair value, h' => by
    cases h' with
    | constant pair' value' => exact .constant ⟨_, pair, pair'⟩ (value.comp value')
  | .lambda pair parameter body bindings, h' => by
    cases h' with
    | lambda pair' _ _ bindings' =>
      exact .lambda ⟨_, pair, pair'⟩ parameter body fun name =>
        (bindings name).comp (bindings' name)

theorem AlikeBinding.comp {v w u : Option Value} :
    AlikeBinding pairs v w → AlikeBinding others w u →
      AlikeBinding (Relation.Comp pairs others) v u
  | .unbound, h' => by cases h'; exact .unbound
  | .bound value, h' => by
    cases h' with
    | bound value' => exact .bound (value.comp value')

end

end

/-! ### Items -/

theorem AlikeItems.length_eq {vs ws : List Value} (h : AlikeItems pairs vs ws) :
    vs.length = ws.length := by
  induction vs generalizing ws with
  | nil => cases h; rfl
  | cons v vs ih =>
    cases h with
    | cons first rest => rw [List.length_cons, List.length_cons, ih rest]

theorem AlikeItems.append {vs ws vs' ws' : List Value} (h : AlikeItems pairs vs ws)
    (h' : AlikeItems pairs vs' ws') : AlikeItems pairs (vs ++ vs') (ws ++ ws') := by
  induction vs generalizing ws with
  | nil => cases h; exact h'
  | cons v vs ih =>
    cases h with
    | cons first rest => exact .cons first (ih rest)

/-! ### What does not depend on the numbers -/

theorem Value.Alike.kind_eq {v w : Value} (h : v.Alike pairs w) : v.kind = w.kind := by
  cases h <;> rfl

theorem Value.Alike.toFloat?_eq {v w : Value} (h : v.Alike pairs w) : v.toFloat? = w.toFloat? := by
  cases h <;> rfl

theorem Value.Alike.isNumeric_eq {v w : Value} (h : v.Alike pairs w) :
    v.isNumeric = w.isNumeric := by
  cases h <;> rfl

theorem Value.Alike.isScalar_eq {v w : Value} (h : v.Alike pairs w) :
    v.isScalar = w.isScalar := by
  cases h <;> rfl

theorem Value.Alike.isError_eq {v w : Value} (h : v.Alike pairs w) : v.isError = w.isError := by
  cases h <;> rfl

theorem Value.Alike.truthy_eq {v w : Value} (h : v.Alike pairs w) : v.truthy = w.truthy := by
  cases h with
  | list items => cases items <;> rfl
  | @tuple xs ys elements => cases xs <;> cases ys <;> cases elements <;> rfl
  | _ => rfl

theorem Value.Alike.toInt_eq {v w : Value} (h : v.Alike pairs w) : v.toInt = w.toInt := by
  cases h <;> rfl

theorem Value.Alike.toReal_eq {v w : Value} (h : v.Alike pairs w) : v.toReal = w.toReal := by
  cases h <;> rfl

mutual

theorem Value.Alike.text_eq {v w : Value} : v.Alike pairs w → v.text = w.text
  | .int _ | .real _ | .str _ | .error _ => rfl
  | .list items => by
    have same := items.nestedText_eq
    simp only [Value.text, itemTexts_eq, same]
  | .tuple elements => by
    have same := elements.nestedText_eq
    simp only [Value.text, elementTexts_eq, same]
  | .func same => by
    have named := same.name_eq
    simp only [Value.text, named]

theorem AlikeItems.nestedText_eq {vs ws : List Value} :
    AlikeItems pairs vs ws → vs.map Value.nestedText = ws.map Value.nestedText
  | .nil => rfl
  | .cons first rest => by
    have same := first.text_eq
    have later := rest.nestedText_eq
    rw [List.map_cons, List.map_cons, later]
    cases first with
    | str text => rfl
    | _ => exact congrArg (· :: _) same

theorem Func.Alike.name_eq {f g : Func} : f.Alike pairs g → f.name = g.name
  | .builtin _ _ => rfl
  | .constant _ value => by
    have same := value.text_eq
    simp only [Func.name, same]
  | .lambda _ _ _ _ => rfl

end

theorem Value.Alike.toText_eq {v w : Value} (h : v.Alike pairs w) : v.toText = w.toText := by
  cases h <;> rfl

/-! ### Order -/

/-- No number is in two pairs. -/
def Matched (pairs : Nat → Nat → Prop) : Prop :=
  ∀ a b c d, pairs a b → pairs c d → (a = c ↔ b = d)

theorem Matched.comp {others : Nat → Nat → Prop} (h : Matched pairs) (h' : Matched others) :
    Matched (Relation.Comp pairs others) := by
  rintro a b c d ⟨x, first, second⟩ ⟨y, first', second'⟩
  exact (h a x c y first first').trans (h' x b y d second second')

theorem Func.Alike.pair {f g : Func} (h : f.Alike pairs g) : pairs f.id g.id := by
  cases h <;> assumption

theorem Func.Alike.sameAs_eq (matched : Matched pairs) {f g f' g' : Func} (h : f.Alike pairs g)
    (h' : f'.Alike pairs g') : f.sameAs f' = g.sameAs g' := by
  have same := matched _ _ _ _ h.pair h'.pair
  rw [Func.sameAs, Func.sameAs, Bool.eq_iff_iff, beq_iff_eq, beq_iff_eq]
  exact same

mutual

theorem Value.Alike.compare_eq (matched : Matched pairs) {v w v' w' : Value} :
    v.Alike pairs w → v'.Alike pairs w' → v.compare v' = w.compare w'
  | .list items, h' => by
    cases h' with
    | list others => exact items.compare_eq matched others
    | _ => rfl
  | .tuple elements, h' => by
    cases h' with
    | tuple others =>
      have same := elements.compare_eq matched others
      simp only [Value.compare, compareElements_eq, same]
    | _ => rfl
  | .func same, h' => by
    cases h' with
    | func other => simp only [Value.compare, same.sameAs_eq matched other]
    | _ => rfl
  | .int _, h' => by cases h' <;> rfl
  | .real _, h' => by cases h' <;> rfl
  | .str _, h' => by cases h' <;> rfl
  | .error _, h' => by cases h' <;> rfl

theorem AlikeItems.compare_eq (matched : Matched pairs) {vs ws vs' ws' : List Value} :
    AlikeItems pairs vs ws → AlikeItems pairs vs' ws' →
      compareItems vs vs' = compareItems ws ws'
  | .nil, h' => by cases h' <;> rfl
  | .cons first rest, h' => by
    cases h' with
    | nil => rfl
    | cons other others =>
      rw [compareItems, compareItems, first.compare_eq matched other,
        rest.compare_eq matched others]

end

/-! ### Values without parts -/

/-- Numbers, texts and failures, which hold no function. -/
def Value.isFlat : Value → Bool
  | .int _ | .real _ | .str _ | .error _ => true
  | .list _ | .tuple _ | .func _ => false

theorem Value.alike_of_isFlat {v : Value} (flat : v.isFlat = true) : v.Alike pairs v := by
  cases v with
  | int n => exact .int n
  | real r => exact .real r
  | str text => exact .str text
  | error message => exact .error message
  | _ => contradiction

end ShellExpr
