import ShellExpr.Proofs.Operation.Leaves

/-!
# Operators that commute

The product, the operators on bits and those on truth values do not depend on the order of their
operands, nested lists included.  Only the messages of failures do: they name the kinds of the
operands from left to right, and where both operands are failures the left one is the result.
-/

namespace ShellExpr

/-! ### Products of doubles -/

namespace Double

open Float.Model (UnpackedFloat)

theorem sign_mul_comm (s t : UnpackedFloat.Sign) : s * t = t * s := by
  cases s <;> cases t <;> rfl

theorem unpacked_mul_comm (format : Float.Model.Format) (x y : UnpackedFloat) :
    x.mul format y = y.mul format x := by
  cases x with
  | notANumber => cases y <;> rfl
  | infinity s =>
    cases y with
    | infinity t => exact congrArg UnpackedFloat.infinity (sign_mul_comm s t)
    | finite t m e pos => exact congrArg UnpackedFloat.infinity (sign_mul_comm s t)
    | _ => rfl
  | zero s =>
    cases y with
    | zero t => exact congrArg UnpackedFloat.zero (sign_mul_comm s t)
    | finite t m e pos => exact congrArg UnpackedFloat.zero (sign_mul_comm s t)
    | _ => rfl
  | finite s m e pos =>
    cases y with
    | notANumber => rfl
    | infinity t => exact congrArg UnpackedFloat.infinity (sign_mul_comm s t)
    | zero t => exact congrArg UnpackedFloat.zero (sign_mul_comm s t)
    | finite t n f _ =>
      show UnpackedFloat.roundWithAccuracy format (s * t) (m * n) (e + f) .exact =
        UnpackedFloat.roundWithAccuracy format (t * s) (n * m) (f + e) .exact
      rw [sign_mul_comm s t, Nat.mul_comm m n, Int.add_comm e f]

theorem mul_comm (x y : Float) : x * y = y * x := by
  show Float.ofModel (.pack (x.toModel.unpack.mul _ y.toModel.unpack)) =
    .ofModel (.pack (y.toModel.unpack.mul _ x.toModel.unpack))
  rw [unpacked_mul_comm]

end Double

/-! ### Values up to the messages of failures -/

/-- The leaf at a place.  A place is the way to it: in each list, the number of the item to go on
with. -/
def Value.leafAt? : List Nat → Value → Option Value
  | [], .list _ => none
  | [], leaf => some leaf
  | i :: place, .list items => items[i]?.bind (Value.leafAt? place)
  | _ :: _, _ => none

/-- One nesting of lists, failures at the same places, and the same leaves at all others. -/
structure Value.SameButMessages (u v : Value) : Prop where
  shape : u.shape = v.shape
  failures : ∀ place, (∃ message, u.leafAt? place = some (.error message)) ↔
    ∃ message, v.leafAt? place = some (.error message)
  leaves : ∀ place leaf, leaf.isError = false →
    (u.leafAt? place = some leaf ↔ v.leafAt? place = some leaf)

namespace Value.SameButMessages

theorem refl (v : Value) : v.SameButMessages v :=
  ⟨rfl, fun _ => Iff.rfl, fun _ _ _ => Iff.rfl⟩

theorem symm {u v : Value} (h : u.SameButMessages v) : v.SameButMessages u :=
  ⟨h.shape.symm, fun place => (h.failures place).symm,
    fun place leaf sound => (h.leaves place leaf sound).symm⟩

theorem error (message other : String) :
    (Value.error message).SameButMessages (.error other) := by
  refine ⟨rfl, ?_, ?_⟩
  · intro place
    cases place with
    | nil => exact ⟨fun _ => ⟨other, rfl⟩, fun _ => ⟨message, rfl⟩⟩
    | cons i place => exact Iff.rfl
  · intro place leaf sound
    cases place with
    | nil =>
      constructor
      · intro same
        rw [← Option.some.inj same] at sound
        contradiction
      · intro same
        rw [← Option.some.inj same] at sound
        contradiction
    | cons i place => exact Iff.rfl

/-- Items at the same number are the same up to messages, and both lists end at the same number. -/
theorem getElem? {xs ys : List Value} (each : List.Forall₂ SameButMessages xs ys) (i : Nat) :
    xs[i]? = none ∧ ys[i]? = none ∨
      ∃ x y, xs[i]? = some x ∧ ys[i]? = some y ∧ x.SameButMessages y := by
  induction each generalizing i with
  | nil => exact .inl ⟨rfl, rfl⟩
  | @cons x y xs ys first _ ih =>
    cases i with
    | zero => exact .inr ⟨x, y, rfl, rfl, first⟩
    | succ i => exact ih i

theorem list {xs ys : List Value} (each : List.Forall₂ SameButMessages xs ys) :
    (Value.list xs).SameButMessages (.list ys) := by
  refine ⟨?_, ?_, ?_⟩
  · show Shape.list (shapesOf xs) = .list (shapesOf ys)
    rw [Shape.list.injEq]
    induction each with
    | nil => rfl
    | cons first _ ih => rw [shapesOf, shapesOf, first.shape, ih]
  · intro place
    cases place with
    | nil => exact Iff.rfl
    | cons i place =>
      simp only [leafAt?]
      rcases getElem? each i with ⟨hx, hy⟩ | ⟨x, y, hx, hy, same⟩
      · rw [hx, hy]
      · rw [hx, hy]
        exact same.failures place
  · intro place leaf sound
    cases place with
    | nil => exact Iff.rfl
    | cons i place =>
      simp only [leafAt?]
      rcases getElem? each i with ⟨hx, hy⟩ | ⟨x, y, hx, hy, same⟩
      · rw [hx, hy]
      · rw [hx, hy]
        exact same.leaves place leaf sound

end Value.SameButMessages

/-! ### From leaves to nested lists -/

/-- The order of the operands matters to the messages of failures only. -/
def CommutesButMessages (rule : Rule) : Prop :=
  ∀ left right, Option.Rel Value.SameButMessages (rule left right) (rule right left)

theorem Value.SameButMessages.rel_symm {u v : Option Value}
    (h : Option.Rel Value.SameButMessages u v) : Option.Rel Value.SameButMessages v u := by
  cases h with
  | some same => exact .some same.symm
  | none => exact .none

theorem Value.SameButMessages.rel_list {xs ys : Option (List Value)}
    (each : Option.Rel (List.Forall₂ Value.SameButMessages) xs ys) :
    Option.Rel Value.SameButMessages (xs.map .list) (ys.map .list) := by
  cases each with
  | some each => exact .some (.list each)
  | none => exact .none

variable {rule : Rule}

theorem commutes_scalar (commutes : CommutesButMessages rule) {s : Value}
    (scalar : s.isScalar = true) (v : Value) :
    Option.Rel Value.SameButMessages (broadcast? rule s v) (broadcast? rule v s) := by
  induction v using Value.nested with
  | list items ih =>
    rw [broadcast?_scalar_list scalar, broadcast?_list_scalar scalar]
    exact Value.SameButMessages.rel_list (rel_mapM (List.forall₂_same.2 ih))
  | error message =>
    rw [broadcast?_scalar_left scalar, broadcast?_scalar_right scalar]
    exact .some (.refl _)
  | _ =>
    rw [broadcast?_scalar_left scalar, broadcast?_scalar_right scalar]
    exact commutes s _

theorem commutes_lists {xs : List Value}
    (each : ∀ x ∈ xs, ∀ y,
      Option.Rel Value.SameButMessages (broadcast? rule x y) (broadcast? rule y x))
    (ys : List Value) :
    Option.Rel Value.SameButMessages (broadcast? rule (.list xs) (.list ys))
      (broadcast? rule (.list ys) (.list xs)) := by
  by_cases same : xs.length = ys.length
  · rw [broadcast?_lists same, broadcast?_lists same.symm, ← List.zip_swap]
    refine Value.SameButMessages.rel_list (rel_mapM ?_)
    rw [List.forall₂_map_left_iff, List.forall₂_same]
    exact fun pair member => each pair.2 (List.of_mem_zip member).2 pair.1
  · rw [broadcast?_mismatch same, broadcast?_mismatch (Ne.symm same)]
    exact .some (.refl _)

/-- A rule that commutes up to messages does so between nested lists. -/
theorem commutes_broadcast? (commutes : CommutesButMessages rule) :
    CommutesButMessages (broadcast? rule) := by
  intro left right
  induction left using Value.nested generalizing right with
  | int n => exact commutes_scalar commutes rfl right
  | real r => exact commutes_scalar commutes rfl right
  | str text => exact commutes_scalar commutes rfl right
  | list xs ih =>
    cases right with
    | int n => exact Value.SameButMessages.rel_symm (commutes_scalar commutes rfl (.list xs))
    | real r => exact Value.SameButMessages.rel_symm (commutes_scalar commutes rfl (.list xs))
    | str text => exact Value.SameButMessages.rel_symm (commutes_scalar commutes rfl (.list xs))
    | list ys => exact commutes_lists ih ys
    | error message => exact .some (.refl _)
    | tuple items => exact commutes _ _
    | func f => exact commutes _ _
  | tuple items _ =>
    cases right with
    | error message => exact .some (.refl _)
    | _ => exact commutes _ _
  | func f =>
    cases right with
    | error message => exact .some (.refl _)
    | _ => exact commutes _ _
  | error message =>
    cases right with
    | error other => exact .some (.error message other)
    | _ => exact .some (.refl _)

/-! ### The rules -/

/-- A rule that takes the same pairs of values in both orders, with the same result, and is not
supported for any other pair. -/
theorem commutes_of_taken (op : Operator) {taken : Value → Value → Prop}
    (swap : ∀ left right, taken left right → taken right left)
    (same : ∀ left right, taken left right → rule left right = rule right left)
    (fails : ∀ left right, ¬taken left right →
      rule left right = some (Failure.unsupported op left right)) : CommutesButMessages rule := by
  intro left right
  by_cases h : taken left right
  · rw [same left right h]
    cases rule right left with
    | none => exact .none
    | some v => exact .some (.refl v)
  · have back : ¬taken right left := fun other => h (swap right left other)
    rw [fails left right h, fails right left back]
    exact .some (.error _ _)

namespace Operation

open Machine

/-- Two integers. -/
def AreInts (left right : Value) : Prop :=
  ∃ a b, left = .int a ∧ right = .int b

theorem AreInts.swap (left right : Value) (h : AreInts left right) : AreInts right left := by
  obtain ⟨a, b, rfl, rfl⟩ := h
  exact ⟨b, a, rfl, rfl⟩

/-- The operators on bits, with what they do to two integers. -/
theorem commutes_bits (op : Operator) {combine : Int64 → Int64 → Int64}
    (comm : ∀ a b, combine a b = combine b a) :
    CommutesButMessages (.total fun left right =>
      match left, right with
      | .int a, .int b => .int (combine a b)
      | left, right => Failure.unsupported op left right) := by
  refine commutes_of_taken op AreInts.swap ?_ ?_
  · intro left right ints
    obtain ⟨a, b, rfl, rfl⟩ := ints
    exact congrArg (fun n => some (Value.int n)) (comm a b)
  · intro left right others
    apply congrArg some
    dsimp only
    split
    · exact absurd ⟨_, _, rfl, rfl⟩ others
    · rfl

/-- Two numbers. -/
def AreNumeric (left right : Value) : Prop :=
  (left.isNumeric && right.isNumeric) = true

theorem AreNumeric.swap (left right : Value) (h : AreNumeric left right) :
    AreNumeric right left := by
  rw [AreNumeric, Bool.and_comm]
  exact h

/-- The operators on truth, with what they do to two truth values. -/
theorem commutes_truth (op : Operator) {combine : Bool → Bool → Bool}
    (comm : ∀ a b, combine a b = combine b a) :
    CommutesButMessages (.total fun left right =>
      if left.isNumeric && right.isNumeric then .ofBool (combine left.truthy right.truthy)
      else Failure.unsupported op left right) := by
  refine commutes_of_taken op AreNumeric.swap ?_ fun left right others =>
    congrArg some (if_neg others)
  intro left right numbers
  apply congrArg some
  calc _ = Value.ofBool (combine left.truthy right.truthy) := if_pos numbers
    _ = .ofBool (combine right.truthy left.truthy) := by rw [comm]
    _ = _ := (if_pos (AreNumeric.swap left right numbers)).symm

/-- Two numbers, or a text and how often it is repeated. -/
inductive Multiplies : Value → Value → Prop where
  | numbers {left right : Value} (numbers : AreNumeric left right) : Multiplies left right
  | times (n : Int64) (text : String) : Multiplies (.int n) (.str text)
  | repeated (text : String) (n : Int64) : Multiplies (.str text) (.int n)

theorem Multiplies.swap (left right : Value) (h : Multiplies left right) :
    Multiplies right left := by
  cases h with
  | numbers numbers => exact .numbers (AreNumeric.swap left right numbers)
  | times n text => exact .repeated text n
  | repeated text n => exact .times n text

theorem mul_swap (left right : Value) (h : Multiplies left right) :
    mul left right = mul right left := by
  cases h with
  | numbers numbers =>
    cases left with
    | int a =>
      cases right with
      | int b => exact congrArg (fun n => some (exact n)) (Int.mul_comm a.toInt b.toInt)
      | real y => exact congrArg (fun r => some (Value.real r)) (Double.mul_comm _ _)
      | _ => contradiction
    | real x =>
      cases right with
      | int b => exact congrArg (fun r => some (Value.real r)) (Double.mul_comm _ _)
      | real y => exact congrArg (fun r => some (Value.real r)) (Double.mul_comm _ _)
      | _ => contradiction
    | _ => contradiction
  | times n text => rfl
  | repeated text n => rfl

theorem numbers?_eq_none {left right : Value} (h : ¬AreNumeric left right) :
    numbers? left right = none := by
  cases left <;> first | rfl | (cases right <;> first | rfl | exact absurd rfl h)

theorem commutes_mul : CommutesButMessages mul := by
  refine commutes_of_taken .mul Multiplies.swap mul_swap ?_
  intro left right others
  unfold mul
  split
  · exact absurd (.times _ _) others
  · exact absurd (.repeated _ _) others
  · rw [numbers?_eq_none fun numbers => others (.numbers numbers)]

/-- The operators that commute. -/
def commuting : List Operator :=
  [.mul, .bitAnd, .bitOr, .and, .or]

theorem commutes_of_rule {op : Operator} (h : op ∈ commuting) :
    ∃ rule, broadcastRule? op = some rule ∧ CommutesButMessages rule := by
  simp only [commuting, List.mem_cons, List.not_mem_nil, or_false] at h
  rcases h with rfl | rfl | rfl | rfl | rfl
  · exact ⟨mul, rfl, commutes_mul⟩
  · exact ⟨.total bitAnd, rfl, commutes_bits .bitAnd Int64.and_comm⟩
  · exact ⟨.total bitOr, rfl, commutes_bits .bitOr Int64.or_comm⟩
  · exact ⟨.total and, rfl, commutes_truth .and Bool.and_comm⟩
  · exact ⟨.total or, rfl, commutes_truth .or Bool.or_comm⟩

/-- Two values in either order have results of one shape under an operator that commutes, with
failures at the same places and the same leaves at all others; or they have none in either order,
where a text and a count meet whose repetition has a size that no text has. -/
theorem commutes_up_to_messages {op : Operator} (h : op ∈ commuting) (left right : Value) :
    ∃ u v : Option Value, (∀ call, binary call op left right = Eval.ofOption u) ∧
      (∀ call, binary call op right left = Eval.ofOption v) ∧
      Option.Rel Value.SameButMessages u v ∧ (u = none ↔ MeetsOversized op left right) := by
  obtain ⟨rule, found, commutes⟩ := commutes_of_rule h
  exact ⟨broadcast? rule left right, broadcast? rule right left,
    fun call => binary_of_rule found call left right,
    fun call => binary_of_rule found call right left, commutes_broadcast? commutes left right,
    broadcast?_rule_eq_none_iff found⟩

/-- A text that is repeated, two failures at one place, a tuple, and lists whose lengths differ. -/
theorem commutes_up_to_messages_nested :
    Operator.mul ∈ commuting ∧
      (∀ call, binary call .mul
        (.list [.str "ab", .list [.int 3, .error "e"], .tuple .empty, .list [.int 1]])
        (.list [.int 2, .list [.int 5, .error "f"], .int 4, .list []]) =
          pure (.list [.str "abab", .list [.int 15, .error "e"],
            Failure.unsupported .mul (.tuple .empty) (.int 4), Failure.sizeMismatch])) ∧
      (∀ call, binary call .mul
        (.list [.int 2, .list [.int 5, .error "f"], .int 4, .list []])
        (.list [.str "ab", .list [.int 3, .error "e"], .tuple .empty, .list [.int 1]]) =
          pure (.list [.str "abab", .list [.int 15, .error "f"],
            Failure.unsupported .mul (.int 4) (.tuple .empty), Failure.sizeMismatch])) ∧
      Value.SameButMessages
        (.list [.str "abab", .list [.int 15, .error "e"],
          Failure.unsupported .mul (.tuple .empty) (.int 4), Failure.sizeMismatch])
        (.list [.str "abab", .list [.int 15, .error "f"],
          Failure.unsupported .mul (.int 4) (.tuple .empty), Failure.sizeMismatch]) := by
  have known : Operator.mul ∈ commuting := by decide
  obtain ⟨u, v, forth, back, same, _⟩ := commutes_up_to_messages known
    (.list [.str "ab", .list [.int 3, .error "e"], .tuple .empty, .list [.int 1]])
    (.list [.int 2, .list [.int 5, .error "f"], .int 4, .list []])
  have hu : u = some (.list [.str "abab", .list [.int 15, .error "e"],
      Failure.unsupported .mul (.tuple .empty) (.int 4), Failure.sizeMismatch]) :=
    Eval.ofOption_injective ((forth (call 0)).symm.trans rfl)
  have hv : v = some (.list [.str "abab", .list [.int 15, .error "f"],
      Failure.unsupported .mul (.int 4) (.tuple .empty), Failure.sizeMismatch]) :=
    Eval.ofOption_injective ((back (call 0)).symm.trans rfl)
  subst hu hv
  cases same with
  | some same => exact ⟨known, forth, back, same⟩

end Operation

end ShellExpr
