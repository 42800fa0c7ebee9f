import ShellExpr.Proofs.Operation.Leaves

/-!
# Joining is associative

Whether `a ++ b` or `b ++ c` is joined first makes no difference: not to texts, not to tuples, and
not to nested lists of texts, whose items join where the lists are equally long.  Where they are not
the result is a failure, and both ways come to it at the same places.

The part about lists holds of every operator that extends to lists and is associative on some kind
of scalars.
-/

namespace ShellExpr

/-! ### Nested lists with leaves of one kind -/

/-- Every leaf satisfies `p`. -/
inductive Value.AllLeaves (p : Value → Prop) : Value → Prop where
  | leaf {v : Value} (flat : v.shape = .leaf) (holds : p v) : Value.AllLeaves p v
  | list {items : List Value} (each : ∀ v ∈ items, Value.AllLeaves p v) :
      Value.AllLeaves p (.list items)

theorem Value.allLeaves_list {p : Value → Prop} {items : List Value} :
    (Value.list items).AllLeaves p ↔ ∀ v ∈ items, v.AllLeaves p := by
  constructor
  · intro h
    cases h with
    | leaf flat => cases flat
    | list each => exact each
  · exact .list

/-- A rule that is associative on the scalars of a kind, which it does not leave. -/
structure AssociativeOn (p : Value → Prop) (rule : Value → Value → Value) : Prop where
  scalar : ∀ x, p x → x.isScalar = true
  closed : ∀ x y, p x → p y → p (rule x y)
  assoc : ∀ x y z, p x → p y → p z → rule (rule x y) z = rule x (rule y z)

variable {rule : Value → Value → Value} {p : Value → Prop}

/-! ### Grouping -/

/-- The way of grouping makes no difference to three values. -/
def Associates (rule : Value → Value → Value) (a b c : Value) : Prop :=
  broadcast rule (broadcast rule a b) c = broadcast rule a (broadcast rule b c)

section

variable {s t : Value} {xs ys zs : List Value}

/-! A scalar on either side, or in the middle, goes along with every item of the lists. -/

theorem associates_scalars_list (hs : s.isScalar = true) (ht : t.isScalar = true)
    (joined : (broadcast rule s t).isScalar = true) (each : ∀ z ∈ zs, Associates rule s t z) :
    Associates rule s t (.list zs) := by
  unfold Associates
  rw [broadcast_scalar_list joined, broadcast_scalar_list ht, broadcast_scalar_list hs,
    List.map_map]
  exact congrArg Value.list (List.map_congr_left each)

theorem associates_scalar_list_scalar (hs : s.isScalar = true) (ht : t.isScalar = true)
    (each : ∀ y ∈ ys, Associates rule s y t) : Associates rule s (.list ys) t := by
  unfold Associates
  rw [broadcast_scalar_list hs, broadcast_list_scalar ht, broadcast_list_scalar ht,
    broadcast_scalar_list hs, List.map_map, List.map_map]
  exact congrArg Value.list (List.map_congr_left each)

theorem associates_list_scalars (hs : s.isScalar = true) (ht : t.isScalar = true)
    (joined : (broadcast rule s t).isScalar = true) (each : ∀ x ∈ xs, Associates rule x s t) :
    Associates rule (.list xs) s t := by
  unfold Associates
  rw [broadcast_list_scalar hs, broadcast_list_scalar ht, broadcast_list_scalar joined,
    List.map_map]
  exact congrArg Value.list (List.map_congr_left each)

theorem associates_scalar_lists (hs : s.isScalar = true)
    (each : ∀ y ∈ ys, ∀ z ∈ zs, Associates rule s y z) :
    Associates rule s (.list ys) (.list zs) := by
  unfold Associates
  rw [broadcast_scalar_list hs]
  by_cases same : ys.length = zs.length
  · rw [broadcast_lists (by simp [same]), broadcast_lists same, broadcast_scalar_list hs]
    refine congrArg Value.list (List.ext_getElem (by simp) ?_)
    intro i _ _
    simp only [List.getElem_zipWith, List.getElem_map]
    exact each _ (List.getElem_mem _) _ (List.getElem_mem _)
  · rw [broadcast_mismatch (by simp [same]), broadcast_mismatch same,
      broadcast_error_right (not_isError_of_isScalar hs) rfl]

theorem associates_list_scalar_list (hs : s.isScalar = true)
    (each : ∀ x ∈ xs, ∀ z ∈ zs, Associates rule x s z) :
    Associates rule (.list xs) s (.list zs) := by
  unfold Associates
  rw [broadcast_list_scalar hs, broadcast_scalar_list hs]
  by_cases same : xs.length = zs.length
  · rw [broadcast_lists (by simp [same]), broadcast_lists (by simp [same])]
    refine congrArg Value.list (List.ext_getElem (by simp) ?_)
    intro i _ _
    simp only [List.getElem_zipWith, List.getElem_map]
    exact each _ (List.getElem_mem _) _ (List.getElem_mem _)
  · rw [broadcast_mismatch (by simp [same]), broadcast_mismatch (by simp [same])]

theorem associates_lists_scalar (hs : s.isScalar = true)
    (each : ∀ x ∈ xs, ∀ y ∈ ys, Associates rule x y s) :
    Associates rule (.list xs) (.list ys) s := by
  unfold Associates
  rw [broadcast_list_scalar hs]
  by_cases same : xs.length = ys.length
  · rw [broadcast_lists same, broadcast_lists (by simp [same]), broadcast_list_scalar hs]
    refine congrArg Value.list (List.ext_getElem (by simp) ?_)
    intro i _ _
    simp only [List.getElem_zipWith, List.getElem_map]
    exact each _ (List.getElem_mem _) _ (List.getElem_mem _)
  · rw [broadcast_mismatch same, broadcast_mismatch (by simp [same])]
    rfl

/-- Where lengths differ, the failure of either pair is the result of both ways. -/
theorem associates_lists (each : ∀ x ∈ xs, ∀ y ∈ ys, ∀ z ∈ zs, Associates rule x y z) :
    Associates rule (.list xs) (.list ys) (.list zs) := by
  unfold Associates
  by_cases front : xs.length = ys.length
  · by_cases behind : ys.length = zs.length
    · rw [broadcast_lists front, broadcast_lists behind,
        broadcast_lists (by simp [front, behind]), broadcast_lists (by simp [front, behind])]
      refine congrArg Value.list (List.ext_getElem (by simp [front, behind]) ?_)
      intro i _ _
      simp only [List.getElem_zipWith]
      exact each _ (List.getElem_mem _) _ (List.getElem_mem _) _ (List.getElem_mem _)
    · rw [broadcast_lists front, broadcast_mismatch behind,
        broadcast_mismatch (by simp [front, behind])]
      rfl
  · rw [broadcast_mismatch front]
    by_cases behind : ys.length = zs.length
    · rw [broadcast_lists behind, broadcast_mismatch (by simp [← behind, front])]
      rfl
    · rw [broadcast_mismatch behind]
      rfl

end

/-- An operator that is associative on scalars of a kind is so on nested lists of them. -/
theorem AssociativeOn.associates (h : AssociativeOn p rule) {a b c : Value}
    (ha : a.AllLeaves p) (hb : b.AllLeaves p) (hc : c.AllLeaves p) : Associates rule a b c := by
  have joined {x y : Value} (hx : p x) (hy : p y) : p (broadcast rule x y) := by
    rw [broadcast_scalars (h.scalar x hx) (h.scalar y hy)]
    exact h.closed x y hx hy
  induction ha generalizing b c with
  | @leaf x _ hx =>
    have sx := h.scalar x hx
    induction hb generalizing c with
    | @leaf y _ hy =>
      have sy := h.scalar y hy
      have sxy := h.scalar _ (joined hx hy)
      induction hc with
      | @leaf z _ hz =>
        have syz := h.scalar _ (h.closed y z hy hz)
        unfold Associates
        rw [broadcast_scalars sx sy] at sxy ⊢
        rw [broadcast_scalars sxy (h.scalar z hz), broadcast_scalars sy (h.scalar z hz),
          broadcast_scalars sx syz]
        exact h.assoc x y z hx hy hz
      | list _ ihc => exact associates_scalars_list sx sy sxy ihc
    | list eachb ihb =>
      cases hc with
      | leaf flat hc =>
        exact associates_scalar_list_scalar sx (h.scalar c hc) fun y member =>
          ihb y member (.leaf flat hc)
      | list eachc =>
        exact associates_scalar_lists sx fun y member z among => ihb y member (eachc z among)
  | list eacha iha =>
    cases hb with
    | leaf flat hb =>
      have sb := h.scalar b hb
      cases hc with
      | leaf flat' hc =>
        exact associates_list_scalars sb (h.scalar c hc) (h.scalar _ (joined hb hc))
          fun x member => iha x member (.leaf flat hb) (.leaf flat' hc)
      | list eachc =>
        exact associates_list_scalar_list sb fun x member z among =>
          iha x member (.leaf flat hb) (eachc z among)
    | list eachb =>
      cases hc with
      | leaf flat hc =>
        exact associates_lists_scalar (h.scalar c hc) fun x member y among =>
          iha x member (eachb y among) (.leaf flat hc)
      | list eachc =>
        exact associates_lists fun x member y among z within =>
          iha x member (eachb y among) (eachc z within)

/-! ### What the results are made of -/

/-- Of the kind `p`, or the failure of lists whose lengths differ. -/
def OrMismatch (p : Value → Prop) (v : Value) : Prop :=
  p v ∨ v = Failure.sizeMismatch

theorem Value.AllLeaves.mono {q : Value → Prop} (weaker : ∀ v, p v → q v) {v : Value}
    (h : v.AllLeaves p) : v.AllLeaves q := by
  induction h with
  | leaf flat holds => exact .leaf flat (weaker _ holds)
  | list _ ih => exact .list ih

theorem allLeaves_mismatch : Failure.sizeMismatch.AllLeaves (OrMismatch p) :=
  .leaf rfl (.inr rfl)

/-- Lists whose lengths differ are the only failures that joining adds. -/
theorem AssociativeOn.allLeaves (h : AssociativeOn p rule) {a b : Value}
    (ha : a.AllLeaves (OrMismatch p)) (hb : b.AllLeaves (OrMismatch p)) :
    (broadcast rule a b).AllLeaves (OrMismatch p) := by
  induction ha generalizing b with
  | @leaf x _ hx =>
    rcases hx with hx | rfl
    · have sx := h.scalar x hx
      induction hb with
      | @leaf y _ hy =>
        rcases hy with hy | rfl
        · have rest := h.closed x y hx hy
          rw [broadcast_scalars sx (h.scalar y hy)]
          exact .leaf (shape_of_isScalar (h.scalar _ rest)) (.inl rest)
        · rw [broadcast_error_right (not_isError_of_isScalar sx) rfl]
          exact allLeaves_mismatch
      | list _ ih =>
        rw [broadcast_scalar_list sx]
        exact .list (List.forall_mem_map.2 ih)
    · exact allLeaves_mismatch
  | @list xs each ih =>
    cases hb with
    | leaf flat holds =>
      rcases holds with hb | rfl
      · rw [broadcast_list_scalar (h.scalar b hb)]
        exact .list (List.forall_mem_map.2 fun x member => ih x member (.leaf flat (.inl hb)))
      · exact allLeaves_mismatch
    | @list ys others =>
      by_cases same : xs.length = ys.length
      · rw [broadcast_lists same]
        refine .list fun v member => ?_
        obtain ⟨i, inside, rfl⟩ := List.getElem_of_mem member
        rw [List.getElem_zipWith]
        exact ih _ (List.getElem_mem _) (others _ (List.getElem_mem _))
      · rw [broadcast_mismatch same]
        exact allLeaves_mismatch

/-! ### Texts and tuples -/

namespace Operation

open Machine

def IsText (v : Value) : Prop :=
  ∃ text, v = .str text

theorem associativeOn_concat : AssociativeOn IsText concat where
  scalar := by
    rintro _ ⟨text, rfl⟩
    rfl
  closed := by
    rintro _ _ ⟨text, rfl⟩ ⟨other, rfl⟩
    exact ⟨text ++ other, rfl⟩
  assoc := by
    rintro _ _ _ ⟨a, rfl⟩ ⟨b, rfl⟩ ⟨c, rfl⟩
    exact congrArg Value.str String.append_assoc

theorem concat_eq_ofList {t u : Tuple Value} : t.concat u = .ofList (t.toList ++ u.toList) := by
  rw [← Tuple.toList_inj, Tuple.toList_concat, Tuple.toList_ofList]

/-- Nested lists of texts are the same value however three of them are grouped under `++`, and all
failures in it are lists whose lengths differ.  Tuples have the elements of the first, then of the
second, then of the third. -/
theorem concat_grouped (call : Call) :
    (∀ {a b c : Value}, a.AllLeaves IsText → b.AllLeaves IsText → c.AllLeaves IsText →
      ∃ v : Value, v.AllLeaves (OrMismatch IsText) ∧
        (do
          let ab ← binary call .concat a b
          binary call .concat ab c) = pure v ∧
        (do
          let bc ← binary call .concat b c
          binary call .concat a bc) = pure v) ∧
    ∀ a b c : Tuple Value,
      (do
        let ab ← binary call .concat (.tuple a) (.tuple b)
        binary call .concat ab (.tuple c)) =
          pure (.tuple (.ofList (a.toList ++ b.toList ++ c.toList))) ∧
      (do
        let bc ← binary call .concat (.tuple b) (.tuple c)
        binary call .concat (.tuple a) bc) =
          pure (.tuple (.ofList (a.toList ++ b.toList ++ c.toList))) := by
  have joined (left right : Value) :
      binary call .concat left right = pure (broadcast concat left right) :=
    binary_of_total rfl call left right
  simp only [joined, pure_bind]
  constructor
  · intro a b c ha hb hc
    have texts : ∀ v, IsText v → OrMismatch IsText v := fun v text => .inl text
    have leaves := associativeOn_concat.allLeaves
      (associativeOn_concat.allLeaves (ha.mono texts) (hb.mono texts)) (hc.mono texts)
    have same : Associates concat a b c := associativeOn_concat.associates ha hb hc
    exact ⟨_, leaves, rfl, congrArg pure same.symm⟩
  · intro a b c
    have pair (t u : Tuple Value) :
        broadcast concat (.tuple t) (.tuple u) = .tuple (.ofList (t.toList ++ u.toList)) :=
      congrArg Value.tuple concat_eq_ofList
    simp only [pair, Tuple.toList_ofList, List.append_assoc, and_self]

/-- An empty list with texts, and a text with lists of two lengths: in one grouping the lists meet
behind the text, in the other one before it. -/
theorem concat_grouped_mismatched :
    (do
      let ab ← binary (call 0) .concat (.list [.list [], .str "a"])
        (.list [.str "b", .list [.str "c", .str "d"]])
      binary (call 0) .concat ab (.list [.str "e", .list [.str "f"]])) =
        pure (.list [.list [], Failure.sizeMismatch]) ∧
    (do
      let bc ← binary (call 0) .concat (.list [.str "b", .list [.str "c", .str "d"]])
        (.list [.str "e", .list [.str "f"]])
      binary (call 0) .concat (.list [.list [], .str "a"]) bc) =
        pure (.list [.list [], Failure.sizeMismatch]) := by
  have text (text : String) : (Value.str text).AllLeaves IsText := .leaf rfl ⟨text, rfl⟩
  have first : (Value.list [.list [], .str "a"]).AllLeaves IsText := by
    simp [Value.allLeaves_list, text]
  have second : (Value.list [.str "b", .list [.str "c", .str "d"]]).AllLeaves IsText := by
    simp [Value.allLeaves_list, text]
  have third : (Value.list [.str "e", .list [.str "f"]]).AllLeaves IsText := by
    simp [Value.allLeaves_list, text]
  obtain ⟨v, _, front, behind⟩ := (concat_grouped (call 0)).1 first second third
  rw [behind, front, and_self]
  exact front.symm.trans rfl

end Operation

end ShellExpr
