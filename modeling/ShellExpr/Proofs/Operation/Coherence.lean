import ShellExpr.Proofs.Value.Exchange
import ShellExpr.Proofs.Value.Mismatch

/-!
# Coherence of the comparisons

The relations and the three-way comparison ask the same question of two values, so they agree on
whether it has an answer, and the answers fit together.  The same question about the values in the
other order has the opposite answer, and no answer for the same reason.
-/

namespace ShellExpr

/-- The relation that says the same of two values in the other order. -/
def Operator.converse : Operator → Operator
  | .less => .greater
  | .greater => .less
  | .lessEqual => .greaterEqual
  | .greaterEqual => .lessEqual
  | op => op

namespace Operation

/-- The operators that ask whether the order of two values is such and such. -/
def relations : List Operator :=
  [.less, .greater, .equal, .notEqual, .lessEqual, .greaterEqual]

/-! ### One comparison for all operators -/

/-- Where a comparison of two values ends, and where it ends for the values in the other order.
This does not depend on the operator, which only gives its name to failures. -/
inductive Compared (left right : Value) : Prop where
  | ordered (order : Ordering) (forth : ∀ op, comparison op left right = .ok (.ordered order))
      (back : ∀ op, comparison op right left = .ok (.ordered order.swap))
  | failed (forth : ∀ op, ∃ message, comparison op left right = .ok (.failed (.error message)))
      (back : ∀ op, ∃ message, comparison op right left = .ok (.failed (.error message)))
  | mismatched (expected found : Kind)
      (forth : ∀ op, comparison op left right = .error (.typeMismatch expected found))
      (back : ∀ op, comparison op right left = .error (.typeMismatch found expected))

/-- Values whose kinds compare at all. -/
def Meets (left right : Value) : Prop :=
  (isComparable left && isComparable right &&
    (left.kind == right.kind || (left.isNumeric && right.isNumeric))) = true

theorem Meets.symm {left right : Value} (h : Meets left right) : Meets right left := by
  rw [Meets, Bool.and_comm (isComparable right), Bool.and_comm right.isNumeric, Bool.beq_comm]
  exact h

theorem comparison_of_meets {left right : Value} (h : Meets left right) (op : Operator) :
    comparison op left right =
      match left.compare right with
      | .ok (some order) => .ok (.ordered order)
      | .ok none => .ok (.failed Failure.unordered)
      | .error fatal => .error fatal :=
  if_pos h

theorem comparison_of_not_meets {left right : Value} (h : ¬Meets left right) (op : Operator) :
    comparison op left right = .ok (.failed (Failure.unsupported op left right)) :=
  if_neg h

theorem compared (left right : Value) : Compared left right := by
  by_cases meets : Meets left right
  · have forth := comparison_of_meets meets
    have back := comparison_of_meets meets.symm
    rw [Value.compare_exchanged left right] at back
    rcases found : left.compare right with fatal | _ | order
    · obtain ⟨expected, other, rfl⟩ := compare_error left right found
      rw [found] at forth back
      exact .mismatched expected other forth back
    · rw [found] at forth back
      exact .failed (fun op => ⟨_, forth op⟩) fun op => ⟨_, back op⟩
    · rw [found] at forth back
      exact .ordered order forth back
  · have forth := comparison_of_not_meets meets
    have back := comparison_of_not_meets fun h => meets h.symm
    exact .failed (fun op => ⟨_, forth op⟩) fun op => ⟨_, back op⟩

/-! ### Results by the comparison -/

theorem relation_of_ordered {op : Operator} {left right : Value} {order : Ordering} {answer : Bool}
    (h : comparison op left right = .ok (.ordered order)) (holds : holds? op order = some answer) :
    relation op left right = .ok (.ofBool answer) := by
  rw [relation, h]
  simp only [holds]

theorem relation_of_failed {op : Operator} {left right failure : Value}
    (h : comparison op left right = .ok (.failed failure)) :
    relation op left right = .ok failure := by
  rw [relation, h]

theorem relation_of_error {op : Operator} {left right : Value} {fatal : FatalError}
    (h : comparison op left right = .error fatal) : relation op left right = .error fatal := by
  rw [relation, h]

theorem exists_holds {op : Operator} (h : op ∈ relations) (order : Ordering) :
    ∃ answer, holds? op order = some answer := by
  simp only [relations, List.mem_cons, List.not_mem_nil, or_false] at h
  rcases h with rfl | rfl | rfl | rfl | rfl | rfl <;> exact ⟨_, rfl⟩

theorem holds?_converse (op : Operator) (order : Ordering) :
    holds? op.converse order.swap = holds? op order := by
  cases op <;> cases order <;> rfl

/-! ### The other order -/

/-- The results of a relation and of its converse: the same integer, two failures, or two mismatches
that name their kinds in opposite order. -/
inductive Mirrored : Except FatalError Value → Except FatalError Value → Prop where
  | int (n : Int64) : Mirrored (.ok (.int n)) (.ok (.int n))
  | failed (message other : String) : Mirrored (.ok (.error message)) (.ok (.error other))
  | mismatched (expected found : Kind) :
      Mirrored (.error (.typeMismatch expected found)) (.error (.typeMismatch found expected))

theorem relation_mirrored {op : Operator} (h : op ∈ relations) (left right : Value) :
    Mirrored (relation op left right) (relation op.converse right left) := by
  cases compared left right with
  | ordered order forth back =>
    obtain ⟨answer, holds⟩ := exists_holds h order
    rw [relation_of_ordered (forth op) holds,
      relation_of_ordered (back op.converse) ((holds?_converse op order).trans holds)]
    exact .int _
  | failed forth back =>
    obtain ⟨message, failed⟩ := forth op
    obtain ⟨other, refused⟩ := back op.converse
    rw [relation_of_failed failed, relation_of_failed refused]
    exact .failed message other
  | mismatched expected found forth back =>
    rw [relation_of_error (forth op), relation_of_error (back op.converse)]
    exact .mismatched expected found

/-! ### One pair -/

/-- The results of all seven comparisons of two values fit together. -/
inductive Coherent (left right : Value) : Prop where
  | mismatched (expected found : Kind)
      (compared : compare left right = .error (.typeMismatch expected found))
      (related : ∀ op ∈ relations, relation op left right = .error (.typeMismatch expected found))
  | failed (compared : ∃ message, compare left right = .ok (.error message))
      (related : ∀ op ∈ relations, ∃ message, relation op left right = .ok (.error message))
  | ordered (less equal greater : Bool) (one : [less, equal, greater].count true = 1)
      (compared : compare left right = .ok (.int (if less then -1 else if equal then 0 else 1)))
      (isLess : relation .less left right = .ok (.ofBool less))
      (isEqual : relation .equal left right = .ok (.ofBool equal))
      (isGreater : relation .greater left right = .ok (.ofBool greater))
      (isLessEqual : relation .lessEqual left right = .ok (.ofBool (less || equal)))
      (isGreaterEqual : relation .greaterEqual left right = .ok (.ofBool (greater || equal)))
      (isNotEqual : relation .notEqual left right = .ok (.ofBool (!equal)))

theorem coherent (left right : Value) : Coherent left right := by
  cases compared left right with
  | ordered order forth _ =>
    refine .ordered order.isLT order.isEq order.isGT ?_ ?_ ?_ ?_ ?_ ?_ ?_ ?_
    · cases order <;> rfl
    · rw [compare, forth]
      cases order <;> rfl
    · exact relation_of_ordered (forth .less) rfl
    · exact relation_of_ordered (forth .equal) rfl
    · exact relation_of_ordered (forth .greater) rfl
    · refine relation_of_ordered (forth .lessEqual) ?_
      cases order <;> rfl
    · refine relation_of_ordered (forth .greaterEqual) ?_
      cases order <;> rfl
    · refine relation_of_ordered (forth .notEqual) ?_
      cases order <;> rfl
  | failed forth _ =>
    refine .failed ?_ ?_
    · obtain ⟨message, failed⟩ := forth .compare
      refine ⟨message, ?_⟩
      rw [compare, failed]
    · intro op _
      obtain ⟨message, failed⟩ := forth op
      exact ⟨message, relation_of_failed failed⟩
  | mismatched expected found forth _ =>
    refine .mismatched expected found ?_ ?_
    · rw [compare, forth]
    · intro op _
      exact relation_of_error (forth op)

/-- Every relation of two values and its converse of the values in the other order have the same
answer or fail alike, and for one pair the three-way comparison and the six relations all end in the
same mismatch, or are all failures, or are the answers about one order. -/
theorem comparisons_coherent (left right : Value) :
    (∀ op ∈ relations, Mirrored (relation op left right) (relation op.converse right left)) ∧
      Coherent left right :=
  ⟨fun _ h => relation_mirrored h left right, coherent left right⟩

/-- Lists that mismatch behind a pair of equal numbers. -/
theorem comparisons_coherent_nested :
    relation .less (.list [.int 1, .str "a"]) (.list [.real 1.0, .int 2]) =
        .error (.typeMismatch .str .int) ∧
      Operator.less ∈ relations ∧
      Mirrored (relation .less (.list [.int 1, .str "a"]) (.list [.real 1.0, .int 2]))
        (relation .greater (.list [.real 1.0, .int 2]) (.list [.int 1, .str "a"])) ∧
      Coherent (.list [.int 1, .str "a"]) (.list [.real 1.0, .int 2]) := by
  have related : Operator.less ∈ relations := by decide
  obtain ⟨mirrored, fits⟩ :=
    comparisons_coherent (.list [.int 1, .str "a"]) (.list [.real 1.0, .int 2])
  refine ⟨?_, related, mirrored .less related, fits⟩
  rfl

end Operation

end ShellExpr
