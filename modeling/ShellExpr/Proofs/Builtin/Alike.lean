import ShellExpr.Builtin.Rule
import ShellExpr.Proofs.Operation.Alike

/-!
# Builtin functions of values that are alike

Builtins take arguments that are alike to results that are alike.  Those that look into a container
hand on what they find in it.
-/

namespace ShellExpr

variable {pairs : Nat → Nat → Prop}

theorem Failure.unsupportedArgument_eq (rule : Builtin) {v w : Value} (h : v.Alike pairs w) :
    unsupportedArgument rule v = unsupportedArgument rule w := by
  rw [unsupportedArgument, unsupportedArgument, h.kind_eq]

theorem Failure.alike_unsupportedArgument (rule : Builtin) {v w : Value} (h : v.Alike pairs w) :
    (unsupportedArgument rule v).Alike pairs (unsupportedArgument rule w) := by
  rw [unsupportedArgument_eq rule h]
  exact .error _

namespace Builtin

variable {v w : Value}

/-! ### Numbers -/

theorem alike_onReals (rule : Builtin) (f : Float → Float) (h : v.Alike pairs w) :
    (onReals rule f v).Alike pairs (onReals rule f w) := by
  refine h.mapLeaves fun {x y} leaf => ?_
  rw [leaf.toFloat?_eq]
  split
  · exact .real _
  · exact Failure.alike_unsupportedArgument rule leaf

theorem alike_absRule (h : v.Alike pairs w) : (absRule v).Alike pairs (absRule w) := by
  refine h.mapLeaves fun {x y} leaf => ?_
  have failed := Failure.alike_unsupportedArgument .abs leaf
  cases leaf with
  | int n =>
    dsimp only
    split
    · exact .int _
    · exact .error _
  | real r => exact .real _
  | _ => exact failed

theorem alike_not (h : v.Alike pairs w) : (Operation.not v).Alike pairs (Operation.not w) := by
  cases h with
  | int n => exact .int _
  | _ => exact .error _

/-! ### Containers -/

theorem alike_lenRule (h : v.Alike pairs w) : (lenRule v).Alike pairs (lenRule w) := by
  cases h with
  | str text => exact .int _
  | list items =>
    simp only [lenRule, items.length_eq]
    exact .int _
  | tuple elements =>
    simp only [lenRule, ← Tuple.length_toList, elements.length_eq]
    exact .int _
  | error message => exact .error message
  | _ => exact .error _

theorem alike_headRule (h : v.Alike pairs w) : (headRule v).Alike pairs (headRule w) := by
  cases h with
  | str text =>
    unfold headRule
    dsimp only
    split
    · exact .str _
    · exact .error _
  | list items =>
    cases items with
    | nil => exact .error _
    | cons first rest => exact first
  | @tuple xs ys elements =>
    cases xs <;> cases ys <;> cases elements
    · exact .error _
    · assumption
  | error message => exact .error message
  | _ => exact .error _

theorem alike_tailRule (h : v.Alike pairs w) : (tailRule v).Alike pairs (tailRule w) := by
  cases h with
  | str text =>
    unfold tailRule
    dsimp only
    split
    · exact .str _
    · exact .error _
  | list items =>
    cases items with
    | nil => exact .error _
    | cons first rest => exact .list rest
  | @tuple xs ys elements =>
    cases xs <;> cases ys <;> cases elements
    · exact .error _
    · exact .tuple ‹_›
  | error message => exact .error message
  | _ => exact .error _

theorem alike_toList (h : v.Alike pairs w) : AlikeItems pairs v.toList w.toList := by
  have single : AlikeItems pairs [v] [w] := .cons h .nil
  cases h with
  | list items => exact items
  | tuple elements => exact elements
  | _ => exact single

theorem toList_toTuple (v : Value) : v.toTuple.toList = v.toList := by
  cases v <;> simp [Value.toTuple, Value.toList]

/-! ### Conversions -/

theorem alike_converting {α : Type} {convert : Value → Except FatalError α} {wrap : α → Value}
    (same : convert v = convert w) (flat : ∀ a, (wrap a).isFlat = true) (h : v.Alike pairs w) :
    (converting convert wrap v).Alike pairs (converting convert wrap w) := by
  cases h with
  | error message => exact .error message
  | _ =>
    simp only [converting, same]
    split
    · exact Value.alike_of_isFlat (flat _)
    · exact .error _

theorem alike_errorRule (h : v.Alike pairs w) : (errorRule v).Alike pairs (errorRule w) := by
  have shown : (Value.error v.text).Alike pairs (.error w.text) := by
    rw [h.text_eq]
    exact .error _
  cases h with
  | error message => exact .error message
  | _ => exact shown

theorem alike_assertRule (h : v.Alike pairs w) : (assertRule v).Alike pairs (assertRule w) := by
  rw [assertRule, assertRule, h.truthy_eq, h.isError_eq]
  split
  · exact h
  · exact .error _

/-! ### Every builtin -/

theorem alike_call (rule : Builtin) (h : v.Alike pairs w) :
    (rule.call v).Alike pairs (rule.call w) := by
  cases rule with
  | abs => exact alike_absRule h
  | assert => exact alike_assertRule h
  | cos => exact alike_onReals .cos _ h
  | error => exact alike_errorRule h
  | exp => exact alike_onReals .exp _ h
  | head => exact alike_headRule h
  | int => exact alike_converting h.toInt_eq (fun _ => rfl) h
  | isError =>
    simp only [call, h.isError_eq]
    exact .int _
  | len => exact alike_lenRule h
  | list => exact .list (alike_toList h)
  | ln => exact alike_onReals .ln _ h
  | not => exact h.mapLeaves alike_not
  | real => exact alike_converting h.toReal_eq (fun _ => rfl) h
  | sin => exact alike_onReals .sin _ h
  | sqrt => exact alike_onReals .sqrt _ h
  | str => exact alike_converting h.toText_eq (fun _ => rfl) h
  | tail => exact alike_tailRule h
  | tuple =>
    refine .tuple ?_
    rw [toList_toTuple, toList_toTuple]
    exact alike_toList h
  | type =>
    simp only [call, h.kind_eq]
    exact .str _

end Builtin

end ShellExpr
