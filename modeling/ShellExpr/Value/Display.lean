import ShellExpr.Double.Written
import ShellExpr.Text.Basic
import ShellExpr.Text.Quoted
import ShellExpr.Value.Basic

/-!
# The text of a value

A value is shown by its `text`.  Texts stand bare on their own and quoted inside a container;
lists have square brackets, tuples round ones.  The `description` of a value names its kind too.
-/

namespace ShellExpr

/-- Texts with commas between them and a bracket on both sides. -/
def bracketed (opening : String) (parts : List String) (closing : String) : String :=
  opening ++ Text.joinWith ", " parts ++ closing

mutual

def Value.text : Value → String
  | .int n => Integer.written n
  | .real r => Double.written r
  | .str text => text
  | .list items => bracketed "[" (itemTexts items) "]"
  | .tuple items => bracketed "(" (elementTexts items) ")"
  | .func f => "<func " ++ f.name ++ ">"
  | .error message => message
termination_by structural v => v

/-- The texts of the items of a list, as they stand inside it. -/
def itemTexts : List Value → List String
  | [] => []
  | .str text :: rest => Text.quote text :: itemTexts rest
  | v :: rest => v.text :: itemTexts rest
termination_by structural vs => vs

/-- The texts of the elements of a tuple, as they stand inside it. -/
def elementTexts : Tuple Value → List String
  | .empty => []
  | .node (.str text) rest => Text.quote text :: elementTexts rest
  | .node v rest => v.text :: elementTexts rest
termination_by structural vs => vs

/-- The name of a function: a builtin has one, a constant function shows its value, and a lambda
shows its parameter and its body. -/
def Func.name : Func → String
  | .builtin _ rule => rule.name
  | .constant _ value => "const " ++ value.text
  | .lambda _ parameter body _ => parameter ++ " -> " ++ Text.quote body
termination_by structural f => f

end

/-- The text of a value inside a container. -/
def Value.nestedText : Value → String
  | .str text => Text.quote text
  | v => v.text

theorem itemTexts_eq (items : List Value) : itemTexts items = items.map Value.nestedText := by
  induction items with
  | nil => rfl
  | cons v rest ih => cases v <;> simp [itemTexts, Value.nestedText, ih]

theorem elementTexts_eq (items : Tuple Value) :
    elementTexts items = items.toList.map Value.nestedText := by
  induction items with
  | empty => rfl
  | node v rest ih => cases v <;> simp [elementTexts, Value.nestedText, ih]

/-! ### Descriptions -/

def Func.description (f : Func) : String :=
  "Func \x7b name: " ++ Text.quote f.name ++ ", .. \x7d"

mutual

def Value.description : Value → String
  | .int n => "Int(" ++ Integer.written n ++ ")"
  | .real r => "Real(" ++ Double.written r ++ ")"
  | .str text => "Str(" ++ Text.quote text ++ ")"
  | .list items => "List(" ++ bracketed "[" (itemDescriptions items) "]" ++ ")"
  | .tuple items => "Tuple(" ++ bracketed "[" (elementDescriptions items) "]" ++ ")"
  | .func f => "Func(" ++ f.description ++ ")"
  | .error message => "Error(" ++ Text.quote message ++ ")"
termination_by structural v => v

def itemDescriptions : List Value → List String
  | [] => []
  | v :: rest => v.description :: itemDescriptions rest
termination_by structural vs => vs

def elementDescriptions : Tuple Value → List String
  | .empty => []
  | .node v rest => v.description :: elementDescriptions rest
termination_by structural vs => vs

end

/-- A tuple by the descriptions of its elements. -/
def Tuple.description (items : Tuple Value) : String :=
  bracketed "[" (elementDescriptions items) "]"

end ShellExpr
