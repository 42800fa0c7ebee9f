/-!
# Logical lines

A script falls into physical lines at its line breaks; a carriage return in front of a break
belongs to the break, and nothing follows the last one.  A physical line that ends in an odd number
of backslashes goes on in the next one: the last backslash is dropped and the two are joined.
-/

namespace ShellExpr

/-- A line of a script with the number of its first physical line. -/
structure LogicalLine where
  number : Nat
  text : String
deriving DecidableEq, Repr

namespace LogicalLine

/-- A line in reverse without the carriage return in front of its break. -/
def withoutReturn : List Char → List Char
  | '\r' :: line => line
  | line => line

/-- The physical lines of a text, where `line` holds the characters of the current one in
reverse. -/
def physicalFrom (line : List Char) : List Char → List (List Char)
  | [] => if line.isEmpty then [] else [line.reverse]
  | '\n' :: cs => (withoutReturn line).reverse :: physicalFrom [] cs
  | c :: cs => physicalFrom (c :: line) cs

def physicalLines (source : String) : List (List Char) :=
  physicalFrom [] source.toList

/-- The number of backslashes at the end of a line. -/
def trailingBackslashes (line : List Char) : Nat :=
  (line.reverse.takeWhile (· == '\\')).length

/-- Whether the last backslash of a line is there and not itself escaped. -/
def continues (line : List Char) : Bool :=
  trailingBackslashes line % 2 == 1

/-- Joins physical lines, the first of which has the given number.  Each logical line comes with the
number of its first physical line. -/
def joinFrom (number : Nat) : List (List Char) → List (Nat × List Char)
  | [] => []
  | line :: rest =>
    let later := joinFrom (number + 1) rest
    if continues line then
      match later with
      | [] => [(number, line.dropLast)]
      | (_, text) :: others => (number, line.dropLast ++ text) :: others
    else (number, line) :: later

end LogicalLine

/-- The logical lines of a script. -/
def logicalLines (source : String) : List LogicalLine :=
  (LogicalLine.joinFrom 1 (LogicalLine.physicalLines source)).map fun (number, text) =>
    ⟨number, String.ofList text⟩

example : logicalLines "(1 +\\\n 2)\r\n(3)" = [⟨1, "(1 + 2)"⟩, ⟨3, "(3)"⟩] := by decide +kernel

end ShellExpr
