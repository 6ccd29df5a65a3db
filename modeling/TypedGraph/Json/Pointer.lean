import TypedGraph.Json.Basic

/-!
# JSON Pointers

Paths into a JSON value. The empty pointer is the value itself; otherwise each step follows a slash.
In a step `~1` stands for a slash and `~0` for a tilde, in this order; any other tilde stands for
itself.
-/

namespace TypedGraph.Json

/-- Replaces each pair of characters by one. -/
def replacePair (a b c : Char) : List Char → List Char
  | x :: y :: rest =>
    if x = a ∧ y = b then c :: replacePair a b c rest else x :: replacePair a b c (y :: rest)
  | rest => rest

/-- The text of a pointer's step. -/
def pointerStep (cs : List Char) : String :=
  String.ofList (replacePair '~' '0' '~' (replacePair '~' '1' '/' cs))

/-- The pieces between slashes, after the characters of the first one already read in reverse. -/
def pieces (read : List Char) : List Char → List (List Char)
  | [] => [read.reverse]
  | c :: rest => if c = '/' then read.reverse :: pieces [] rest else pieces (c :: read) rest

/-- The steps of a pointer. -/
def pointerSteps? (pointer : String) : Option (List String) :=
  match pointer.toList with
  | [] => some []
  | '/' :: rest => some ((pieces [] rest).map pointerStep)
  | _ => none

/-- The position that a step means in an array: a decimal numeral without leading zeros. -/
def arrayIndex? (step : String) : Option Nat :=
  let cs := step.toList
  if cs.isEmpty ∨ ¬ cs.all Char.isDigit ∨ (cs.head? = some '0' ∧ cs.length ≠ 1) then none
  else some (Decimal.ofDigits cs)

/-- The part of a value that one step leads to. -/
def part? (value : Json) (step : String) : Option Json :=
  match value with
  | obj members => lookup members step
  | arr items => do items[← arrayIndex? step]?
  | _ => none

/-- The part of a value that a pointer leads to. -/
def pointer? (value : Json) (pointer : String) : Option Json := do
  (← pointerSteps? pointer).foldlM part? value

end TypedGraph.Json
