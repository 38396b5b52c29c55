import Landscape.Text.Literal

/-!
Mismatches: how a model can fall short of what was expected of it.

A mismatch names the way that led to the place in question, such as `model:domain[Shop]`, so that
the message can be understood without the expectation at hand.
-/

namespace Landscape

/-- Something that was expected and is not so. -/
inductive Problem
  | count (what : String) (expected actual : Nat)
  | value (what expected actual : String)
  | missing (what name : String)
  | unrelated (left right : String)
  | present (what name : String)
  | beyond (what : String) (index : Nat) (items : String) (total : Nat)
deriving Repr, DecidableEq

namespace Problem

def message : Problem → String
  | count what expected actual =>
    "Expected " ++ toString expected ++ " " ++ what ++ ", found " ++ toString actual
  | value what expected actual =>
    "Expected " ++ what ++ " " ++ expected ++ ", but got " ++ actual
  | missing what name => "No " ++ what ++ " named '" ++ name ++ "'"
  | unrelated left right => "No relationship between '" ++ left ++ "' and '" ++ right ++ "'"
  | present what name => "Expected no " ++ what ++ " named '" ++ name ++ "'"
  | beyond what index items total =>
    what ++ " index " ++ toString index ++ " out of bounds (" ++ toString total ++ " " ++ items ++
      ")"

end Problem

structure Mismatch where
  place : String
  problem : Problem
deriving Repr, DecidableEq

namespace Mismatch

def message (m : Mismatch) : String :=
  m.place ++ ": " ++ m.problem.message

/-! Each of these compares what is there with what was expected. -/

variable (place what : String)

def ofCount (expected actual : Nat) : Option Mismatch :=
  if actual = expected then none else some ⟨place, .count what expected actual⟩

/-- Compares two values that are shown through `render`. -/
def ofValue {α : Type} [DecidableEq α] (render : α → String) (expected actual : α) :
    Option Mismatch :=
  if actual = expected then none else some ⟨place, .value what (render expected) (render actual)⟩

/-- Compares two texts, shown between apostrophes. -/
def ofText (expected actual : String) : Option Mismatch :=
  ofValue place what (fun text => "'" ++ text ++ "'") expected actual

/-- Compares two texts that may be absent, shown as literals. -/
def ofOption (expected actual : Option String) : Option Mismatch :=
  ofValue place what Text.optionLiteral expected actual

/-- Compares two lists of texts, shown as literals. -/
def ofList (expected actual : List String) : Option Mismatch :=
  ofValue place what Text.listLiteral expected actual

end Mismatch

end Landscape
