/-!
JSON values.

Objects keep their fields in order. Numbers are whole; a number with a fraction is kept as it was
written, since nothing here computes with it.
-/

namespace Landscape

inductive Json
  | null
  | bool (value : Bool)
  | number (value : Int)
  | fraction (text : String)
  | string (text : String)
  | array (items : List Json)
  | object (fields : List (String × Json))
deriving Repr, Inhabited

namespace Json

def ofNat (n : Nat) : Json :=
  number n

/-- A value that may be absent. -/
def ofOption {α : Type} (encode : α → Json) : Option α → Json
  | none => null
  | some value => encode value

def ofList {α : Type} (encode : α → Json) (items : List α) : Json :=
  array (items.map encode)

def strings (texts : List String) : Json :=
  ofList string texts

end Json

end Landscape
