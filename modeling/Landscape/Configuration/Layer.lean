import Landscape.Configuration.Key
import Landscape.Json.Basic

/-!
Laying settings over one another.

Settings are kept as one JSON object. A table laid over a table goes into it field by field;
anything else takes the place of what was there. The names of fields are compared without regard to
case, and so they are kept in lower case.
-/

namespace Landscape

/-- A name as it is kept. Letters outside ASCII stay as they are, since no setting has any in its
name. -/
def lowered (name : String) : String :=
  String.ofList (name.toList.map Char.toLower)

namespace Json

/-- The fields of an object. Anything else has none. -/
def fields : Json → List (String × Json)
  | object fields => fields
  | _ => []

/-- The items of an array. Anything else has none. -/
def items : Json → List Json
  | array items => items
  | _ => []

def field? (j : Json) (name : String) : Option Json :=
  j.fields.lookup name

/-- The object with one field set anew. What is no object becomes one. -/
def setField (j : Json) (name : String) (value : Json) : Json :=
  if j.fields.any (·.1 = name) then
    object (j.fields.map fun field => if field.1 = name then (name, value) else field)
  else
    object (j.fields ++ [(name, value)])

/-- The array with one item set anew, and longer by empty items if need be. What is no array becomes
one. -/
def setItem (j : Json) (index : Nat) (value : Json) : Json :=
  let items := j.items ++ List.replicate (index + 1 - j.items.length) null
  array (items.set index value)

mutual

/-- What becomes of a value when another is laid over it. -/
def overlaid (under : Option Json) : Json → Json
  | object fields => overlayFields (under.getD (object [])) fields
  | value => value

def overlayFields (under : Json) : List (String × Json) → Json
  | [] => under
  | (name, value) :: rest =>
    let name := lowered name
    overlayFields (under.setField name (overlaid (under.field? name) value)) rest

end

/-- The place of an item that may be counted from the end. -/
def place? (j : Json) (index : Int) : Option Nat :=
  let index := if index < 0 then index + j.items.length else index
  if index < 0 then none else some index.toNat

/-- Lays a value over that at the end of some steps, if there is such a place. -/
def layAt (value : Json) : List KeyStep → Option Json → Option Json
  | [], under => some (overlaid under value)
  | .field name :: steps, under => do
    let under := under.getD null
    let name := lowered name
    return under.setField name (← layAt value steps (under.field? name))
  | [.item index], under => do
    let under := under.getD null
    return under.setItem (← under.place? index) value
  | .item index :: steps, under => do
    let under := under.getD null
    let place ← under.place? index
    return under.setItem place (← layAt value steps under.items[place]?)

/-- Lays a value over that under a key. -/
def lay (settings : Json) (key : Key) (value : Json) : Json :=
  (layAt value (.field key.root :: key.steps) (some settings)).getD settings

/-- Lays a layer of settings over others. The names in the layer are keys if they can be. -/
def layAll (settings : Json) (layer : List (String × Json)) : Json :=
  layer.foldl (fun settings (name, value) =>
    settings.lay ((Key.parse? name).getD (.ofName name)) value) settings

end Json

end Landscape
