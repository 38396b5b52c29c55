import Landscape.Json.Basic

/-!
Tables while a TOML document is being read.

The same table may be mentioned several times: under its own header, on the way to another header,
and in keys with dots. What may still be done to it depends on how it came about. A table with a
header of its own takes no second header, and keys with dots add to no table but those that such
keys made. A value takes nothing more.
-/

namespace Landscape.Toml

/-- How a table came about. -/
inductive Origin
  /-- It has its own header. -/
  | headed
  /-- It lies on the way to a header. -/
  | passed
  /-- It lies on the way of a key with dots. -/
  | dotted
deriving Repr, DecidableEq

inductive Node
  | value (v : Json)
  | table (origin : Origin) (fields : List (String × Node))
  /-- The tables of an array, to which each header of the array adds one. -/
  | tables (items : List (List (String × Node)))

abbrev Fields := List (String × Node)

namespace Fields

/-- The fields with one set anew. A new field comes last. -/
def put (fields : Fields) (key : String) (node : Node) : Fields :=
  if fields.any (·.1 = key) then
    fields.map fun field => if field.1 = key then (key, node) else field
  else
    fields ++ [(key, node)]

/-- The tables with the last one changed. -/
def changeLast (change : Fields → Option Fields) (items : List Fields) : Option Node :=
  match items.getLast? with
  | none => none
  | some last => (change last).map fun last => .tables (items.dropLast ++ [last])

/-- Gives a value to a key, at the end of a path for a key with dots. -/
def assign (v : Json) : List String → Fields → Option Fields
  | [], _ => none
  | [key], fields => if fields.any (·.1 = key) then none else some (fields ++ [(key, .value v)])
  | key :: next :: rest, fields => do
    let node ← match fields.lookup key with
      | none => (assign v (next :: rest) []).map (.table .dotted)
      | some (.table origin sub) =>
        if origin = .headed ∨ (rest.isEmpty ∧ origin = .passed) then none
        else (assign v (next :: rest) sub).map (.table origin)
      | some (.tables items) =>
        if rest.isEmpty then none else changeLast (assign v (next :: rest)) items
      | some (.value _) => none
    return put fields key node

/-- Follows the path of a header, and opens what is at its end. -/
def follow (openNode : Option Node → Option Node) : List String → Fields → Option Fields
  | [], _ => none
  | [key], fields => do return put fields key (← openNode (fields.lookup key))
  | key :: next :: rest, fields => do
    let node ← match fields.lookup key with
      | none => (follow openNode (next :: rest) []).map (.table .passed)
      | some (.table origin sub) => (follow openNode (next :: rest) sub).map (.table origin)
      | some (.tables items) => changeLast (follow openNode (next :: rest)) items
      | some (.value _) => none
    return put fields key node

end Fields

/-- A key and its value, as they are written below a header. -/
abbrev Pair := List String × Json

/-- The fields with pairs added in order. -/
def Fields.addAll (fields : Fields) (pairs : List Pair) : Option Fields :=
  pairs.foldlM (fun fields (path, v) => Fields.assign v path fields) fields

/-- What a header opens. -/
inductive HeaderKind
  | table
  | tables
deriving Repr, DecidableEq

/-- A header and the pairs below it. -/
structure Section where
  kind : HeaderKind
  path : List String
  pairs : List Pair

namespace Section

/-- What becomes of that at the end of the header's path. -/
def openNode (s : Section) : Option Node → Option Node
  | none =>
    match s.kind with
    | .table => (Fields.addAll [] s.pairs).map (.table .headed)
    | .tables => (Fields.addAll [] s.pairs).map fun fields => .tables [fields]
  | some (.table .passed fields) =>
    match s.kind with
    | .table => (Fields.addAll fields s.pairs).map (.table .headed)
    | .tables => none
  | some (.tables items) =>
    match s.kind with
    | .table => none
    | .tables => (Fields.addAll [] s.pairs).map fun fields => .tables (items ++ [fields])
  | some _ => none

/-- Adds the section to a document. -/
def addTo (s : Section) (fields : Fields) : Option Fields :=
  Fields.follow s.openNode s.path fields

end Section

mutual

def Node.toJson : Node → Json
  | .value v => v
  | .table _ fields => .object (fieldsToJson fields)
  | .tables items => .array (itemsToJson items)

def fieldsToJson : List (String × Node) → List (String × Json)
  | [] => []
  | (key, node) :: rest => (key, node.toJson) :: fieldsToJson rest

def itemsToJson : List (List (String × Node)) → List Json
  | [] => []
  | fields :: rest => .object (fieldsToJson fields) :: itemsToJson rest

end

end Landscape.Toml
