import Landscape.Toml.Scalar
import Landscape.Toml.Table

/-!
TOML documents, read as JSON objects.

Values are nested less than eighty deep.
-/

namespace Landscape.Toml

open Reader

/-- An array of values, given how to read one. A comma may stand behind the last. -/
def array (value : Reader Json) : Reader Json := do
  char '['
  let item : Reader Json := do gap; let v ← value; gap; return v
  let items ← optional do
    let items ← separated item (char ',')
    let _ ← optional (char ',')
    return items
  gap
  char ']'
  return .array (items.getD [])

/-- A key and its value, given how to read a value. -/
def pair (value : Reader Json) : Reader Pair := do
  let path ← key
  char '='
  blanks
  let v ← value
  blanks
  return (path, v)

/-- A table on one line, given how to read a value. -/
def inlineTable (value : Reader Json) : Reader Json := do
  char '{'
  let pairs ← optional (separated (pair value) (char ','))
  blanks
  char '}'
  match Fields.addAll [] (pairs.getD []) with
  | some fields => return .object (fieldsToJson fields)
  | none => failure

/-- A value in which others are nested at most so deep. -/
def value : Nat → Reader Json
  | 0 => scalar
  | depth + 1 => scalar <|> array (value depth) <|> inlineTable (value depth)

/-- What a line says. -/
inductive Line
  | blank
  | header (kind : HeaderKind) (path : List String)
  | pair (p : Pair)

def line : Reader Line := do
  blanks
  let content ←
    (do text "[["; let path ← key; text "]]"; return .header .tables path) <|>
    (do char '['; let path ← key; char ']'; return .header .table path) <|>
    (.pair <$> pair (value (nestingLimit - 1))) <|>
    return .blank
  blanks
  let _ ← optional comment
  return content

/-- The pairs above the first header, and the sections. -/
def sections : List Line → List Pair × List Section
  | [] => ([], [])
  | .blank :: rest => sections rest
  | .pair p :: rest =>
    let (pairs, later) := sections rest
    (p :: pairs, later)
  | .header kind path :: rest =>
    let (pairs, later) := sections rest
    ([], ⟨kind, path, pairs⟩ :: later)

/-- The fields of the document that a text is, if it is one. A mark of byte order in front is
skipped. -/
def parse? (text : String) : Option (List (String × Json)) := do
  let cs := match text.toList with
    | '\uFEFF' :: cs => cs
    | cs => cs
  let (pairs, later) := sections (← (separated line lineEnd).run? cs)
  let fields ← Fields.addAll [] pairs
  return fieldsToJson (← later.foldlM (fun fields s => s.addTo fields) fields)

end Landscape.Toml
