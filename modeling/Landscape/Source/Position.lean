import Landscape.Text.Bytes

/-!
Positions: byte offsets told as line and column.

Lines end at line feeds alone, and both numbers count from zero. Columns count characters. An offset
that splits a character, or that lies past the end, has no such column; it gets its distance in
bytes from the start of the line instead.
-/

namespace Landscape

open Text

/-- A line and a column, both counted from zero. -/
structure Position where
  line : Nat
  column : Nat
deriving Repr, DecidableEq

namespace Position

def render (p : Position) : String :=
  toString p.line ++ ":" ++ toString p.column

end Position

/-- The byte offsets at which the lines after the first start, for a text that begins at
`offset`. -/
def lineStartsFrom (offset : Nat) : List Char → List Nat
  | [] => []
  | c :: cs =>
    let next := offset + c.utf8Size
    if c = '\n' then next :: lineStartsFrom next cs else lineStartsFrom next cs

/-- A source text with the offsets at which its lines start. -/
structure LineTable where
  text : List Char
  starts : List Nat

namespace LineTable

def ofString (source : String) : LineTable :=
  let text := source.toList
  ⟨text, 0 :: lineStartsFrom 0 text⟩

/-- The number of lines. A text that ends with a line feed has an empty last line. -/
def lineCount (table : LineTable) : Nat :=
  table.starts.length

def lineStart? (table : LineTable) (line : Nat) : Option Nat :=
  table.starts[line]?

/-- The last line that starts no later than the offset. -/
def lineAt (table : LineTable) (offset : Nat) : Nat :=
  table.starts.countP (· ≤ offset) - 1

/-- The position of a byte offset. -/
def position (table : LineTable) (offset : Nat) : Position :=
  let line := table.lineAt offset
  let start := (table.lineStart? line).getD 0
  let column :=
    match takeBytes? start table.text, takeBytes? offset table.text with
    | some before, some upTo => upTo.length - before.length
    | _, _ => offset - start
  ⟨line, column⟩

end LineTable

/-- The position of a byte offset in a source text. -/
def positionIn (source : String) (offset : Nat) : Position :=
  (LineTable.ofString source).position offset

end Landscape
