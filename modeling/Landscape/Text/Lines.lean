/-!
Lines of a text.

A line feed ends a line, and a carriage return right before it belongs to the ending. Text after the
last line feed is a line too, unless it is empty.
-/

namespace Landscape.Text

/-- Adds a character in front of a text that is cut after its line feeds. -/
def consPiece (c : Char) (pieces : List (List Char)) : List (List Char) :=
  if c = '\n' then
    ['\n'] :: pieces
  else
    match pieces with
    | [] => [[c]]
    | piece :: rest => (c :: piece) :: rest

/-- Cuts a text after each of its line feeds. -/
def linePieces (cs : List Char) : List (List Char) :=
  cs.foldr consPiece []

theorem flatten_linePieces (cs : List Char) : (linePieces cs).flatten = cs := by
  induction cs with
  | nil => rfl
  | cons c cs ih =>
    have step : linePieces (c :: cs) = consPiece c (linePieces cs) := rfl
    rw [step, consPiece.eq_def]
    split
    · simp_all
    · split <;> simp_all

/-- A line without its ending. -/
def chomp (line : List Char) : List Char :=
  if line.getLast? = some '\n' then
    let body := line.dropLast
    if body.getLast? = some '\r' then body.dropLast else body
  else
    line

/-- The lines of a text, without their endings. -/
def lines (cs : List Char) : List (List Char) :=
  (linePieces cs).map chomp

end Landscape.Text
