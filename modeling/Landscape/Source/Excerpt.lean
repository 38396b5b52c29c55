import Landscape.Text.Lines

/-!
Excerpts: the few source lines shown with a message.

An excerpt shows one line with up to two lines on either side. Each is numbered from one, and the
line in question carries a marker.
-/

namespace Landscape

open Text

namespace Excerpt

/-- How many lines are shown on either side. -/
def margin : Nat := 2

/-- A number set flush right in three columns. -/
def lineNumber (n : Nat) : String :=
  let digits := toString n
  String.ofList (List.replicate (3 - digits.length) ' ') ++ digits

/-- One line of an excerpt around the line `focus`. -/
def renderLine (focus : Nat) (line : List Char × Nat) : String :=
  let marker := if line.2 = focus then ">>" else "  "
  marker ++ " " ++ lineNumber (line.2 + 1) ++ " | " ++ String.ofList line.1 ++ "\n"

end Excerpt

/-- The excerpt of a source text around a line, counted from zero. -/
def excerpt (source : String) (focus : Nat) : String :=
  let shown := ((lines source.toList).zipIdx.take (focus + Excerpt.margin + 1)).drop
    (focus - Excerpt.margin)
  String.join (shown.map (Excerpt.renderLine focus))

end Landscape
