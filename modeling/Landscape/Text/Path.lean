/-!
File paths: names separated by slashes.

Empty names and `.` stand for nothing. The name `..` leads out of a directory and is not the name of
anything.
-/

namespace Landscape.Text

/-- The parts of a path between its slashes. -/
def pathParts (path : String) : List String :=
  (path.splitOn "/").filter fun part => !(part.isEmpty || part = ".")

/-- The last name in a path, unless it leads out of a directory. -/
def lastName? (path : String) : Option String :=
  match (pathParts path).getLast? with
  | some ".." => none
  | last => last

end Landscape.Text
