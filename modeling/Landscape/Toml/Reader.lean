/-!
Readers: what reads a piece of a TOML text and leaves the rest.

A reader that fails has read nothing, so that another may be tried in its place.
-/

namespace Landscape.Toml

abbrev Reader := StateT (List Char) Option

namespace Reader

/-- The characters that are left. -/
def rest : Reader (List Char) := get

/-- The next character, if it is of a class. -/
def oneOf (inClass : Char → Bool) : Reader Char := do
  match ← rest with
  | c :: cs => if inClass c then set cs; return c else failure
  | [] => failure

def char (c : Char) : Reader Unit := do
  let _ ← oneOf (· == c)

/-- The characters up to the first that is not of a class. -/
def span (inClass : Char → Bool) : Reader (List Char) := do
  let cs ← rest
  set (cs.dropWhile inClass)
  return cs.takeWhile inClass

/-- As `span`, but at least one character. -/
def span1 (inClass : Char → Bool) : Reader (List Char) := do
  let found ← span inClass
  if found.isEmpty then failure else return found

/-- So many characters of a class. -/
def exactly (inClass : Char → Bool) : Nat → Reader (List Char)
  | 0 => return []
  | n + 1 => do return (← oneOf inClass) :: (← exactly inClass n)

/-- A fixed text. -/
def text (expected : String) : Reader Unit := do
  let cs ← rest
  if expected.toList.isPrefixOf cs then set (cs.drop expected.length) else failure

/-- What a reader reads, over and over until it fails or leaves no less than there was. -/
def many {α : Type} (p : Reader α) : Reader (List α) := fun cs => loop cs.length cs
where
  loop : Nat → List Char → Option (List α × List Char)
  | 0, cs => some ([], cs)
  | n + 1, cs =>
    match p cs with
    | none => some ([], cs)
    | some (x, cs') =>
      if cs'.length < cs.length then (loop n cs').map fun (xs, cs'') => (x :: xs, cs'')
      else some ([], cs)

/-- Items with a separator between them, at least one. -/
def separated {α β : Type} (item : Reader α) (separator : Reader β) : Reader (List α) := do
  return (← item) :: (← many do let _ ← separator; item)

/-- The characters that a reader reads. -/
def taken {α : Type} (p : Reader α) : Reader (List Char) := fun cs =>
  (p cs).map fun (_, cs') => (cs.take (cs.length - cs'.length), cs')

/-- What a reader reads, if it reads everything. -/
def run? {α : Type} (p : Reader α) (cs : List Char) : Option α :=
  match p cs with
  | some (x, []) => some x
  | _ => none

end Reader

open Reader

/-! ## Blanks, line ends and comments -/

def isBlank (c : Char) : Bool :=
  c = ' ' || c = '\t'

/-- Whether a character may stand in a comment or a string: any but the control characters, of which
only the tab may. -/
def isText (c : Char) : Bool :=
  c = '\t' || (' ' ≤ c && c ≠ '\x7f')

def blanks : Reader Unit := do
  let _ ← span isBlank

def lineEnd : Reader Unit :=
  char '\n' <|> text "\r\n"

def comment : Reader Unit := do
  char '#'
  let _ ← span isText

/-- Blanks, comments and line ends, as they may stand between the items of an array. -/
def gap : Reader Unit := do
  let _ ← many ((do let _ ← span1 isBlank) <|> lineEnd <|> comment)

end Landscape.Toml
