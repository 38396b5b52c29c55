/-!
Keys of settings, such as `build.references` or `servers[0].name`.

A key is a name followed by steps, each to a field or to an item of a list. Names are made of ASCII
letters, digits, `_`, `-` and spaces. An item may be counted from the end, by a negative number.
-/

namespace Landscape

inductive KeyStep
  | field (name : String)
  | item (index : Int)
deriving Repr, DecidableEq

structure Key where
  root : String
  steps : List KeyStep
deriving Repr, DecidableEq

namespace Key

/-- The key that is nothing but a name. -/
def ofName (name : String) : Key :=
  ⟨name, []⟩

/-- Whether a character may stand in a name. -/
def isNameChar (c : Char) : Bool :=
  c.isAlphanum || c = ' ' || c = '_' || c = '-'

/-- A name at the start, and the rest. -/
def name? (cs : List Char) : Option (String × List Char) :=
  match cs.takeWhile isNameChar with
  | [] => none
  | found => some (String.ofList found, cs.dropWhile isNameChar)

def skipBlanks (cs : List Char) : List Char :=
  cs.dropWhile fun c => c = ' ' || c = '\t'

/-- An index up to its closing bracket, and the rest. It fits into 64 bits with a sign. -/
def index? (cs : List Char) : Option (Int × List Char) :=
  let cs := skipBlanks cs
  let (negative, cs) := if cs.head? = some '-' then (true, cs.drop 1) else (false, cs)
  let digits := cs.takeWhile Char.isDigit
  match digits, skipBlanks (cs.dropWhile Char.isDigit) with
  | _ :: _, ']' :: rest =>
    let size : Int := digits.foldl (fun n c => n * 10 + (c.toNat - '0'.toNat : Nat)) 0
    let index := if negative then -size else size
    if -Int.pow 2 63 ≤ index ∧ index < Int.pow 2 63 then some (index, rest) else none
  | _, _ => none

/-- Reads steps to the end. Each takes at least one character, so the number of characters bounds
their number. -/
def steps? : Nat → List Char → Option (List KeyStep)
  | _, [] => some []
  | n + 1, '.' :: rest => do
    let (name, rest) ← name? rest
    return .field name :: (← steps? n rest)
  | n + 1, '[' :: rest => do
    let (index, rest) ← index? rest
    return .item index :: (← steps? n rest)
  | _, _ => none

def parse? (text : String) : Option Key := do
  let (root, rest) ← name? text.toList
  return ⟨root, ← steps? rest.length rest⟩

end Key

end Landscape
