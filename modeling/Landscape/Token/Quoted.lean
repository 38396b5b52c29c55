/-!
Quoted strings.

Between the quotes a backslash gives the next character its meaning: `n`, `t` and `r` stand for line
feed, tab and carriage return, any other character for itself. A backslash cannot be followed by a
line break; a line break without a backslash is an ordinary character.
-/

namespace Landscape.Quoted

/-- The number of characters up to and including the closing quote, on top of `count`, or nothing if
the string does not end. -/
def closing (count : Nat) : List Char → Option Nat
  | [] => none
  | '"' :: _ => some (count + 1)
  | '\\' :: [] => none
  | '\\' :: c :: rest => if c = '\n' then none else closing (count + 2) rest
  | _ :: rest => closing (count + 1) rest

/-- The meaning of an escaped character. -/
def escaped : Char → Char
  | 'n' => '\n'
  | 't' => '\t'
  | 'r' => '\r'
  | c => c

/-- The text meant by what stands between the quotes. -/
def decode : List Char → List Char
  | [] => []
  | '\\' :: [] => ['\\']
  | '\\' :: c :: rest => escaped c :: decode rest
  | c :: rest => c :: decode rest

/-- A text as it is written between quotes. -/
def encode : List Char → List Char
  | [] => []
  | c :: rest => if c = '"' ∨ c = '\\' then '\\' :: c :: encode rest else c :: encode rest

theorem decode_encode (text : List Char) : decode (encode text) = text := by
  induction text with
  | nil => rfl
  | cons c rest ih =>
    by_cases quote : c = '"'
    · subst quote; simp [encode, decode, escaped, ih]
    · by_cases slash : c = '\\'
      · subst slash; simp [encode, decode, escaped, ih]
      · simp [encode, decode, quote, slash, ih]

end Landscape.Quoted
