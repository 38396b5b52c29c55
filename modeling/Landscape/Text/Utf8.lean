/-!
Decoding UTF-8.

Bytes are read one at a time. Between two bytes the decoder knows what is owed of the character it
is in: how many bytes, and in which range the next one must lie. The ranges of the second byte are
what rules out overlong forms, surrogates and codes beyond the last character.

Bytes that begin a character and break off before its end are bad together, and the byte that broke
them off is read afresh.
-/

namespace Landscape.Text

/-- What is owed of a character that has been read in part. -/
structure Owed where
  /-- How many bytes follow the next one. -/
  later : Nat
  low : Nat
  high : Nat
  /-- The code read so far. -/
  code : Nat
deriving Repr, DecidableEq

/-- What a byte amounts to at the start of a character. -/
inductive Opening
  | whole (c : Char)
  | begun (owed : Owed)
  | bad
deriving Repr, DecidableEq

namespace Opening

def ofByte (b : Nat) : Opening :=
  if b < 0x80 then whole (Char.ofNat b)
  else if b < 0xC2 then bad
  else if b < 0xE0 then begun ⟨0, 0x80, 0xBF, b - 0xC0⟩
  else if b = 0xE0 then begun ⟨1, 0xA0, 0xBF, 0⟩
  else if b = 0xED then begun ⟨1, 0x80, 0x9F, 0xD⟩
  else if b < 0xF0 then begun ⟨1, 0x80, 0xBF, b - 0xE0⟩
  else if b = 0xF0 then begun ⟨2, 0x90, 0xBF, 0⟩
  else if b < 0xF4 then begun ⟨2, 0x80, 0xBF, b - 0xF0⟩
  else if b = 0xF4 then begun ⟨2, 0x80, 0x8F, 4⟩
  else bad

end Opening

/-- The pieces of a byte sequence, in which something may be owed from before: its characters, and
nothing for each group of bad bytes. -/
def utf8Pieces : Option Owed → List UInt8 → List (Option Char)
  | none, [] => []
  | some _, [] => [none]
  | none, byte :: rest =>
    match Opening.ofByte byte.toNat with
    | .whole c => some c :: utf8Pieces none rest
    | .begun owed => utf8Pieces (some owed) rest
    | .bad => none :: utf8Pieces none rest
  | some owed, byte :: rest =>
    let b := byte.toNat
    if owed.low ≤ b ∧ b ≤ owed.high then
      let code := owed.code * 64 + (b - 0x80)
      match owed.later with
      | 0 => some (Char.ofNat code) :: utf8Pieces none rest
      | later + 1 => utf8Pieces (some ⟨later, 0x80, 0xBF, code⟩) rest
    else
      match Opening.ofByte b with
      | .whole c => none :: some c :: utf8Pieces none rest
      | .begun next => none :: utf8Pieces (some next) rest
      | .bad => none :: none :: utf8Pieces none rest

/-- The text in a byte sequence, if all of it is good. -/
def ofUtf8? (bytes : List UInt8) : Option String :=
  ((utf8Pieces none bytes).mapM id).map String.ofList

/-- The text in a byte sequence, where U+FFFD stands for each group of bad bytes. -/
def ofUtf8Lossy (bytes : List UInt8) : String :=
  String.ofList ((utf8Pieces none bytes).map (·.getD '\uFFFD'))

def utf8Bytes (text : String) : List UInt8 :=
  text.toUTF8.toList

end Landscape.Text
