import Landscape.Toml.Number
import Landscape.Toml.Text

/-!
Numbers, dates and times in TOML.

A whole number fits into 64 bits with a sign. Underscores may stand between digits. A date or a time
is checked against the calendar and read as the text it is written as.
-/

namespace Landscape.Toml

open Reader

/-! ## Numbers -/

/-- Digits of a class, with single underscores between them. The underscores are left out. -/
def digits (isDigit : Char → Bool) : Reader (List Char) := do
  let first ← oneOf isDigit
  let more ← many (oneOf isDigit <|> (do char '_'; oneOf isDigit))
  return first :: more

/-- Whether a sign, if there is one, is a minus. -/
def sign : Reader Bool :=
  (do char '-'; return true) <|> (do char '+'; return false) <|> return false

def naturalOf (digits : List Char) : Nat :=
  digits.foldl (fun n c => n * 10 + (c.toNat - '0'.toNat)) 0

/-- Decimal digits that do not start with a needless zero. -/
def wholeDigits : Reader (List Char) := do
  let found ← digits Char.isDigit
  if found.length > 1 && found.head? == some '0' then failure else return found

def signed (negative : Bool) (n : Nat) : Int :=
  if negative then -n else n

/-- A number, if it fits into 64 bits with a sign. -/
def fitting (n : Int) : Reader Json :=
  if -Int.pow 2 63 ≤ n ∧ n < Int.pow 2 63 then return .number n else failure

/-- The value of digits to a base that divides the hexadecimal one. -/
def valueTo (base : Nat) (digits : List Char) : Nat :=
  digits.foldl (fun n c => n * base + hexValue [c]) 0

def basedInteger : Reader Json :=
  (do text "0x"; fitting (valueTo 16 (← digits isHexDigit))) <|>
  (do text "0o"; fitting (valueTo 8 (← digits fun c => '0' ≤ c && c ≤ '7'))) <|>
  (do text "0b"; fitting (valueTo 2 (← digits fun c => c = '0' || c = '1')))

def integer : Reader Json :=
  basedInteger <|> do
    let negative ← sign
    fitting (signed negative (naturalOf (← wholeDigits)))

def exponent : Reader Int := do
  let _ ← oneOf fun c => c = 'e' || c = 'E'
  let negative ← sign
  return signed negative (naturalOf (← digits Char.isDigit))

def fraction : Reader (List Char) := do
  char '.'
  digits Char.isDigit

/-- A number with a fraction or an exponent. Only downwards may it be infinite. -/
def decimal : Reader Json := do
  let negative ← sign
  let whole ← wholeDigits
  let places ← optional fraction
  let power ← optional exponent
  if places.isNone && power.isNone then
    failure
  let places := places.getD []
  let x : Decimal := ⟨negative, naturalOf (whole ++ places), power.getD 0 - places.length⟩
  if x.overflows && !negative then failure else return x.toJson

/-- The numbers that have names. -/
def namedNumber : Reader Json := do
  let negative ← sign
  let name ← (do text "inf"; return "inf") <|> (do text "nan"; return "nan")
  return .fraction ((if negative then "-" else "") ++ name)

/-! ## Dates and times -/

/-- A number of so many digits in a range. -/
def numberIn (places low high : Nat) : Reader Nat := do
  let n := naturalOf (← exactly Char.isDigit places)
  if low ≤ n ∧ n ≤ high then return n else failure

def isLeapYear (year : Nat) : Bool :=
  year % 4 = 0 && (year % 100 ≠ 0 || year % 400 = 0)

def daysIn (year month : Nat) : Nat :=
  if month = 2 then (if isLeapYear year then 29 else 28)
  else if [4, 6, 9, 11].contains month then 30
  else 31

def date : Reader Unit := do
  let year ← numberIn 4 0 9999
  char '-'
  let month ← numberIn 2 1 12
  char '-'
  let _ ← numberIn 2 1 (daysIn year month)

def time : Reader Unit := do
  let _ ← numberIn 2 0 23
  char ':'
  let _ ← numberIn 2 0 59
  char ':'
  let _ ← numberIn 2 0 60
  let _ ← optional do char '.'; span1 Char.isDigit

def zone : Reader Unit :=
  (do let _ ← oneOf fun c => c = 'Z' || c = 'z') <|> do
    let _ ← oneOf fun c => c = '+' || c = '-'
    let _ ← numberIn 2 0 23
    char ':'
    let _ ← numberIn 2 0 59

def moment : Reader Unit :=
  (do
    date
    let _ ← optional do
      let _ ← oneOf fun c => c = 'T' || c = 't' || c = ' '
      time
      optional zone) <|>
  time

/-! ## Values that hold no others -/

def scalar : Reader Json :=
  (.string <$> string) <|>
  (do text "true"; return .bool true) <|>
  (do text "false"; return .bool false) <|>
  ((fun cs => .string (String.ofList cs)) <$> taken moment) <|>
  decimal <|> namedNumber <|> integer

end Landscape.Toml
