import Landscape.Json.Basic
import Landscape.Diagnostic
import Landscape.Build.Finding

/-!
Reading diagnostics and policies from JSON.

A record may be given as an object, where unknown fields are passed over, or as an array of its
fields in order. One of several names may be given as a string, or as an object with that name as
its only field and null in it.
-/

namespace Landscape

namespace Json

/-- The value of a field of an object, null if there is none. -/
def fieldIn (fields : List (String × Json)) (key : String) : Json :=
  ((fields.find? (·.1 = key)).map Prod.snd).getD null

/-- One of several names. -/
def name? : Json → Option String
  | string text => some text
  | object [(text, null)] => some text
  | _ => none

def string? : Json → Option String
  | string text => some text
  | _ => none

/-- A whole number that is not negative and fits into 64 bits. -/
def nat? : Json → Option Nat
  | number value => if 0 ≤ value ∧ value < Int.pow 2 64 then some value.toNat else none
  | _ => none

/-- A list of texts. -/
def strings? : Json → Option (List String)
  | array items => items.mapM string?
  | _ => none

/-- A value that may be null. -/
def optional? {α : Type} (decode : Json → Option α) : Json → Option (Option α)
  | null => some none
  | value => (decode value).map some

end Json

open Json

namespace Severity

def ofName? : String → Option Severity
  | "error" => some error
  | "warning" => some warning
  | _ => none

end Severity

namespace Diagnostic

/-- The fields of a diagnostic in order. -/
def fieldNames : List String :=
  ["message", "severity", "code", "line", "col", "filename", "expected", "context"]

def ofFields? : List Json → Option Diagnostic
  | [message, severity, code, line, column, filename, expected, context] => do
    return {
      message := ← message.string?
      severity := ← severity.name?.bind Severity.ofName?
      code := ← code.optional? string?
      line := ← line.optional? nat?
      column := ← column.optional? nat?
      filename := ← filename.optional? string?
      expected := ← expected.optional? strings?
      context := ← context.optional? string? }
  | _ => none

def ofJson? : Json → Option Diagnostic
  | object fields => ofFields? (fieldNames.map (fieldIn fields))
  | array items => ofFields? items
  | _ => none

end Diagnostic

namespace Policy

/-- A field that takes its default only when it is left out altogether. -/
def fieldOr {α : Type} (default : α) (ofName? : String → Option α) : Option Json → Option α
  | none => some default
  | some value => value.name?.bind ofName?

def ofFields? (references duplicates : Option Json) : Option Policy := do
  return ⟨← fieldOr .warn ReferencePolicy.ofName? references,
    ← fieldOr .shadow DuplicatePolicy.ofName? duplicates⟩

def ofJson? : Json → Option Policy
  | object fields => ofFields? (fields.lookup "references") (fields.lookup "duplicates")
  | array [] => ofFields? none none
  | array [references] => ofFields? (some references) none
  | array [references, duplicates] => ofFields? (some references) (some duplicates)
  | _ => none

end Policy

end Landscape
