import Landscape.Source.Excerpt
import Landscape.Source.Position
import Landscape.Source.Span

/-!
Diagnostics: everything that is reported to the person who wrote a document.

A diagnostic may say where it applies, what was expected there, and show the lines around it. Its
printed form is `[file:line:column] message (expected: a, b)`, each part left out when it is absent.
-/

namespace Landscape

inductive Severity
  | error
  | warning
deriving Repr, DecidableEq

namespace Severity

def name : Severity → String
  | error => "error"
  | warning => "warning"

end Severity

/-- What a diagnostic is about. -/
inductive Code
  | syntaxError
  | unresolvedReference
  | duplicateName
  | unknownSubdomainType
  | unreadableFile
deriving Repr, DecidableEq

namespace Code

def text : Code → String
  | syntaxError => "syntax"
  | unresolvedReference => "unresolved-reference"
  | duplicateName => "duplicate-name"
  | unknownSubdomainType => "unknown-subdomain-type"
  | unreadableFile => "io"

end Code

/-- A message with what is known about it. Line and column count from one. -/
structure Diagnostic where
  message : String
  severity : Severity
  code : Option String
  line : Option Nat
  column : Option Nat
  filename : Option String
  expected : Option (List String)
  context : Option String
deriving Repr, DecidableEq

namespace Diagnostic

/-- A bare message. -/
def ofMessage (severity : Severity) (message : String) : Diagnostic :=
  { message, severity, code := none, line := none, column := none, filename := none,
    expected := none, context := none }

def error (message : String) : Diagnostic :=
  ofMessage .error message

def warning (message : String) : Diagnostic :=
  ofMessage .warning message

def isError (d : Diagnostic) : Bool :=
  d.severity == .error

def withCode (code : String) (d : Diagnostic) : Diagnostic :=
  { d with code := some code }

/-- Sets a line and a column, both counted from one. -/
def placedAt (line column : Nat) (d : Diagnostic) : Diagnostic :=
  { d with line := some line, column := some column }

def withFilename (filename : String) (d : Diagnostic) : Diagnostic :=
  { d with filename := some filename }

/-- Sets the expectations. To expect nothing is to say nothing. -/
def withExpected (expected : List String) (d : Diagnostic) : Diagnostic :=
  { d with expected := if expected.isEmpty then none else some expected }

/-- Sets the source lines to show. An empty excerpt is none. -/
def withContext (context : String) (d : Diagnostic) : Diagnostic :=
  { d with context := if context.isEmpty then none else some context }

/-- Places a diagnostic at the start of a span and shows the lines around it. A span that starts
past the end of the source counts as its end. -/
def placedIn (source : String) (span : Span) (d : Diagnostic) : Diagnostic :=
  let position := positionIn source (min span.start source.utf8ByteSize)
  (d.placedAt (position.line + 1) (position.column + 1)).withContext (excerpt source position.line)

/-- The place of a diagnostic as printed, empty if nothing is known. A column is shown only behind a
line. -/
def place (d : Diagnostic) : String :=
  let file := d.filename.getD ""
  match d.line, d.column with
  | none, _ => file
  | some line, none => file ++ ":" ++ toString line
  | some line, some column => file ++ ":" ++ toString line ++ ":" ++ toString column

/-- The printed form of a diagnostic. -/
def render (d : Diagnostic) : String :=
  let place := if d.place.isEmpty then "" else "[" ++ d.place ++ "] "
  let expected :=
    match d.expected with
    | none | some [] => ""
    | some texts => " (expected: " ++ ", ".intercalate texts ++ ")"
  place ++ d.message ++ expected

end Diagnostic

end Landscape
