import Landscape.Grammar.Document
import Landscape.Outcome
import Landscape.Token.Scan

/-!
Reading source texts.

A source is read as tokens, the tokens as a document, and the document is built into a model. There
are two ways to read: the strict one stops at the first error, the permissive one never stops and
tells everything in an outcome. They agree on which sources are good.
-/

namespace Landscape

/-- The reason why strict reading stops. -/
inductive LoadError
  /-- The text is no document. -/
  | malformed (diagnostic : Diagnostic)
  /-- A finding about the document counts as an error. -/
  | rejected (diagnostic : Diagnostic)
  /-- The file could not be read. -/
  | unreadable (path reason : String)
deriving Repr, DecidableEq

namespace LoadError

def message : LoadError → String
  | malformed d | rejected d => d.render
  | unreadable path reason => "failed to read " ++ path ++ ": " ++ reason

/-- The diagnostic that the error came from. -/
def origin? : LoadError → Option Diagnostic
  | malformed d | rejected d => some d
  | unreadable .. => none

/-- The error as a diagnostic. -/
def diagnostic : LoadError → Diagnostic
  | malformed d | rejected d => d
  | unreadable path reason =>
    let error := Diagnostic.error (unreadable path reason).message
    (error.withCode Code.unreadableFile.text).withFilename path

end LoadError

/-- The tokens of a text, or a diagnostic. -/
def lexemesOf (text : String) : Except Diagnostic (List Lexeme) :=
  match scan text with
  | .ok lexemes => .ok lexemes
  | .error fault => .error (fault.diagnostic text)

/-- The document that tokens make up, or a diagnostic placed in their text. -/
def documentOfLexemes (text : String) (lexemes : List Lexeme) : Except Diagnostic Document :=
  match Document.ofLexemes lexemes with
  | .ok document => .ok document
  | .error failure => .error (failure.diagnostic text)

/-- The document that a text describes, or a diagnostic. -/
def documentOf (text : String) : Except Diagnostic Document := do
  documentOfLexemes text (← lexemesOf text)

/-- The model of a text with its diagnostics. -/
def buildOf (policy : Policy) (text : String) : Except Diagnostic Built := do
  return (← documentOf text).build policy (some text)

/-- A source text to read, with the name to report it under. -/
structure Source where
  text : String
  filename : Option String
  policy : Policy
deriving Repr, DecidableEq

namespace Source

/-- A text without a name, read leniently. -/
def ofText (text : String) : Source :=
  ⟨text, none, Policy.lenient⟩

/-- A diagnostic that names the source, if the source has a name. -/
def named (s : Source) (d : Diagnostic) : Diagnostic :=
  match s.filename with
  | none => d
  | some filename => d.withFilename filename

/-- A reading of the text, in which a failure is reported under the name of the source. -/
def reading {α : Type} (s : Source) (read : String → Except Diagnostic α) : Except LoadError α :=
  match read s.text with
  | .ok value => .ok value
  | .error d => .error (.malformed (s.named d))

def lexemes (s : Source) : Except LoadError (List Lexeme) :=
  s.reading lexemesOf

def document (s : Source) : Except LoadError Document :=
  s.reading documentOf

/-- The model with all its diagnostics, whatever they are. -/
def build (s : Source) : Except LoadError Built := do
  let built ← s.reading (buildOf s.policy)
  return { built with diagnostics := built.diagnostics.map s.named }

/-- Reads strictly: the model, or the first error. -/
def model (s : Source) : Except LoadError Model := do
  let built ← s.build
  match built.errors with
  | error :: _ => throw (.rejected error)
  | [] => return built.model

/-- Reads permissively. -/
def outcome (s : Source) : Outcome :=
  match s.build with
  | .ok built => .ofDiagnostics built.model built.diagnostics (some s.text) s.filename
  | .error e => .failed e.diagnostic (some s.text) s.filename

end Source

/-- The error that strict reading would have stopped at, told from its diagnostic. -/
def LoadError.ofDiagnostic (d : Diagnostic) : LoadError :=
  match d.code with
  | none => .malformed d
  | some code => if code = Code.syntaxError.text then .malformed d else .rejected d

/-- Reads a text leniently. If it is to be strict, the first error takes the place of the outcome.
-/
def readText (text : String) (filename : Option String) (strict : Bool) :
    Except LoadError Outcome :=
  let outcome := { Source.ofText text with filename }.outcome
  match strict, outcome.errors with
  | true, error :: _ => .error (.ofDiagnostic error)
  | _, _ => .ok outcome

/-- The source in a file, given what came of reading the file: its text or the reason why not. -/
def Source.ofFile (path : String) (contents : Except String String) : Except LoadError Source :=
  match contents with
  | .ok text => .ok ⟨text, some path, Policy.lenient⟩
  | .error reason => .error (.unreadable path reason)

/-- Reads a file strictly. -/
def modelOfFile (path : String) (contents : Except String String) : Except LoadError Model := do
  (← Source.ofFile path contents).model

/-- Reads a file permissively under a policy. -/
def outcomeOfFile (policy : Policy) (path : String) (contents : Except String String) : Outcome :=
  match Source.ofFile path contents with
  | .ok source => { source with policy }.outcome
  | .error e => .failed e.diagnostic none (some path)

end Landscape
