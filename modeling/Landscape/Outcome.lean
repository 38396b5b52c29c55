import Landscape.Build
import Landscape.Text.Path

/-!
Outcomes: everything that reading a source came to.

An outcome holds a model exactly when nothing counted as an error.
-/

namespace Landscape

structure Outcome where
  model : Option Model
  errors : List Diagnostic
  warnings : List Diagnostic
  source : Option String
  filename : Option String
deriving Repr, DecidableEq

namespace Outcome

/-- The outcome of a build. Its diagnostics are sorted by severity and keep their order otherwise.
-/
def ofDiagnostics (model : Model) (diagnostics : List Diagnostic)
    (source filename : Option String) : Outcome :=
  let errors := diagnostics.filter Diagnostic.isError
  { model := if errors.isEmpty then some model else none
    errors
    warnings := diagnostics.filter (!·.isError)
    source
    filename }

/-- The outcome of a source from which no model was built. -/
def failed (error : Diagnostic) (source filename : Option String) : Outcome :=
  { model := none, errors := [error], warnings := [], source, filename }

def isOk (o : Outcome) : Bool :=
  o.errors.isEmpty

def modelOrEmpty (o : Outcome) : Model :=
  o.model.getD Model.empty

/-- A count with its name, left out when it is zero. -/
def renderCount (name : String) (count : Nat) : String :=
  if count = 0 then "" else " " ++ name ++ "=" ++ toString count

/-- The outcome in one line. A file is shown by its last name, or in full if it has none. -/
def render (o : Outcome) : String :=
  let file :=
    match o.filename with
    | none => ""
    | some path => " file=" ++ (Text.lastName? path).getD path
  (if o.isOk then "OK" else "ERROR") ++ file ++ renderCount "errors" o.errors.length ++
    renderCount "warnings" o.warnings.length

end Outcome

end Landscape
