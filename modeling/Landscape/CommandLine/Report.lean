import Landscape.CommandLine.Invocation
import Landscape.Json.Encoding
import Landscape.Json.Printer

/-!
Reports: what the command prints, and the status it ends with.

A report about a file is made from the outcome of reading it. Warnings and errors are printed apart
from the result, and there is no result if there are errors.
-/

namespace Landscape

/-- What the command leaves behind. Each text that it prints ends a line. -/
structure Report where
  status : Nat
  output : List String
  errors : List String
deriving Repr, DecidableEq

namespace Report

/-- Texts as they are printed. -/
def printed (texts : List String) : String :=
  String.join (texts.map (· ++ "\n"))

def success (output : List String) : Report :=
  ⟨0, output, []⟩

def failure (errors : List String) : Report :=
  ⟨1, [], errors⟩

def usage : String := "Usage: cml-parse [OPTIONS] [file]"

def version : String := "cml-parse 0.1.0"

def help : List String :=
  ["Parse a Context Mapper DSL file and report the result",
    "",
    usage,
    "",
    "Arguments:",
    "  [file]  Path to the .cml file",
    "",
    "Options:",
    "      --json               Emit the parse result as JSON",
    "      --summary            Print a short success summary",
    "  -c, --config <PATH>      Configuration file layered over the built-in defaults",
    "      --strict-references  Report unresolved references as errors",
    "  -v, --verbose...         Increase log verbosity (repeatable)",
    "  -h, --help               Print help",
    "  -V, --version            Print version"]

def ofMisuse (misuse : Misuse) : Report :=
  ⟨2, [], ["error: " ++ misuse.message, "", usage, "", "For more information, try '--help'."]⟩

/-- The counts in a summary. -/
def summary (m : Model) : List String :=
  ["Domains: " ++ toString m.domains.length, "Context Maps: " ++ toString m.maps.length]

/-- The result of a file without errors. -/
def result (i : Invocation) (prettyJson : Bool) (file : String) (o : Outcome) : List String :=
  if i.json then [if prettyJson then o.toJson.indented else o.toJson.compact]
  else ("Successfully parsed " ++ file) :: (if i.summary then summary o.modelOrEmpty else [])

def ofOutcome (i : Invocation) (prettyJson : Bool) (file : String) (o : Outcome) : Report :=
  let warnings := o.warnings.map fun w => "warning: " ++ w.render
  if o.isOk then
    ⟨0, result i prettyJson file o, warnings⟩
  else
    ⟨1, [], warnings ++ ("Error parsing " ++ file ++ ":") :: o.errors.map Diagnostic.render⟩

end Report

end Landscape
