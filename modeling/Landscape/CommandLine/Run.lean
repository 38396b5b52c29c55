import Landscape.CommandLine.Report
import Landscape.Configuration.Loading
import Landscape.Reading

/-!
Running the command: from its arguments and the files that it reads to a report.
-/

namespace Landscape

namespace Invocation

/-- The file of settings that was asked for. -/
def files (i : Invocation) : List ConfigurationFile :=
  i.configuration.toList.map fun path => ⟨path, true⟩

/-- The setting that makes unresolved references errors. -/
def strictReferencesOverride : Override :=
  ⟨⟨"build", [.field "references"]⟩, .string ReferencePolicy.error.name⟩

def overrides (i : Invocation) : List Override :=
  if i.strictReferences then [strictReferencesOverride] else []

/-- The report on a file under a configuration, given what came of reading the file. -/
def report (i : Invocation) (c : Configuration) (file : String) (contents : FileContents) :
    Report :=
  let text := contents.text.mapError FileFault.message
  .ofOutcome i c.prettyJson file (outcomeOfFile c.policy file text)

variable {m : Type → Type} [Monad m] (read : String → m FileContents)

/-- Does what was asked for. Without a file, nothing else matters. -/
def run (i : Invocation) : m Report := do
  match i.file with
  | none => return .failure [Report.usage]
  | some file =>
    match ← (Configuration.load read i.files i.overrides).run with
    | .error e => return .failure ["Configuration error: " ++ e.message]
    | .ok c => return i.report c file (← read file)

end Invocation

/-- Runs the command on its arguments. Files are read through `read`. -/
def runCommand {m : Type → Type} [Monad m] (read : String → m FileContents)
    (arguments : List String) : m Report :=
  match Request.ofArguments arguments with
  | .error misuse => return .ofMisuse misuse
  | .ok .help => return .success Report.help
  | .ok .version => return .success [Report.version]
  | .ok (.run i) => i.run read

end Landscape
