import Landscape.Build.Finding
import Landscape.Configuration.Layer
import Landscape.Configuration.LogLevel
import Landscape.Text.AsciiCase

/-!
Configurations: what can be set about the tools.

A configuration is read from settings. One of several names may be written in any case, or as a
table with that name as its only field. A truth value may also be written as a number, where zero is
false, or as a word. A group of settings may be a list of values in order.
-/

namespace Landscape

structure Configuration where
  policy : Policy := Policy.lenient
  /-- Whether JSON is indented. -/
  prettyJson : Bool := true
  logLevel : LogLevel := .error
deriving Repr, DecidableEq

/-- The reason why there is no configuration. -/
inductive ConfigurationError
  | badKey (key : String)
  | missingFile (path : String)
  | unreadableFile (path : String) (fault : String)
  | malformedFile (path : String)
  /-- A setting has a value that it cannot have. -/
  | badValue (setting : String)
  /-- What should be true or false is neither. -/
  | notTruth (setting : String)
deriving Repr, DecidableEq

namespace ConfigurationError

def message : ConfigurationError → String
  | badKey key => "\"" ++ key ++ "\" is not a key"
  | missingFile path => "configuration file \"" ++ path ++ "\" not found"
  | unreadableFile path fault => "cannot read " ++ path ++ ": " ++ fault
  | malformedFile path => path ++ " is not valid TOML"
  | badValue setting => "invalid value for " ++ setting
  | notTruth setting => setting ++ " is neither true nor false"

end ConfigurationError

namespace Configuration

/-- The one of some things whose name a setting gives. -/
def choice? {α : Type} (name : α → String) (choices : List α) (j : Json) : Option α := do
  let text ← match j with
    | .string text => some text
    | .object [(text, _)] => some text
    | _ => none
  choices.find? fun choice => Text.eqIgnoringAsciiCase (name choice) text

/-- The words that stand for a truth value. -/
def truthWords : List (String × Bool) :=
  [("1", true), ("true", true), ("on", true), ("yes", true),
    ("0", false), ("false", false), ("off", false), ("no", false)]

def truth? : Json → Option Bool
  | .bool value => some value
  | .number value => some (value ≠ 0)
  | .fraction _ => some true
  | .string text => truthWords.lookup (lowered text)
  | _ => none

/-- A group of settings: what is set under each of their names, or in their order. -/
def group? (names : List String) : Json → Option (List (Option Json))
  | .object fields => some (names.map (List.lookup · fields))
  | .array items => some ((List.range names.length).map (items[·]?))
  | _ => none

/-- The settings before any layer. -/
def defaultSettings : Json :=
  .object [
    ("build", .object [("references", .string ReferencePolicy.warn.name),
      ("duplicates", .string DuplicatePolicy.shadow.name)]),
    ("output", .object [("pretty_json", .bool true)]),
    ("logging", .object [("level", .string LogLevel.error.name)])]

/-- A setting that has a default. -/
def settingOr {α : Type} (default : α) (decode : Json → Option α) (name : String) :
    Option Json → Except ConfigurationError α
  | none => .ok default
  | some j => ((decode j).map .ok).getD (.error (.badValue name))

/-- The settings of a group in the whole of the settings. -/
def groupIn (settings : Json) (name : String) (names : List String) :
    Except ConfigurationError (List (Option Json)) :=
  match (settings.field? name).bind (group? names) with
  | some found => .ok found
  | none => .error (.badValue name)

def policyIn (settings : Json) : Except ConfigurationError Policy := do
  match ← groupIn settings "build" ["references", "duplicates"] with
  | [references, duplicates] =>
    return {
      references := ← settingOr .warn (choice? ReferencePolicy.name ReferencePolicy.all)
        "build.references" references
      duplicates := ← settingOr .shadow (choice? DuplicatePolicy.name DuplicatePolicy.all)
        "build.duplicates" duplicates }
  | _ => throw (.badValue "build")

def prettyJsonIn (settings : Json) : Except ConfigurationError Bool := do
  match ← groupIn settings "output" ["pretty_json"] with
  | [some j] => ((truth? j).map .ok).getD (.error (.notTruth "output.pretty_json"))
  | _ => throw (.badValue "output")

def logLevelIn (settings : Json) : Except ConfigurationError LogLevel := do
  match ← groupIn settings "logging" ["level"] with
  | [some j] =>
    ((choice? LogLevel.name LogLevel.all j).map .ok).getD (.error (.badValue "logging.level"))
  | _ => throw (.badValue "logging")

def ofSettings (settings : Json) : Except ConfigurationError Configuration := do
  return ⟨← policyIn settings, ← prettyJsonIn settings, ← logLevelIn settings⟩

end Configuration

end Landscape
