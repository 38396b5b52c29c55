/-!
Invocations: what the arguments of the command ask for.

An option that takes a value takes it from the same argument or from the next one. Short options may
be joined in one argument. Behind `--` there are no options.
-/

namespace Landscape

/-- What to do with a file, and how. -/
structure Invocation where
  file : Option String := none
  configuration : Option String := none
  json : Bool := false
  summary : Bool := false
  strictReferences : Bool := false
  /-- By how many levels to raise the logging. -/
  verbosity : Nat := 0
deriving Repr, DecidableEq

/-- What the arguments ask for. -/
inductive Request
  | help
  | version
  | run (invocation : Invocation)
deriving Repr, DecidableEq

/-- What is wrong with the arguments. -/
inductive Misuse
  | unexpected (argument : String)
  | repeated (option : String)
  | noValue (option : String)
  | surplusValue (option value : String)
deriving Repr, DecidableEq

namespace Misuse

def message : Misuse → String
  | unexpected argument => "unexpected argument '" ++ argument ++ "' found"
  | repeated option => "the argument '" ++ option ++ "' cannot be used multiple times"
  | noValue option => "a value is required for '" ++ option ++ "' but none was supplied"
  | surplusValue option value =>
    "unexpected value '" ++ value ++ "' for '" ++ option ++ "' found; no more were expected"

end Misuse

namespace Invocation

/-- Sets an option that may be set only once. -/
def setOnce (option : String) (isSet : Bool) (i : Invocation) : Except Misuse Invocation :=
  if isSet then .error (.repeated option) else .ok i

def withJson (i : Invocation) : Except Misuse Invocation :=
  setOnce "--json" i.json { i with json := true }

def withSummary (i : Invocation) : Except Misuse Invocation :=
  setOnce "--summary" i.summary { i with summary := true }

def withStrictReferences (i : Invocation) : Except Misuse Invocation :=
  setOnce "--strict-references" i.strictReferences { i with strictReferences := true }

/-- The option with a value, as it is shown. -/
def configurationOption : String := "--config <PATH>"

def withConfiguration (i : Invocation) (path : String) : Except Misuse Invocation :=
  setOnce configurationOption i.configuration.isSome { i with configuration := some path }

def withVerbosity (i : Invocation) : Invocation :=
  { i with verbosity := i.verbosity + 1 }

def withFile (i : Invocation) (path : String) : Except Misuse Invocation :=
  match i.file with
  | none => .ok { i with file := some path }
  | some _ => .error (.unexpected path)

end Invocation

namespace Request

/-- How far reading one argument came. -/
inductive Progress
  /-- The request does not depend on what follows. -/
  | settled (request : Request)
  | going (invocation : Invocation)
  /-- The next argument is the value of the option that names a configuration. -/
  | awaitingPath (invocation : Invocation)

/-- Reads short options joined in one argument. -/
def readShort (i : Invocation) : List Char → Except Misuse Progress
  | [] => .ok (.going i)
  | 'v' :: rest => readShort i.withVerbosity rest
  | 'h' :: _ => .ok (.settled .help)
  | 'V' :: _ => .ok (.settled .version)
  | ['c'] => .ok (.awaitingPath i)
  | 'c' :: '=' :: path | 'c' :: path => .going <$> i.withConfiguration (String.ofList path)
  | c :: _ => .error (.unexpected ("-" ++ String.singleton c))

/-- A long option that takes no value. -/
def flag (i : Invocation) : String → Option (Except Misuse Progress)
  | "--json" => some (.going <$> i.withJson)
  | "--summary" => some (.going <$> i.withSummary)
  | "--strict-references" => some (.going <$> i.withStrictReferences)
  | "--verbose" => some (.ok (.going i.withVerbosity))
  | "--help" => some (.ok (.settled .help))
  | "--version" => some (.ok (.settled .version))
  | _ => none

/-- Reads a long option, and the value that is joined to it by an equals sign. -/
def readLong (i : Invocation) (option : String) (value : Option String) : Except Misuse Progress :=
  match flag i option, value with
  | some progress, none => progress
  | some _, some value => .error (.surplusValue option value)
  | none, value =>
    if option = "--config" then
      match value with
      | none => .ok (.awaitingPath i)
      | some path => .going <$> i.withConfiguration path
    else
      .error (.unexpected option)

/-- Splits an argument at its first equals sign. -/
def splitValue (argument : String) : String × Option String :=
  let option := argument.toList.takeWhile (· ≠ '=')
  match argument.toList.drop option.length with
  | _ :: value => (String.ofList option, some (String.ofList value))
  | [] => (argument, none)

/-- Whether an argument is made up of options. A dash alone is not. -/
def isOption (argument : String) : Bool :=
  argument.startsWith "-" && argument ≠ "-"

def readArgument (i : Invocation) (argument : String) : Except Misuse Progress :=
  if argument.startsWith "--" then
    let (option, value) := splitValue argument
    readLong i option value
  else if isOption argument then
    readShort i (argument.toList.drop 1)
  else
    .going <$> i.withFile argument

/-- Reads the arguments that are left. -/
def read (i : Invocation) : List String → Except Misuse Request
  | [] => .ok (.run i)
  | "--" :: rest => .run <$> rest.foldlM Invocation.withFile i
  | argument :: rest => do
    match ← readArgument i argument with
    | .settled request => return request
    | .going i => read i rest
    | .awaitingPath i =>
      match rest with
      | [] => throw (.noValue Invocation.configurationOption)
      | path :: rest =>
        if isOption path then throw (.noValue Invocation.configurationOption)
        else read (← i.withConfiguration path) rest

def ofArguments (arguments : List String) : Except Misuse Request :=
  read {} arguments

end Request

end Landscape
