import Landscape.Configuration.Basic
import Landscape.FileTree
import Landscape.Text.Path
import Landscape.Toml.Document

/-!
Loading a configuration from files.

Files are laid over the defaults in order, and single settings over all of them. Where the files are
is left open: they are read through a function into any monad, be it from a tree in memory or from
the file system.
-/

namespace Landscape

/-- A file of settings. -/
structure ConfigurationFile where
  path : String
  /-- Whether the file has to be there. -/
  required : Bool
deriving Repr, DecidableEq

namespace ConfigurationFile

/-- Where to look for a file: at its path, and behind that for one with `.toml` added to the last
name. -/
def candidates (path : String) : List String :=
  let steps := ((FileTree.steps path).reverse.dropWhile FileTree.staysPut).reverse
  if (Text.lastName? path).isSome then [path, "/".intercalate steps ++ ".toml"] else [path]

/-- The mark of byte order that a text may start with. -/
def byteOrderMark : List UInt8 :=
  [0xEF, 0xBB, 0xBF]

/-- The settings in the contents of a file. Bytes that are no text spoil nothing around them. -/
def settings? (bytes : List UInt8) : Option (List (String × Json)) :=
  let bytes := if byteOrderMark.isPrefixOf bytes then bytes.drop byteOrderMark.length else bytes
  Toml.parse? (Text.ofUtf8Lossy bytes)

variable {m : Type → Type} [Monad m] (read : String → m FileContents)

/-- The settings in the first of some files that is there. -/
def fetchFirst (file : ConfigurationFile) :
    List String → ExceptT ConfigurationError m (List (String × Json))
  | [] => if file.required then throw (.missingFile file.path) else return []
  | path :: others => do
    match ← ExceptT.lift (read path) with
    | .ok bytes =>
      match settings? bytes with
      | some settings => return settings
      | none => throw (.malformedFile path)
    | .error fault =>
      if fault.isAbsence then fetchFirst file others
      else if file.required then throw (.unreadableFile path fault.message)
      else return []

/-- The settings in a file. A file that need not be there and is not has none. -/
def fetch (file : ConfigurationFile) : ExceptT ConfigurationError m (List (String × Json)) :=
  file.fetchFirst read (candidates file.path)

end ConfigurationFile

/-- A single setting. -/
structure Override where
  key : Key
  value : Json
deriving Repr

namespace Override

def ofText? (key : String) (value : Json) : Except ConfigurationError Override :=
  match Key.parse? key with
  | some key => .ok ⟨key, value⟩
  | none => .error (.badKey key)

end Override

namespace Configuration

/-- All settings: the defaults, layers over them, and single settings on top. -/
def settingsOf (layers : List (List (String × Json))) (overrides : List Override) : Json :=
  let layered := layers.foldl Json.layAll defaultSettings
  overrides.foldl (fun settings o => settings.lay o.key o.value) layered

variable {m : Type → Type} [Monad m] (read : String → m FileContents)

def load (files : List ConfigurationFile) (overrides : List Override) :
    ExceptT ConfigurationError m Configuration := do
  let layers ← files.mapM (ConfigurationFile.fetch read)
  liftExcept (ofSettings (settingsOf layers overrides))
where
  liftExcept (result : Except ConfigurationError Configuration) :
      ExceptT ConfigurationError m Configuration :=
    ExceptT.mk (pure result)

end Configuration

end Landscape
