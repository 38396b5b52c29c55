import Landscape.Text.Utf8

/-!
Trees of files, and the reading of files from them.

A tree is given by its files; a directory is there if a file lies below it. Paths are followed name
by name from the working directory, which is the top of the tree. What lies outside of the tree is
not known: there are directories on the way up, and no files.
-/

namespace Landscape

/-- The reason why a file could not be read. -/
inductive FileFault
  | missing
  | notDirectory
  | isDirectory
  | nameTooLong
  | nullInName
  | notText
  /-- Any other reason, in the words of the system. -/
  | other (reason : String)
deriving Repr, DecidableEq

namespace FileFault

def message : FileFault → String
  | missing => "No such file or directory (os error 2)"
  | notDirectory => "Not a directory (os error 20)"
  | isDirectory => "Is a directory (os error 21)"
  | nameTooLong => "File name too long (os error 36)"
  | nullInName => "file name contained an unexpected NUL byte"
  | notText => "stream did not contain valid UTF-8"
  | other reason => reason

/-- Whether the fault tells that there is no file of the name. -/
def isAbsence : FileFault → Bool
  | missing | notDirectory | isDirectory | nameTooLong | nullInName => true
  | notText | other _ => false

end FileFault

/-- What reading a file comes to: its bytes, or the reason why not. -/
abbrev FileContents := Except FileFault (List UInt8)

/-- The contents of a file as text. -/
def FileContents.text : FileContents → Except FileFault String
  | .error fault => .error fault
  | .ok bytes =>
    match Text.ofUtf8? bytes with
    | some text => .ok text
    | none => .error .notText

structure FileTree where
  /-- The names that lead to each file, and its bytes. -/
  files : List (List String × List UInt8)
deriving Repr, DecidableEq

namespace FileTree

/-- The steps of a path. Empty ones and `.` stay where they are. -/
def steps (path : String) : List String :=
  path.splitOn "/"

def staysPut (step : String) : Bool :=
  step.isEmpty || step = "."

/-- The tree with the files at these paths. -/
def ofFiles (files : List (String × List UInt8)) : FileTree :=
  ⟨files.map fun (path, bytes) => ((steps path).filter (!staysPut ·), bytes)⟩

/-- Where a path has led to. -/
inductive Place
  /-- A directory in the tree. -/
  | within (names : List String)
  /-- A directory above the tree. -/
  | outside
  | file (bytes : List UInt8)

def hasDirectory (t : FileTree) (names : List String) : Bool :=
  names.isEmpty || t.files.any fun (file, _) => names.length < file.length && names.isPrefixOf file

/-- What a name stands for in a directory of the tree. -/
def entry (t : FileTree) (names : List String) : Except FileFault Place :=
  match t.files.lookup names with
  | some bytes => .ok (.file bytes)
  | none => if t.hasDirectory names then .ok (.within names) else .error .missing

/-- The most bytes that a name may have. -/
def longestName : Nat := 255

/-- The most bytes that a path may have. -/
def longestPath : Nat := 4095

def step (t : FileTree) : Place → String → Except FileFault Place
  | .file _, _ => .error .notDirectory
  | .outside, name =>
    if staysPut name || name = ".." then .ok .outside
    else if name.utf8ByteSize > longestName then .error .nameTooLong
    else .error .missing
  | .within names, name =>
    if staysPut name then .ok (.within names)
    else if name = ".." then .ok (if names.isEmpty then .outside else .within names.dropLast)
    else if name.utf8ByteSize > longestName then .error .nameTooLong
    else t.entry (names ++ [name])

/-- The contents of the file that a path leads to. -/
def read (t : FileTree) (path : String) : FileContents := do
  if path.contains '\x00' then
    throw .nullInName
  if path.isEmpty then
    throw .missing
  if path.utf8ByteSize > longestPath then
    throw .nameTooLong
  let start := if path.startsWith "/" then Place.outside else .within []
  match ← (steps path).foldlM t.step start with
  | .file bytes => return bytes
  | .within _ | .outside => throw .isDirectory

end FileTree

end Landscape
