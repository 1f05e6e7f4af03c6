import SearchCompiler.Files.Path

/-!
A file system: which places hold a directory or a file, and what the files hold. A place is the list
of names that leads to it from the root; a path is looked up name by name through directories.
-/

namespace SearchCompiler

inductive FileEntry where
  | directory
  | file (content : ByteArray)

abbrev Place := List String

/-- What every place holds, if anything. -/
structure FileSystem where
  entry : Place → Option FileEntry

inductive FileFault where
  | notFound
  | notDirectory
  | isDirectory
  | nameTooLong
  -- The path holds the character with which the system ends paths.
  | nullInName
  | notText
deriving DecidableEq, Inhabited

def FileFault.message : FileFault → String
  | .notFound => "No such file or directory (os error 2)"
  | .notDirectory => "Not a directory (os error 20)"
  | .isDirectory => "Is a directory (os error 21)"
  | .nameTooLong => "File name too long (os error 36)"
  | .nullInName => "file name contained an unexpected NUL byte"
  | .notText => "stream did not contain valid UTF-8"

def maxNameBytes : Nat := 255

def maxPathBytes : Nat := 4095

/-- Why a path is refused before anything is looked up. -/
def FilePath.refusal? (p : FilePath) : Option FileFault :=
  if p.text.contains '\x00' then some .nullInName
  else if maxPathBytes < p.text.utf8ByteSize then some .nameTooLong
  else none

namespace FileSystem

/-- The file system that holds nothing but the root directory. -/
def empty : FileSystem where
  entry place := if place.isEmpty then some .directory else none

def set (fs : FileSystem) (place : Place) (entry : Option FileEntry) : FileSystem where
  entry other := if other = place then entry else fs.entry other

/-- Follows the pieces of a path from a place. Only a directory can be left, and the last name need
not be there. -/
def walk (fs : FileSystem) : Place → List String → Except FileFault Place
  | place, [] => .ok place
  | place, piece :: rest =>
    -- Another piece follows, an idle one too, so this must be a directory.
    match fs.entry place with
    | none => .error .notFound
    | some (.file _) => .error .notDirectory
    | some .directory =>
      if isIdle piece then fs.walk place rest
      else if piece = ".." then fs.walk place.dropLast rest
      else if maxNameBytes < piece.utf8ByteSize then .error .nameTooLong
      else fs.walk (place ++ [piece]) rest

/-- The place of a path that is used inside a directory. -/
def locateFrom (fs : FileSystem) (dir p : FilePath) : Except FileFault Place :=
  match p.refusal? with
  | some fault => .error fault
  | none => fs.walk [] (dir.inside p).pieces

def locate (fs : FileSystem) (p : FilePath) : Except FileFault Place :=
  fs.locateFrom ⟨.root, []⟩ p

def find? (fs : FileSystem) (p : FilePath) : Option FileEntry :=
  match fs.locate p with
  | .ok place => fs.entry place
  | .error _ => none

def holds (fs : FileSystem) (p : FilePath) : Bool :=
  (fs.find? p).isSome

def isFile (fs : FileSystem) (p : FilePath) : Bool :=
  match fs.find? p with
  | some (.file _) => true
  | _ => false

/-- The text of the file that a path used inside a directory leads to. -/
def readFrom (fs : FileSystem) (dir p : FilePath) : Except FileFault String := do
  let place ← fs.locateFrom dir p
  match fs.entry place with
  | none => .error .notFound
  | some .directory => .error .isDirectory
  | some (.file content) =>
    match String.fromUTF8? content with
    | some text => .ok text
    | none => .error .notText

/-- The text of the file that an absolute path leads to. -/
def read (fs : FileSystem) (p : FilePath) : Except FileFault String :=
  fs.readFrom ⟨.root, []⟩ p

/-- Writes a text to the file that a path leads to, making the file if it is not there. -/
def write (fs : FileSystem) (p : FilePath) (text : String) : Except FileFault FileSystem := do
  let place ← fs.locate p
  match fs.entry place with
  | some .directory => .error .isDirectory
  | _ => .ok (fs.set place (some (.file text.toUTF8)))

end FileSystem

end SearchCompiler
