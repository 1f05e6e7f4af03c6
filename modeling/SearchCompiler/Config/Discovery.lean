import SearchCompiler.Config.Basic
import SearchCompiler.Files.System

/-!
Finding and loading configuration files.

The files that count for a directory are those of the directory itself and of the directories above
it, nearest first, up to and including the first one that calls itself the root. Without such a root
the global file in the home directory comes last, unless it is among them already.
-/

namespace SearchCompiler

def configName : String := ".sift.toml"

def globalPath? (home : Option FilePath) : Option FilePath :=
  home.map fun dir => dir.join configName

/-- Whether a path is that of the global configuration file. -/
def isGlobal (home : Option FilePath) (p : FilePath) : Bool :=
  (globalPath? home).any p.same

inductive ConfigError where
  | unreadable (path : FilePath) (fault : FileFault)
  | invalid (path : FilePath) (fault : TextFault)

/-- The wording of an error. Only the beginning of what there is to say about a text that is not
TOML is given. -/
def ConfigError.message : ConfigError → String
  | .unreadable path fault =>
    "failed to read config file " ++ path.text ++ ": " ++ fault.message
  | .invalid path fault =>
    "failed to parse config file " ++ path.text ++ ": TOML parse error"
      ++ (match fault.message? with
        | none => ""
        | some message => ": " ++ message)

def ConfigFile.read (fs : FileSystem) (path : FilePath) : Except ConfigError ConfigFile :=
  match fs.read path with
  | .error fault => .error (.unreadable path fault)
  | .ok text =>
    match RawConfig.parse text with
    | .error fault => .error (.invalid path fault)
    | .ok raw => .ok ⟨path, raw⟩

/-- Whether a file calls itself the root; one that cannot be read does not. -/
def isRoot (fs : FileSystem) (path : FilePath) : Bool :=
  match ConfigFile.read fs path with
  | .ok file => file.raw.root = some true
  | .error _ => false

/-- Configuration files among directories, nearest first, and whether the last one is the root. -/
def filesAmong (fs : FileSystem) : List FilePath → List FilePath × Bool
  | [] => ([], false)
  | dir :: rest =>
    let path := dir.join configName
    if fs.isFile path then
      if isRoot fs path then ([path], true)
      else
        let further := filesAmong fs rest
        (path :: further.1, further.2)
    else filesAmong fs rest

/-- The configuration files of a directory and those above it. -/
def localFiles (fs : FileSystem) (cwd : FilePath) : List FilePath :=
  (filesAmong fs cwd.ancestors).1

/-- The global file, if it counts for a directory in addition to those above. -/
def globalFile? (fs : FileSystem) (home : Option FilePath) (cwd : FilePath) : Option FilePath :=
  if (filesAmong fs cwd.ancestors).2 then none
  else (globalPath? home).filter fun p => fs.isFile p && !(localFiles fs cwd).any p.same

/-- The configuration files that count for a directory, nearest first. -/
def discover (fs : FileSystem) (home : Option FilePath) (cwd : FilePath) : List FilePath :=
  localFiles fs cwd ++ (globalFile? fs home cwd).toList

/-- The configuration that files amount to; the first one that cannot be read is the error. -/
def Config.loadFiles (fs : FileSystem) (files : List FilePath) : Except ConfigError Config := do
  return Config.merge (← files.mapM (ConfigFile.read fs))

def Config.load (fs : FileSystem) (home : Option FilePath) (cwd : FilePath) :
    Except ConfigError Config :=
  Config.loadFiles fs (discover fs home cwd)

end SearchCompiler
