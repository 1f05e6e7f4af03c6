import SearchCompiler.Command.Run

/-!
The program. It looks up the files that a run can see, runs the command on them and carries out what
the command left behind.
-/

namespace SearchCompiler

def readWhole (stream : IO.FS.Stream) : IO ByteArray := do
  let mut content := ByteArray.empty
  repeat
    let piece ← stream.read 65536
    if piece.isEmpty then break
    content := content ++ piece
  return content

/-- The error code of the system for reading a directory as a file. -/
def directoryCode : UInt32 := 21

def lookUp (path : FilePath) : IO (Option FileEntry) := do
  match ← (IO.FS.readBinFile path.text).toBaseIO with
  | .ok content => return some (.file content)
  | .error (.inappropriateType _ code _) =>
    return if code = directoryCode then some .directory else none
  | .error _ => return none

/-- The files that paths lead to, with the directories on the way. -/
def lookUpAll (paths : List FilePath) : IO FileSystem := do
  let mut files := FileSystem.empty
  for path in paths do
    for n in List.range (path.names.length + 1) do
      let place := path.names.take n
      files := files.set place (← lookUp ⟨.root, place⟩)
  return files

/-- Writes the files that a run changed, among those that paths lead to. -/
def carryOut (paths : List FilePath) (before after : FileSystem) : IO Unit := do
  for path in paths do
    match before.read path, after.read path with
    | .ok old, .ok new => if old ≠ new then IO.FS.writeFile path.text new
    | _, .ok new => IO.FS.writeFile path.text new
    | _, .error _ => pure ()

def Invocation.optionsPath? (i : Invocation) : Option FilePath :=
  match i.command with
  | .compile r =>
    match r.source with
    | some (.file path) => some (FilePath.ofText path)
    | _ => none
  | _ => none

def directories : IO (FilePath × Option FilePath) := do
  let cwd := FilePath.ofText (← IO.currentDir).toString
  let home := (← IO.getEnv "HOME").filter fun dir => !dir.isEmpty
  return (cwd, home.map FilePath.ofText)

/-- Runs the program on the words of a command line and gives its exit code. -/
def runProgram (words : List String) : IO UInt32 := do
  let (cwd, home) ← directories
  let options := (Invocation.ofWords words).toOption.bind Invocation.optionsPath?
  let usesInput := options.any (FilePath.ofText "-").same
  let input ← if usesInput then readWhole (← IO.getStdin) else pure ByteArray.empty
  let paths := (cwd.ancestors.map fun dir => dir.join configName)
    ++ (globalPath? home).toList ++ (options.map cwd.inside).toList
  let files ← lookUpAll paths
  let terminal ← (← IO.getStdout).isTty
  let outcome := World.run { files, home, cwd, input, terminal } words
  carryOut paths files outcome.files
  IO.print outcome.output
  IO.eprint outcome.errors
  return outcome.status.code.toUInt32

end SearchCompiler

def main (words : List String) : IO UInt32 :=
  SearchCompiler.runProgram words
