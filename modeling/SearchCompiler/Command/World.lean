import SearchCompiler.Config.Discovery
import SearchCompiler.Json.Reader
import SearchCompiler.Log
import SearchCompiler.Report.Paint

/-!
What a run of the program sees of the world, and what it leaves behind.
-/

namespace SearchCompiler

structure World where
  files : FileSystem
  -- The home directory, if it is known.
  home : Option FilePath
  -- The current directory.
  cwd : FilePath
  -- What stands on standard input.
  input : ByteArray := .empty
  -- Whether standard output is a terminal.
  terminal : Bool := false

inductive Status where
  | success
  | failure
  -- The command line could not be read.
  | misuse
deriving DecidableEq, Inhabited

def Status.code : Status → Nat
  | .success => 0
  | .failure => 1
  | .misuse => 2

structure Outcome where
  status : Status
  -- What stands on standard output.
  output : String := ""
  -- What stands on the standard error stream.
  errors : String := ""
  files : FileSystem

inductive CommandError where
  | configuration (error : ConfigError)
  -- The options cannot be read.
  | unreadable (path : String) (fault : FileFault)
  -- The text of the options is not JSON.
  | notJson (source text : String) (fault : Json.Fault)
  | compile (error : CompileError)
  | noHome
  -- A new configuration file would replace another.
  | present (path : FilePath)
  | unwritable (path : FilePath) (fault : FileFault)

/-- The hint that goes with an error of the compiler, on a line of its own. -/
def hintLine (e : CompileError) : String :=
  match e.hint? with
  | none => ""
  | some hint => "hint: " ++ hint ++ "\n"

def CommandError.message : CommandError → String
  | .configuration e => "error: failed to load configuration: " ++ e.message ++ "\n"
  | .unreadable path fault => "error: failed to read " ++ path ++ ": " ++ fault.message ++ "\n"
  | .notJson source text fault =>
    "error: failed to parse options from " ++ source ++ ": " ++ fault.message text ++ "\n"
  | .compile e => Paint.apply .failure "error:" ++ " " ++ e.message ++ "\n" ++ hintLine e
  | .noHome => "error: could not determine home directory\n"
  | .present path =>
    "error: configuration file already exists: " ++ path.text ++ "\nuse --force to overwrite\n"
  | .unwritable path fault =>
    "error: failed to write " ++ path.text ++ ": " ++ fault.message ++ "\n"

def World.finish (w : World) (result : Except CommandError String) : Outcome :=
  match result with
  | .ok output => { status := .success, output, files := w.files }
  | .error e => { status := .failure, errors := e.message, files := w.files }

/-- An outcome with the lines of a log before its errors. -/
def Outcome.after (log : List LogEntry) (verbosity : Nat) (o : Outcome) : Outcome :=
  { o with errors := logText verbosity log ++ o.errors }

end SearchCompiler
