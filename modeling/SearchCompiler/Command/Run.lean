import SearchCompiler.Command.Line
import SearchCompiler.Command.World
import SearchCompiler.Config.Template
import SearchCompiler.Options.Decoder
import SearchCompiler.Query.Document
import SearchCompiler.Report.Explanation
import SearchCompiler.Report.Overview

/-!
Running commands. A run is a function of what it sees; only the command that writes a configuration
file changes files, and it changes that file alone.
-/

namespace SearchCompiler

/-- The text that options are read from, and what it is called in messages. -/
def OptionsSource.read (w : World) : OptionsSource → Except CommandError (String × String)
  | .inline text => .ok ("--options", text)
  | .file path =>
    let content :=
      if (FilePath.ofText path).same (FilePath.ofText "-") then
        match String.fromUTF8? w.input with
        | some text => .ok text
        | none => .error .notText
      else w.files.readFrom w.cwd (FilePath.ofText path)
    match content with
    | .ok text => .ok (path, text)
    | .error fault => .error (.unreadable path fault)

namespace CompileRequest

/-- The options of a request; without a source there are none. -/
def options (w : World) (r : CompileRequest) : Except CommandError SearchOptions := do
  let value ←
    match r.source with
    | none => .ok .null
    | some source => do
      let (name, text) ← source.read w
      match Json.parse text with
      | .ok value => .ok value
      | .error fault => .error (.notJson name text fault)
  match SearchOptions.decode value with
  | .ok o => .ok o
  | .error e => .error (.compile e)

def query (settings : Settings) (r : CompileRequest) (o : SearchOptions) :
    Except CommandError QueryNode :=
  match o.compile settings r.text with
  | .ok q => .ok q
  | .error e => .error (.compile e)

/-- The document of a query, with the aggregations of the request if there are any. -/
def document (r : CompileRequest) (q : QueryNode) : Json.Value :=
  if r.aggregations.isEmpty then q.toJson else searchBody q.toJson r.aggregations

/-- The document of a query as it is printed, on lines of its own. -/
def printed (w : World) (c : Config) (r : CompileRequest) (q : QueryNode) : String :=
  (Rendering.choose c.output r.output w.terminal).render (r.document q) ++ "\n"

/-- What is printed for a request: the explanation if it is wanted, and then the document. -/
def result (w : World) (c : Config) (r : CompileRequest) : Except CommandError String := do
  let o ← r.options w
  let q ← r.query c.compile o
  return (if r.explain then explanation o q else "") ++ r.printed w c q

def aggregationLog (r : CompileRequest) : List LogEntry :=
  if r.aggregations.isEmpty then []
  else
    let message := "attaching " ++ toString r.aggregations.length ++ " aggregation(s)"
    [⟨.debug, "sift::cli::commands::compile", message⟩]

def log (w : World) (c : Config) (r : CompileRequest) : List LogEntry :=
  match r.options w with
  | .error _ => []
  | .ok o =>
    o.compileLog c.compile r.text
      ++ (match r.query c.compile o with
        | .error _ => []
        | .ok _ => r.aggregationLog)

end CompileRequest

def Config.printed (w : World) (c : Config) : String :=
  if c.output.color && w.terminal then highlighted c.toToml else c.toToml

/-- The end of a run that reports on a configuration: warnings make it a failure. -/
def Config.report (w : World) (c : Config) : Outcome :=
  { status := if c.compile.warnings.isEmpty then .success else .failure
    output := c.overview w.home w.cwd
    files := w.files }

namespace InitRequest

/-- Whether the new file is the global one. In the home directory it always is. -/
def isGlobal (w : World) (r : InitRequest) : Bool :=
  r.userWide || ((globalPath? w.home).bind FilePath.parent?).any w.cwd.same

/-- The path of the new file, if it can be told. -/
def target? (w : World) (r : InitRequest) : Option FilePath :=
  if r.isGlobal w then globalPath? w.home else some (w.cwd.join configName)

def content (w : World) (r : InitRequest) : String :=
  if r.isGlobal w then globalTemplate else localTemplate

def announcement (path : FilePath) (content : String) : String :=
  "Created " ++ path.text ++ "\n\n" ++ Paint.apply .subheading "Configuration written:" ++ "\n"
    ++ indented (highlighted content) ++ "\n"

def written (w : World) (r : InitRequest) : Except CommandError (FilePath × FileSystem) :=
  match r.target? w with
  | none => .error .noHome
  | some path =>
    if w.files.holds path && !r.force then .error (.present path)
    else
      match w.files.write path (r.content w) with
      | .error fault => .error (.unwritable path fault)
      | .ok files => .ok (path, files)

def run (w : World) (r : InitRequest) : Outcome :=
  match r.written w with
  | .error e => w.finish (.error e)
  | .ok (path, files) =>
    { status := .success, output := announcement path (r.content w), files }

end InitRequest

def foundEntry (what : String) (path : FilePath) : LogEntry :=
  ⟨.debug, "sift_config::discovery", what ++ " " ++ path.text⟩

/-- The entries on the configuration files of the current directory. -/
def discoveryLog (w : World) : List LogEntry :=
  (localFiles w.files w.cwd).map (foundEntry "found config")
    ++ (globalFile? w.files w.home w.cwd).toList.map (foundEntry "found global config")

/-- The end of a run that needs the configuration of the current directory. The files it comes from
are told in the log even if one of them cannot be read. -/
def World.configured (w : World) (verbosity : Nat) (use : Config → Outcome) : Outcome :=
  let outcome :=
    match Config.load w.files w.home w.cwd with
    | .error e => w.finish (.error (.configuration e))
    | .ok c => use c
  outcome.after (discoveryLog w) verbosity

/-- Runs a command. All but the one that writes a configuration file load the configuration first.
-/
def Command.run (w : World) (verbosity : Nat) : Command → Outcome
  | .init r => r.run w
  | .compile r =>
    w.configured verbosity fun c => (w.finish (r.result w c)).after (r.log w c) verbosity
  | .config => w.configured verbosity fun c => w.finish (.ok (c.printed w))
  | .status => w.configured verbosity fun c => c.report w

/-- The end of a run whose command line asks for nothing that can be done. Help that was asked for
is no failure. -/
def World.misused (w : World) (fault : UsageFault) : Outcome :=
  if fault = .help then { status := .success, output := fault.message, files := w.files }
  else { status := .misuse, errors := fault.message, files := w.files }

/-- Runs the program on the words of a command line, without the name of the program. -/
def World.run (w : World) (words : List String) : Outcome :=
  match Invocation.ofWords words with
  | .error fault => w.misused fault
  | .ok invocation => invocation.command.run w invocation.verbosity

end SearchCompiler
