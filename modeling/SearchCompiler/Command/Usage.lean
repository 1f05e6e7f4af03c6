import SearchCompiler.Error
import SearchCompiler.Report.Paint
import SearchCompiler.Text.Plain

/-!
The options that commands take, and what can be wrong with a command line.
-/

namespace SearchCompiler

inductive Switch where
  | verbose
  | help
  | json
  | noColor
  | explain
  | userWide
  | force
deriving DecidableEq, Inhabited

inductive Parameter where
  | options
  | optionsFile
  | aggregation
deriving DecidableEq, Inhabited

def Switch.long : Switch → String
  | .verbose => "verbose"
  | .help => "help"
  | .json => "json"
  | .noColor => "no-color"
  | .explain => "explain"
  | .userWide => "global"
  | .force => "force"

def Switch.letter? : Switch → Option Char
  | .verbose => some 'v'
  | .help => some 'h'
  | _ => none

/-- A switch as it is shown to the user. The one for more detail may be given again and again, and
has dots to say so. -/
def Switch.label (s : Switch) : String :=
  "--" ++ s.long ++ (if s = .verbose then "..." else "")

def Parameter.long : Parameter → String
  | .options => "options"
  | .optionsFile => "options-file"
  | .aggregation => "agg"

def Parameter.letter : Parameter → Char
  | .options => 'o'
  | .optionsFile => 'f'
  | .aggregation => 'a'

def Parameter.placeholder : Parameter → String
  | .options => "OPTIONS"
  | .optionsFile => "OPTIONS_FILE"
  | .aggregation => "AGGREGATIONS"

def Parameter.label (p : Parameter) : String :=
  "--" ++ p.long ++ " <" ++ p.placeholder ++ ">"

inductive Named where
  | switch (s : Switch)
  | parameter (p : Parameter)
deriving DecidableEq, Inhabited

def Named.label : Named → String
  | .switch s => s.label
  | .parameter p => p.label

inductive CommandName where
  | compile
  | init
  | config
  | status
deriving DecidableEq, Inhabited

def CommandName.text : CommandName → String
  | .compile => "compile"
  | .init => "init"
  | .config => "config"
  | .status => "status"

/-- The commands, in the order they are listed to the user. -/
def CommandName.all : List CommandName :=
  [.compile, .init, .config, .status]

def CommandName.ofText? (text : String) : Option CommandName :=
  CommandName.all.find? fun name => name.text = text

/-- What a command takes: options, and a text or none. -/
structure Grammar where
  switches : List Switch
  parameters : List Parameter
  takesText : Bool
deriving DecidableEq, Inhabited

def Grammar.leading : Grammar where
  switches := [.verbose, .help]
  parameters := []
  takesText := false

def CommandName.grammar : CommandName → Grammar
  | .compile =>
    { switches := [.verbose, .help, .json, .noColor, .explain]
      parameters := [.options, .optionsFile, .aggregation]
      takesText := true }
  | .init =>
    { switches := [.verbose, .help, .userWide, .force]
      parameters := []
      takesText := false }
  | .config => Grammar.leading
  | .status => Grammar.leading

inductive UsageFault where
  -- Help was asked for.
  | help
  -- Nothing was given.
  | nothing
  -- Only options were given.
  | noCommand
  | unknownArgument (text : String)
  | unknownCommand (text : String)
  | missingValue (parameter : Parameter)
  | invalidAggregation (text : String) (error : CompileError)
  | unexpectedValue (switch : Switch) (value : String)
  | repeated (option : Named)
  | conflict (first second : Parameter)
deriving DecidableEq, Inhabited

def about : String :=
  "Compile search options into Elasticsearch query documents"

def helpText : String :=
  about ++ "\n\nUsage: sift [OPTIONS] <COMMAND>\n\nCommands: "
    ++ ", ".intercalate (CommandName.all.map CommandName.text) ++ "\n"

/-- A word of the command line in colour. A control sequence that the word leaves open is broken off
where the colour ends. -/
def given (word : String) : String :=
  Paint.apply .warning word

def known (name : String) : String :=
  Paint.apply .subheading name

/-- A message in colour, with where to find more. -/
def colouredMessage (what : String) : String :=
  Paint.apply .failure "error:" ++ " " ++ what
    ++ "\n\nFor more information, try '" ++ known "--help" ++ "'.\n"

/-- What the user is told, in colour. -/
def UsageFault.inColour : UsageFault → String
  | .help => helpText
  | .nothing => helpText
  | .noCommand => colouredMessage "'sift' requires a subcommand but one was not provided"
  | .unknownArgument text => colouredMessage ("unexpected argument '" ++ given text ++ "' found")
  | .unknownCommand text => colouredMessage ("unrecognized subcommand '" ++ given text ++ "'")
  | .missingValue p =>
    colouredMessage ("a value is required for '" ++ known p.label ++ "' but none was supplied")
  | .invalidAggregation text e =>
    colouredMessage ("invalid value '" ++ given text ++ "' for '"
      ++ known (Parameter.label .aggregation) ++ "': " ++ e.message)
  | .unexpectedValue s value =>
    colouredMessage ("unexpected value '" ++ given value ++ "' for '" ++ known s.label
      ++ "' found; no more were expected")
  | .repeated o =>
    colouredMessage ("the argument '" ++ known o.label ++ "' cannot be used multiple times")
  | .conflict p q =>
    colouredMessage
      ("the argument '" ++ known p.label ++ "' cannot be used with '" ++ known q.label ++ "'")

/-- What the user is told. Words of the command line stand in it as they are, so what a terminal
would take for a control sequence is left out together with the colours. -/
def UsageFault.message (fault : UsageFault) : String :=
  Text.plain fault.inColour

end SearchCompiler
