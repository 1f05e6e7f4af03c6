import SearchCompiler.Command.Basic
import SearchCompiler.Command.Usage

/-!
Reading command lines.

A line is read word by word. What a word says is checked when the next option begins or the line
ends, not before: until then a parameter is open and may still get its value. So a word that cannot
be read at all is reported even when the parameter before it has a value that would not do.
-/

namespace SearchCompiler

inductive Word where
  -- Two dashes alone, after which no word is an option.
  | stop
  -- Two dashes and a name, with the value after an equals sign if there is one.
  | long (name : String) (value : Option String)
  -- A dash and letters.
  | short (letters : List Char)
  -- Any other word, a single dash too.
  | plain
deriving DecidableEq, Inhabited

def Word.ofText (text : String) : Word :=
  match text.toList with
  | ['-', '-'] => .stop
  | '-' :: '-' :: rest =>
    .long (String.ofList (rest.takeWhile (· ≠ '=')))
      (match rest.dropWhile (· ≠ '=') with
        | [] => none
        | _ :: value => some (String.ofList value))
  | '-' :: letter :: rest => .short (letter :: rest)
  | _ => .plain

namespace Grammar

def long? (g : Grammar) (name : String) : Option Named :=
  match g.switches.find? fun s => s.long = name with
  | some s => some (.switch s)
  | none => (g.parameters.find? fun p => p.long = name).map .parameter

def letter? (g : Grammar) (letter : Char) : Option Named :=
  match g.switches.find? fun s => s.letter? = some letter with
  | some s => some (.switch s)
  | none => (g.parameters.find? fun p => p.letter = letter).map .parameter

end Grammar

structure Scan where
  -- The switches, in order.
  switches : List Switch := []
  -- Where options are to come from, in order.
  sources : List OptionsSource := []
  aggregations : List Aggregation := []
  text : Option String := none
  -- The parameter that is open, with its value once there is one.
  pending : Option (Parameter × Option String) := none
  -- Whether the words that follow are not options.
  stopped : Bool := false
deriving Inhabited

namespace Scan

/-- Whether options were to come from the command line already. -/
def hasInline (s : Scan) : Bool :=
  s.sources.any fun
    | .inline _ => true
    | .file _ => false

/-- Whether options were to come from a file already. -/
def hasFile (s : Scan) : Bool :=
  s.sources.any fun
    | .inline _ => false
    | .file _ => true

/-- Takes a parameter with its value. Only aggregations may be given more than once. -/
def record (s : Scan) (p : Parameter) (value : String) : Except UsageFault Scan :=
  match p with
  | .options =>
    if s.hasInline then .error (.repeated (.parameter p))
    else .ok { s with sources := s.sources ++ [.inline value] }
  | .optionsFile =>
    if s.hasFile then .error (.repeated (.parameter p))
    else if value.isEmpty then .error (.missingValue p)
    else .ok { s with sources := s.sources ++ [.file value] }
  | .aggregation =>
    match Aggregation.parse value with
    | .error e => .error (.invalidAggregation value e)
    | .ok a => .ok { s with aggregations := s.aggregations ++ [a] }

def settle (s : Scan) : Except UsageFault Scan :=
  match s.pending with
  | none => .ok s
  | some (p, none) => .error (.missingValue p)
  | some (p, some value) => { s with pending := none }.record p value

/-- Takes a switch. Only the one for more detail may be given more than once. -/
def turnOn (s : Scan) (w : Switch) : Except UsageFault Scan := do
  let s ← s.settle
  if w = .help then .error .help
  else if w ≠ .verbose ∧ w ∈ s.switches then .error (.repeated (.switch w))
  else .ok { s with switches := s.switches ++ [w] }

/-- Takes a parameter with its value, or opens it. -/
def begin (s : Scan) (p : Parameter) (value : Option String) : Except UsageFault Scan := do
  let s ← s.settle
  match value with
  | some value => s.record p value
  | none => .ok { s with pending := some (p, none) }

def takeLong (g : Grammar) (s : Scan) (name : String) (value : Option String) :
    Except UsageFault Scan :=
  match g.long? name with
  | none => .error (.unknownArgument ("--" ++ name))
  | some (.parameter p) => s.begin p value
  | some (.switch w) =>
    match value with
    | some value => .error (.unexpectedValue w value)
    | none => s.turnOn w

/-- Takes options by their letters. What follows the letter of a parameter is its value, after an
equals sign if there is one. -/
def takeLetters (g : Grammar) (s : Scan) : List Char → Except UsageFault Scan
  | [] => .ok s
  | letter :: rest =>
    match g.letter? letter with
    | none => .error (.unknownArgument (String.ofList ['-', letter]))
    | some (.switch w) => do takeLetters g (← s.turnOn w) rest
    | some (.parameter p) =>
      match rest with
      | [] => s.begin p none
      | '=' :: value => s.begin p (some (String.ofList value))
      | value => s.begin p (some (String.ofList value))

/-- Takes a word that is neither an option nor the value of one. -/
def takeText (g : Grammar) (s : Scan) (text : String) : Except UsageFault Scan :=
  if g.takesText ∧ s.text.isNone then do
    let s ← s.settle
    return { s with text := some text }
  else .error (.unknownArgument text)

def take (g : Grammar) (s : Scan) (text : String) : Except UsageFault Scan :=
  if s.stopped then s.takeText g text
  else
    match Word.ofText text with
    | .stop => .ok { s with stopped := true }
    | .long name value => s.takeLong g name value
    | .short letters => s.takeLetters g letters
    | .plain =>
      -- The value of an open parameter is kept with it and checked later.
      match s.pending with
      | some (p, none) => .ok { s with pending := some (p, some text) }
      | _ => s.takeText g text

/-- Takes all words of a line, and closes what is open at its end. -/
def ofWords (g : Grammar) (words : List String) : Except UsageFault Scan := do
  (← words.foldlM (take g) {}).settle

/-- Where options come from. They come from one place only. -/
def source (s : Scan) : Except UsageFault (Option OptionsSource) :=
  match s.sources with
  | .inline _ :: .file _ :: _ => .error (.conflict .options .optionsFile)
  | .file _ :: .inline _ :: _ => .error (.conflict .optionsFile .options)
  | sources => .ok sources.head?

/-- How often more detail was asked for; it is not counted beyond 255. -/
def verbosity (s : Scan) : Nat :=
  min 255 (s.switches.count .verbose)

/-- The command of a name with what was read after it. -/
def command (s : Scan) : CommandName → Except UsageFault Command
  | .compile => do
    return .compile
      { text := s.text.getD ""
        source := ← s.source
        aggregations := s.aggregations
        output := { json := s.switches.contains .json, noColor := s.switches.contains .noColor }
        explain := s.switches.contains .explain }
  | .init =>
    .ok (.init
      { userWide := s.switches.contains .userWide
        force := s.switches.contains .force })
  | .config => .ok .config
  | .status => .ok .status

end Scan

namespace Invocation

def helpName : String := "help"

def isName (word : String) : Bool :=
  word == helpName || (CommandName.ofText? word).isSome

/-- What comes of asking for help on words: one command may be named. -/
def helpOn : List String → UsageFault
  | [] => .help
  | [word] => if isName word then .help else .unknownCommand word
  | word :: next :: _ => if isName word then .unknownCommand next else .unknownCommand word

/-- What comes of a line on which no command is named. -/
def unnamed (before : Scan) : UsageFault :=
  if before.switches.isEmpty then .nothing else .noCommand

/-- Reads what follows the name of a command. If more detail is asked for after the name, what was
asked for before it does not count. -/
def afterName (before : Scan) (name : CommandName) (words : List String) :
    Except UsageFault Invocation := do
  let after ← Scan.ofWords name.grammar words
  return {
    verbosity := if after.verbosity = 0 then before.verbosity else after.verbosity
    command := ← after.command name }

def fromOptions (before : Scan) : List String → Except UsageFault Invocation
  | [] => .error (unnamed before)
  | word :: rest =>
    -- After two dashes a command can no longer be named, and nothing else fits here.
    if before.stopped then
      .error (if isName word then .unknownArgument word else .unknownCommand word)
    else if word = helpName then .error (helpOn rest)
    else
      match CommandName.ofText? word with
      | some name => afterName before name rest
      | none =>
        match Word.ofText word with
        | .plain => .error (.unknownCommand word)
        | _ => do fromOptions (← before.take .leading word) rest

/-- Reads a command line, without the name of the program. -/
def ofWords (words : List String) : Except UsageFault Invocation :=
  fromOptions {} words

end Invocation

end SearchCompiler
