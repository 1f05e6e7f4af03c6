import SearchCompiler.Compile
import SearchCompiler.Json.Printer
import SearchCompiler.Text.Lines
import SearchCompiler.Text.Plain
import SearchCompiler.Text.Quoted

/-!
The log of a compilation: what it tells, on demand, about the queries and filters it builds. Nodes
are shown as records, with every field named.

The log is a function beside the compiler and follows its steps, so the compiler itself stays free
of it. When a step fails, the log ends with what came before.
-/

namespace SearchCompiler

inductive LogLevel where
  | debug
  | trace
deriving DecidableEq, Inhabited

/-- An entry: its level, the part of the program it comes from and what it says. -/
structure LogEntry where
  level : LogLevel
  origin : String
  message : String
deriving DecidableEq, Inhabited

def LogLevel.name : LogLevel → String
  | .debug => "DEBUG"
  | .trace => "TRACE"

/-- A message whose further lines are set in by four spaces. -/
def hanging (message : String) : String :=
  "\n    ".intercalate ((Text.splitAtFeeds message.toList).map String.ofList)

/-- An entry as it is written, on a line of its own. Messages name fields and paths as they are, so
what a terminal would take for a control sequence is left out. -/
def LogEntry.line (e : LogEntry) : String :=
  Text.plain ("[" ++ e.level.name ++ " " ++ e.origin ++ "] " ++ hanging e.message ++ "\n")

/-- The lowest number of `-v` flags that shows a level. -/
def LogLevel.verbosity : LogLevel → Nat
  | .debug => 1
  | .trace => 2

/-- The lines of the entries that a number of `-v` flags shows. -/
def logText (verbosity : Nat) (entries : List LogEntry) : String :=
  String.join ((entries.filter fun e => e.level.verbosity ≤ verbosity).map LogEntry.line)

namespace Record

def list (items : List String) : String :=
  "[" ++ ", ".intercalate items ++ "]"

def fields (name : String) (items : List (String × String)) : String :=
  name ++ " \x7b " ++ ", ".intercalate (items.map fun f => f.1 ++ ": " ++ f.2) ++ " \x7d"

def wrap (name content : String) : String :=
  name ++ "(" ++ content ++ ")"

mutual

def value : Json.Value → String
  | .null => "Null"
  | .bool b => wrap "Bool" (toString b)
  | .number n => wrap "Number" n.text
  | .string s => wrap "String" (Text.quoted s)
  | .array items => "Array " ++ list (values items)
  | .object members => "Object \x7b" ++ ", ".intercalate (memberTexts members) ++ "\x7d"

def values : List Json.Value → List String
  | [] => []
  | v :: rest => value v :: values rest

def memberTexts : List (String × Json.Value) → List String
  | [] => []
  | (key, v) :: rest => (Text.quoted key ++ ": " ++ value v) :: memberTexts rest

end

def members (entries : Entries Json.Value) : String :=
  "\x7b" ++ ", ".intercalate (memberTexts entries) ++ "\x7d"

def scalar : Scalar → String
  | .string s => wrap "String" (Text.quoted s)
  | .number n => wrap "Number" (wrap "Number" n.text)
  | .bool b => wrap "Bool" (toString b)

def leaf : Leaf → String
  | .scalar s => wrap "Scalar" (scalar s)
  | .list vs => wrap "List" (list (vs.map scalar))

def params : Option (Entries Json.Value) → String
  | none => "None"
  | some entries => wrap "Some" (members entries)

mutual

def filter : FilterNode → String
  | .term field v => fields "Term" [("field", Text.quoted field), ("value", scalar v)]
  | .terms field vs =>
    fields "Terms" [("field", Text.quoted field), ("values", list (vs.map scalar))]
  | .and fs => wrap "And" (list (filters fs))
  | .not f => wrap "Not" (filter f)
  | .query q => wrap "Query" (query q)
  | .matchAll => "MatchAll"

def filters : List FilterNode → List String
  | [] => []
  | f :: rest => filter f :: filters rest

def query : QueryNode → String
  | .matchAll => "MatchAll"
  | .single field text options =>
    fields "Match"
      [("field", Text.quoted field), ("text", Text.quoted text), ("options", members options)]
  | .multi names text =>
    fields "MultiMatch" [("fields", Text.quotedList names), ("text", Text.quoted text)]
  | .filtered q f => fields "Filtered" [("query", query q), ("filter", filter f)]
  | .functionScore q f => fields "FunctionScore" [("query", query q), ("function", function f)]

def function : ScoreFunction → String
  | .fieldValue field modifier =>
    fields "FieldValueFactor"
      [("field", Text.quoted field), ("modifier", Text.quoted modifier)]
  | .script script ps =>
    fields "ScriptScore" [("script", Text.quoted script), ("params", params ps)]
  | .boost f factor =>
    fields "BoostFactor" [("filter", filter f), ("factor", toString factor)]

end

end Record

def compileEntry (message : String) : LogEntry :=
  ⟨.debug, "sift_query::compile", message⟩

def conditionLog (tree : Option ConditionTree) : List LogEntry :=
  (leaves? tree).map fun l =>
    ⟨.trace, "sift_query::filter", "condition on " ++ l.1 ++ ": " ++ Record.leaf l.2⟩

def candidatesLog (candidates : List FilterNode) : List LogEntry :=
  match FilterNode.join candidates with
  | none => []
  | some f => [compileEntry ("filtering with " ++ Record.filter f)]

/-- The entries on the boost of a level: the options that are ignored, and the conditions when these
decide. -/
def Clauses.boostLog (settings : Settings) (c : Clauses) : List LogEntry :=
  let conditions :=
    if c.boostBy.isNone ∧ c.boostFunction.isNone then conditionLog c.boostWhere else []
  match c.boosts with
  | first :: second :: rest =>
    match settings.boostPolicy with
    | .reject => []
    | .firstMatch =>
      let ignored := Text.quotedList ((second :: rest).map BoostOption.name)
      let message := "applying " ++ first.name ++ " and ignoring " ++ ignored
      ⟨.debug, "sift_query::relevance", message⟩ :: conditions
  | _ => conditions

def SearchOptions.compileLog (settings : Settings) (text : String) :
    SearchOptions → List LogEntry
  | .plain c =>
    match c.base settings text with
    | .error _ => []
    | .ok base =>
      compileEntry ("base query for " ++ Text.quoted text ++ ": " ++ Record.query base)
        :: (conditionLog c.only ++ conditionLog c.except ++ candidatesLog c.filters
          ++ c.boostLog settings)
  | .including c included inner =>
    match c.base settings text with
    | .error _ => []
    | .ok base =>
      -- The candidates are known only once the included text is compiled.
      let rest :=
        match inner.compile settings included with
        | .error _ => []
        | .ok nested => candidatesLog (c.filters ++ [.query nested]) ++ c.boostLog settings
      compileEntry ("base query for " ++ Text.quoted text ++ ": " ++ Record.query base)
        :: (conditionLog c.only ++ conditionLog c.except ++ inner.compileLog settings included
          ++ rest)

end SearchCompiler
