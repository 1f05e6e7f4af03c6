import SearchCompiler.Json.Printer
import SearchCompiler.Query.Basic
import SearchCompiler.Text.Quoted

/-!
The outline of a query or filter: one line for every node, parents before children, each line
indented by its level. A filter that a score is boosted under stands two levels below its function,
so that it is not taken for the query, which stands one level below.
-/

namespace SearchCompiler

abbrev OutlineLine := Nat × String

/-- The line of a match. Options are shown when there are any. -/
def singleLine (field text : String) (options : Entries Json.Value) : String :=
  let head := "Match(" ++ Text.quoted field ++ ": " ++ Text.quoted text
  if options.isEmpty then head ++ ")"
  else head ++ ", " ++ (Json.Value.object options).compact ++ ")"

def termsLine (field : String) (values : List Scalar) : String :=
  "Terms(" ++ Text.quoted field ++ " in "
    ++ (Json.Value.array (values.map Scalar.toJson)).compact ++ ")"

mutual

def FilterNode.outline (level : Nat) : FilterNode → List OutlineLine
  | .term field value =>
    [(level, "Term(" ++ Text.quoted field ++ " = " ++ value.toJson.compact ++ ")")]
  | .terms field values => [(level, termsLine field values)]
  | .and filters => (level, "And") :: outlines (level + 1) filters
  | .not filter => (level, "Not") :: filter.outline (level + 1)
  | .query query => (level, "Query") :: query.outline (level + 1)
  | .matchAll => [(level, "MatchAll")]

def outlines (level : Nat) : List FilterNode → List OutlineLine
  | [] => []
  | filter :: rest => filter.outline level ++ outlines level rest

def QueryNode.outline (level : Nat) : QueryNode → List OutlineLine
  | .matchAll => [(level, "MatchAll")]
  | .single field text options => [(level, singleLine field text options)]
  | .multi fields text =>
    [(level, "MultiMatch(" ++ Text.quotedList fields ++ ": " ++ Text.quoted text ++ ")")]
  | .filtered query filter =>
    (level, "Filtered") :: (query.outline (level + 1) ++ filter.outline (level + 1))
  | .functionScore query function => function.outline level ++ query.outline (level + 1)

/-- The line of a score function, with the filter it depends on. -/
def ScoreFunction.outline (level : Nat) : ScoreFunction → List OutlineLine
  | .fieldValue field modifier =>
    [(level, "FunctionScore(field " ++ Text.quoted field ++ ", " ++ modifier ++ ")")]
  | .script script _ => [(level, "FunctionScore(script " ++ Text.quoted script ++ ")")]
  | .boost filter factor =>
    (level, "FunctionScore(boost x" ++ toString factor ++ " where)") :: filter.outline (level + 2)

end

/-- The text of an outline: every line with its indentation and a line feed. -/
def outlineText (lines : List OutlineLine) : String :=
  String.join (lines.map fun line => Json.indentation line.1 ++ line.2 ++ "\n")

def QueryNode.display (query : QueryNode) : String :=
  outlineText (query.outline 0)

def FilterNode.display (filter : FilterNode) : String :=
  outlineText (filter.outline 0)

end SearchCompiler
