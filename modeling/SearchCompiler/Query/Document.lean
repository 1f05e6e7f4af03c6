import SearchCompiler.Query.Basic

/-!
The documents of queries and filters. Parts that may be absent (the options of a match, the
parameters of a script) are left out when they are, never written as null.
-/

namespace SearchCompiler

/-- The body of a match: the text alone, or the text under `query` with the options after it. An
option of that name takes the place of the text. -/
def matchBody (text : String) (options : Entries Json.Value) : Json.Value :=
  if options.isEmpty then .string text
  else .object (Entries.insertAll [("query", .string text)] options)

def scriptBody (script : String) (params : Option (Entries Json.Value)) : Json.Value :=
  match params with
  | none => .object [("script", .string script)]
  | some params => .object [("script", .string script), ("params", .object params)]

mutual

def FilterNode.toJson : FilterNode → Json.Value
  | .term field value => .single "term" (.single field value.toJson)
  | .terms field values => .single "terms" (.single field (.array (values.map Scalar.toJson)))
  | .and filters => .single "and" (.array (filterDocuments filters))
  | .not filter => .single "not" filter.toJson
  | .query query => .single "query" query.toJson
  | .matchAll => .single "match_all" .empty

def filterDocuments : List FilterNode → List Json.Value
  | [] => []
  | filter :: rest => filter.toJson :: filterDocuments rest

def QueryNode.toJson : QueryNode → Json.Value
  | .matchAll => .single "match_all" .empty
  | .single field text options => .single "match" (.single field (matchBody text options))
  | .multi fields text =>
    .single "multi_match" (.object [("query", .string text), ("fields", .strings fields)])
  | .filtered query filter =>
    .single "filtered" (.object [("query", query.toJson), ("filter", filter.toJson)])
  | .functionScore query function =>
    .single "function_score" (.object [("query", query.toJson), function.toMember])

/-- The member that a score function adds beside its query. -/
def ScoreFunction.toMember : ScoreFunction → String × Json.Value
  | .fieldValue field modifier =>
    ("field_value_factor", .object [("field", .string field), ("modifier", .string modifier)])
  | .script script params => ("script_score", scriptBody script params)
  | .boost filter factor =>
    ("functions", .array [.object
      [("filter", filter.toJson), ("boost_factor", .number (.integer factor.toNat))]])

end

end SearchCompiler
