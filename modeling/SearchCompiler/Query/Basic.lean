import SearchCompiler.Options.Leaf

/-!
Queries, filters and score functions: what options compile to before it is written as a document.

A filter says which documents match, a query matches and scores, and a score function adjusts the
score of a query. The three refer to one another: a query can serve as a filter, and a score
function can depend on one.
-/

namespace SearchCompiler

mutual

inductive FilterNode where
  -- A field has a value.
  | term (field : String) (value : Scalar)
  -- A field has one of several values.
  | terms (field : String) (values : List Scalar)
  -- All of several filters hold.
  | and (filters : List FilterNode)
  -- A filter does not hold.
  | not (filter : FilterNode)
  -- A query matches.
  | query (query : QueryNode)
  -- Every document.
  | matchAll

inductive QueryNode where
  -- Every document.
  | matchAll
  -- A text in one field, with options of the match.
  | single (field : String) (text : String) (options : List (String × Json.Value))
  -- A text in any of several fields.
  | multi (fields : List String) (text : String)
  -- A query restricted by a filter.
  | filtered (query : QueryNode) (filter : FilterNode)
  -- A query whose score a function adjusts.
  | functionScore (query : QueryNode) (function : ScoreFunction)

inductive ScoreFunction where
  -- By the value of a numeric field under a modifier.
  | fieldValue (field : String) (modifier : String)
  -- By a script, with its parameters if there are any.
  | script (script : String) (params : Option (List (String × Json.Value)))
  -- By a factor where a filter holds.
  | boost (filter : FilterNode) (factor : UInt32)

end

instance : Inhabited FilterNode := ⟨.matchAll⟩

instance : Inhabited QueryNode := ⟨.matchAll⟩

/-- Joins filters: none for none, the filter itself for one, their conjunction for more. -/
def FilterNode.join : List FilterNode → Option FilterNode
  | [] => none
  | [filter] => some filter
  | filters => some (.and filters)

/-- The filter of a leaf: membership for a list, equality for a single value. -/
def FilterNode.ofLeaf : String × Leaf → FilterNode
  | (field, .scalar value) => .term field value
  | (field, .list values) => .terms field values

/-- A query under a filter, if there is one. -/
def QueryNode.restrict (query : QueryNode) : Option FilterNode → QueryNode
  | none => query
  | some filter => .filtered query filter

end SearchCompiler
