import SearchCompiler.Query.Basic

/-!
The nodes of a query tree: every query and filter in it, parents before children, and of the
children the filter that a score is boosted under before the query, the query of a filtered one
before its filter. What is said of all nodes of a tree is said of it and of all nodes of its
children.
-/

namespace SearchCompiler

/-- A node of a query tree, with all that is below it. -/
inductive Node where
  | filter (filter : FilterNode)
  | query (query : QueryNode)

mutual

def FilterNode.nodes : FilterNode → List Node
  | .term field value => [.filter (.term field value)]
  | .terms field values => [.filter (.terms field values)]
  | .and filters => .filter (.and filters) :: nodesOfAll filters
  | .not filter => .filter (.not filter) :: filter.nodes
  | .query query => .filter (.query query) :: query.nodes
  | .matchAll => [.filter .matchAll]

def nodesOfAll : List FilterNode → List Node
  | [] => []
  | filter :: rest => filter.nodes ++ nodesOfAll rest

def QueryNode.nodes : QueryNode → List Node
  | .matchAll => [.query .matchAll]
  | .single field text options => [.query (.single field text options)]
  | .multi fields text => [.query (.multi fields text)]
  | .filtered query filter => .query (.filtered query filter) :: (query.nodes ++ filter.nodes)
  | .functionScore query function =>
    .query (.functionScore query function) :: (function.nodes ++ query.nodes)

/-- The nodes that a score function depends on. -/
def ScoreFunction.nodes : ScoreFunction → List Node
  | .fieldValue _ _ => []
  | .script _ _ => []
  | .boost filter _ => filter.nodes

end

theorem nodesOfAll_eq_flatMap (filters : List FilterNode) :
    nodesOfAll filters = filters.flatMap FilterNode.nodes := by
  induction filters with
  | nil => rw [nodesOfAll, List.flatMap_nil]
  | cons filter rest ih => rw [nodesOfAll, ih, List.flatMap_cons]

end SearchCompiler
