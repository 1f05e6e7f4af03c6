import SearchCompiler.Proofs.NormalForm
import SearchCompiler.Report.Explanation

/-!
The table of conditions against the compiled query. The rows come from the options and the filters
of the query come from them as well, each by a way of its own. Read off the query, the conditions
under its outer filter and those that its score is boosted under are the rows of the table, one for
one.
-/

namespace SearchCompiler

/-- The filters that a filter is the conjunction of; a filter that is none stands by itself. -/
def FilterNode.conjuncts : FilterNode → List FilterNode
  | .and filters => filters
  | filter => [filter]

/-- Whether a filter is a query used as one. -/
def FilterNode.isQuery : FilterNode → Bool
  | .query _ => true
  | _ => false

/-- The outer filter of a query, under its score function if there is one. -/
def QueryNode.outerFilter? : QueryNode → Option FilterNode
  | .functionScore (.filtered _ filter) _ => some filter
  | .filtered _ filter => some filter
  | _ => none

/-- The candidates of the outer filter of a query, but for an included query. -/
def QueryNode.conditions (query : QueryNode) : List FilterNode :=
  (query.outerFilter?.elim [] FilterNode.conjuncts).filter fun filter => !filter.isQuery

/-- The score function around a query, if there is one. -/
def QueryNode.outerScore? : QueryNode → Option ScoreFunction
  | .functionScore _ function => some function
  | _ => none

/-- The conditions that a score is boosted under. -/
def ScoreFunction.conditions : ScoreFunction → List FilterNode
  | .boost filter _ => filter.conjuncts
  | _ => []

/-- The row of a condition of an option: its field, its kind and the compact text of its value or
its values. Other filters have none. -/
def FilterNode.leafRow? (option : String) : FilterNode → Option (List String)
  | .term field value => some [option, field, "term", value.toJson.compact]
  | .terms field values =>
    some [option, field, "terms", (Json.Value.array (values.map Scalar.toJson)).compact]
  | _ => none

/-- The row of a candidate: a negated condition is one of `except`, any other one of `only`. -/
def FilterNode.conditionRow? : FilterNode → Option (List String)
  | .not filter => filter.leafRow? "except"
  | filter => filter.leafRow? "only"

/-- The rows of a table that belong to some of the options. -/
def rowsOf (options : List String) (rows : List (List String)) : List (List String) :=
  rows.filter fun row => row.headD "" ∈ options

section Rows

variable (option : String) (tree : Option ConditionTree)

theorem rowsOf_append (options : List String) (xs ys : List (List String)) :
    rowsOf options (xs ++ ys) = rowsOf options xs ++ rowsOf options ys :=
  List.filter_append xs ys

/-- The rows of an option's leaves all belong to that option. -/
theorem rowsOf_leafRows (options : List String) :
    rowsOf options (leafRows option tree) =
      if option ∈ options then leafRows option tree else [] := by
  have hhead : ∀ row ∈ leafRows option tree, row.headD "" = option := by
    intro row hr
    obtain ⟨leaf, _, rfl⟩ := List.mem_map.mp hr
    rfl
  split
  · next hm =>
    apply List.filter_eq_self.mpr
    intro row hr
    rw [hhead row hr]
    exact decide_eq_true hm
  · next hm =>
    apply List.filter_eq_nil_iff.mpr
    intro row hr
    rw [hhead row hr]
    simpa using hm

theorem rowsOf_conditions (c : Clauses) :
    rowsOf ["only", "except"] c.conditionRows =
      leafRows "only" c.only ++ leafRows "except" c.except := by
  simp [Clauses.conditionRows, rowsOf_append, rowsOf_leafRows]

theorem rowsOf_boost (c : Clauses) :
    rowsOf ["boost_where"] c.conditionRows = leafRows "boost_where" c.boostWhere := by
  simp [Clauses.conditionRows, rowsOf_append, rowsOf_leafRows]

/-- A leaf has the same row in the table as the filter that it compiles to. -/
theorem leafRow?_ofLeaf (leaf : String × Leaf) :
    (FilterNode.ofLeaf leaf).leafRow? option =
      some [option, leaf.1, leaf.2.filterName, leaf.2.toJson.compact] := by
  obtain ⟨field, leaf⟩ := leaf
  cases leaf <;> rfl

theorem map_leafRow?_conditionFilters :
    (conditionFilters tree).map (FilterNode.leafRow? option) =
      (leafRows option tree).map some := by
  rw [conditionFilters, leafRows, List.map_map, List.map_map]
  exact List.map_congr_left fun leaf _ => leafRow?_ofLeaf option leaf

theorem map_conditionRow?_filters (c : Clauses) :
    c.filters.map FilterNode.conditionRow? =
      (leafRows "only" c.only ++ leafRows "except" c.except).map some := by
  have honly : (conditionFilters c.only).map FilterNode.conditionRow? =
      (conditionFilters c.only).map (FilterNode.leafRow? "only") := by
    apply List.map_congr_left
    intro filter hf
    cases isLeaf_of_mem_conditionFilters c.only filter hf <;> rfl
  have hexcept : ((conditionFilters c.except).map FilterNode.not).map FilterNode.conditionRow? =
      (conditionFilters c.except).map (FilterNode.leafRow? "except") :=
    List.map_map
  rw [Clauses.filters, List.map_append, List.map_append, honly, hexcept,
    map_leafRow?_conditionFilters, map_leafRow?_conditionFilters]

end Rows

section Candidates

theorem conjuncts_of_not_isConjunction {filter : FilterNode} (h : ¬ filter.IsConjunction) :
    filter.conjuncts = [filter] := by
  cases filter with
  | and filters => exact absurd .mk h
  | term | terms | not | query | matchAll => rfl

/-- Joined filters are taken apart again, unless one of them is a conjunction itself. -/
theorem conjuncts_join {filters : List FilterNode}
    (h : ∀ filter ∈ filters, ¬ filter.IsConjunction) :
    (FilterNode.join filters).elim [] FilterNode.conjuncts = filters := by
  match filters with
  | [] => rfl
  | [only] => exact conjuncts_of_not_isConjunction (h only List.mem_cons_self)
  | first :: second :: rest => rfl

theorem not_isConjunction_of_isLeaf {filter : FilterNode} (h : filter.IsLeaf) :
    ¬ filter.IsConjunction :=
  (joinable_of_isLeaf h).not_conjunction

theorem conjuncts_conditionFilters (tree : Option ConditionTree) :
    (FilterNode.join (conditionFilters tree)).elim [] FilterNode.conjuncts =
      conditionFilters tree :=
  conjuncts_join fun filter hf =>
    not_isConjunction_of_isLeaf (isLeaf_of_mem_conditionFilters tree filter hf)

theorem isLeaf_or_not_of_mem_filters {c : Clauses} {filter : FilterNode} (h : filter ∈ c.filters) :
    filter.IsLeaf ∨ ∃ leaf : FilterNode, filter = .not leaf := by
  rcases List.mem_append.mp h with h | h
  · exact .inl (isLeaf_of_mem_conditionFilters c.only filter h)
  · obtain ⟨leaf, _, rfl⟩ := List.mem_map.mp h
    exact .inr ⟨leaf, rfl⟩

/-- The candidates are the conditions of the level and maybe an included query. -/
theorem exists_included_of_candidates {settings : Settings} {o : SearchOptions}
    {candidates : List FilterNode} (h : o.candidates settings = .ok candidates) :
    ∃ included : Option QueryNode,
      candidates = o.clauses.filters ++ included.toList.map FilterNode.query := by
  cases o with
  | plain c =>
    cases h
    exact ⟨none, (List.append_nil _).symm⟩
  | including c text inner =>
    obtain ⟨nested, _, rfl⟩ := candidates_including h
    exact ⟨some nested, rfl⟩

theorem filter_candidates (c : Clauses) (included : Option QueryNode) :
    (c.filters ++ included.toList.map FilterNode.query).filter (fun filter => !filter.isQuery) =
      c.filters := by
  have hkept : c.filters.filter (fun filter => !filter.isQuery) = c.filters := by
    apply List.filter_eq_self.mpr
    intro filter hf
    obtain hleaf | ⟨leaf, rfl⟩ := isLeaf_or_not_of_mem_filters hf
    · cases hleaf <;> rfl
    · rfl
  have hdropped :
      (included.toList.map FilterNode.query).filter (fun filter => !filter.isQuery) = [] := by
    cases included <;> rfl
  rw [List.filter_append, hkept, hdropped, List.append_nil]

end Candidates

section Envelopes

variable {settings : Settings} {text : String} {o : SearchOptions} {q base : QueryNode}

/-- A base is neither filtered nor scored, so what is around it can be told apart. -/
theorem outer_score_restrict (hb : BaseOf text base) (filter : Option FilterNode)
    (function : Option ScoreFunction) :
    ((base.restrict filter).score function).outerFilter? = filter ∧
      ((base.restrict filter).score function).outerScore? = function := by
  cases hb <;> cases filter <;> cases function <;> exact ⟨rfl, rfl⟩

theorem outer_of_compile (h : o.compile settings text = .ok q) :
    q.conditions = o.clauses.filters ∧ q.outerScore? = o.clauses.scoreFunction? settings := by
  obtain ⟨base, candidates, hb, hc, rfl⟩ := compile_eq_ok h
  obtain ⟨included, rfl⟩ := exists_included_of_candidates hc
  have hplain : ∀ filter ∈ o.clauses.filters ++ included.toList.map FilterNode.query,
      ¬ filter.IsConjunction := by
    rw [List.forall_mem_append, List.forall_mem_map]
    constructor
    · intro filter hf
      obtain hleaf | ⟨leaf, rfl⟩ := isLeaf_or_not_of_mem_filters hf
      · exact not_isConjunction_of_isLeaf hleaf
      · exact nofun
    · exact fun query _ => nofun
  obtain ⟨hfilter, hscore⟩ := outer_score_restrict (baseOf_of_base hb)
    (FilterNode.join (o.clauses.filters ++ included.toList.map FilterNode.query))
    (o.clauses.scoreFunction? settings)
  refine ⟨?_, hscore⟩
  rw [QueryNode.conditions, hfilter, conjuncts_join hplain, filter_candidates]

/-- Without a boost of a higher precedence a level is boosted under its conditions, if it has any.
-/
theorem boost_of_conditions (settings : Settings) {c : Clauses} (hb : c.boostBy = none)
    (hs : c.boostFunction = none) :
    (c.scoreFunction? settings).elim [] ScoreFunction.conditions =
        conditionFilters c.boostWhere ∧
      (c.scoreFunction? settings = none ↔ conditionFilters c.boostWhere = []) := by
  have hc := conjuncts_conditionFilters c.boostWhere
  simp only [Clauses.scoreFunction?, hb, hs, Option.map_eq_none_iff]
  cases hj : FilterNode.join (conditionFilters c.boostWhere) with
  | none => exact ⟨(join_eq_none hj).symm, iff_of_true rfl (join_eq_none hj)⟩
  | some filter =>
    rw [hj] at hc
    refine ⟨hc, iff_of_false (Option.some_ne_none _) ?_⟩
    intro hnil
    rw [hnil] at hj
    cases hj

end Envelopes

/-- The table shows the conditions that were compiled. Its rows for `only` and `except` are those of
the candidates under the outer filter, but for an included query, one for one and in order; and
unless a boost of a higher precedence is set, its rows for `boost_where` are those of the conditions
that the score is boosted under, and there are none exactly if the query is not scored. -/
theorem rows_of_compiled {settings : Settings} {text : String} {o : SearchOptions}
    {q : QueryNode} (h : o.compile settings text = .ok q) :
    q.conditions.map FilterNode.conditionRow? =
        (rowsOf ["only", "except"] o.clauses.conditionRows).map some ∧
      (rowsOf ["only", "except"] o.clauses.conditionRows = [] ↔ q.conditions = []) ∧
      (o.clauses.boostBy = none → o.clauses.boostFunction = none →
        (q.outerScore?.elim [] ScoreFunction.conditions).map (FilterNode.leafRow? "boost_where") =
            (rowsOf ["boost_where"] o.clauses.conditionRows).map some ∧
          (rowsOf ["boost_where"] o.clauses.conditionRows = [] ↔ q.outerScore? = none)) := by
  obtain ⟨hfilter, hscore⟩ := outer_of_compile h
  rw [hfilter, hscore, rowsOf_conditions, rowsOf_boost]
  have hrows := map_conditionRow?_filters o.clauses
  refine ⟨hrows, ?_, fun hb hs => ?_⟩
  · rw [← List.map_eq_nil_iff (f := some), ← hrows, List.map_eq_nil_iff]
  · obtain ⟨hc, hnone⟩ := boost_of_conditions settings hb hs
    have hboost := map_leafRow?_conditionFilters "boost_where" o.clauses.boostWhere
    refine ⟨by rw [hc, hboost], ?_⟩
    rw [hnone, ← List.map_eq_nil_iff (f := some), ← hboost, List.map_eq_nil_iff]

theorem rows_of_compiled_tea :
    let o : SearchOptions :=
      .including
        { only := some [("maker", .tree [("id", .scalar (.string "m7")), ("tags", .list [])])]
          except := some [("hidden", .scalar (.bool true))]
          boostWhere := some [("new", .scalar (.bool true))] }
        " " (.plain { only := some [("loose", .scalar (.bool true))] })
    let q : QueryNode :=
      .functionScore
        (.filtered (.single "_all" "tea" [])
          (.and [.term "maker.id" (.string "m7"), .terms "maker.tags" [],
            .not (.term "hidden" (.bool true)),
            .query (.filtered .matchAll (.term "loose" (.bool true)))]))
        (.boost (.term "new" (.bool true)) 1000)
    o.compile {} "tea" = .ok q ∧
      o.clauses.conditionRows =
        [["only", "maker.id", "term", "\"m7\""], ["only", "maker.tags", "terms", "[]"],
          ["except", "hidden", "term", "true"], ["boost_where", "new", "term", "true"]] ∧
      q.conditions.map FilterNode.conditionRow? =
        (rowsOf ["only", "except"] o.clauses.conditionRows).map some ∧
      (q.outerScore?.elim [] ScoreFunction.conditions).map (FilterNode.leafRow? "boost_where") =
        (rowsOf ["boost_where"] o.clauses.conditionRows).map some := by
  intro o q
  have h : o.compile {} "tea" = .ok q := by cbv
  have hc := rows_of_compiled h
  have hrows : o.clauses.conditionRows =
      [["only", "maker.id", "term", "\"m7\""], ["only", "maker.tags", "terms", "[]"],
        ["except", "hidden", "term", "true"], ["boost_where", "new", "term", "true"]] := by
    simp only [o, SearchOptions.clauses, Clauses.conditionRows, leafRows, leaves?, leaves,
      leavesUnder, Option.getD_some]
    rfl
  exact ⟨h, hrows, hc.1, (hc.2.2 rfl rfl).1⟩

end SearchCompiler
