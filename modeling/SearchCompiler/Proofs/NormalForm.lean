import SearchCompiler.Proofs.Nodes
import SearchCompiler.Proofs.Stages

/-!
The normal form of compiled queries. At every level there is one base, around it at most one filter
and around that at most one score function. The filter is a candidate or the conjunction of two or
more of them, and of the candidates only the last one can hold a further query, which is in normal
form for the included text. So conjunctions are never short and never directly inside one another,
and no filter of every document is ever written.
-/

namespace SearchCompiler

/-- The texts of options under an outer text, from the outer level inward. -/
def SearchOptions.texts (text : String) (o : SearchOptions) : List String :=
  (o.levels text).map Prod.fst

/-- The bases of a text: everything if it is blank, else the text in one field or in several. -/
inductive BaseOf (text : String) : QueryNode → Prop
  | matchAll : Text.isBlank text = true → BaseOf text .matchAll
  | single {field : String} {options : Entries Json.Value} :
    Text.isBlank text = false → BaseOf text (.single field text options)
  | multi {fields : List String} :
    Text.isBlank text = false → 2 ≤ fields.length → BaseOf text (.multi fields text)

/-- A filter on a single condition. -/
inductive FilterNode.IsLeaf : FilterNode → Prop
  | term {field : String} {value : Scalar} : IsLeaf (.term field value)
  | terms {field : String} {values : List Scalar} : IsLeaf (.terms field values)

/-- One filter in place of several candidates: the only candidate by itself, or the conjunction of
two or more. -/
inductive Joins : List FilterNode → FilterNode → Prop
  | one {filter : FilterNode} : Joins [filter] filter
  | several {filters : List FilterNode} : 2 ≤ filters.length → Joins filters (.and filters)

/-- A score function that depends on conditions only, if on any filter. -/
inductive ScoreFunction.Normal : ScoreFunction → Prop
  | fieldValue {field modifier : String} : Normal (.fieldValue field modifier)
  | script {script : String} {params : Option (Entries Json.Value)} : Normal (.script script params)
  | boost {leaves : List FilterNode} {filter : FilterNode} {factor : UInt32} :
    (∀ leaf ∈ leaves, leaf.IsLeaf) → Joins leaves filter → Normal (.boost filter factor)

/-- The candidates of a level: conditions, then negated conditions, then the included query if there
is one. -/
inductive CandidatesOf (included : Option QueryNode) : List FilterNode → Prop
  | mk {only except : List FilterNode} :
    (∀ leaf ∈ only, leaf.IsLeaf) → (∀ leaf ∈ except, leaf.IsLeaf) →
    CandidatesOf included
      (only ++ except.map FilterNode.not ++ included.toList.map FilterNode.query)

/-- A base in its envelopes: one for the filter of the candidates if there are any, and around it
maybe one for a score function. -/
inductive Enveloped (base : QueryNode) (candidates : List FilterNode) : QueryNode → Prop
  | bare : candidates = [] → Enveloped base candidates base
  | filtered {filter : FilterNode} :
    Joins candidates filter → Enveloped base candidates (.filtered base filter)
  | scored {function : ScoreFunction} :
    candidates = [] → function.Normal → Enveloped base candidates (.functionScore base function)
  | filteredScored {filter : FilterNode} {function : ScoreFunction} :
    Joins candidates filter → function.Normal →
    Enveloped base candidates (.functionScore (.filtered base filter) function)

/-- A query in normal form for a chain of texts, each included in the one before it. -/
inductive NormalForm : List String → QueryNode → Prop
  | innermost {text : String} {base query : QueryNode} {candidates : List FilterNode} :
    BaseOf text base → CandidatesOf none candidates → Enveloped base candidates query →
    NormalForm [text] query
  | including {text : String} {inner : List String} {base query nested : QueryNode}
    {candidates : List FilterNode} :
    BaseOf text base → NormalForm inner nested → CandidatesOf (some nested) candidates →
    Enveloped base candidates query → NormalForm (text :: inner) query

theorem baseOf_of_base {settings : Settings} {text : String} {c : Clauses} {base : QueryNode}
    (h : c.base settings text = .ok base) : BaseOf text base := by
  cases base_cases h with
  | matchAll hb => exact .matchAll hb
  | catchAll hb _ => exact .single hb
  | single hb _ => exact .single hb
  | multi hb _ => exact .multi hb (by simp)

theorem isLeaf_ofLeaf (leaf : String × Leaf) : (FilterNode.ofLeaf leaf).IsLeaf := by
  obtain ⟨field, leaf⟩ := leaf
  cases leaf with
  | scalar value => exact .term
  | list values => exact .terms

theorem isLeaf_of_mem_conditionFilters (tree : Option ConditionTree) :
    ∀ filter ∈ conditionFilters tree, filter.IsLeaf :=
  List.forall_mem_map.mpr fun leaf _ => isLeaf_ofLeaf leaf

theorem candidatesOf_filters (c : Clauses) (included : Option QueryNode) :
    CandidatesOf included (c.filters ++ included.toList.map FilterNode.query) :=
  .mk (isLeaf_of_mem_conditionFilters c.only) (isLeaf_of_mem_conditionFilters c.except)

theorem joins_of_join {filters : List FilterNode} {filter : FilterNode}
    (h : FilterNode.join filters = some filter) : Joins filters filter := by
  match filters with
  | [] => cases h
  | [only] =>
    cases h
    exact .one
  | first :: second :: rest =>
    cases h
    exact .several (by simp)

theorem join_eq_none {filters : List FilterNode} (h : FilterNode.join filters = none) :
    filters = [] := by
  match filters with
  | [] => rfl
  | [_] => cases h
  | _ :: _ :: _ => cases h

theorem normal_of_scoreFunction? {settings : Settings} {c : Clauses} {function : ScoreFunction}
    (h : c.scoreFunction? settings = some function) : function.Normal := by
  unfold Clauses.scoreFunction? at h
  split at h
  · cases h
    exact .fieldValue
  · cases h
    exact .script
  · obtain ⟨filter, hf, rfl⟩ := Option.map_eq_some_iff.mp h
    exact .boost (isLeaf_of_mem_conditionFilters c.boostWhere) (joins_of_join hf)

theorem enveloped_score (base : QueryNode) (candidates : List FilterNode)
    {function : Option ScoreFunction} (hf : ∀ f, function = some f → f.Normal) :
    Enveloped base candidates
      ((base.restrict (FilterNode.join candidates)).score function) := by
  cases hj : FilterNode.join candidates with
  | none =>
    cases function with
    | none => exact .bare (join_eq_none hj)
    | some f => exact .scored (join_eq_none hj) (hf f rfl)
  | some filter =>
    cases function with
    | none => exact .filtered (joins_of_join hj)
    | some f => exact .filteredScored (joins_of_join hj) (hf f rfl)

theorem normalForm_of_compile {settings : Settings} {text : String} {o : SearchOptions}
    {q : QueryNode} (h : o.compile settings text = .ok q) : NormalForm (o.texts text) q := by
  induction o generalizing text q with
  | plain c =>
    obtain ⟨base, candidates, hb, hc, rfl⟩ := compile_eq_ok h
    cases hc
    have hcand := candidatesOf_filters c none
    rw [Option.toList_none, List.map_nil, List.append_nil] at hcand
    exact .innermost (baseOf_of_base hb) hcand
      (enveloped_score base c.filters fun _ => normal_of_scoreFunction?)
  | including c included inner ih =>
    obtain ⟨base, candidates, hb, hc, rfl⟩ := compile_eq_ok h
    obtain ⟨nested, hn, rfl⟩ := candidates_including hc
    exact .including (baseOf_of_base hb) (ih hn) (candidatesOf_filters c (some nested))
      (enveloped_score base _ fun _ => normal_of_scoreFunction?)

/-- A filter that is a conjunction. -/
inductive FilterNode.IsConjunction : FilterNode → Prop
  | mk {filters : List FilterNode} : IsConjunction (.and filters)

/-- A conjunction has two or more children and none of them is one itself, and no filter is that of
every document. -/
def Node.WellJoined : Node → Prop
  | .filter (.and filters) =>
    2 ≤ filters.length ∧ ∀ filter ∈ filters, ¬ filter.IsConjunction
  | .filter .matchAll => False
  | _ => True

/-- A filter all of whose nodes are well joined and that is no conjunction, so that it can be a
child of one. -/
structure FilterNode.Joinable (filter : FilterNode) : Prop where
  well_joined : ∀ node ∈ filter.nodes, node.WellJoined
  not_conjunction : ¬ filter.IsConjunction

theorem joinable_of_nodes {filter : FilterNode} {below : List Node}
    (hn : filter.nodes = .filter filter :: below) (hw : Node.WellJoined (.filter filter))
    (hc : ¬ filter.IsConjunction) (hb : ∀ node ∈ below, node.WellJoined) : filter.Joinable := by
  refine ⟨?_, hc⟩
  rw [hn]
  exact List.forall_mem_cons.mpr ⟨hw, hb⟩

theorem joinable_of_isLeaf {filter : FilterNode} (h : filter.IsLeaf) : filter.Joinable := by
  cases h with
  | term => exact joinable_of_nodes (by rw [FilterNode.nodes]) trivial nofun (List.forall_mem_nil _)
  | terms => exact joinable_of_nodes (by rw [FilterNode.nodes]) trivial nofun (List.forall_mem_nil _)

theorem joinable_not {filter : FilterNode} (h : ∀ node ∈ filter.nodes, node.WellJoined) :
    (FilterNode.not filter).Joinable :=
  joinable_of_nodes (by rw [FilterNode.nodes]) trivial nofun h

theorem joinable_query {query : QueryNode} (h : ∀ node ∈ query.nodes, node.WellJoined) :
    (FilterNode.query query).Joinable :=
  joinable_of_nodes (by rw [FilterNode.nodes]) trivial nofun h

theorem wellJoined_of_joins {filters : List FilterNode} {filter : FilterNode}
    (h : Joins filters filter) (hf : ∀ f ∈ filters, f.Joinable) :
    ∀ node ∈ filter.nodes, node.WellJoined := by
  cases h with
  | one => exact (hf filter (List.mem_singleton.mpr rfl)).well_joined
  | several hl =>
    rw [FilterNode.nodes, nodesOfAll_eq_flatMap, List.forall_mem_cons]
    refine ⟨⟨hl, fun f hm => (hf f hm).not_conjunction⟩, ?_⟩
    intro node hn
    obtain ⟨f, hm, hn⟩ := List.mem_flatMap.mp hn
    exact (hf f hm).well_joined node hn

theorem joinable_of_candidatesOf {included : Option QueryNode} {candidates : List FilterNode}
    (h : CandidatesOf included candidates)
    (hi : ∀ query ∈ included, ∀ node ∈ query.nodes, node.WellJoined) :
    ∀ filter ∈ candidates, filter.Joinable := by
  cases h with
  | mk ho he =>
    rw [List.forall_mem_append, List.forall_mem_append, List.forall_mem_map, List.forall_mem_map]
    refine ⟨⟨?_, ?_⟩, ?_⟩
    · exact fun leaf hl => joinable_of_isLeaf (ho leaf hl)
    · exact fun leaf hl => joinable_not (joinable_of_isLeaf (he leaf hl)).well_joined
    · exact fun query hq => joinable_query (hi query (Option.mem_toList.mp hq))

theorem wellJoined_of_baseOf {text : String} {base : QueryNode} (h : BaseOf text base) :
    ∀ node ∈ base.nodes, node.WellJoined := by
  cases h <;> rw [QueryNode.nodes] <;> exact List.forall_mem_singleton.mpr trivial

theorem wellJoined_of_normal {function : ScoreFunction} (h : function.Normal) :
    ∀ node ∈ function.nodes, node.WellJoined := by
  cases h with
  | fieldValue => rw [ScoreFunction.nodes]; exact List.forall_mem_nil _
  | script => rw [ScoreFunction.nodes]; exact List.forall_mem_nil _
  | boost hl hj =>
    rw [ScoreFunction.nodes]
    exact wellJoined_of_joins hj fun leaf hm => joinable_of_isLeaf (hl leaf hm)

theorem wellJoined_of_enveloped {base query : QueryNode} {candidates : List FilterNode}
    (h : Enveloped base candidates query) (hb : ∀ node ∈ base.nodes, node.WellJoined)
    (hc : ∀ filter ∈ candidates, filter.Joinable) : ∀ node ∈ query.nodes, node.WellJoined := by
  have hfiltered {filter : FilterNode} (hj : Joins candidates filter) :
      ∀ node ∈ (QueryNode.filtered base filter).nodes, node.WellJoined := by
    rw [QueryNode.nodes, List.forall_mem_cons, List.forall_mem_append]
    exact ⟨trivial, hb, wellJoined_of_joins hj hc⟩
  cases h with
  | bare => exact hb
  | filtered hj => exact hfiltered hj
  | scored _ hf =>
    rw [QueryNode.nodes, List.forall_mem_cons, List.forall_mem_append]
    exact ⟨trivial, wellJoined_of_normal hf, hb⟩
  | filteredScored hj hf =>
    rw [QueryNode.nodes, List.forall_mem_cons, List.forall_mem_append]
    exact ⟨trivial, wellJoined_of_normal hf, hfiltered hj⟩

theorem wellJoined_of_normalForm {texts : List String} {q : QueryNode} (h : NormalForm texts q) :
    ∀ node ∈ q.nodes, node.WellJoined := by
  induction h with
  | innermost hb hc he =>
    exact wellJoined_of_enveloped he (wellJoined_of_baseOf hb)
      (joinable_of_candidatesOf hc (by simp))
  | including hb _ hc he ih =>
    exact wellJoined_of_enveloped he (wellJoined_of_baseOf hb)
      (joinable_of_candidatesOf hc (by simpa using ih))

/-- A compiled query is in normal form for the texts of its options, and all its nodes are well
joined. -/
theorem compiled_normalForm {settings : Settings} {text : String} {o : SearchOptions}
    {q : QueryNode} (h : o.compile settings text = .ok q) :
    NormalForm (o.texts text) q ∧ ∀ node ∈ q.nodes, node.WellJoined :=
  ⟨normalForm_of_compile h, wellJoined_of_normalForm (normalForm_of_compile h)⟩

theorem compiled_normalForm_tea :
    let o : SearchOptions :=
      .including
        { only := some [("id", .scalar (.string "m7"))]
          boostWhere := some
            [("new", .scalar (.bool true)), ("tags", .list [.string "loose"])] }
        " " (.plain { except := some [("hidden", .scalar (.bool true))] })
    let q : QueryNode :=
      .functionScore
        (.filtered (.single "_all" "tea" [])
          (.and [.term "id" (.string "m7"),
            .query (.filtered .matchAll (.not (.term "hidden" (.bool true))))]))
        (.boost (.and [.term "new" (.bool true), .terms "tags" [.string "loose"]]) 1000)
    o.compile {} "tea" = .ok q ∧ o.texts "tea" = ["tea", " "] ∧ NormalForm ["tea", " "] q := by
  intro o q
  have h : o.compile {} "tea" = .ok q := by cbv
  exact ⟨h, rfl, (compiled_normalForm h).1⟩

end SearchCompiler
