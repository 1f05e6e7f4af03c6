import SearchCompiler.Proofs.Decoding
import SearchCompiler.Proofs.Leaves
import SearchCompiler.Query.Document

/-!
The filters of a compiled document read off the JSON of its options: one candidate for every leaf of
`only`, one negated for every leaf of `except` and the document of the included text last, in that
order wherever the members stand, under the envelopes that their number calls for.
-/

namespace SearchCompiler

mutual

/-- The leaves of a value, depth first, each with the names that lead to it: objects descend, and
every other value is a leaf. -/
def valueLeaves : Json.Value → List (List String × Json.Value)
  | .object members => memberLeaves members
  | v => [([], v)]

def memberLeaves : List (String × Json.Value) → List (List String × Json.Value)
  | [] => []
  | (key, v) :: rest =>
    (valueLeaves v).map (fun leaf => (key :: leaf.1, leaf.2)) ++ memberLeaves rest

end

/-- The leaves of the conditions under a name. -/
def conditionLeaves (key : String) (v : Json.Value) : List (List String × Json.Value) :=
  match lastNamed key v.members with
  | none => []
  | some conditions => memberLeaves conditions.members

/-- The filter of a leaf: membership for an array, equality for any other value. -/
def leafDocument (leaf : List String × Json.Value) : Json.Value :=
  match leaf.2 with
  | .array items => .single "terms" (.single (dotted leaf.1) (.array items))
  | v => .single "term" (.single (dotted leaf.1) v)

/-- The candidate filters of options, given the document of the included text. -/
def candidateDocuments (v : Json.Value) (nested : Option Json.Value) : List Json.Value :=
  (conditionLeaves "only" v).map leafDocument ++
    (conditionLeaves "except" v).map (fun leaf => .single "not" (leafDocument leaf)) ++
    nested.toList.map (.single "query")

/-- A base document under candidate filters: bare without any, else filtered by the one there is or
by the conjunction of all. -/
def filteredDocument (base : Json.Value) : List Json.Value → Json.Value
  | [] => base
  | [filter] => .single "filtered" (.object [("query", base), ("filter", filter)])
  | filters =>
    .single "filtered" (.object [("query", base), ("filter", .single "and" (.array filters))])

/-- A document under the member of a score function, if there is one. -/
def boostedDocument (query : Json.Value) : Option (String × Json.Value) → Json.Value
  | none => query
  | some function => .single "function_score" (.object [("query", query), function])

/-- The base document of a text under options; it is no envelope. -/
structure BaseDocument (settings : Settings) (text : String) (o : SearchOptions)
    (base : Json.Value) : Prop where
  of_level : ∃ query, o.clauses.base settings text = .ok query ∧ base = query.toJson
  no_envelope : ∃ name ∈ ["match_all", "match", "multi_match"], ∃ body, base = .single name body

/-- The document that a text and a value of options ask for. -/
inductive DocumentOf (settings : Settings) : String → Json.Value → Json.Value → Prop
  | plain {text : String} {v base : Json.Value} {o : SearchOptions} :
    SearchOptions.decode v = .ok o → BaseDocument settings text o base → included v = none →
    DocumentOf settings text v
      (boostedDocument (filteredDocument base (candidateDocuments v none))
        ((o.clauses.scoreFunction? settings).map ScoreFunction.toMember))
  | including {text inner : String} {v w base nested : Json.Value} {o : SearchOptions} :
    SearchOptions.decode v = .ok o → BaseDocument settings text o base →
    included v = some (inner, w) → DocumentOf settings inner w nested →
    DocumentOf settings text v
      (boostedDocument (filteredDocument base (candidateDocuments v (some nested)))
        ((o.clauses.scoreFunction? settings).map ScoreFunction.toMember))

theorem filterDocuments_eq_map (filters : List FilterNode) :
    filterDocuments filters = filters.map FilterNode.toJson := by
  induction filters with
  | nil => rw [filterDocuments, List.map_nil]
  | cons filter rest ih => rw [filterDocuments, ih, List.map_cons]

theorem toJson_restrict_join (query : QueryNode) (candidates : List FilterNode) :
    (query.restrict (FilterNode.join candidates)).toJson =
      filteredDocument query.toJson (candidates.map FilterNode.toJson) := by
  match candidates with
  | [] => rfl
  | [filter] => simp only [FilterNode.join, QueryNode.restrict, QueryNode.toJson, List.map_cons,
      List.map_nil, filteredDocument]
  | first :: second :: rest =>
    simp only [FilterNode.join, QueryNode.restrict, QueryNode.toJson, FilterNode.toJson,
      filterDocuments_eq_map, List.map_cons, filteredDocument]

theorem toJson_score (query : QueryNode) (function : Option ScoreFunction) :
    (query.score function).toJson =
      boostedDocument query.toJson (function.map ScoreFunction.toMember) := by
  cases function with
  | none => rfl
  | some f => simp only [QueryNode.score, QueryNode.toJson, Option.map_some, boostedDocument]

theorem toJson_ofLeaf (path : List String) (leaf : Leaf) :
    (FilterNode.ofLeaf (dotted path, leaf)).toJson = leafDocument (path, leaf.toJson) := by
  cases leaf with
  | scalar value =>
    cases value <;> simp only [FilterNode.ofLeaf, FilterNode.toJson, Leaf.toJson, Scalar.toJson,
      leafDocument]
  | list values => simp only [FilterNode.ofLeaf, FilterNode.toJson, Leaf.toJson, leafDocument]

theorem baseDocument_of_base {settings : Settings} {text : String} {o : SearchOptions}
    {query : QueryNode} (h : o.clauses.base settings text = .ok query) :
    BaseDocument settings text o query.toJson := by
  refine ⟨⟨query, h, rfl⟩, ?_⟩
  cases base_cases h with
  | matchAll _ => exact ⟨"match_all", by decide, _, by rw [QueryNode.toJson]⟩
  | catchAll _ _ => exact ⟨"match", by decide, _, by rw [QueryNode.toJson]⟩
  | single _ _ => exact ⟨"match", by decide, _, by rw [QueryNode.toJson]⟩
  | multi _ _ => exact ⟨"multi_match", by decide, _, by rw [QueryNode.toJson]⟩

theorem leafPaths_cons (entry : String × Condition) (rest : ConditionTree) :
    leafPaths (entry :: rest) = leafPaths [entry] ++ leafPaths rest := by
  obtain ⟨key, condition⟩ := entry
  cases condition <;> simp [leafPaths]

theorem toJson_of_decodeScalar {path : String} {v : Json.Value} {s : Scalar}
    (h : decodeScalar path v = .ok s) : s.toJson = v := by
  unfold decodeScalar at h
  split at h
  · next hs =>
    cases h
    exact Scalar.toJson_of_ofJson? hs
  · cases h

/-- The leaves of a tree with their values as JSON. -/
def jsonLeaves (tree : ConditionTree) : List (List String × Json.Value) :=
  (leafPaths tree).map fun leaf => (leaf.1, leaf.2.toJson)

theorem jsonLeaves_scalar (key : String) (value : Scalar) :
    jsonLeaves [(key, .scalar value)] = [([key], value.toJson)] := by
  simp [jsonLeaves, leafPaths, Leaf.toJson]

theorem jsonLeaves_list (key : String) (values : List Scalar) :
    jsonLeaves [(key, .list values)] = [([key], .array (values.map Scalar.toJson))] := by
  simp [jsonLeaves, leafPaths, Leaf.toJson]

theorem jsonLeaves_tree (key : String) (entries : ConditionTree) :
    jsonLeaves [(key, .tree entries)] =
      (jsonLeaves entries).map fun leaf => (key :: leaf.1, leaf.2) := by
  simp [jsonLeaves, leafPaths]

mutual

/-- A decoded condition has the leaves of the value it comes from, with the values verbatim. -/
theorem jsonLeaves_of_decodeCondition {path : String} {v : Json.Value} {condition : Condition}
    (h : decodeCondition path v = .ok condition) (key : String) :
    jsonLeaves [(key, condition)] =
      (valueLeaves v).map fun leaf => (key :: leaf.1, leaf.2) := by
  cases v with
  | object members =>
    rw [decodeCondition] at h
    obtain ⟨tree, ht, h⟩ := bind_eq_ok_iff.mp h
    cases h
    rw [jsonLeaves_tree, jsonLeaves_of_decodeTree ht, valueLeaves]
  | array items =>
    rw [decodeCondition] at h
    obtain ⟨values, hv, h⟩ := bind_eq_ok_iff.mp h
    cases h
    have hi : values.map Scalar.toJson = items :=
      map_of_mapM (fun _ _ hx => toJson_of_decodeScalar hx) hv
    rw [jsonLeaves_list, hi, valueLeaves]
    · rfl
    · simp
  | _ =>
    rw [decodeCondition] at h
    · obtain ⟨value, hv, h⟩ := bind_eq_ok_iff.mp h
      cases h
      rw [jsonLeaves_scalar, toJson_of_decodeScalar hv, valueLeaves]
      · rfl
      · simp
    · simp
    · simp

/-- A decoded tree has the leaves of the members it comes from, in the order of the document. -/
theorem jsonLeaves_of_decodeTree {path : String} {members : List (String × Json.Value)}
    {tree : ConditionTree} (h : decodeTree path members = .ok tree) :
    jsonLeaves tree = memberLeaves members := by
  match members with
  | [] =>
    rw [decodeTree] at h
    cases h
    simp [jsonLeaves, leafPaths, memberLeaves]
  | (key, v) :: rest =>
    rw [decodeTree] at h
    obtain ⟨condition, hc, h⟩ := bind_eq_ok_iff.mp h
    obtain ⟨conditions, hr, h⟩ := bind_eq_ok_iff.mp h
    cases h
    have hsplit : jsonLeaves ((key, condition) :: conditions) =
        jsonLeaves [(key, condition)] ++ jsonLeaves conditions := by
      rw [jsonLeaves, leafPaths_cons, List.map_append]
      rfl
    rw [hsplit, jsonLeaves_of_decodeCondition hc, jsonLeaves_of_decodeTree hr, memberLeaves]

end

theorem jsonLeaves_of_decodeFrom {clause : Clause ConditionTree} {v : Json.Value}
    {tree : Option ConditionTree} (hc : clause.decode = decodeConditions clause.key)
    (h : clause.decodeFrom v = .ok tree) :
    jsonLeaves (tree.getD []) = conditionLeaves clause.key v := by
  unfold Clause.decodeFrom at h
  unfold conditionLeaves
  cases hn : lastNamed clause.key v.members with
  | none =>
    rw [hn] at h
    cases h
    simp [jsonLeaves, leafPaths]
  | some w =>
    rw [hn, hc] at h
    simp only [decodeConditions] at h
    split at h
    · cases h
      simp [jsonLeaves, leafPaths, Json.Value.members, memberLeaves]
    · obtain ⟨entries, he, h⟩ := bind_eq_ok_iff.mp h
      cases h
      exact jsonLeaves_of_decodeTree he
    · cases h

theorem toJson_conditionFilters (tree : Option ConditionTree) :
    (conditionFilters tree).map FilterNode.toJson =
      (jsonLeaves (tree.getD [])).map leafDocument := by
  simp only [conditionFilters, leaves?, leaves_eq_map, jsonLeaves, List.map_map]
  exact List.map_congr_left fun leaf _ => toJson_ofLeaf leaf.1 leaf.2

theorem toJson_filters {v : Json.Value} {o : SearchOptions} (h : SearchOptions.decode v = .ok o) :
    o.clauses.filters.map FilterNode.toJson =
      (conditionLeaves "only" v).map leafDocument ++
        (conditionLeaves "except" v).map fun leaf => .single "not" (leafDocument leaf) := by
  have ho : jsonLeaves (o.clauses.only.getD []) = conditionLeaves "only" v :=
    jsonLeaves_of_decodeFrom rfl (Clause.only.decodeFrom_eq h)
  have he : jsonLeaves (o.clauses.except.getD []) = conditionLeaves "except" v :=
    jsonLeaves_of_decodeFrom rfl (Clause.except.decodeFrom_eq h)
  have hnot : FilterNode.toJson ∘ FilterNode.not = Json.Value.single "not" ∘ FilterNode.toJson := by
    funext filter
    simp only [Function.comp_apply, FilterNode.toJson]
  rw [Clauses.filters, List.map_append, List.map_map, hnot, ← List.map_map,
    toJson_conditionFilters, toJson_conditionFilters, ho, he, List.map_map]
  rfl

theorem documentOf_of_compile {settings : Settings} {text : String} {v : Json.Value}
    {o : SearchOptions} {q : QueryNode} (hd : SearchOptions.decode v = .ok o)
    (hc : o.compile settings text = .ok q) : DocumentOf settings text v q.toJson := by
  induction o generalizing text v q with
  | plain c =>
    obtain ⟨base, candidates, hb, hk, rfl⟩ := compile_eq_ok hc
    cases hk
    have hf : c.filters.map FilterNode.toJson = candidateDocuments v none := by
      rw [candidateDocuments, Option.toList_none, List.map_nil, List.append_nil]
      exact toJson_filters hd
    rw [toJson_score, toJson_restrict_join, hf]
    exact .plain hd (baseDocument_of_base hb) (included_of_decode_plain hd)
  | including c text' inner ih =>
    obtain ⟨base, candidates, hb, hk, rfl⟩ := compile_eq_ok hc
    obtain ⟨nested, hn, rfl⟩ := candidates_including hk
    obtain ⟨w, hv, hw⟩ := included_of_decode_including hd
    have hq : (FilterNode.query nested).toJson = .single "query" nested.toJson := by
      rw [FilterNode.toJson]
    have hf : (c.filters ++ [FilterNode.query nested]).map FilterNode.toJson =
        candidateDocuments v (some nested.toJson) := by
      rw [candidateDocuments, Option.toList_some, List.map_append, List.map_singleton,
        List.map_singleton, hq]
      exact congrArg (· ++ _) (toJson_filters hd)
    rw [toJson_score, toJson_restrict_join, hf]
    exact .including hd (baseDocument_of_base hb) hv (ih hw hn)

theorem lastNamed_perm {members others : Entries Json.Value} (hn : members.keys.Nodup)
    (hp : others.Perm members) (key : String) : lastNamed key others = lastNamed key members := by
  have ho : others.keys.Nodup := (hp.map Prod.fst).nodup_iff.mpr hn
  apply Option.ext
  intro v
  rw [lastNamed_eq_some_iff ho, lastNamed_eq_some_iff hn, hp.mem_iff]

theorem candidateDocuments_perm {v : Json.Value} {others : Entries Json.Value}
    (hn : v.members.keys.Nodup) (hp : others.Perm v.members) (nested : Option Json.Value) :
    candidateDocuments (.object others) nested = candidateDocuments v nested := by
  have hl (key : String) : conditionLeaves key (.object others) = conditionLeaves key v := by
    unfold conditionLeaves
    rw [← lastNamed_perm hn hp key]
    rfl
  rw [candidateDocuments, hl, hl, candidateDocuments]

/-- A compiled document holds, under the envelopes that their number calls for, the filters of the
leaves of `only`, then those of `except` negated, then the document of the included text, which is
of the same form. The order of the members of the options does not bear on that. -/
theorem compiled_document {settings : Settings} {text : String} {v : Json.Value}
    {o : SearchOptions} {q : QueryNode} (hd : SearchOptions.decode v = .ok o)
    (hc : o.compile settings text = .ok q) :
    DocumentOf settings text v q.toJson ∧
      ∀ others : Entries Json.Value, v.members.keys.Nodup → others.Perm v.members →
        included (.object others) = included v ∧
          ∀ nested, candidateDocuments (.object others) nested = candidateDocuments v nested := by
  refine ⟨documentOf_of_compile hd hc, ?_⟩
  intro others hn hp
  refine ⟨?_, candidateDocuments_perm hn hp⟩
  exact congrArg (·.bind includedText) (lastNamed_perm hn hp "includes")

theorem compiled_document_tea :
    let members : Entries Json.Value :=
      [("includes", .array [.string "green", .single "only" (.single "id" (.string "g1"))]),
        ("except", .single "hidden" (.bool true)),
        ("only", .object
          [("maker", .single "id" (.string "m7")), ("none", .object []),
            ("tags", .array [.string "loose", .string "bag"])])]
    let o : SearchOptions :=
      .including
        { only := some
            [("maker", .tree [("id", .scalar (.string "m7"))]), ("none", .tree []),
              ("tags", .list [.string "loose", .string "bag"])]
          except := some [("hidden", .scalar (.bool true))] }
        "green" (.plain { only := some [("id", .scalar (.string "g1"))] })
    let q : QueryNode :=
      .filtered (.single "_all" "tea" [])
        (.and [.term "maker.id" (.string "m7"), .terms "tags" [.string "loose", .string "bag"],
          .not (.term "hidden" (.bool true)),
          .query (.filtered (.single "_all" "green" []) (.term "id" (.string "g1")))])
    SearchOptions.decode (.object members) = .ok o ∧ o.compile {} "tea" = .ok q ∧
      DocumentOf {} "tea" (.object members) q.toJson ∧
      included (.object members.reverse) = included (.object members) := by
  intro members o q
  have hd : SearchOptions.decode (.object members) = .ok o := by cbv
  have hc : o.compile {} "tea" = .ok q := by cbv
  have hn : members.keys.Nodup := by decide
  obtain ⟨hq, hp⟩ := compiled_document hd hc
  exact ⟨hd, hc, hq, (hp members.reverse hn (List.reverse_perm members)).1⟩

end SearchCompiler
