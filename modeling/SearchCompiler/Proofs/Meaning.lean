import SearchCompiler.Proofs.Leaves
import SearchCompiler.Proofs.Stages

/-!
What queries and options say about documents. An interpretation fixes the documents that the atoms
of a query hold of, and gives queries and filters their boolean meaning. Options have a meaning of
their own: the text is matched, every condition on the level holds or fails as asked, and the same
goes for the included text. Compiling keeps the meaning.
-/

universe u

namespace SearchCompiler

/-- The documents that the atoms of a query hold of. -/
structure Interpretation (Doc : Type u) where
  -- A field has a value.
  term : String → Scalar → Doc → Prop
  -- A field matches a text under options of the match.
  single : String → String → Entries Json.Value → Doc → Prop
  -- Several fields match a text.
  multi : List String → String → Doc → Prop

variable {Doc : Type u}

mutual

/-- A filter holds of a document. -/
def FilterNode.Holds (I : Interpretation Doc) (d : Doc) : FilterNode → Prop
  | .term field value => I.term field value d
  | .terms field values => ∃ value ∈ values, I.term field value d
  | .and filters => AllHold I d filters
  | .not filter => ¬ filter.Holds I d
  | .query query => query.Matches I d
  | .matchAll => True

/-- Several filters hold of a document. -/
def AllHold (I : Interpretation Doc) (d : Doc) : List FilterNode → Prop
  | [] => True
  | filter :: rest => filter.Holds I d ∧ AllHold I d rest

/-- A query matches a document. A score function does not bear on that. -/
def QueryNode.Matches (I : Interpretation Doc) (d : Doc) : QueryNode → Prop
  | .matchAll => True
  | .single field text options => I.single field text options d
  | .multi fields text => I.multi fields text d
  | .filtered query filter => query.Matches I d ∧ filter.Holds I d
  | .functionScore query _ => query.Matches I d

end

/-- A leaf condition on a field holds of a document. -/
def Leaf.Holds (I : Interpretation Doc) (d : Doc) (field : String) : Leaf → Prop
  | .scalar value => I.term field value d
  | .list values => ∃ value ∈ values, I.term field value d

/-- The fields of a scope. -/
def FieldScope.fields : FieldScope → List String
  | .single field => [field]
  | .multi fields => fields

/-- The text of a level matches a document: blank text always, other text in the catch-all field
without options of the match, in one field with them, or in several fields. -/
def Clauses.TextMatches (settings : Settings) (I : Interpretation Doc) (d : Doc) (text : String)
    (c : Clauses) : Prop :=
  Text.isBlank text = true ∨
    match c.on.map FieldScope.fields with
    | none => I.single settings.catchAllField text [] d
    | some [field] => I.single field text c.matchOptions d
    | some fields => I.multi fields text d

/-- A level selects a document: its text matches, every leaf of `only` holds and none of `except`
does. -/
structure Clauses.Selects (settings : Settings) (I : Interpretation Doc) (d : Doc) (text : String)
    (c : Clauses) : Prop where
  text_matches : c.TextMatches settings I d text
  only_holds : ∀ leaf ∈ leafPaths (c.only.getD []), leaf.2.Holds I d (dotted leaf.1)
  except_fails : ∀ leaf ∈ leafPaths (c.except.getD []), ¬ leaf.2.Holds I d (dotted leaf.1)

/-- Options select a document when every level of them does. -/
def SearchOptions.Selects (settings : Settings) (I : Interpretation Doc) (d : Doc)
    (text : String) : SearchOptions → Prop
  | .plain c => c.Selects settings I d text
  | .including c included inner =>
    c.Selects settings I d text ∧ inner.Selects settings I d included

variable (I : Interpretation Doc) (d : Doc)

theorem allHold_iff (filters : List FilterNode) :
    AllHold I d filters ↔ ∀ filter ∈ filters, filter.Holds I d := by
  induction filters with
  | nil => simp [AllHold]
  | cons filter rest ih => simp only [AllHold, ih, List.forall_mem_cons]

theorem matches_restrict_join (query : QueryNode) (candidates : List FilterNode) :
    (query.restrict (FilterNode.join candidates)).Matches I d ↔
      query.Matches I d ∧ ∀ filter ∈ candidates, filter.Holds I d := by
  match candidates with
  | [] => simp [FilterNode.join, QueryNode.restrict]
  | [filter] => simp [FilterNode.join, QueryNode.restrict, QueryNode.Matches]
  | first :: second :: rest =>
    simp only [FilterNode.join, QueryNode.restrict, QueryNode.Matches, FilterNode.Holds,
      allHold_iff]

theorem matches_score (query : QueryNode) (function : Option ScoreFunction) :
    (query.score function).Matches I d ↔ query.Matches I d := by
  cases function with
  | none => rfl
  | some f => simp only [QueryNode.score, QueryNode.Matches]

theorem holds_ofLeaf (field : String) (leaf : Leaf) :
    (FilterNode.ofLeaf (field, leaf)).Holds I d ↔ leaf.Holds I d field := by
  cases leaf with
  | scalar value => simp only [FilterNode.ofLeaf, FilterNode.Holds, Leaf.Holds]
  | list values => simp only [FilterNode.ofLeaf, FilterNode.Holds, Leaf.Holds]

theorem forall_conditionFilters (P : FilterNode → Prop) (tree : Option ConditionTree) :
    (∀ filter ∈ conditionFilters tree, P filter) ↔
      ∀ leaf ∈ leafPaths (tree.getD []), P (FilterNode.ofLeaf (dotted leaf.1, leaf.2)) := by
  simp only [conditionFilters, leaves?, leaves_eq_map, List.map_map, List.forall_mem_map,
    Function.comp_apply]

theorem forall_filters (c : Clauses) :
    (∀ filter ∈ c.filters, filter.Holds I d) ↔
      (∀ leaf ∈ leafPaths (c.only.getD []), leaf.2.Holds I d (dotted leaf.1)) ∧
        ∀ leaf ∈ leafPaths (c.except.getD []), ¬ leaf.2.Holds I d (dotted leaf.1) := by
  simp only [Clauses.filters, List.forall_mem_append, List.forall_mem_map,
    forall_conditionFilters, FilterNode.Holds, holds_ofLeaf]

theorem matches_base {settings : Settings} {text : String} {c : Clauses} {base : QueryNode}
    (h : c.base settings text = .ok base) :
    base.Matches I d ↔ c.TextMatches settings I d text := by
  unfold Clauses.TextMatches
  cases base_cases h with
  | matchAll hb => simp [QueryNode.Matches, hb]
  | catchAll hb ho => simp [QueryNode.Matches, hb, ho]
  | single hb ho =>
    rcases ho with ho | ho
    · simp [QueryNode.Matches, hb, ho, FieldScope.fields]
    · simp [QueryNode.Matches, hb, ho, FieldScope.fields]
  | multi hb ho => simp [QueryNode.Matches, hb, ho, FieldScope.fields]

/-- One level: its query matches when the level selects the document and the further candidates
hold. -/
theorem matches_level {settings : Settings} {text : String} {c : Clauses} {base : QueryNode}
    (h : c.base settings text = .ok base) (further : List FilterNode)
    (function : Option ScoreFunction) :
    ((base.restrict (FilterNode.join (c.filters ++ further))).score function).Matches I d ↔
      c.Selects settings I d text ∧ ∀ filter ∈ further, filter.Holds I d := by
  rw [matches_score, matches_restrict_join, matches_base I d h, List.forall_mem_append,
    forall_filters]
  constructor
  · rintro ⟨ht, ⟨ho, he⟩, hf⟩
    exact ⟨⟨ht, ho, he⟩, hf⟩
  · rintro ⟨⟨ht, ho, he⟩, hf⟩
    exact ⟨ht, ⟨ho, he⟩, hf⟩

/-- Compiling keeps the meaning: the query matches exactly the documents that the options select,
whatever the atoms mean. -/
theorem matches_iff_selects {settings : Settings} {text : String} {o : SearchOptions}
    {q : QueryNode} (h : o.compile settings text = .ok q) :
    q.Matches I d ↔ o.Selects settings I d text := by
  -- On the chain of levels: the included query is one more candidate of the level around it.
  induction o generalizing text q with
  | plain c =>
    obtain ⟨base, candidates, hb, hc, rfl⟩ := compile_eq_ok h
    cases hc
    have hl := matches_level I d hb [] (c.scoreFunction? settings)
    rw [List.append_nil] at hl
    exact hl.trans (and_iff_left (List.forall_mem_nil _))
  | including c included inner ih =>
    obtain ⟨base, candidates, hb, hc, rfl⟩ := compile_eq_ok h
    obtain ⟨nested, hn, rfl⟩ := candidates_including hc
    have hl := matches_level I d hb [.query nested] (c.scoreFunction? settings)
    rw [List.forall_mem_singleton, FilterNode.Holds, ih hn] at hl
    exact hl

/-- Documents as their fields with values, each matched by the text that it holds. -/
def fieldwise : Interpretation (List (String × Scalar)) where
  term field value d := (field, value) ∈ d
  single field text _ d := (field, .string text) ∈ d
  multi fields text d := ∃ field ∈ fields, (field, .string text) ∈ d

theorem matches_iff_selects_tea :
    let o : SearchOptions :=
      .including
        { on := some (.single "name")
          only := some [("maker", .tree [("id", .scalar (.string "m7"))])]
          except := some [("hidden", .scalar (.bool true))] }
        "green" (.plain { only := some [("tags", .list [.string "loose", .string "bag"])] })
    let q : QueryNode :=
      .filtered (.single "name" "tea" [])
        (.and [.term "maker.id" (.string "m7"), .not (.term "hidden" (.bool true)),
          .query (.filtered (.single "_all" "green" [])
            (.terms "tags" [.string "loose", .string "bag"]))])
    o.compile {} "tea" = .ok q ∧
      ∀ d, q.Matches fieldwise d ↔ o.Selects {} fieldwise d "tea" := by
  intro o q
  have h : o.compile {} "tea" = .ok q := by cbv
  exact ⟨h, fun d => matches_iff_selects fieldwise d h⟩

end SearchCompiler
