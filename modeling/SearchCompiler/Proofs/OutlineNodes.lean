import SearchCompiler.Proofs.NormalForm
import SearchCompiler.Proofs.OneLineTexts

/-!
The outline of a query against its nodes. A node has a line that says what it is and children below
it, each some levels further in, and an outline goes over the nodes in this order. A line holds no
line feed but those of a modifier, which is the one text that a line shows as it is.
-/

namespace SearchCompiler

/-- The sort of a node as its line names it. -/
def Node.lead : Node → String
  | .filter (.term _ _) => "Term("
  | .filter (.terms _ _) => "Terms("
  | .filter (.and _) => "And"
  | .filter (.not _) => "Not"
  | .filter (.query _) => "Query"
  | .filter .matchAll => "MatchAll"
  | .query .matchAll => "MatchAll"
  | .query (.single _ _ _) => "Match("
  | .query (.multi _ _) => "MultiMatch("
  | .query (.filtered _ _) => "Filtered"
  | .query (.functionScore _ (.fieldValue _ _)) => "FunctionScore(field "
  | .query (.functionScore _ (.script _ _)) => "FunctionScore(script "
  | .query (.functionScore _ (.boost _ _)) => "FunctionScore(boost x"

/-- What the line of a node says about it, up to the end of the line. -/
def Node.details : Node → String
  | .filter (.term field value) => Text.quoted field ++ " = " ++ value.toJson.compact ++ ")"
  | .filter (.terms field values) =>
    Text.quoted field ++ " in " ++ (Json.Value.array (values.map Scalar.toJson)).compact ++ ")"
  | .query (.single field text options) =>
    Text.quoted field ++ ": " ++ Text.quoted text ++
      if options.isEmpty then ")" else ", " ++ (Json.Value.object options).compact ++ ")"
  | .query (.multi fields text) => Text.quotedList fields ++ ": " ++ Text.quoted text ++ ")"
  | .query (.functionScore _ (.fieldValue field modifier)) =>
    Text.quoted field ++ ", " ++ modifier ++ ")"
  | .query (.functionScore _ (.script script _)) => Text.quoted script ++ ")"
  | .query (.functionScore _ (.boost _ factor)) => toString factor ++ " where)"
  | _ => ""

/-- The line of a node, without its indentation. -/
def Node.label (node : Node) : String :=
  node.lead ++ node.details

/-- The nodes directly below a node, in order, each with the number of levels that it stands below
it: two for the filter that a score is boosted under and one for any other. -/
def Node.children : Node → List (Nat × Node)
  | .filter (.and filters) => filters.map fun f => (1, .filter f)
  | .filter (.not f) => [(1, .filter f)]
  | .filter (.query q) => [(1, .query q)]
  | .query (.filtered q f) => [(1, .query q), (1, .filter f)]
  | .query (.functionScore q (.boost f _)) => [(2, .filter f), (1, .query q)]
  | .query (.functionScore q _) => [(1, .query q)]
  | _ => []

theorem Node.sizeOf_lt_of_mem_children {node : Node} {child : Nat × Node}
    (h : child ∈ node.children) : sizeOf child.2 < sizeOf node := by
  unfold Node.children at h
  split at h
  · next filters =>
    obtain ⟨f, hf, rfl⟩ := List.mem_map.mp h
    have hlt := List.sizeOf_lt_of_mem hf
    simp only [Node.filter.sizeOf_spec, FilterNode.and.sizeOf_spec]
    omega
  · next f =>
    cases List.mem_singleton.mp h
    simp only [Node.filter.sizeOf_spec, FilterNode.not.sizeOf_spec]
    omega
  · next q =>
    cases List.mem_singleton.mp h
    simp only [Node.filter.sizeOf_spec, Node.query.sizeOf_spec, FilterNode.query.sizeOf_spec]
    omega
  · next q f =>
    simp only [List.mem_cons, List.not_mem_nil, or_false] at h
    rcases h with rfl | rfl
    · simp only [Node.query.sizeOf_spec, QueryNode.filtered.sizeOf_spec]
      omega
    · simp only [Node.filter.sizeOf_spec, Node.query.sizeOf_spec, QueryNode.filtered.sizeOf_spec]
      omega
  · next q f factor =>
    simp only [List.mem_cons, List.not_mem_nil, or_false] at h
    rcases h with rfl | rfl
    · simp only [Node.filter.sizeOf_spec, Node.query.sizeOf_spec,
        QueryNode.functionScore.sizeOf_spec, ScoreFunction.boost.sizeOf_spec]
      omega
    · simp only [Node.query.sizeOf_spec, QueryNode.functionScore.sizeOf_spec]
      omega
  · next q function _ =>
    cases List.mem_singleton.mp h
    simp only [Node.query.sizeOf_spec, QueryNode.functionScore.sizeOf_spec]
    omega
  · cases h

/-- The nodes from a node on down, parents first, each with its level. -/
def Node.placed (level : Nat) (node : Node) : List (Nat × Node) :=
  (level, node) :: node.children.attach.flatMap fun child =>
    child.1.2.placed (level + child.1.1)
termination_by sizeOf node
decreasing_by exact Node.sizeOf_lt_of_mem_children child.2

theorem Node.placed_eq (level : Nat) (node : Node) :
    node.placed level =
      (level, node) :: node.children.flatMap fun child => child.2.placed (level + child.1) := by
  have hall : (node.children.attach.map fun child => child.1.2.placed (level + child.1.1)) =
      node.children.map fun child => child.2.placed (level + child.1) :=
    List.attach_map_val (f := fun child : Nat × Node => child.2.placed (level + child.1))
  rw [Node.placed, List.flatMap_def, hall, List.flatMap_def]

/-- What goes over a node first and then over its children in order, each from its level, goes over
the nodes as they are placed. -/
theorem Node.eq_map_placed {β : Type} (visit : Nat → Node → List β) (one : Nat × Node → β)
    (hvisit : ∀ level node, visit level node =
      one (level, node) :: node.children.flatMap fun child => visit (level + child.1) child.2)
    (level : Nat) (node : Node) : visit level node = (node.placed level).map one := by
  have hchildren : ∀ child ∈ node.children,
      visit (level + child.1) child.2 = (child.2.placed (level + child.1)).map one :=
    fun child _ => Node.eq_map_placed visit one hvisit (level + child.1) child.2
  rw [hvisit, Node.placed_eq, List.map_cons, List.map_flatMap, List.flatMap_def, List.flatMap_def,
    List.map_congr_left hchildren]
termination_by sizeOf node
decreasing_by exact Node.sizeOf_lt_of_mem_children ‹_›

/-- All nodes from a node on down. -/
def Node.nodes : Node → List Node
  | .filter f => f.nodes
  | .query q => q.nodes

/-- The outline of a node from a level on. -/
def Node.outline (level : Nat) : Node → List OutlineLine
  | .filter f => f.outline level
  | .query q => q.outline level

theorem outlines_eq_flatMap (level : Nat) (filters : List FilterNode) :
    outlines level filters = filters.flatMap (FilterNode.outline level) := by
  induction filters with
  | nil => rw [outlines, List.flatMap_nil]
  | cons filter rest ih => rw [outlines, ih, List.flatMap_cons]

theorem Node.nodes_eq (node : Node) :
    node.nodes = node :: node.children.flatMap fun child => child.2.nodes := by
  match node with
  | .filter (.term _ _) | .filter (.terms _ _) | .filter .matchAll => rfl
  | .filter (.and filters) =>
    rw [Node.nodes, FilterNode.nodes, nodesOfAll_eq_flatMap, Node.children, List.flatMap_map]
    rfl
  | .filter (.not f) => simp [Node.nodes, FilterNode.nodes, Node.children]
  | .filter (.query q) => simp [Node.nodes, FilterNode.nodes, Node.children]
  | .query .matchAll | .query (.single _ _ _) | .query (.multi _ _) => rfl
  | .query (.filtered q f) => simp [Node.nodes, QueryNode.nodes, Node.children]
  | .query (.functionScore q function) =>
    cases function <;> simp [Node.nodes, QueryNode.nodes, ScoreFunction.nodes, Node.children]

theorem Node.outline_eq (level : Nat) (node : Node) :
    node.outline level =
      (level, node.label) :: node.children.flatMap fun child =>
        child.2.outline (level + child.1) := by
  match node with
  | .filter (.term field value) =>
    simp [Node.outline, FilterNode.outline, Node.children, Node.label, Node.lead, Node.details,
      String.append_assoc]
  | .filter (.terms field values) =>
    simp [Node.outline, FilterNode.outline, termsLine, Node.children, Node.label, Node.lead,
      Node.details, String.append_assoc]
  | .filter .matchAll => rfl
  | .filter (.and filters) =>
    rw [Node.outline, FilterNode.outline, outlines_eq_flatMap, Node.children, List.flatMap_map]
    rfl
  | .filter (.not f) =>
    simp [Node.outline, FilterNode.outline, Node.children, Node.label, Node.lead, Node.details]
  | .filter (.query q) =>
    simp [Node.outline, FilterNode.outline, Node.children, Node.label, Node.lead, Node.details]
  | .query .matchAll => rfl
  | .query (.single field text options) =>
    cases options <;>
      simp [Node.outline, QueryNode.outline, singleLine, Node.children, Node.label, Node.lead,
        Node.details, String.append_assoc]
  | .query (.multi fields text) =>
    simp [Node.outline, QueryNode.outline, Node.children, Node.label, Node.lead, Node.details,
      String.append_assoc]
  | .query (.filtered q f) =>
    simp [Node.outline, QueryNode.outline, Node.children, Node.label, Node.lead, Node.details]
  | .query (.functionScore q function) =>
    cases function <;>
      simp [Node.outline, QueryNode.outline, ScoreFunction.outline, Node.children, Node.label,
        Node.lead, Node.details, String.append_assoc]

/-- The line of a node at its level, after two blanks for every level. -/
def placedLine (place : Nat × Node) : String :=
  String.ofList (List.replicate (2 * place.1) ' ') ++ place.2.label ++ "\n"

theorem Node.map_snd_placed (level : Nat) (node : Node) :
    (node.placed level).map Prod.snd = node.nodes :=
  (Node.eq_map_placed (fun _ node => node.nodes) Prod.snd (fun _ node => node.nodes_eq) level
    node).symm

theorem Node.outline_eq_map_placed (level : Nat) (node : Node) :
    node.outline level = (node.placed level).map fun place => (place.1, place.2.label) :=
  Node.eq_map_placed Node.outline _ Node.outline_eq level node

theorem Node.outlineText_eq (node : Node) :
    outlineText (node.outline 0) = String.join ((node.placed 0).map placedLine) := by
  rw [Node.outline_eq_map_placed, outlineText, List.map_map]
  rfl

section Labels

/-- The modifier that the line of a node shows, if it shows one. -/
def Node.modifier? : Node → Option String
  | .query (.functionScore _ (.fieldValue _ modifier)) => some modifier
  | _ => none

theorem Node.oneLine_lead (node : Node) : Text.OneLine node.lead := by
  unfold Node.lead
  split <;> decide

theorem Node.oneLine_details {node : Node} (h : node.modifier? = none) :
    Text.OneLine node.details := by
  unfold Node.details
  split
  · simp +decide
  · simp +decide
  · next options =>
    cases options <;> simp +decide
  · simp +decide
  · cases h
  · simp +decide
  · next factor =>
    have hfactor : Text.OneLine (toString factor) := Json.oneLine_toString_nat factor.toNat
    simp +decide [hfactor]
  · decide

/-- The line feeds in a line are those of the modifier that it shows. -/
theorem Node.count_label (node : Node) :
    node.label.toList.count '\n' = (node.modifier?.getD "").toList.count '\n' := by
  have hlead := Text.count_feed_of_oneLine node.oneLine_lead
  have hlabel : node.label.toList.count '\n' = node.details.toList.count '\n' := by
    rw [Node.label, String.toList_append, List.count_append, hlead, Nat.zero_add]
  rw [hlabel]
  cases hm : node.modifier? with
  | none => exact Text.count_feed_of_oneLine (Node.oneLine_details hm)
  | some modifier =>
    unfold Node.modifier? at hm
    split at hm
    · next q field _ =>
      cases hm
      have hfield := Text.count_feed_of_oneLine (Text.oneLine_quoted field)
      simp [Node.details, hfield]
    · cases hm

theorem Node.oneLine_label_iff {node : Node} :
    Text.OneLine node.label ↔ ∀ modifier ∈ node.modifier?, Text.OneLine modifier := by
  simp only [Text.OneLine, ← List.count_eq_zero, Node.count_label]
  cases node.modifier? with
  | none => simp
  | some modifier => simp

/-- A line is not indented by itself. -/
theorem Node.exists_head_label (node : Node) :
    ∃ first rest, node.label.toList = first :: rest ∧ first ≠ ' ' := by
  obtain ⟨first, rest, hlead, hfirst⟩ :
      ∃ first rest, node.lead.toList = first :: rest ∧ first ≠ ' ' := by
    unfold Node.lead
    split <;> exact ⟨_, _, rfl, by decide⟩
  refine ⟨first, rest ++ node.details.toList, ?_, hfirst⟩
  rw [Node.label, String.toList_append, hlead, List.cons_append]

end Labels

section Counting

theorem oneLine_indentation (depth : Nat) : Text.OneLine (Json.indentation depth) := by
  rw [Json.indentation, Text.oneLine_ofList]
  intro h
  exact absurd (List.eq_of_mem_replicate h) (by decide)

theorem count_placedLine (place : Nat × Node) :
    (placedLine place).toList.count '\n' = (place.2.modifier?.getD "").toList.count '\n' + 1 := by
  have hindentation := Text.count_feed_of_oneLine (oneLine_indentation place.1)
  rw [Json.indentation] at hindentation
  rw [placedLine, String.toList_append, String.toList_append, List.count_append, List.count_append,
    hindentation, Node.count_label, Nat.zero_add]
  rfl

theorem count_placedLines (places : List (Nat × Node)) :
    (String.join (places.map placedLine)).toList.count '\n' =
      places.length +
        (String.join ((places.map Prod.snd).filterMap Node.modifier?)).toList.count '\n' := by
  induction places with
  | nil => rfl
  | cons place rest ih =>
    rw [List.map_cons, String.join_cons, String.toList_append, List.count_append, ih,
      count_placedLine, List.map_cons, List.length_cons]
    cases hm : place.2.modifier? with
    | none =>
      rw [List.filterMap_cons_none hm, Option.getD_none, String.toList_empty, List.count_nil]
      omega
    | some modifier =>
      rw [List.filterMap_cons_some hm, Option.getD_some, String.join_cons, String.toList_append,
        List.count_append]
      omega

/-- An outline has a line feed for every node and those of the modifiers that it shows. -/
theorem count_outline (node : Node) :
    (outlineText (node.outline 0)).toList.count '\n' =
      node.nodes.length +
        (String.join (node.nodes.filterMap Node.modifier?)).toList.count '\n' := by
  rw [Node.outlineText_eq, count_placedLines, ← Node.map_snd_placed 0, List.length_map]

theorem count_join_replicate (n : Nat) (s : String) :
    (String.join (List.replicate n s)).toList.count '\n' = n * s.toList.count '\n' := by
  induction n with
  | zero => simp
  | succ n ih =>
    rw [List.replicate_succ, String.join_cons, String.toList_append, List.count_append, ih,
      Nat.succ_mul, Nat.add_comm]

end Counting

section Modifiers

/-- The only modifier that a node shows, if it shows one, is that of the settings. -/
def Node.ModifiedBy (settings : Settings) (node : Node) : Prop :=
  ∀ modifier ∈ node.modifier?, modifier = settings.boostModifier

variable {settings : Settings}

theorem modifiedBy_of_none {node : Node} (h : node.modifier? = none) :
    node.ModifiedBy settings := by
  rw [Node.ModifiedBy, h]
  exact fun _ hm => absurd hm (Option.not_mem_none _)

theorem modifiedBy_join {filters : List FilterNode} {filter : FilterNode}
    (hj : FilterNode.join filters = some filter)
    (h : ∀ f ∈ filters, ∀ node ∈ f.nodes, node.ModifiedBy settings) :
    ∀ node ∈ filter.nodes, node.ModifiedBy settings := by
  cases joins_of_join hj with
  | one => exact h filter (List.mem_singleton.mpr rfl)
  | several _ =>
    rw [FilterNode.nodes, nodesOfAll_eq_flatMap, List.forall_mem_cons]
    refine ⟨modifiedBy_of_none rfl, ?_⟩
    intro node hn
    obtain ⟨f, hm, hn⟩ := List.mem_flatMap.mp hn
    exact h f hm node hn

theorem modifiedBy_conditionFilters (tree : Option ConditionTree) :
    ∀ f ∈ conditionFilters tree, ∀ node ∈ f.nodes, node.ModifiedBy settings := by
  intro f hf
  cases isLeaf_of_mem_conditionFilters tree f hf <;>
    exact List.forall_mem_singleton.mpr (modifiedBy_of_none rfl)

theorem modifiedBy_filters (c : Clauses) :
    ∀ f ∈ c.filters, ∀ node ∈ f.nodes, node.ModifiedBy settings := by
  rw [Clauses.filters, List.forall_mem_append, List.forall_mem_map]
  refine ⟨modifiedBy_conditionFilters c.only, fun f hf => ?_⟩
  rw [FilterNode.nodes, List.forall_mem_cons]
  exact ⟨modifiedBy_of_none rfl, modifiedBy_conditionFilters c.except f hf⟩

theorem modifiedBy_restrict {base : QueryNode} {candidates : List FilterNode}
    (hb : ∀ node ∈ base.nodes, node.ModifiedBy settings)
    (hc : ∀ f ∈ candidates, ∀ node ∈ f.nodes, node.ModifiedBy settings) :
    ∀ node ∈ (base.restrict (FilterNode.join candidates)).nodes, node.ModifiedBy settings := by
  cases hj : FilterNode.join candidates with
  | none => exact hb
  | some filter =>
    rw [QueryNode.restrict, QueryNode.nodes, List.forall_mem_cons, List.forall_mem_append]
    exact ⟨modifiedBy_of_none rfl, hb, modifiedBy_join hj hc⟩

theorem modifiedBy_score {c : Clauses} {query : QueryNode}
    (h : ∀ node ∈ query.nodes, node.ModifiedBy settings) :
    ∀ node ∈ (query.score (c.scoreFunction? settings)).nodes, node.ModifiedBy settings := by
  cases hs : c.scoreFunction? settings with
  | none => exact h
  | some function =>
    rw [QueryNode.score, QueryNode.nodes, List.forall_mem_cons, List.forall_mem_append]
    unfold Clauses.scoreFunction? at hs
    split at hs
    · cases hs
      refine ⟨?_, by rw [ScoreFunction.nodes]; exact List.forall_mem_nil _, h⟩
      rintro modifier hm
      cases hm
      rfl
    · cases hs
      exact ⟨modifiedBy_of_none rfl, by rw [ScoreFunction.nodes]; exact List.forall_mem_nil _, h⟩
    · obtain ⟨filter, hj, rfl⟩ := Option.map_eq_some_iff.mp hs
      rw [ScoreFunction.nodes]
      exact ⟨modifiedBy_of_none rfl,
        modifiedBy_join hj (modifiedBy_conditionFilters c.boostWhere), h⟩

/-- A compiled query shows no modifier but that of the settings, at any depth. -/
theorem modifiedBy_of_compile {text : String} {o : SearchOptions} {q : QueryNode}
    (h : o.compile settings text = .ok q) : ∀ node ∈ q.nodes, node.ModifiedBy settings := by
  have hbase {text : String} {base : QueryNode} (hb : BaseOf text base) :
      ∀ node ∈ base.nodes, node.ModifiedBy settings := by
    cases hb <;> rw [QueryNode.nodes] <;>
      exact List.forall_mem_singleton.mpr (modifiedBy_of_none rfl)
  induction o generalizing text q with
  | plain c =>
    obtain ⟨base, candidates, hb, hc, rfl⟩ := compile_eq_ok h
    cases hc
    exact modifiedBy_score (modifiedBy_restrict (hbase (baseOf_of_base hb)) (modifiedBy_filters c))
  | including c included inner ih =>
    obtain ⟨base, candidates, hb, hc, rfl⟩ := compile_eq_ok h
    obtain ⟨nested, hn, rfl⟩ := candidates_including hc
    apply modifiedBy_score
    apply modifiedBy_restrict (hbase (baseOf_of_base hb))
    rw [List.forall_mem_append, List.forall_mem_singleton, FilterNode.nodes, List.forall_mem_cons]
    exact ⟨modifiedBy_filters c, modifiedBy_of_none rfl, ih hn⟩

theorem filterMap_modifier? {nodes : List Node}
    (h : ∀ node ∈ nodes, node.ModifiedBy settings) :
    nodes.filterMap Node.modifier? =
      List.replicate (nodes.filterMap Node.modifier?).length settings.boostModifier := by
  apply List.eq_replicate_of_mem
  intro modifier hm
  obtain ⟨node, hn, he⟩ := List.mem_filterMap.mp hm
  exact h node hn modifier he

end Modifiers

/-- The outline of a compiled query has a line for every node, parents first, with two spaces for
every level that the node stands below the root, and nothing else. A line holds a line feed only if
it shows a modifier that has one, so the line feeds are as many as the nodes and, for every node
that shows the modifier of the settings, as many more as this has. -/
theorem outline_of_compiled {settings : Settings} {text : String} {o : SearchOptions}
    {q : QueryNode} (h : o.compile settings text = .ok q) :
    q.display = String.join (((Node.query q).placed 0).map placedLine) ∧
      ((Node.query q).placed 0).map Prod.snd = q.nodes ∧
      (∀ node ∈ q.nodes,
        (∃ first rest, node.label.toList = first :: rest ∧ first ≠ ' ') ∧
          (Text.OneLine node.label ↔
            (node.modifier?.isSome → Text.OneLine settings.boostModifier))) ∧
      q.display.toList.count '\n' =
        q.nodes.length +
          (q.nodes.filterMap Node.modifier?).length * settings.boostModifier.toList.count '\n' := by
  have hmodifiers := modifiedBy_of_compile h
  refine ⟨(Node.query q).outlineText_eq, (Node.query q).map_snd_placed 0, ?_, ?_⟩
  · intro node hn
    refine ⟨node.exists_head_label, ?_⟩
    rw [Node.oneLine_label_iff]
    cases hm : node.modifier? with
    | none => exact iff_of_true nofun nofun
    | some modifier =>
      rw [hmodifiers node hn modifier hm]
      simp
  · have hcount : q.display.toList.count '\n' = _ := count_outline (.query q)
    rw [hcount, Node.nodes, filterMap_modifier? hmodifiers, count_join_replicate,
      List.length_replicate]

theorem outline_of_compiled_tea :
    let o : SearchOptions :=
      .including
        { only := some [("maker\n", .scalar (.string "m\n7")), ("tags", .list [.string "\n"])]
          boostWhere := some [("new", .scalar (.bool true))] }
        "\n7" (.plain { boostBy := some "rank\n" })
    let q : QueryNode :=
      .functionScore
        (.filtered (.single "_all" "tea" [])
          (.and [.term "maker\n" (.string "m\n7"), .terms "tags" [.string "\n"],
            .query (.functionScore (.single "_all" "\n7" [])
              (.fieldValue "rank\n" "ln2p"))]))
        (.boost (.term "new" (.bool true)) 1000)
    o.compile {} "tea" = .ok q ∧ q.nodes.length = 10 ∧
      q.display = String.join (((Node.query q).placed 0).map placedLine) ∧
      q.display.toList.count '\n' = 10 := by
  intro o q
  have h : o.compile {} "tea" = .ok q := by cbv
  have ho := outline_of_compiled h
  have hn : q.nodes.length = 10 := by rfl
  have hm : (q.nodes.filterMap Node.modifier?).length * "ln2p".toList.count '\n' = 0 := by decide
  have hcount := ho.2.2.2
  rw [hn] at hcount
  exact ⟨h, hn, ho.1, hcount.trans (congrArg (10 + ·) hm)⟩

/-- The lines of an outline are not always as many as its nodes: the modifier of the settings is
shown as it is, with the line feeds in it. -/
theorem outline_broken_by_modifier :
    ¬ ∀ (settings : Settings) (text : String) (o : SearchOptions) (q : QueryNode),
      o.compile settings text = .ok q → q.display.toList.count '\n' = q.nodes.length := by
  intro h
  let settings : Settings := { boostModifier := "ln\n2p" }
  let o : SearchOptions := .plain { boostBy := some "rank" }
  let q : QueryNode := .functionScore (.single "_all" "tea" []) (.fieldValue "rank" "ln\n2p")
  have hc : o.compile settings "tea" = .ok q := by cbv
  have hfeeds : q.display.toList.count '\n' = 3 := (count_outline (.query q)).trans (by decide)
  have hnodes : q.nodes.length = 2 := by rfl
  have heq : 3 = 2 := hfeeds.symm.trans ((h settings "tea" o q hc).trans hnodes)
  exact absurd heq (by decide)

end SearchCompiler
