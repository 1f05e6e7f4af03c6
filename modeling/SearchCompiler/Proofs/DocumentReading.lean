import SearchCompiler.Proofs.Nodes
import SearchCompiler.Proofs.Stages
import SearchCompiler.Query.Document

/-!
Documents read back. Every shape that a query, a filter or a score function is written in tells the
node apart, so that a reader recovers the whole tree and no two trees share a document. The one
thing that can get lost is the text of a match, when an option of the match has the name of the
text.
-/

namespace SearchCompiler

/-- The text that a JSON value is, if it is one. -/
def Json.Value.string? : Json.Value → Option String
  | .string s => some s
  | _ => none

mutual

/-- The filter that a document is written from. -/
def FilterNode.ofJson? : Json.Value → Option FilterNode
  | .object [("term", .object [(field, value)])] => (Scalar.ofJson? value).map (.term field)
  | .object [("terms", .object [(field, .array values)])] =>
    (values.mapM Scalar.ofJson?).map (.terms field)
  | .object [("and", .array filters)] => (filtersOfJson? filters).map .and
  | .object [("not", filter)] => (FilterNode.ofJson? filter).map .not
  | .object [("query", query)] => (QueryNode.ofJson? query).map .query
  | .object [("match_all", .object [])] => some .matchAll
  | _ => none

def filtersOfJson? : List Json.Value → Option (List FilterNode)
  | [] => some []
  | filter :: rest => do return (← FilterNode.ofJson? filter) :: (← filtersOfJson? rest)

/-- The query that a document is written from. -/
def QueryNode.ofJson? : Json.Value → Option QueryNode
  | .object [("match_all", .object [])] => some .matchAll
  | .object [("match", .object [(field, .string text)])] => some (.single field text [])
  -- The text stands first, the options after it, and there is at least one.
  | .object [("match", .object [(field, .object (("query", .string text) :: option :: rest))])] =>
    some (.single field text (option :: rest))
  | .object [("multi_match", .object [("query", .string text), ("fields", .array fields)])] =>
    (fields.mapM Json.Value.string?).map fun fields => .multi fields text
  | .object [("filtered", .object [("query", query), ("filter", filter)])] => do
    return .filtered (← QueryNode.ofJson? query) (← FilterNode.ofJson? filter)
  | .object [("function_score", .object [("query", query), function])] => do
    return .functionScore (← QueryNode.ofJson? query) (← ScoreFunction.ofMember? function)
  | _ => none

/-- The score function that a member beside a query is written from. -/
def ScoreFunction.ofMember? : String × Json.Value → Option ScoreFunction
  | ("field_value_factor", .object [("field", .string field), ("modifier", .string modifier)]) =>
    some (.fieldValue field modifier)
  | ("script_score", .object [("script", .string script)]) => some (.script script none)
  | ("script_score", .object [("script", .string script), ("params", .object params)]) =>
    some (.script script (some params))
  | ("functions", .array [.object
      [("filter", filter), ("boost_factor", .number (.integer factor))]]) => do
    return .boost (← FilterNode.ofJson? filter) (UInt32.ofNat factor.toNat)
  | _ => none

end

theorem matchBody_of_nodup (text : String) {option : String × Json.Value}
    {rest : Entries Json.Value} (h : ("query" :: Entries.keys (option :: rest)).Nodup) :
    matchBody text (option :: rest) = .object (("query", .string text) :: option :: rest) := by
  have hall : Entries.insertAll [("query", .string text)] (option :: rest) =
      ("query", .string text) :: option :: rest := Entries.insertAll_of_nodup h
  rw [matchBody, hall]
  rfl

/-- The options of a match; no other node has any. -/
def Node.matchOptions : Node → Entries Json.Value
  | .query (.single _ _ options) => options
  | _ => []

/-- The options of a match stand each under a name of its own, as the entries of every map do, and
none of them has the name of the text. -/
def Node.Regular (node : Node) : Prop :=
  ("query" :: node.matchOptions.keys).Nodup

instance (node : Node) : Decidable node.Regular :=
  inferInstanceAs (Decidable (List.Nodup _))

/-- A query all of whose matches are regular, at any depth. -/
def QueryNode.Regular (query : QueryNode) : Prop :=
  ∀ node ∈ query.nodes, node.Regular

instance (query : QueryNode) : Decidable query.Regular :=
  inferInstanceAs (Decidable (∀ node ∈ query.nodes, node.Regular))

/-- A filter all of whose matches are regular, at any depth. -/
def FilterNode.Regular (filter : FilterNode) : Prop :=
  ∀ node ∈ filter.nodes, node.Regular

theorem ofJson?_single (field text : String) {options : Entries Json.Value}
    (h : ("query" :: options.keys).Nodup) :
    QueryNode.ofJson? (QueryNode.single field text options).toJson =
      some (.single field text options) := by
  cases options with
  | nil => rfl
  | cons option rest =>
    rw [QueryNode.toJson, matchBody_of_nodup text h]
    rfl

mutual

theorem FilterNode.ofJson?_toJson (filter : FilterNode) (h : ∀ node ∈ filter.nodes, node.Regular) :
    FilterNode.ofJson? filter.toJson = some filter := by
  cases filter with
  | term field value =>
    simp only [FilterNode.toJson, Json.Value.single, FilterNode.ofJson?, Scalar.ofJson?_toJson,
      Option.map_some]
  | terms field values =>
    have hv : (values.map Scalar.toJson).mapM Scalar.ofJson? = some values :=
      mapM_map_eq_pure Scalar.ofJson?_toJson values
    simp only [FilterNode.toJson, Json.Value.single, FilterNode.ofJson?, hv, Option.map_some]
  | and filters =>
    have hf := filtersOfJson?_filterDocuments filters
      fun node hn => h node (List.mem_cons_of_mem _ hn)
    simp only [FilterNode.toJson, Json.Value.single, FilterNode.ofJson?, hf, Option.map_some]
  | not inner =>
    have hi := FilterNode.ofJson?_toJson inner fun node hn => h node (List.mem_cons_of_mem _ hn)
    simp only [FilterNode.toJson, Json.Value.single, FilterNode.ofJson?, hi, Option.map_some]
  | query query =>
    have hq := QueryNode.ofJson?_toJson query fun node hn => h node (List.mem_cons_of_mem _ hn)
    simp only [FilterNode.toJson, Json.Value.single, FilterNode.ofJson?, hq, Option.map_some]
  | matchAll => rfl

theorem filtersOfJson?_filterDocuments (filters : List FilterNode)
    (h : ∀ node ∈ nodesOfAll filters, node.Regular) :
    filtersOfJson? (filterDocuments filters) = some filters := by
  cases filters with
  | nil => rfl
  | cons filter rest =>
    rw [nodesOfAll, List.forall_mem_append] at h
    rw [filterDocuments, filtersOfJson?, FilterNode.ofJson?_toJson filter h.1,
      filtersOfJson?_filterDocuments rest h.2]
    rfl

theorem QueryNode.ofJson?_toJson (query : QueryNode) (h : ∀ node ∈ query.nodes, node.Regular) :
    QueryNode.ofJson? query.toJson = some query := by
  cases query with
  | matchAll => rfl
  | single field text options => exact ofJson?_single field text (h _ List.mem_cons_self)
  | multi fields text =>
    have hs (s : String) : (Json.Value.string s).string? = some s := rfl
    have hf : (fields.map Json.Value.string).mapM Json.Value.string? = some fields :=
      mapM_map_eq_pure hs fields
    simp only [QueryNode.toJson, Json.Value.single, Json.Value.strings, QueryNode.ofJson?, hf,
      Option.map_some]
  | filtered query filter =>
    rw [QueryNode.nodes, List.forall_mem_cons, List.forall_mem_append] at h
    have hq := QueryNode.ofJson?_toJson query h.2.1
    have hf := FilterNode.ofJson?_toJson filter h.2.2
    simp only [QueryNode.toJson, Json.Value.single, QueryNode.ofJson?, hq, hf]
    rfl
  | functionScore query function =>
    rw [QueryNode.nodes, List.forall_mem_cons, List.forall_mem_append] at h
    have hf := ScoreFunction.ofMember?_toMember function h.2.1
    have hq := QueryNode.ofJson?_toJson query h.2.2
    simp only [QueryNode.toJson, Json.Value.single, QueryNode.ofJson?, hq, hf]
    rfl

theorem ScoreFunction.ofMember?_toMember (function : ScoreFunction)
    (h : ∀ node ∈ function.nodes, node.Regular) :
    ScoreFunction.ofMember? function.toMember = some function := by
  cases function with
  | fieldValue field modifier => rfl
  | script script params => cases params <;> rfl
  | boost filter factor =>
    have hf := FilterNode.ofJson?_toJson filter h
    simp only [ScoreFunction.toMember, ScoreFunction.ofMember?, hf, Int.toNat_natCast,
      UInt32.ofNat_toNat]
    rfl

end

/-- Nothing is lost in a document. A regular query or filter is read back from it, and so no two of
them have the same document. -/
theorem documents_read_back :
    (∀ query : QueryNode, query.Regular → QueryNode.ofJson? query.toJson = some query) ∧
      (∀ filter : FilterNode, filter.Regular →
        FilterNode.ofJson? filter.toJson = some filter) ∧
      (∀ p q : QueryNode, p.Regular → q.Regular → p.toJson = q.toJson → p = q) ∧
      ∀ f g : FilterNode, f.Regular → g.Regular → f.toJson = g.toJson → f = g := by
  refine ⟨QueryNode.ofJson?_toJson, FilterNode.ofJson?_toJson, ?_, ?_⟩
  · intro p q hp hq he
    have hr := QueryNode.ofJson?_toJson p hp
    rw [he, QueryNode.ofJson?_toJson q hq] at hr
    exact (Option.some.inj hr).symm
  · intro f g hf hg he
    have hr := FilterNode.ofJson?_toJson f hf
    rw [he, FilterNode.ofJson?_toJson g hg] at hr
    exact (Option.some.inj hr).symm

theorem documents_read_back_tea :
    let scored (params : Option (Entries Json.Value)) : FilterNode :=
      .query (.functionScore (.single "name" "green" []) (.script "score" params))
    let bare : QueryNode :=
      .filtered (.single "name" "tea" [("operator", .string "and")]) (scored (some []))
    let joined : QueryNode :=
      .filtered (.single "name" "tea" [("operator", .string "and")]) (.and [scored (some [])])
    let plain : QueryNode :=
      .filtered (.single "name" "tea" [("operator", .string "and")]) (scored none)
    bare.Regular ∧ joined.Regular ∧ plain.Regular ∧
      QueryNode.ofJson? bare.toJson = some bare ∧
      bare.toJson ≠ joined.toJson ∧ bare.toJson ≠ plain.toJson := by
  intro scored bare joined plain
  have hb : bare.Regular := by decide
  have hj : joined.Regular := by decide
  have hp : plain.Regular := by decide
  have hbj : bare ≠ joined := by simp [bare, joined, scored]
  have hbp : bare ≠ plain := by simp [bare, plain, scored]
  have hinj := documents_read_back.2.2.1
  exact ⟨hb, hj, hp, documents_read_back.1 bare hb, fun he => hbj (hinj bare joined hb hj he),
    fun he => hbp (hinj bare plain hb hp he)⟩

end SearchCompiler
