import SearchCompiler.Proofs.Meaning
import SearchCompiler.Proofs.NormalForm

/-!
Boosts that are present and the boost that is applied. Whether conditions count as present is asked
of their leaves, and the score function is made of filters that are built from them; so the first
option present always names the function that is applied, and where none is present none is applied.
-/

universe u

namespace SearchCompiler

/-- The documents that the atoms of a filter hold of. Membership need not have to do with equality
here, nor a query with either. -/
structure AtomMeaning (Doc : Type u) where
  -- A field has a value.
  term : String → Scalar → Doc → Prop
  -- A field has one of several values.
  terms : String → List Scalar → Doc → Prop
  -- A query matches.
  query : QueryNode → Doc → Prop

variable {Doc : Type u}

mutual

/-- A filter holds of a document under a meaning of its atoms. -/
def FilterNode.HoldsUnder (M : AtomMeaning Doc) (d : Doc) : FilterNode → Prop
  | .term field value => M.term field value d
  | .terms field values => M.terms field values d
  | .and filters => AllHoldUnder M d filters
  | .not filter => ¬ filter.HoldsUnder M d
  | .query query => M.query query d
  | .matchAll => True

def AllHoldUnder (M : AtomMeaning Doc) (d : Doc) : List FilterNode → Prop
  | [] => True
  | filter :: rest => filter.HoldsUnder M d ∧ AllHoldUnder M d rest

end

/-- A leaf condition on a field holds of a document under a meaning of the atoms. -/
def Leaf.HoldsUnder (M : AtomMeaning Doc) (d : Doc) (field : String) : Leaf → Prop
  | .scalar value => M.term field value d
  | .list values => M.terms field values d

/-- A score function is the one that a boosting option of a level asks for. A filter under which the
score is boosted means what the conditions of the level say, leaf by leaf, whatever the atoms mean.
-/
def BoostOption.Names (settings : Settings) (c : Clauses) : BoostOption → ScoreFunction → Prop
  | .boostBy, function =>
    ∃ field, c.boostBy = some field ∧ function = .fieldValue field settings.boostModifier
  | .boostFunction, function =>
    ∃ script, c.boostFunction = some script ∧ function = .script script.script script.params
  | .boostWhere, function =>
    ∃ tree filter, c.boostWhere = some tree ∧ function = .boost filter settings.boostFactor ∧
      ∀ (Doc : Type u) (M : AtomMeaning Doc) (d : Doc),
        filter.HoldsUnder M d ↔
          ∀ leaf ∈ leafPaths tree, leaf.2.HoldsUnder M d (dotted leaf.1)

section Filters

variable (M : AtomMeaning Doc) (d : Doc)

theorem allHoldUnder_iff (filters : List FilterNode) :
    AllHoldUnder M d filters ↔ ∀ filter ∈ filters, filter.HoldsUnder M d := by
  induction filters with
  | nil => simp [AllHoldUnder]
  | cons filter rest ih => simp only [AllHoldUnder, ih, List.forall_mem_cons]

theorem holdsUnder_of_join {filters : List FilterNode} {filter : FilterNode}
    (h : FilterNode.join filters = some filter) :
    filter.HoldsUnder M d ↔ ∀ candidate ∈ filters, candidate.HoldsUnder M d := by
  match filters with
  | [] => cases h
  | [only] =>
    cases h
    rw [List.forall_mem_singleton]
  | first :: second :: rest =>
    cases h
    rw [FilterNode.HoldsUnder, allHoldUnder_iff]

theorem holdsUnder_ofLeaf (field : String) (leaf : Leaf) :
    (FilterNode.ofLeaf (field, leaf)).HoldsUnder M d ↔ leaf.HoldsUnder M d field := by
  cases leaf with
  | scalar value => simp only [FilterNode.ofLeaf, FilterNode.HoldsUnder, Leaf.HoldsUnder]
  | list values => simp only [FilterNode.ofLeaf, FilterNode.HoldsUnder, Leaf.HoldsUnder]

/-- The filter of conditions means all their leaves. -/
theorem holdsUnder_conditions {tree : Option ConditionTree} {filter : FilterNode}
    (h : FilterNode.join (conditionFilters tree) = some filter) :
    filter.HoldsUnder M d ↔
      ∀ leaf ∈ leafPaths (tree.getD []), leaf.2.HoldsUnder M d (dotted leaf.1) := by
  rw [holdsUnder_of_join M d h, forall_conditionFilters]
  simp only [holdsUnder_ofLeaf]

end Filters

theorem leaves?_none : leaves? none = [] := by
  rw [leaves?, leaves, Option.getD_none, leavesUnder]

/-- Conditions with a leaf name the boost by their filter; without a leaf there is no filter. -/
theorem names_boostWhere (settings : Settings) (c : Clauses) :
    Option.Rel (BoostOption.Names.{u} settings c)
      (if (leaves? c.boostWhere).isEmpty then none else some .boostWhere)
      ((FilterNode.join (conditionFilters c.boostWhere)).map fun filter =>
        .boost filter settings.boostFactor) := by
  by_cases hl : leaves? c.boostWhere = []
  · have hc : conditionFilters c.boostWhere = [] := by rw [conditionFilters, hl, List.map_nil]
    rw [hl, hc]
    exact .none
  · rw [if_neg (fun he => hl (List.isEmpty_iff.mp he))]
    obtain ⟨tree, hw⟩ : ∃ tree, c.boostWhere = some tree := by
      apply Option.ne_none_iff_exists'.mp
      intro hw
      rw [hw] at hl
      exact hl leaves?_none
    cases hj : FilterNode.join (conditionFilters c.boostWhere) with
    | none => exact absurd (List.map_eq_nil_iff.mp (join_eq_none hj)) hl
    | some filter =>
      refine .some ⟨tree, filter, hw, rfl, fun Doc M d => ?_⟩
      have hm := holdsUnder_conditions M d hj
      rw [hw] at hm
      exact hm

/-- The first boosting option present names the score function, and none is there exactly if no
option is present. -/
theorem names_head_boosts (settings : Settings) (c : Clauses) :
    Option.Rel (BoostOption.Names.{u} settings c) c.boosts.head?
      (c.scoreFunction? settings) := by
  have hw := names_boostWhere.{u} settings c
  unfold Clauses.boosts Clauses.scoreFunction?
  -- In order of precedence: an option that is present hides those after it on both sides.
  cases hb : c.boostBy with
  | some field => exact .some ⟨field, hb, rfl⟩
  | none =>
    cases hs : c.boostFunction with
    | some script => exact .some ⟨script, hs, rfl⟩
    | none =>
      split at hw
      · next hl =>
        rw [if_pos hl]
        exact hw
      · next hl =>
        rw [if_neg hl]
        exact hw

/-- Presence and application agree. A query is kept as it is where no boosting option is present
and refused with all that are present where several are not allowed; otherwise exactly one score
function is put around it, the one that the first option present names. The options listed are those
present, in order of precedence. -/
theorem boost_follows_presence (settings : Settings) (c : Clauses) (query : QueryNode) :
    (if c.boosts = [] then c.boost settings query = .ok query
      else if 1 < c.boosts.length ∧ settings.boostPolicy = .reject then
        c.boost settings query = .error (.ambiguousBoost c.boosts)
      else
        ∃ first function, c.boosts.head? = some first ∧
          BoostOption.Names.{u} settings c first function ∧
          c.boost settings query = .ok (.functionScore query function)) ∧
    (c.boosts ≠ [] ↔ ∃ function, c.scoreFunction? settings = some function) ∧
    c.boosts.Sublist [.boostBy, .boostFunction, .boostWhere] ∧
    ∀ option, option ∈ c.boosts ↔ option.Present c := by
  refine and_assoc.mp ⟨?_, Clauses.boosts_sublist c, fun _ => Clauses.mem_boosts⟩
  have hn := names_head_boosts.{u} settings c
  rw [boost_eq]
  cases hp : c.boosts with
  | nil =>
    rw [hp] at hn
    cases hs : c.scoreFunction? settings with
    | none => simp [QueryNode.score]
    | some function =>
      rw [hs] at hn
      cases hn
  | cons first rest =>
    rw [hp] at hn
    cases hs : c.scoreFunction? settings with
    | none =>
      rw [hs] at hn
      cases hn
    | some function =>
      rw [hs] at hn
      obtain ⟨hf⟩ := hn
      constructor
      · rw [if_neg (List.cons_ne_nil first rest)]
        split
        · rfl
        · exact ⟨first, function, rfl, hf, rfl⟩
      · exact ⟨fun _ => ⟨function, rfl⟩, fun _ => List.cons_ne_nil first rest⟩

-- Conditions without a leaf are not there, and so refusing several boosts has nothing to refuse.
example :
    ({ boostBy := some "sales", boostWhere := some [("maker", .tree [])] } : Clauses).boost
        { boostPolicy := .reject } .matchAll =
      .ok (.functionScore .matchAll (.fieldValue "sales" "ln2p")) := by
  cbv

end SearchCompiler
