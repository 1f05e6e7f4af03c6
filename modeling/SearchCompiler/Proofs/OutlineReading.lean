import SearchCompiler.Proofs.DelimitedTexts
import SearchCompiler.Proofs.OutlineNodes
import SearchCompiler.Proofs.TextLines

/-!
The query that an outline shows. The lines of an outline are told apart at its line feeds, a line
tells what its node says, and the levels of the lines tell what stands below a node: it ends at the
first line that is not further in than the node. All that an outline leaves out are the parameters
of scripts.
-/

namespace SearchCompiler

section Lines

/-- A line that can be told from those around it and from its indentation. -/
structure Separate (line : String) : Prop where
  oneLine : Text.OneLine line
  no_return : line.toList.getLast? ≠ some '\r'
  head : ∃ c rest, line.toList = c :: rest ∧ c ≠ ' '

theorem Separate.indented {line : String} (h : Separate line) (level : Nat) :
    Text.OneLine (Json.indentation level ++ line) ∧
      (Json.indentation level ++ line).toList.getLast? ≠ some '\r' := by
  constructor
  · rw [Text.oneLine_append]
    exact ⟨oneLine_indentation level, h.oneLine⟩
  · have hlast : (Json.indentation level ++ line).toList.getLast? = line.toList.getLast? := by
      obtain ⟨c, rest, hline, -⟩ := h.head
      rw [String.toList_append, List.getLast?_append, hline, List.getLast?_cons, Option.some_or]
    rw [hlast]
    exact h.no_return

theorem lines_outlineText {outline : List OutlineLine}
    (h : ∀ line ∈ outline, Separate line.2) :
    Text.lines (outlineText outline) =
      outline.map fun line => Json.indentation line.1 ++ line.2 := by
  have htext : outlineText outline =
      textOfLines (outline.map fun line => Json.indentation line.1 ++ line.2) := by
    rw [outlineText, textOfLines, List.map_map]
    rfl
  rw [htext]
  apply Text.lines_textOfLines
  intro shown hshown
  obtain ⟨line, hline, rfl⟩ := List.mem_map.mp hshown
  exact (h line hline).indented line.1

theorem eq_of_indented {m n : Nat} {s t : String} (hs : Separate s) (ht : Separate t)
    (h : Json.indentation m ++ s = Json.indentation n ++ t) : m = n ∧ s = t := by
  have hrun (level : Nat) {line : String} (hline : Separate line) :
      (Json.indentation level ++ line).toList.takeWhile (· = ' ') =
        List.replicate (2 * level) ' ' := by
    obtain ⟨c, rest, hc, hne⟩ := hline.head
    have hblanks : (List.replicate (2 * level) ' ').all (· = ' ') = true := by simp
    rw [String.toList_append, Json.indentation, String.toList_ofList, hc]
    exact (Text.run_append hblanks (decide_eq_false hne) rest).1
  have hlength := congrArg List.length (hrun m hs)
  rw [h, hrun n ht, List.length_replicate, List.length_replicate] at hlength
  have hmn : m = n := by omega
  subst hmn
  have hchars := congrArg String.toList h
  rw [String.toList_append, String.toList_append] at hchars
  exact ⟨rfl, String.toList_inj.mp (List.append_cancel_left hchars)⟩

theorem eq_of_lines {a b : List OutlineLine} (ha : ∀ line ∈ a, Separate line.2)
    (hb : ∀ line ∈ b, Separate line.2)
    (h : Text.lines (outlineText a) = Text.lines (outlineText b)) : a = b := by
  rw [lines_outlineText ha, lines_outlineText hb] at h
  induction a generalizing b with
  | nil => exact (List.map_eq_nil_iff.mp h.symm).symm
  | cons line rest ih =>
    cases b with
    | nil => cases h
    | cons line' rest' =>
      rw [List.forall_mem_cons] at ha hb
      rw [List.map_cons, List.map_cons, List.cons.injEq] at h
      obtain ⟨hlevel, htext⟩ := eq_of_indented ha.1 hb.1 h.1
      rw [ih ha.2 hb.2 h.2, Prod.ext hlevel htext]

end Lines

section Labels

/-- What the line of a node tells of it in full: its numbers are integers, and the modifier that it
shows is on one line. -/
def Node.Legible : Node → Prop
  | .filter (.term _ value) => value.toJson.Integral
  | .filter (.terms _ values) => ∀ value ∈ values, value.toJson.Integral
  | .query (.single _ _ options) => ∀ m ∈ options, m.2.Integral
  | .query (.functionScore _ (.fieldValue _ modifier)) => Text.OneLine modifier
  | _ => True

/-- A filter with nothing below it. -/
def FilterNode.alone : FilterNode → FilterNode
  | .and _ => .and []
  | .not _ => .not .matchAll
  | .query _ => .query .matchAll
  | f => f

/-- A score function with nothing below it and without parameters. -/
def ScoreFunction.alone : ScoreFunction → ScoreFunction
  | .boost _ factor => .boost .matchAll factor
  | .script source _ => .script source none
  | function => function

/-- A query with nothing below it. -/
def QueryNode.alone : QueryNode → QueryNode
  | .filtered _ _ => .filtered .matchAll .matchAll
  | .functionScore _ function => .functionScore .matchAll function.alone
  | q => q

/-- How lines begin. -/
def leads : List String :=
  ["Term(", "Terms(", "And", "Not", "Query", "MatchAll", "Match(", "MultiMatch(", "Filtered",
    "FunctionScore(field ", "FunctionScore(script ", "FunctionScore(boost x"]

theorem Node.lead_mem (node : Node) : node.lead ∈ leads := by
  unfold Node.lead
  split <;> decide

theorem leads_prefixFree : ∀ a ∈ leads, ∀ b ∈ leads, a.toList <+: b.toList → a = b := by
  decide

theorem Node.eq_of_label {a b : Node} (h : a.label = b.label) :
    a.lead = b.lead ∧ a.details = b.details := by
  have hchars := congrArg String.toList h
  rw [Node.label, Node.label, String.toList_append, String.toList_append] at hchars
  have hlead : a.lead = b.lead := by
    have ha : a.lead.toList <+: a.lead.toList ++ a.details.toList := List.prefix_append _ _
    have hb : b.lead.toList <+: a.lead.toList ++ a.details.toList := hchars ▸ List.prefix_append _ _
    rcases List.prefix_or_prefix_of_prefix ha hb with hp | hp
    · exact leads_prefixFree _ a.lead_mem _ b.lead_mem hp
    · exact (leads_prefixFree _ b.lead_mem _ a.lead_mem hp).symm
  rw [hlead] at hchars
  exact ⟨hlead, String.toList_inj.mp (List.append_cancel_left hchars)⟩

theorem Scalar.toJson_injective : Function.Injective Scalar.toJson := by
  intro value value' h
  have hread := Scalar.ofJson?_toJson value
  rw [h, Scalar.ofJson?_toJson] at hread
  exact (Option.some.inj hread).symm

theorem eq_of_shownValue {v w : Json.Value} (hv : v.Integral) (hw : w.Integral)
    (h : v.compact.toList ++ ")".toList = w.compact.toList ++ ")".toList) : v = w := by
  have hclose : Text.NoDigit ")".toList := Text.noDigit_cons (by decide) []
  exact (Json.delimited_compact hv hw hclose hclose h).1

theorem integral_scalars {values : List Scalar} (h : ∀ value ∈ values, value.toJson.Integral) :
    (Json.Value.array (values.map Scalar.toJson)).Integral :=
  .array (List.forall_mem_map.mpr h)

theorem FilterNode.alone_eq_of_label {f g : FilterNode} (hf : (Node.filter f).Legible)
    (hg : (Node.filter g).Legible) (h : (Node.filter f).label = (Node.filter g).label) :
    f.alone = g.alone := by
  obtain ⟨hlead, hdetails⟩ := Node.eq_of_label h
  replace hdetails := congrArg String.toList hdetails
  cases f with
  | term field value =>
    cases g with
    | term field' value' =>
      simp only [Node.details, String.toList_append, List.append_assoc] at hdetails
      obtain ⟨rfl, hrest⟩ := Text.eq_of_quoted hdetails
      have hvalue := eq_of_shownValue hf hg (List.append_cancel_left hrest)
      rw [Scalar.toJson_injective hvalue]
    | _ => exact absurd hlead (by simp [Node.lead])
  | terms field values =>
    cases g with
    | terms field' values' =>
      simp only [Node.details, String.toList_append, List.append_assoc] at hdetails
      obtain ⟨rfl, hrest⟩ := Text.eq_of_quoted hdetails
      have hvalues := eq_of_shownValue (integral_scalars hf) (integral_scalars hg)
        (List.append_cancel_left hrest)
      have hlist := (List.map_inj_right fun _ _ => @Scalar.toJson_injective _ _).mp
        (Json.Value.array.inj hvalues)
      rw [hlist]
    | _ => exact absurd hlead (by simp [Node.lead])
  | and filters =>
    cases g with
    | and filters' => rfl
    | _ => exact absurd hlead (by simp [Node.lead])
  | not f =>
    cases g with
    | not g => rfl
    | _ => exact absurd hlead (by simp [Node.lead])
  | query q =>
    cases g with
    | query p => rfl
    | _ => exact absurd hlead (by simp [Node.lead])
  | matchAll =>
    cases g with
    | matchAll => rfl
    | _ => exact absurd hlead (by simp [Node.lead])

theorem eq_of_shownOptions {options options' : List (String × Json.Value)}
    (h : ∀ m ∈ options, m.2.Integral) (h' : ∀ m ∈ options', m.2.Integral)
    (heq : (if options.isEmpty then ")" else
        ", " ++ (Json.Value.object options).compact ++ ")").toList =
      (if options'.isEmpty then ")" else
        ", " ++ (Json.Value.object options').compact ++ ")").toList) : options = options' := by
  have hshown (m : String × Json.Value) (rest : List (String × Json.Value)) :
      (if (m :: rest).isEmpty then ")" else
        ", " ++ (Json.Value.object (m :: rest)).compact ++ ")").toList =
      ',' :: ' ' :: ((Json.Value.object (m :: rest)).compact.toList ++ ")".toList) := by
    simp
  cases options with
  | nil =>
    cases options' with
    | nil => rfl
    | cons m rest =>
      rw [hshown] at heq
      exact absurd (List.cons.inj heq).1 (by decide)
  | cons m rest =>
    rw [hshown] at heq
    cases options' with
    | nil => exact absurd (List.cons.inj heq).1 (by decide)
    | cons m' rest' =>
      rw [hshown] at heq
      have hvalue := eq_of_shownValue (.object h) (.object h')
        (List.cons.inj (List.cons.inj heq).2).2
      exact Json.Value.object.inj hvalue

theorem eq_of_factor {factor factor' : UInt32}
    (h : (toString factor ++ " where)").toList = (toString factor' ++ " where)").toList) :
    factor = factor' := by
  have hstop : Text.NoDigit " where)".toList := Text.noDigit_cons (by decide) _
  rw [String.toList_append, String.toList_append] at h
  obtain ⟨hnat, -⟩ := Text.delimited_toString_nat factor.toNat factor'.toNat hstop hstop h
  exact UInt32.toNat_inj.mp hnat

theorem ScoreFunction.alone_eq_of_label {q p : QueryNode} {function function' : ScoreFunction}
    (h : (Node.query (.functionScore q function)).label =
      (Node.query (.functionScore p function')).label) : function.alone = function'.alone := by
  obtain ⟨hlead, hdetails⟩ := Node.eq_of_label h
  replace hdetails := congrArg String.toList hdetails
  cases function with
  | fieldValue field modifier =>
    cases function' with
    | fieldValue field' modifier' =>
      simp only [Node.details, String.toList_append, List.append_assoc] at hdetails
      obtain ⟨rfl, hrest⟩ := Text.eq_of_quoted hdetails
      have hmodifier := List.append_cancel_right (List.append_cancel_left hrest)
      rw [String.toList_inj.mp hmodifier]
    | _ => exact absurd hlead (by simp [Node.lead])
  | script source params =>
    cases function' with
    | script source' params' =>
      simp only [Node.details, String.toList_append] at hdetails
      obtain ⟨rfl, -⟩ := Text.eq_of_quoted hdetails
      rfl
    | _ => exact absurd hlead (by simp [Node.lead])
  | boost f factor =>
    cases function' with
    | boost g factor' =>
      rw [ScoreFunction.alone, ScoreFunction.alone, eq_of_factor hdetails]
    | _ => exact absurd hlead (by simp [Node.lead])

theorem QueryNode.alone_eq_of_label {q p : QueryNode} (hq : (Node.query q).Legible)
    (hp : (Node.query p).Legible) (h : (Node.query q).label = (Node.query p).label) :
    q.alone = p.alone := by
  obtain ⟨hlead, hdetails⟩ := Node.eq_of_label h
  replace hdetails := congrArg String.toList hdetails
  cases q with
  | matchAll =>
    cases p with
    | matchAll => rfl
    | functionScore _ function => cases function <;> exact absurd hlead (by simp [Node.lead])
    | _ => exact absurd hlead (by simp [Node.lead])
  | single field text options =>
    cases p with
    | single field' text' options' =>
      simp only [Node.details, String.toList_append, List.append_assoc] at hdetails
      obtain ⟨rfl, htext⟩ := Text.eq_of_quoted hdetails
      obtain ⟨rfl, hoptions⟩ := Text.eq_of_quoted (List.append_cancel_left htext)
      rw [eq_of_shownOptions hq hp hoptions]
    | functionScore _ function => cases function <;> exact absurd hlead (by simp [Node.lead])
    | _ => exact absurd hlead (by simp [Node.lead])
  | multi fields text =>
    cases p with
    | multi fields' text' =>
      simp only [Node.details, String.toList_append, List.append_assoc] at hdetails
      obtain ⟨rfl, hrest⟩ := Text.eq_of_quotedList hdetails
      obtain ⟨rfl, -⟩ := Text.eq_of_quoted (List.append_cancel_left hrest)
      rfl
    | functionScore _ function => cases function <;> exact absurd hlead (by simp [Node.lead])
    | _ => exact absurd hlead (by simp [Node.lead])
  | filtered q f =>
    cases p with
    | filtered p g => rfl
    | functionScore _ function => cases function <;> exact absurd hlead (by simp [Node.lead])
    | _ => exact absurd hlead (by simp [Node.lead])
  | functionScore q function =>
    cases p with
    | functionScore p function' =>
      rw [QueryNode.alone, QueryNode.alone, ScoreFunction.alone_eq_of_label h]
    | _ => cases function <;> exact absurd hlead (by simp [Node.lead])

end Labels

section Levels

/-- What is below a level ends: the next line, if there is one, is not further in. -/
def Ends (level : Nat) (rest : List OutlineLine) : Prop :=
  ∀ line ∈ rest.head?, line.1 ≤ level

mutual

/-- A filter without the parameters of its scripts, at any depth. -/
def FilterNode.withoutParams : FilterNode → FilterNode
  | .and filters => .and (withoutParamsAll filters)
  | .not f => .not f.withoutParams
  | .query q => .query q.withoutParams
  | .term field value => .term field value
  | .terms field values => .terms field values
  | .matchAll => .matchAll

def withoutParamsAll : List FilterNode → List FilterNode
  | [] => []
  | f :: rest => f.withoutParams :: withoutParamsAll rest

/-- A query without the parameters of its scripts, at any depth. -/
def QueryNode.withoutParams : QueryNode → QueryNode
  | .filtered q f => .filtered q.withoutParams f.withoutParams
  | .functionScore q function => .functionScore q.withoutParams function.withoutParams
  | .single field text options => .single field text options
  | .multi fields text => .multi fields text
  | .matchAll => .matchAll

def ScoreFunction.withoutParams : ScoreFunction → ScoreFunction
  | .fieldValue field modifier => .fieldValue field modifier
  | .script source _ => .script source none
  | .boost f factor => .boost f.withoutParams factor

end

mutual

theorem FilterNode.outline_withoutParams (f : FilterNode) (level : Nat) :
    f.withoutParams.outline level = f.outline level := by
  match f with
  | .term _ _ | .terms _ _ | .matchAll => rfl
  | .and filters =>
    rw [FilterNode.withoutParams, FilterNode.outline, FilterNode.outline,
      outlines_withoutParamsAll]
  | .not f =>
    rw [FilterNode.withoutParams, FilterNode.outline, FilterNode.outline,
      f.outline_withoutParams]
  | .query q =>
    rw [FilterNode.withoutParams, FilterNode.outline, FilterNode.outline,
      q.outline_withoutParams]

theorem outlines_withoutParamsAll (filters : List FilterNode) (level : Nat) :
    outlines level (withoutParamsAll filters) = outlines level filters := by
  match filters with
  | [] => rfl
  | f :: rest =>
    rw [withoutParamsAll, outlines, outlines, f.outline_withoutParams,
      outlines_withoutParamsAll rest]

theorem QueryNode.outline_withoutParams (q : QueryNode) (level : Nat) :
    q.withoutParams.outline level = q.outline level := by
  match q with
  | .matchAll | .single _ _ _ | .multi _ _ => rfl
  | .filtered q f =>
    rw [QueryNode.withoutParams, QueryNode.outline, QueryNode.outline, q.outline_withoutParams,
      f.outline_withoutParams]
  | .functionScore q function =>
    rw [QueryNode.withoutParams, QueryNode.outline, QueryNode.outline, q.outline_withoutParams,
      function.outline_withoutParams]

theorem ScoreFunction.outline_withoutParams (function : ScoreFunction) (level : Nat) :
    function.withoutParams.outline level = function.outline level := by
  match function with
  | .fieldValue _ _ | .script _ _ => rfl
  | .boost f factor =>
    rw [ScoreFunction.withoutParams, ScoreFunction.outline, ScoreFunction.outline,
      f.outline_withoutParams]

end

theorem Node.label_eq_of_outline {a b : Node} {level : Nat} {rest rest' : List OutlineLine}
    (h : a.outline level ++ rest = b.outline level ++ rest') : a.label = b.label := by
  rw [Node.outline_eq, Node.outline_eq] at h
  exact (Prod.mk.inj (List.cons.inj h).1).2

theorem Node.legible_self {a : Node} (h : ∀ node ∈ a.nodes, node.Legible) : a.Legible := by
  rw [Node.nodes_eq, List.forall_mem_cons] at h
  exact h.1

theorem Node.ends_outline (a : Node) {level bound : Nat} (h : level ≤ bound)
    (rest : List OutlineLine) : Ends bound (a.outline level ++ rest) := by
  rw [Node.outline_eq]
  intro line hline
  cases hline
  exact h

theorem Ends.mono {level bound : Nat} (h : level ≤ bound) {rest : List OutlineLine}
    (hr : Ends level rest) : Ends bound rest :=
  fun line hline => Nat.le_trans (hr line hline) h

theorem ends_outlines {level : Nat} (filters : List FilterNode) {rest : List OutlineLine}
    (hr : Ends level rest) : Ends (level + 1) (outlines (level + 1) filters ++ rest) := by
  cases filters with
  | nil => exact hr.mono (Nat.le_succ level)
  | cons f filters =>
    rw [outlines, List.append_assoc]
    exact (Node.filter f).ends_outline (Nat.le_refl _) _

theorem outlines_cons_ne {level : Nat} {f : FilterNode} {filters : List FilterNode}
    {rest rest' : List OutlineLine} (hr : Ends level rest) :
    outlines (level + 1) (f :: filters) ++ rest' ≠ rest := by
  rintro rfl
  have houtline : f.outline (level + 1) = _ := (Node.filter f).outline_eq (level + 1)
  rw [outlines, houtline] at hr
  exact absurd (hr _ rfl) (by simp)

mutual

/-- The outline of a filter tells the filter, up to the parameters of scripts, and where it ends. -/
theorem FilterNode.eq_of_outline (f g : FilterNode) (hf : ∀ node ∈ f.nodes, node.Legible)
    (hg : ∀ node ∈ g.nodes, node.Legible) {level : Nat} {rest rest' : List OutlineLine}
    (hr : Ends level rest) (hr' : Ends level rest')
    (h : f.outline level ++ rest = g.outline level ++ rest') :
    f.withoutParams = g.withoutParams ∧ rest = rest' := by
  -- The first lines tell that both are the same but for what is below them. What is below ends at
  -- the first line that is not further in, so it is told by induction.
  have halone : f.alone = g.alone :=
    FilterNode.alone_eq_of_label (Node.legible_self (a := .filter f) hf)
      (Node.legible_self (a := .filter g) hg) (Node.label_eq_of_outline h)
  match f with
  | .term field value =>
    cases g with
    | term field' value' =>
      cases halone
      exact ⟨rfl, List.append_cancel_left h⟩
    | _ => cases halone
  | .terms field values =>
    cases g with
    | terms field' values' =>
      cases halone
      exact ⟨rfl, List.append_cancel_left h⟩
    | _ => cases halone
  | .matchAll =>
    cases g with
    | matchAll => exact ⟨rfl, List.append_cancel_left h⟩
    | _ => cases halone
  | .and filters =>
    cases g with
    | and filters' =>
      rw [FilterNode.nodes, List.forall_mem_cons] at hf hg
      rw [FilterNode.outline, FilterNode.outline] at h
      obtain ⟨hfilters, hrest⟩ :=
        eq_of_outlines filters filters' hf.2 hg.2 hr hr' (List.cons.inj h).2
      exact ⟨by rw [FilterNode.withoutParams, FilterNode.withoutParams, hfilters], hrest⟩
    | _ => cases halone
  | .not f =>
    cases g with
    | not g =>
      rw [FilterNode.nodes, List.forall_mem_cons] at hf hg
      rw [FilterNode.outline, FilterNode.outline] at h
      obtain ⟨hfilter, hrest⟩ := FilterNode.eq_of_outline f g hf.2 hg.2
        (hr.mono (Nat.le_succ level)) (hr'.mono (Nat.le_succ level)) (List.cons.inj h).2
      exact ⟨by rw [FilterNode.withoutParams, FilterNode.withoutParams, hfilter], hrest⟩
    | _ => cases halone
  | .query q =>
    cases g with
    | query p =>
      rw [FilterNode.nodes, List.forall_mem_cons] at hf hg
      rw [FilterNode.outline, FilterNode.outline] at h
      obtain ⟨hquery, hrest⟩ := QueryNode.eq_of_outline q p hf.2 hg.2
        (hr.mono (Nat.le_succ level)) (hr'.mono (Nat.le_succ level)) (List.cons.inj h).2
      exact ⟨by rw [FilterNode.withoutParams, FilterNode.withoutParams, hquery], hrest⟩
    | _ => cases halone

theorem eq_of_outlines (filters filters' : List FilterNode)
    (hf : ∀ node ∈ nodesOfAll filters, node.Legible)
    (hg : ∀ node ∈ nodesOfAll filters', node.Legible) {level : Nat}
    {rest rest' : List OutlineLine} (hr : Ends level rest) (hr' : Ends level rest')
    (h : outlines (level + 1) filters ++ rest = outlines (level + 1) filters' ++ rest') :
    withoutParamsAll filters = withoutParamsAll filters' ∧ rest = rest' := by
  match filters with
  | [] =>
    cases filters' with
    | nil => exact ⟨rfl, h⟩
    | cons g more => exact absurd h.symm (outlines_cons_ne hr)
  | f :: filters =>
    cases filters' with
    | nil => exact absurd h (outlines_cons_ne hr')
    | cons g filters' =>
      rw [nodesOfAll, List.forall_mem_append] at hf hg
      rw [outlines, outlines, List.append_assoc, List.append_assoc] at h
      obtain ⟨hfilter, htail⟩ := FilterNode.eq_of_outline f g hf.1 hg.1
        (ends_outlines filters hr) (ends_outlines filters' hr') h
      obtain ⟨hfilters, hrest⟩ := eq_of_outlines filters filters' hf.2 hg.2 hr hr' htail
      exact ⟨by rw [withoutParamsAll, withoutParamsAll, hfilter, hfilters], hrest⟩

/-- The outline of a query tells the query, up to the parameters of scripts, and where it ends. -/
theorem QueryNode.eq_of_outline (q p : QueryNode) (hq : ∀ node ∈ q.nodes, node.Legible)
    (hp : ∀ node ∈ p.nodes, node.Legible) {level : Nat} {rest rest' : List OutlineLine}
    (hr : Ends level rest) (hr' : Ends level rest')
    (h : q.outline level ++ rest = p.outline level ++ rest') :
    q.withoutParams = p.withoutParams ∧ rest = rest' := by
  have halone : q.alone = p.alone :=
    QueryNode.alone_eq_of_label (Node.legible_self (a := .query q) hq)
      (Node.legible_self (a := .query p) hp) (Node.label_eq_of_outline h)
  match q with
  | .matchAll =>
    cases p with
    | matchAll => exact ⟨rfl, List.append_cancel_left h⟩
    | _ => cases halone
  | .single field text options =>
    cases p with
    | single field' text' options' =>
      cases halone
      exact ⟨rfl, List.append_cancel_left h⟩
    | _ => cases halone
  | .multi fields text =>
    cases p with
    | multi fields' text' =>
      cases halone
      exact ⟨rfl, List.append_cancel_left h⟩
    | _ => cases halone
  | .filtered q f =>
    cases p with
    | filtered p g =>
      rw [QueryNode.nodes, List.forall_mem_cons, List.forall_mem_append] at hq hp
      rw [QueryNode.outline, QueryNode.outline, List.cons_append, List.cons_append,
        List.append_assoc, List.append_assoc] at h
      obtain ⟨hquery, hbelow⟩ := QueryNode.eq_of_outline q p hq.2.1 hp.2.1
        ((Node.filter f).ends_outline (Nat.le_refl _) rest)
        ((Node.filter g).ends_outline (Nat.le_refl _) rest') (List.cons.inj h).2
      obtain ⟨hfilter, hrest⟩ := FilterNode.eq_of_outline f g hq.2.2 hp.2.2
        (hr.mono (Nat.le_succ level)) (hr'.mono (Nat.le_succ level)) hbelow
      exact ⟨by rw [QueryNode.withoutParams, QueryNode.withoutParams, hquery, hfilter], hrest⟩
    | _ => cases halone
  | .functionScore q function =>
    cases p with
    | functionScore p function' =>
      rw [QueryNode.nodes, List.forall_mem_cons, List.forall_mem_append] at hq hp
      rw [QueryNode.outline, QueryNode.outline, List.append_assoc, List.append_assoc] at h
      -- A filter below the function stands two levels in, the query one, so the query ends it.
      obtain ⟨hfunction, hbelow⟩ := ScoreFunction.eq_of_outline function function'
        (QueryNode.functionScore.inj halone).2 hq.2.1 hp.2.1
        ((Node.query q).ends_outline (by omega) rest) ((Node.query p).ends_outline (by omega) rest')
        h
      obtain ⟨hquery, hrest⟩ := QueryNode.eq_of_outline q p hq.2.2 hp.2.2
        (hr.mono (Nat.le_succ level)) (hr'.mono (Nat.le_succ level)) hbelow
      exact ⟨by rw [QueryNode.withoutParams, QueryNode.withoutParams, hquery, hfunction], hrest⟩
    | _ => cases halone

theorem ScoreFunction.eq_of_outline (function function' : ScoreFunction)
    (halone : function.alone = function'.alone) (hf : ∀ node ∈ function.nodes, node.Legible)
    (hg : ∀ node ∈ function'.nodes, node.Legible) {level : Nat} {rest rest' : List OutlineLine}
    (hr : Ends (level + 2) rest) (hr' : Ends (level + 2) rest')
    (h : function.outline level ++ rest = function'.outline level ++ rest') :
    function.withoutParams = function'.withoutParams ∧ rest = rest' := by
  match function with
  | .fieldValue field modifier =>
    cases function' with
    | fieldValue field' modifier' =>
      cases halone
      exact ⟨rfl, List.append_cancel_left h⟩
    | _ => cases halone
  | .script source params =>
    cases function' with
    | script source' params' =>
      cases halone
      exact ⟨rfl, (List.cons.inj h).2⟩
    | _ => cases halone
  | .boost f factor =>
    cases function' with
    | boost g factor' =>
      cases halone
      rw [ScoreFunction.nodes] at hf hg
      rw [ScoreFunction.outline, ScoreFunction.outline] at h
      obtain ⟨hfilter, hrest⟩ := FilterNode.eq_of_outline f g hf hg hr hr' (List.cons.inj h).2
      exact ⟨by rw [ScoreFunction.withoutParams, ScoreFunction.withoutParams, hfilter], hrest⟩
    | _ => cases halone

end

end Levels

section Display

/-- All that a query holds, but for the parameters of scripts, is told in full by its lines. -/
def QueryNode.Legible (q : QueryNode) : Prop :=
  ∀ node ∈ q.nodes, node.Legible

def FilterNode.Legible (f : FilterNode) : Prop :=
  ∀ node ∈ f.nodes, node.Legible

theorem Node.Legible.oneLine_label {a : Node} (h : a.Legible) : Text.OneLine a.label := by
  rw [Node.oneLine_label_iff]
  unfold Node.modifier?
  split
  · intro modifier hm
    cases hm
    exact h
  · exact nofun

theorem Node.getLast?_label (a : Node) : a.label.toList.getLast? ≠ some '\r' := by
  have hleads : ∀ lead ∈ leads, lead.toList.getLast? ≠ some '\r' := by decide
  have hdetails : a.details = "" ∨ a.details.toList.getLast? = some ')' := by
    unfold Node.details
    split
    case h_3 field text options =>
      cases options <;> simp [List.getLast?_append, List.getLast?_cons]
    all_goals simp [List.getLast?_append, List.getLast?_cons]
  rw [Node.label, String.toList_append, List.getLast?_append]
  rcases hdetails with hd | hd
  · rw [hd]
    exact hleads _ a.lead_mem
  · rw [hd, Option.some_or]
    decide

theorem Node.separate_label {a : Node} (h : a.Legible) : Separate a.label :=
  ⟨h.oneLine_label, a.getLast?_label, a.exists_head_label⟩

theorem Node.separate_outline {a : Node} (h : ∀ node ∈ a.nodes, node.Legible) (level : Nat) :
    ∀ line ∈ a.outline level, Separate line.2 := by
  rw [Node.outline_eq_map_placed, List.forall_mem_map]
  intro place hplace
  apply Node.separate_label
  apply h
  rw [← Node.map_snd_placed level]
  exact List.mem_map_of_mem hplace

theorem Node.outline_eq_of_lines {a b : Node} (ha : ∀ node ∈ a.nodes, node.Legible)
    (hb : ∀ node ∈ b.nodes, node.Legible)
    (h : Text.lines (outlineText (a.outline 0)) = Text.lines (outlineText (b.outline 0))) :
    a.outline 0 ++ [] = b.outline 0 ++ [] := by
  rw [eq_of_lines (Node.separate_outline ha 0) (Node.separate_outline hb 0) h]

theorem ends_nil (level : Nat) : Ends level [] :=
  nofun

theorem QueryNode.eq_of_lines {q p : QueryNode} (hq : q.Legible) (hp : p.Legible)
    (h : Text.lines q.display = Text.lines p.display) : q.withoutParams = p.withoutParams :=
  (QueryNode.eq_of_outline q p hq hp (ends_nil 0) (ends_nil 0)
    (Node.outline_eq_of_lines (a := .query q) (b := .query p) hq hp h)).1

theorem FilterNode.eq_of_lines {f g : FilterNode} (hf : f.Legible) (hg : g.Legible)
    (h : Text.lines f.display = Text.lines g.display) : f.withoutParams = g.withoutParams :=
  (FilterNode.eq_of_outline f g hf hg (ends_nil 0) (ends_nil 0)
    (Node.outline_eq_of_lines (a := .filter f) (b := .filter g) hf hg h)).1

/-- The parameters of scripts are not shown: a query has the outline of the query without them. -/
theorem QueryNode.display_withoutParams (q : QueryNode) : q.withoutParams.display = q.display := by
  rw [QueryNode.display, QueryNode.display, q.outline_withoutParams]

theorem FilterNode.display_withoutParams (f : FilterNode) :
    f.withoutParams.display = f.display := by
  rw [FilterNode.display, FilterNode.display, f.outline_withoutParams]

/-- Two queries whose numbers are integers and whose modifiers are on one line have the same outline
exactly if they differ in nothing but the parameters of their scripts, and likewise two filters. For
queries the lines of the outlines decide it as well, which is what an explanation shows. -/
theorem display_eq_iff_withoutParams :
    (∀ q p : QueryNode, q.Legible → p.Legible →
      (q.display = p.display ↔ q.withoutParams = p.withoutParams)) ∧
    (∀ f g : FilterNode, f.Legible → g.Legible →
      (f.display = g.display ↔ f.withoutParams = g.withoutParams)) ∧
    ∀ q p : QueryNode, q.Legible → p.Legible →
      (Text.lines q.display = Text.lines p.display ↔ q.withoutParams = p.withoutParams) := by
  have hquery {q p : QueryNode} (h : q.withoutParams = p.withoutParams) : q.display = p.display := by
    rw [← q.display_withoutParams, h, p.display_withoutParams]
  refine ⟨?_, ?_, ?_⟩
  · intro q p hq hp
    exact ⟨fun h => QueryNode.eq_of_lines hq hp (congrArg Text.lines h), hquery⟩
  · intro f g hf hg
    refine ⟨fun h => FilterNode.eq_of_lines hf hg (congrArg Text.lines h), fun h => ?_⟩
    rw [← f.display_withoutParams, h, g.display_withoutParams]
  · intro q p hq hp
    exact ⟨QueryNode.eq_of_lines hq hp, fun h => congrArg Text.lines (hquery h)⟩

theorem display_eq_iff_withoutParams_tea :
    let query (params : Option (List (String × Json.Value))) : QueryNode :=
      .functionScore
        (.filtered (.single "_all" "tea\n" [("boost", .number (.integer (-2)))])
          (.and [.terms "tags" [.string "a, b", .number (.integer 3)], .not .matchAll]))
        (.script "_score" params)
    let q := query (some [("a", .number (.double 0))])
    let p := query none
    q ≠ p ∧ q.Legible ∧ p.Legible ∧ q.display = p.display ∧
      q.withoutParams = p.withoutParams ∧
      (FilterNode.query q).withoutParams = (FilterNode.query p).withoutParams := by
  intro query q p
  have hlegible (params) : (query params).Legible := by
    simp only [query, QueryNode.Legible, QueryNode.nodes, ScoreFunction.nodes, FilterNode.nodes,
      nodesOfAll, List.nil_append, List.append_nil, List.cons_append, List.forall_mem_cons,
      Node.Legible, Scalar.toJson]
    exact ⟨trivial, trivial, ⟨.number _, nofun⟩, trivial, ⟨.string _, .number _, nofun⟩, trivial,
      trivial, nofun⟩
  have hfilter (params) : (FilterNode.query (query params)).Legible :=
    List.forall_mem_cons.mpr ⟨trivial, hlegible params⟩
  have hdisplay : q.display = p.display := by
    rw [← q.display_withoutParams, ← p.display_withoutParams]
    rfl
  have hdisplay' : (FilterNode.query q).display = (FilterNode.query p).display := by
    rw [← FilterNode.display_withoutParams, ← (FilterNode.query p).display_withoutParams]
    rfl
  exact ⟨by simp [q, p, query], hlegible _, hlegible _, hdisplay,
    (display_eq_iff_withoutParams.1 q p (hlegible _) (hlegible _)).mp hdisplay,
    (display_eq_iff_withoutParams.2.1 _ _ (hfilter _) (hfilter _)).mp hdisplay'⟩

end Display

end SearchCompiler
