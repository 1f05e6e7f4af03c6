import SearchCompiler.Proofs.Grammar
import SearchCompiler.Proofs.Outcome

/-!
Options written as JSON. A level is written member by member, under the name of each clause it has,
and an included text as an array with its options. Decoding gives canonical options back as they were
written, entry by entry.
-/

namespace SearchCompiler

/-- A condition in which no name stands twice among the conditions of an object, at any depth. -/
inductive Condition.Distinct : Condition → Prop
  | scalar (value : Scalar) : Distinct (.scalar value)
  | list (values : List Scalar) : Distinct (.list values)
  | tree {entries : ConditionTree} :
    entries.keys.Nodup → (∀ entry ∈ entries, entry.2.Distinct) → Distinct (.tree entries)

/-- Conditions as an option has them: at least one, and distinct names at any depth. -/
structure ConditionTree.Canonical (tree : ConditionTree) : Prop where
  ne_nil : tree ≠ []
  distinct : (Condition.tree tree).Distinct

/-- A level as decoding leaves it. -/
structure Clauses.Canonical (c : Clauses) : Prop where
  on : ∀ fields, c.on = some (.multi fields) → 2 ≤ fields.length
  only : ∀ tree ∈ c.only, ConditionTree.Canonical tree
  except : ∀ tree ∈ c.except, ConditionTree.Canonical tree
  boostWhere : ∀ tree ∈ c.boostWhere, ConditionTree.Canonical tree
  matchOptions : ∀ key ∈ c.matchOptions.keys, key ∉ reservedKeys

/-- The JSON objects that a level holds, the parameters of a script and the options of a match, hold
no name twice. -/
structure Clauses.MapsDistinct (c : Clauses) : Prop where
  params : ∀ script ∈ c.boostFunction, ∀ params ∈ script.params, (Json.Value.object params).Distinct
  matchOptions : (Json.Value.object c.matchOptions).Distinct

/-- Every level has a property. -/
def SearchOptions.Every (P : Clauses → Prop) : SearchOptions → Prop
  | .plain c => P c
  | .including c _ inner => P c ∧ inner.Every P

mutual

def Condition.toJson : Condition → Json.Value
  | .scalar value => value.toJson
  | .list values => .array (values.map Scalar.toJson)
  | .tree entries => .object (conditionMembers entries)

/-- The members of an object of conditions. -/
def conditionMembers : List (String × Condition) → Entries Json.Value
  | [] => []
  | (key, condition) :: rest => (key, condition.toJson) :: conditionMembers rest

end

def FieldScope.toJson : FieldScope → Json.Value
  | .single field => .string field
  | .multi fields => .strings fields

def ScoreScript.toJson (s : ScoreScript) : Json.Value :=
  match s.params with
  | none => .string s.script
  | some params => .array [.string s.script, .single "params" (.object params)]

/-- The member of a clause, if the clause is there. -/
def memberOf {α : Type} (key : String) (toJson : α → Json.Value) (clause : Option α) :
    Entries Json.Value :=
  (clause.map fun x => (key, toJson x)).toList

def conditionsMember (key : String) (tree : Option ConditionTree) : Entries Json.Value :=
  memberOf key (fun tree => .object (conditionMembers tree)) tree

/-- The members of a level other than the included text. -/
def Clauses.members (c : Clauses) : Entries Json.Value :=
  memberOf "on" FieldScope.toJson c.on ++ (conditionsMember "only" c.only ++
    (conditionsMember "except" c.except ++ (conditionsMember "boost_where" c.boostWhere ++
      (memberOf "boost_by" .string c.boostBy ++
        (memberOf "boost_function" ScoreScript.toJson c.boostFunction ++ c.matchOptions)))))

/-- Options as JSON. -/
def SearchOptions.toJson : SearchOptions → Json.Value
  | .plain c => .object c.members
  | .including c text inner =>
    .object (("includes", .array [.string text, inner.toJson]) :: c.members)

theorem decodeScalar_toJson (path : String) (s : Scalar) : decodeScalar path s.toJson = .ok s := by
  rw [decodeScalar, Scalar.ofJson?_toJson]

mutual

theorem decodeCondition_toJson (path : String) (condition : Condition) :
    decodeCondition path condition.toJson = .ok condition := by
  match condition with
  | .scalar value =>
    rw [Condition.toJson]
    cases value with
    | _ => unfold decodeCondition; rfl
  | .list values =>
    have hm := mapM_map_eq_pure (decodeScalar_toJson path) values
    rw [Condition.toJson, decodeCondition, hm]
    rfl
  | .tree entries =>
    rw [Condition.toJson, decodeCondition, decodeTree_conditionMembers path entries]
    rfl

theorem decodeTree_conditionMembers (path : String) (entries : List (String × Condition)) :
    decodeTree path (conditionMembers entries) = .ok entries := by
  match entries with
  | [] => rw [conditionMembers, decodeTree]
  | (key, condition) :: rest =>
    have hc := decodeCondition_toJson (path ++ "." ++ key) condition
    have hr := decodeTree_conditionMembers path rest
    rw [conditionMembers, decodeTree, hc, hr]
    rfl

end

theorem decodeConditions_object (option : String) {tree : ConditionTree} (h : tree ≠ []) :
    decodeConditions option (.object (conditionMembers tree)) = .ok (some tree) := by
  have hd := decodeTree_conditionMembers option tree
  cases tree with
  | nil => exact absurd rfl h
  | cons entry rest =>
    rw [conditionMembers] at hd ⊢
    rw [decodeConditions, hd]
    · rfl
    · exact List.cons_ne_nil _ _

theorem decodeFieldScope_toJson {scope : FieldScope}
    (h : ∀ fields, scope = .multi fields → 2 ≤ fields.length) :
    decodeFieldScope scope.toJson = .ok scope := by
  cases scope with
  | single field => rfl
  | multi fields =>
    have hl : 2 ≤ fields.length := h fields rfl
    have hm := mapM_map_eq_pure decodeFieldName_string fields
    rw [FieldScope.toJson, Json.Value.strings, decodeFieldScope, hm]
    rcases fields with - | ⟨first, - | ⟨second, rest⟩⟩
    · exact absurd hl (by simp)
    · exact absurd hl (by simp)
    · rfl

theorem decodeScript_toJson (s : ScoreScript) : decodeScript s.toJson = .ok s := by
  obtain ⟨script, params⟩ := s
  cases params with
  | none => rfl
  | some params => rfl

/-- The settings that the members of a level ask for. -/
def Clauses.settings (c : Clauses) : List Setting :=
  (c.on.map .on).toList ++ ((c.only.map fun tree => .only (some tree)).toList ++
    ((c.except.map fun tree => .except (some tree)).toList ++
      ((c.boostWhere.map fun tree => .boostWhere (some tree)).toList ++
        ((c.boostBy.map .boostBy).toList ++ ((c.boostFunction.map .boostFunction).toList ++
          c.matchOptions.map fun option => .matchOption option.1 option.2)))))

/-- The settings asked for by members, one for each. -/
abbrev AllAsk (members : Entries Json.Value) (settings : List Setting) : Prop :=
  List.Forall₂ (fun member s => Asks member.1 member.2 s) members settings

theorem decodeSettings_of_allAsk {members : Entries Json.Value} {settings : List Setting}
    (h : AllAsk members settings) : decodeSettings members = .ok settings := by
  induction h with
  | nil => rw [decodeSettings]
  | cons hs _ ih =>
    rw [decodeSettings_cons, decodeMember_of_asks hs, ih]
    rfl

theorem allAsk_memberOf {α : Type} {key : String} {toJson : α → Json.Value} {setting : α → Setting}
    {clause : Option α} (h : ∀ x ∈ clause, Asks key (toJson x) (setting x)) :
    AllAsk (memberOf key toJson clause) (clause.map setting).toList := by
  cases clause with
  | none => exact .nil
  | some x => exact .cons (h x rfl) .nil

theorem allAsk_matchOptions {options : Entries Json.Value}
    (h : ∀ key ∈ options.keys, key ∉ reservedKeys) :
    AllAsk options (options.map fun option => .matchOption option.1 option.2) := by
  induction options with
  | nil => exact .nil
  | cons option rest ih =>
    rw [Entries.keys_cons, List.forall_mem_cons] at h
    exact .cons ⟨rfl, rfl, h.1⟩ (ih h.2)

theorem allAsk_members {c : Clauses} (h : c.Canonical) : AllAsk c.members c.settings := by
  have hon : ∀ scope ∈ c.on, Asks "on" scope.toJson (.on scope) := by
    intro scope hs
    have hd : decodeFieldScope scope.toJson = .ok scope :=
      decodeFieldScope_toJson fun fields hf => h.on fields (hf ▸ hs)
    exact ⟨rfl, by cases scope <;> nofun, hd⟩
  have hby : ∀ field ∈ c.boostBy, Asks "boost_by" (.string field) (.boostBy field) :=
    fun field _ => ⟨rfl, nofun, rfl⟩
  have hfunction : ∀ script ∈ c.boostFunction,
      Asks "boost_function" script.toJson (.boostFunction script) := by
    intro script _
    have hn : script.toJson.kind ≠ .null := by
      obtain ⟨script, params⟩ := script
      cases params <;> nofun
    exact ⟨rfl, hn, decodeScript_toJson script⟩
  refine List.rel_append (allAsk_memberOf hon) (List.rel_append (allAsk_memberOf ?_)
    (List.rel_append (allAsk_memberOf ?_) (List.rel_append (allAsk_memberOf ?_)
      (List.rel_append (allAsk_memberOf hby) (List.rel_append (allAsk_memberOf hfunction)
        (allAsk_matchOptions h.matchOptions))))))
  · intro tree ht
    exact ⟨rfl, nofun, decodeConditions_object "only" (h.only tree ht).ne_nil⟩
  · intro tree ht
    exact ⟨rfl, nofun, decodeConditions_object "except" (h.except tree ht).ne_nil⟩
  · intro tree ht
    exact ⟨rfl, nofun, decodeConditions_object "boost_where" (h.boostWhere tree ht).ne_nil⟩

section Applied

open SearchOptions

variable (nested : Option (String × SearchOptions))

theorem modify_ofParts (f : Clauses → Clauses) (c : Clauses) :
    (ofParts c nested).modify f = ofParts (f c) nested := by
  rw [SearchOptions.modify, clauses_ofParts, includes_ofParts]

/-- Applying the setting of a clause that may be absent sets the clause or leaves it absent. -/
theorem foldl_clause {α : Type} (setting : α → Setting) (set : Option α → Clauses)
    (clause : Option α)
    (h : ∀ x, apply (ofParts (set none) nested) (setting x) = ofParts (set (some x)) nested := by
      intro x; rw [apply, modify_ofParts]) :
    (clause.map setting).toList.foldl apply (ofParts (set none) nested) =
      ofParts (set clause) nested := by
  cases clause with
  | none => rfl
  | some x => exact h x

theorem foldl_matchOptions (c : Clauses) (options : Entries Json.Value) :
    (options.map fun option => Setting.matchOption option.1 option.2).foldl apply
        (ofParts c nested) =
      ofParts { c with matchOptions := c.matchOptions.insertAll options } nested := by
  induction options generalizing c with
  | nil => rfl
  | cons option rest ih =>
    rw [List.map_cons, List.foldl_cons, apply, withMatchOption, modify_ofParts, ih]
    rfl

/-- The settings of a level, applied where no clause is set, set the level. -/
theorem foldl_settings {c : Clauses} (h : c.matchOptions.keys.Nodup) :
    c.settings.foldl apply (ofParts {} nested) = ofParts c nested := by
  have hoptions : Entries.insertAll [] c.matchOptions = c.matchOptions :=
    Entries.insertAll_of_nodup h
  -- Each clause in turn is added to those before it.
  have hon := foldl_clause nested .on (fun x => { on := x }) c.on
  have honly := foldl_clause nested (fun t => .only (some t))
    (fun x => { on := c.on, only := x }) c.only
  have hexcept := foldl_clause nested (fun t => .except (some t))
    (fun x => { on := c.on, only := c.only, except := x }) c.except
  have hwhere := foldl_clause nested (fun t => .boostWhere (some t))
    (fun x => { on := c.on, only := c.only, except := c.except, boostWhere := x }) c.boostWhere
  have hby := foldl_clause nested .boostBy
    (fun x => { c with boostBy := x, boostFunction := none, matchOptions := [] }) c.boostBy
  have hfunction := foldl_clause nested .boostFunction
    (fun x => { c with boostFunction := x, matchOptions := [] }) c.boostFunction
  simp only [Clauses.settings, List.foldl_append, hon, honly, hexcept, hwhere, hby, hfunction,
    foldl_matchOptions, hoptions]

end Applied

/-- Canonical options are decoded from what they are written as. -/
theorem decode_toJson {o : SearchOptions} (hm : o.Every Clauses.MapsDistinct)
    (hc : o.Every Clauses.Canonical) : SearchOptions.decode o.toJson = .ok o := by
  induction o with
  | plain c =>
    have hs := decodeSettings_of_allAsk (allAsk_members hc)
    have hf := foldl_settings none (nodup_keys_of_distinct hm.matchOptions)
    rw [SearchOptions.toJson, SearchOptions.decode, hs]
    exact congrArg Except.ok hf
  | including c text inner ih =>
    have hinner : decodeIncludes (.array [.string text, inner.toJson]) = .ok (some (text, inner)) := by
      rw [decodeIncludes, ih hm.2 hc.2]
      rfl
    have hasks : AllAsk (("includes", .array [.string text, inner.toJson]) :: c.members)
        (.includes (some (text, inner)) :: c.settings) :=
      .cons ⟨rfl, nofun, hinner⟩ (allAsk_members hc.1)
    have hf := foldl_settings (some (text, inner))
      (nodup_keys_of_distinct hm.1.matchOptions)
    rw [SearchOptions.toJson, SearchOptions.decode, decodeSettings_of_allAsk hasks]
    exact congrArg Except.ok hf

theorem keys_conditionMembers (entries : ConditionTree) :
    (conditionMembers entries).keys = entries.keys := by
  induction entries with
  | nil => rw [conditionMembers]; rfl
  | cons entry rest ih => rw [conditionMembers, Entries.keys_cons, ih]; rfl

theorem distinct_toJson_scalar (s : Scalar) : s.toJson.Distinct := by
  cases s with
  | string value => exact .string value
  | number value => exact .number value
  | bool value => exact .bool value

mutual

theorem distinct_toJson_condition {condition : Condition} (h : condition.Distinct) :
    condition.toJson.Distinct := by
  match condition, h with
  | .scalar value, _ =>
    rw [Condition.toJson]
    exact distinct_toJson_scalar value
  | .list values, _ =>
    rw [Condition.toJson]
    refine .array fun item hi => ?_
    obtain ⟨value, _, rfl⟩ := List.mem_map.mp hi
    exact distinct_toJson_scalar value
  | .tree entries, .tree hn he =>
    rw [Condition.toJson]
    exact .object (by rwa [keys_conditionMembers]) (distinct_conditionMembers he)

theorem distinct_conditionMembers {entries : List (String × Condition)}
    (h : ∀ entry ∈ entries, entry.2.Distinct) :
    ∀ member ∈ conditionMembers entries, member.2.Distinct := by
  match entries with
  | [] =>
    rw [conditionMembers]
    exact List.forall_mem_nil _
  | (key, condition) :: rest =>
    rw [List.forall_mem_cons] at h
    rw [conditionMembers, List.forall_mem_cons]
    exact ⟨distinct_toJson_condition h.1, distinct_conditionMembers h.2⟩

end

theorem distinct_strings (items : List String) : (Json.Value.strings items).Distinct := by
  refine .array fun item hi => ?_
  obtain ⟨s, _, rfl⟩ := List.mem_map.mp hi
  exact .string s

theorem distinct_toJson_scope (scope : FieldScope) : scope.toJson.Distinct := by
  cases scope with
  | single field => exact .string field
  | multi fields => exact distinct_strings fields

theorem distinct_toJson_script {s : ScoreScript}
    (h : ∀ params ∈ s.params, (Json.Value.object params).Distinct) : s.toJson.Distinct := by
  obtain ⟨script, params⟩ := s
  cases params with
  | none => exact .string script
  | some params =>
    have hextra : (Json.Value.single "params" (.object params)).Distinct :=
      .object (by simp) (List.forall_mem_singleton.mpr (h params rfl))
    refine .array ?_
    rw [List.forall_mem_cons, List.forall_mem_singleton]
    exact ⟨.string script, hextra⟩

theorem keys_memberOf_sublist {α : Type} (key : String) (toJson : α → Json.Value)
    (clause : Option α) : (memberOf key toJson clause).keys.Sublist [key] := by
  cases clause with
  | none => exact List.nil_sublist _
  | some x => exact List.Sublist.refl _

theorem distinct_memberOf {α : Type} {key : String} {toJson : α → Json.Value} {clause : Option α}
    (h : ∀ x ∈ clause, (toJson x).Distinct) :
    ∀ member ∈ memberOf key toJson clause, member.2.Distinct := by
  cases clause with
  | none => exact List.forall_mem_nil _
  | some x => exact List.forall_mem_singleton.mpr (h x rfl)

/-- The names of a level's members, the name of the included text before them, are distinct. -/
theorem nodup_keys_members {c : Clauses} (hm : c.MapsDistinct) (hc : c.Canonical) :
    ("includes" :: c.members.keys).Nodup := by
  have hs : c.members.keys.Sublist
      (["on", "only", "except", "boost_where", "boost_by", "boost_function"] ++
        c.matchOptions.keys) := by
    simp only [Clauses.members, Entries.keys, List.map_append]
    exact (keys_memberOf_sublist _ _ _).append ((keys_memberOf_sublist _ _ _).append
      ((keys_memberOf_sublist _ _ _).append ((keys_memberOf_sublist _ _ _).append
        ((keys_memberOf_sublist _ _ _).append ((keys_memberOf_sublist _ _ _).append
          (List.Sublist.refl _))))))
  have hreserved : ∀ name ∈ ["includes", "on", "only", "except", "boost_where", "boost_by",
      "boost_function"], name ∈ reservedKeys := by decide
  have hnames : (["includes", "on", "only", "except", "boost_where", "boost_by", "boost_function"] ++
      c.matchOptions.keys).Nodup := by
    rw [List.nodup_append]
    refine ⟨by decide, nodup_keys_of_distinct hm.matchOptions, ?_⟩
    rintro name hname _ hkey rfl
    exact hc.matchOptions name hkey (hreserved name hname)
  exact hnames.sublist (hs.cons_cons "includes")

theorem distinct_members {c : Clauses} (hm : c.MapsDistinct) (hc : c.Canonical) :
    ∀ member ∈ c.members, member.2.Distinct := by
  have htree (tree : ConditionTree) (h : tree.Canonical) :
      (Json.Value.object (conditionMembers tree)).Distinct := by
    have hd := distinct_toJson_condition h.distinct
    rwa [Condition.toJson] at hd
  simp only [Clauses.members, List.forall_mem_append]
  exact ⟨distinct_memberOf fun scope _ => distinct_toJson_scope scope,
    distinct_memberOf fun tree ht => htree tree (hc.only tree ht),
    distinct_memberOf fun tree ht => htree tree (hc.except tree ht),
    distinct_memberOf fun tree ht => htree tree (hc.boostWhere tree ht),
    distinct_memberOf fun field _ => .string field,
    distinct_memberOf fun script hs => distinct_toJson_script (hm.params script hs),
    distinct_of_mem_object hm.matchOptions⟩

/-- Canonical options are written without a name that stands twice in an object. -/
theorem distinct_toJson {o : SearchOptions} (hm : o.Every Clauses.MapsDistinct)
    (hc : o.Every Clauses.Canonical) : o.toJson.Distinct := by
  induction o with
  | plain c =>
    have hn := nodup_keys_members hm hc
    exact .object (List.nodup_cons.mp hn).2 (distinct_members hm hc)
  | including c text inner ih =>
    have hincluded : (Json.Value.array [.string text, inner.toJson]).Distinct := by
      refine .array ?_
      rw [List.forall_mem_cons, List.forall_mem_singleton]
      exact ⟨.string text, ih hm.2 hc.2⟩
    refine .object (nodup_keys_members hm.1 hc.1) ?_
    rw [List.forall_mem_cons]
    exact ⟨hincluded, distinct_members hm.1 hc.1⟩

end SearchCompiler
