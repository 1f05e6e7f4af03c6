import SearchCompiler.Proofs.Decoding
import SearchCompiler.Proofs.DistinctNames

/-!
The grammar of options. It is stated apart from the decoder, shape by shape, and decoding gives
options exactly for the values of the grammar.
-/

namespace SearchCompiler

inductive IsScalar : Json.Value → Prop
  | string {value : String} : IsScalar (.string value)
  | number {value : Json.Number} : IsScalar (.number value)
  | bool {value : Bool} : IsScalar (.bool value)

/-- A condition: a scalar, an array of scalars or an object of conditions. -/
inductive IsCondition : Json.Value → Prop
  | scalar {v : Json.Value} : IsScalar v → IsCondition v
  | array {items : List Json.Value} :
    (∀ item ∈ items, IsScalar item) → IsCondition (.array items)
  | object {members : Entries Json.Value} :
    (∀ member ∈ members, IsCondition member.2) → IsCondition (.object members)

/-- The fields to match: one by itself, or an array of at least one. -/
inductive IsFieldScope : Json.Value → Prop
  | field {field : String} : IsFieldScope (.string field)
  | fields {fields : List String} : fields ≠ [] → IsFieldScope (.strings fields)

/-- A member beside a script: parameters, which may be null. -/
inductive IsScriptMember : String × Json.Value → Prop
  | null : IsScriptMember ("params", .null)
  | params {params : Entries Json.Value} : IsScriptMember ("params", .object params)

/-- A script: by itself, in an array with or without an object of further members, or as the member
`script` of an object. -/
inductive IsScript : Json.Value → Prop
  | alone {script : String} : IsScript (.string script)
  | listed {script : String} : IsScript (.array [.string script])
  | listedWith {script : String} {extra : Entries Json.Value} :
    (∀ member ∈ extra, IsScriptMember member) → IsScript (.array [.string script, .object extra])
  | object {script : String} {members : Entries Json.Value} :
    ("script", .string script) ∈ members →
    (∀ member ∈ members, member.1 ≠ "script" → IsScriptMember member) → IsScript (.object members)

mutual

/-- A value of options: null, or an object of accepted members. -/
inductive Accepted : Json.Value → Prop
  | null : Accepted .null
  | object {members : Entries Json.Value} :
    (∀ member ∈ members, AcceptedMember member.1 member.2) → Accepted (.object members)

/-- A member of an object of options. -/
inductive AcceptedMember : String → Json.Value → Prop
  | null {key : String} : key ∈ reservedKeys → AcceptedMember key .null
  | on {v : Json.Value} : IsFieldScope v → AcceptedMember "on" v
  | conditions {key : String} {members : Entries Json.Value} :
    key ∈ ["only", "except", "boost_where"] → (∀ member ∈ members, IsCondition member.2) →
    AcceptedMember key (.object members)
  | includes {v : Json.Value} : AcceptedIncludes v → AcceptedMember "includes" v
  | boostBy {field : String} : AcceptedMember "boost_by" (.string field)
  | boostFunction {v : Json.Value} : IsScript v → AcceptedMember "boost_function" v
  | matchOption {key : String} {v : Json.Value} : key ∉ reservedKeys → AcceptedMember key v

/-- An included text: by itself, none, or in an array with or without options of its own. -/
inductive AcceptedIncludes : Json.Value → Prop
  | text {text : String} : AcceptedIncludes (.string text)
  | nothing : AcceptedIncludes (.array [])
  | listed {text : String} : AcceptedIncludes (.array [.string text])
  | listedWith {text : String} {options : Json.Value} :
    Accepted options → AcceptedIncludes (.array [.string text, options])

end

theorem exists_decodeScalar_iff {path : String} {v : Json.Value} :
    (∃ s, decodeScalar path v = .ok s) ↔ IsScalar v := by
  cases v with
  | string s => exact ⟨fun _ => .string, fun _ => ⟨.string s, rfl⟩⟩
  | number n => exact ⟨fun _ => .number, fun _ => ⟨.number n, rfl⟩⟩
  | bool b => exact ⟨fun _ => .bool, fun _ => ⟨.bool b, rfl⟩⟩
  | _ => exact ⟨nofun, nofun⟩

theorem isCondition_array_iff {items : List Json.Value} :
    IsCondition (.array items) ↔ ∀ item ∈ items, IsScalar item := by
  constructor
  · intro h
    cases h with
    | scalar h => cases h
    | array h => exact h
  · exact .array

theorem isCondition_object_iff {members : Entries Json.Value} :
    IsCondition (.object members) ↔ ∀ member ∈ members, IsCondition member.2 := by
  constructor
  · intro h
    cases h with
    | scalar h => cases h
    | object h => exact h
  · exact .object

theorem exists_decodeCondition_scalar_iff {path : String} {v : Json.Value}
    (ha : ∀ items, v ≠ .array items) (ho : ∀ members, v ≠ .object members) :
    (∃ condition, decodeCondition path v = .ok condition) ↔ IsCondition v := by
  have hd : decodeCondition path v = (do return .scalar (← decodeScalar path v)) := by
    cases v with
    | array items => exact absurd rfl (ha items)
    | object members => exact absurd rfl (ho members)
    | _ => unfold decodeCondition; rfl
  rw [hd, exists_ok_map, exists_decodeScalar_iff]
  constructor
  · exact .scalar
  · intro h
    cases h with
    | scalar h => exact h
    | array _ => exact absurd rfl (ha _)
    | object _ => exact absurd rfl (ho _)

mutual

theorem exists_decodeCondition_iff (path : String) (v : Json.Value) :
    (∃ condition, decodeCondition path v = .ok condition) ↔ IsCondition v := by
  match v with
  | .object members =>
    rw [decodeCondition, exists_ok_map, exists_decodeTree_iff, isCondition_object_iff]
  | .array items =>
    rw [decodeCondition, exists_ok_map, exists_ok_mapM, isCondition_array_iff]
    exact forall₂_congr fun _ _ => exists_decodeScalar_iff
  | .null | .bool _ | .number _ | .string _ =>
    exact exists_decodeCondition_scalar_iff nofun nofun

theorem exists_decodeTree_iff (path : String) (members : List (String × Json.Value)) :
    (∃ tree, decodeTree path members = .ok tree) ↔ ∀ member ∈ members, IsCondition member.2 := by
  match members with
  | [] =>
    rw [decodeTree]
    exact ⟨fun _ => List.forall_mem_nil _, fun _ => ⟨[], rfl⟩⟩
  | (key, v) :: rest =>
    rw [decodeTree, exists_ok_map₂, exists_decodeCondition_iff, exists_decodeTree_iff path rest,
      List.forall_mem_cons]

end

theorem exists_decodeConditions_iff (option : String) (v : Json.Value) :
    (∃ tree, decodeConditions option v = .ok tree) ↔
      ∃ members, v = .object members ∧ ∀ member ∈ members, IsCondition member.2 := by
  cases v with
  | object members =>
    have hm : (∃ tree, decodeConditions option (.object members) = .ok tree) ↔
        ∀ member ∈ members, IsCondition member.2 := by
      cases members with
      | nil => exact ⟨fun _ => List.forall_mem_nil _, fun _ => ⟨none, rfl⟩⟩
      | cons member rest => rw [decodeConditions, exists_ok_map, exists_decodeTree_iff]; nofun
    rw [hm]
    constructor
    · exact fun h => ⟨members, rfl, h⟩
    · rintro ⟨_, he, h⟩
      cases he
      exact h
  | _ => exact ⟨nofun, nofun⟩

theorem eq_string_of_decodeFieldName {v : Json.Value} {field : String}
    (h : decodeFieldName v = .ok field) : Json.Value.string field = v := by
  cases v with
  | string s => cases h; rfl
  | _ => cases h

theorem decodeFieldName_string (field : String) : decodeFieldName (.string field) = .ok field :=
  rfl

theorem exists_ofFields_iff {fields : List String} :
    (∃ scope, FieldScope.ofFields fields = .ok scope) ↔ fields ≠ [] := by
  match fields with
  | [] => exact ⟨nofun, fun h => absurd rfl h⟩
  | [field] => exact ⟨fun _ => List.cons_ne_nil _ _, fun _ => ⟨.single field, rfl⟩⟩
  | first :: second :: rest =>
    exact ⟨fun _ => List.cons_ne_nil _ _, fun _ => ⟨.multi (first :: second :: rest), rfl⟩⟩

theorem exists_decodeFieldScope_iff (v : Json.Value) :
    (∃ scope, decodeFieldScope v = .ok scope) ↔ IsFieldScope v := by
  constructor
  · rintro ⟨scope, h⟩
    unfold decodeFieldScope at h
    split at h
    · exact .field
    · obtain ⟨fields, hf, h⟩ := bind_eq_ok_iff.mp h
      rw [← map_of_mapM (fun _ _ => eq_string_of_decodeFieldName) hf]
      exact .fields (exists_ofFields_iff.mp ⟨scope, h⟩)
    · cases h
  · intro h
    cases h with
    | field => exact ⟨_, rfl⟩
    | @fields fields hne =>
      obtain ⟨scope, hs⟩ := exists_ofFields_iff.mpr hne
      exact ⟨scope, bind_eq_ok_iff.mpr ⟨fields, mapM_map_eq_pure decodeFieldName_string fields, hs⟩⟩

theorem exists_decodeScriptWith_iff (script : String) {extra : Entries Json.Value}
    (h : extra.keys.Nodup) :
    (∃ s, decodeScriptWith script extra = .ok s) ↔ ∀ member ∈ extra, IsScriptMember member := by
  constructor
  · rintro ⟨s, hs⟩
    unfold decodeScriptWith at hs
    split at hs
    · cases hs
    · next hf =>
      have hk (member : String × Json.Value) (hm : member ∈ extra) : member.1 = "params" := by
        simpa using List.find?_eq_none.mp hf _ (List.mem_map_of_mem (f := Prod.fst) hm)
      rcases Entries.eq_nil_or_singleton h hk with rfl | ⟨v, rfl⟩
      · exact List.forall_mem_nil _
      · rw [List.forall_mem_singleton]
        cases v with
        | null => exact .null
        | object params => exact .params
        | _ => cases hs
  · intro ha
    have hk (member : String × Json.Value) (hm : member ∈ extra) : member.1 = "params" := by
      cases ha member hm <;> rfl
    rcases Entries.eq_nil_or_singleton h hk with rfl | ⟨v, rfl⟩
    · exact ⟨_, rfl⟩
    · cases ha _ List.mem_cons_self with
      | null => exact ⟨_, rfl⟩
      | params => exact ⟨_, rfl⟩

theorem nodup_keys_of_distinct {members : Entries Json.Value}
    (h : (Json.Value.object members).Distinct) : members.keys.Nodup := by
  cases h with
  | object hn _ => exact hn

theorem distinct_of_mem_object {members : Entries Json.Value}
    (h : (Json.Value.object members).Distinct) : ∀ member ∈ members, member.2.Distinct := by
  cases h with
  | object _ hm => exact hm

theorem distinct_of_mem_array {items : List Json.Value} (h : (Json.Value.array items).Distinct) :
    ∀ item ∈ items, item.Distinct := by
  cases h with
  | array hi => exact hi

theorem exists_decodeScript_iff {v : Json.Value} (h : v.Distinct) :
    (∃ script, decodeScript v = .ok script) ↔ IsScript v := by
  constructor
  · rintro ⟨s, hs⟩
    unfold decodeScript at hs
    split at hs
    · exact .alone
    · exact .listed
    · next script extra =>
      have hn := nodup_keys_of_distinct (distinct_of_mem_array h (.object extra) (by simp))
      exact .listedWith ((exists_decodeScriptWith_iff script hn).mp ⟨s, hs⟩)
    · cases hs
    · next members =>
      have hn := nodup_keys_of_distinct h
      split at hs
      · next script hl =>
        have ha := (exists_decodeScriptWith_iff script
          (Entries.nodup_keys_swapErase hn "script")).mp ⟨s, hs⟩
        exact .object ((Entries.lookup_eq_some_iff hn).mp hl) fun member hm hne =>
          ha member ((Entries.mem_swapErase_iff hn).mpr ⟨hm, hne⟩)
      · cases hs
    · cases hs
  · intro hs
    cases hs with
    | alone => exact ⟨_, rfl⟩
    | listed => exact ⟨_, rfl⟩
    | @listedWith script extra ha =>
      have hn := nodup_keys_of_distinct (distinct_of_mem_array h (.object extra) (by simp))
      exact (exists_decodeScriptWith_iff script hn).mpr ha
    | @object script members hm ha =>
      have hn := nodup_keys_of_distinct h
      have hrest : ∀ member ∈ Entries.swapErase "script" members, IsScriptMember member := by
        intro member hmem
        obtain ⟨hmem, hne⟩ := (Entries.mem_swapErase_iff hn).mp hmem
        exact ha member hmem hne
      rw [decodeScript, (Entries.lookup_eq_some_iff hn).mpr hm]
      exact (exists_decodeScriptWith_iff script (Entries.nodup_keys_swapErase hn _)).mpr hrest

/-- A member decodes to the setting that it asks for. -/
theorem decodeMember_of_asks {key : String} {v : Json.Value} {s : Setting} (h : Asks key v s) :
    decodeMember key v = .ok s := by
  cases s with
  | nothing => exact if_pos h
  | matchOption name w =>
    obtain ⟨rfl, rfl, hk⟩ := h
    have hk' := hk
    simp only [reservedKeys, List.mem_cons, List.not_mem_nil, or_false, not_or] at hk'
    rw [decodeMember, if_neg fun hn => hk hn.2, if_neg hk'.2.2.2.1, decodeSimple]
    simp [hk']
  | includes nested =>
    obtain ⟨rfl, hn, hd⟩ := h
    rw [decodeMember, if_neg fun hv => hn hv.1, if_pos rfl, hd]
    rfl
  | _ =>
    obtain ⟨rfl, hn, hd⟩ := h
    rw [decodeMember, if_neg fun hv => hn hv.1, if_neg (by decide), decodeSimple]
    simp only [↓reduceIte, String.reduceEq, hd]
    rfl

theorem acceptedMember_of_asks {key : String} {v : Json.Value} {s : Setting} (hv : v.Distinct)
    (hi : (∃ nested, decodeIncludes v = .ok nested) → AcceptedIncludes v) (h : Asks key v s) :
    AcceptedMember key v := by
  cases s with
  | nothing =>
    obtain ⟨hn, hk⟩ := h
    cases v with
    | null => exact .null hk
    | _ => cases hn
  | on scope =>
    obtain ⟨rfl, _, hd⟩ := h
    exact .on ((exists_decodeFieldScope_iff v).mp ⟨scope, hd⟩)
  | only tree | except tree | boostWhere tree =>
    obtain ⟨rfl, _, hd⟩ := h
    obtain ⟨members, rfl, hm⟩ := (exists_decodeConditions_iff _ v).mp ⟨tree, hd⟩
    exact .conditions (by decide) hm
  | includes nested =>
    obtain ⟨rfl, _, hd⟩ := h
    exact .includes (hi ⟨nested, hd⟩)
  | boostBy field =>
    obtain ⟨rfl, _, hd⟩ := h
    cases v with
    | string s => exact .boostBy
    | _ => cases hd
  | boostFunction script =>
    obtain ⟨rfl, _, hd⟩ := h
    exact .boostFunction ((exists_decodeScript_iff hv).mp ⟨script, hd⟩)
  | matchOption name w => exact .matchOption h.2.2

theorem exists_asks_of_acceptedMember {key : String} {v : Json.Value} (hv : v.Distinct)
    (hi : AcceptedIncludes v → ∃ nested, decodeIncludes v = .ok nested)
    (h : AcceptedMember key v) : ∃ s, Asks key v s := by
  cases h with
  | null hk => exact ⟨.nothing, rfl, hk⟩
  | on h =>
    obtain ⟨scope, hd⟩ := (exists_decodeFieldScope_iff v).mpr h
    have hn : v.kind ≠ .null := by cases h <;> nofun
    exact ⟨.on scope, rfl, hn, hd⟩
  | @conditions _ members hk hm =>
    obtain ⟨tree, hd⟩ := (exists_decodeConditions_iff key _).mpr ⟨members, rfl, hm⟩
    simp only [List.mem_cons, List.not_mem_nil, or_false] at hk
    rcases hk with rfl | rfl | rfl
    · exact ⟨.only tree, rfl, nofun, hd⟩
    · exact ⟨.except tree, rfl, nofun, hd⟩
    · exact ⟨.boostWhere tree, rfl, nofun, hd⟩
  | includes h =>
    obtain ⟨nested, hd⟩ := hi h
    have hn : v.kind ≠ .null := by cases h <;> nofun
    exact ⟨.includes nested, rfl, hn, hd⟩
  | @boostBy field => exact ⟨.boostBy field, rfl, nofun, rfl⟩
  | boostFunction h =>
    obtain ⟨script, hd⟩ := (exists_decodeScript_iff hv).mpr h
    have hn : v.kind ≠ .null := by cases h <;> nofun
    exact ⟨.boostFunction script, rfl, hn, hd⟩
  | matchOption hk => exact ⟨.matchOption key v, rfl, rfl, hk⟩

theorem exists_decodeMember_iff {key : String} {v : Json.Value} (hv : v.Distinct)
    (hi : (∃ nested, decodeIncludes v = .ok nested) ↔ AcceptedIncludes v) :
    (∃ s, decodeMember key v = .ok s) ↔ AcceptedMember key v := by
  constructor
  · rintro ⟨s, hs⟩
    exact acceptedMember_of_asks hv hi.mp (asks_of_decodeMember hs)
  · intro ha
    obtain ⟨s, hs⟩ := exists_asks_of_acceptedMember hv hi.mpr ha
    exact ⟨s, decodeMember_of_asks hs⟩

-- By induction on the value, along its members and into the options of an included text.
mutual

theorem exists_decode_iff (v : Json.Value) (h : v.Distinct) :
    (∃ o, SearchOptions.decode v = .ok o) ↔ Accepted v := by
  match v with
  | .null => exact ⟨fun _ => .null, fun _ => ⟨.empty, by rw [SearchOptions.decode]⟩⟩
  | .object members =>
    rw [SearchOptions.decode, exists_ok_map,
      exists_decodeSettings_iff members (distinct_of_mem_object h)]
    constructor
    · exact .object
    · intro ha
      cases ha with
      | object ha => exact ha
  | .bool _ | .number _ | .string _ | .array _ =>
    constructor
    · rintro ⟨o, ho⟩
      unfold SearchOptions.decode at ho
      cases ho
    · nofun

theorem exists_decodeSettings_iff (members : List (String × Json.Value))
    (h : ∀ member ∈ members, member.2.Distinct) :
    (∃ settings, decodeSettings members = .ok settings) ↔
      ∀ member ∈ members, AcceptedMember member.1 member.2 := by
  match members with
  | [] =>
    rw [decodeSettings]
    exact ⟨fun _ => List.forall_mem_nil _, fun _ => ⟨[], rfl⟩⟩
  | (key, v) :: rest =>
    rw [List.forall_mem_cons] at h
    rw [decodeSettings_cons, exists_ok_map₂,
      exists_decodeMember_iff h.1 (exists_decodeIncludes_iff v h.1),
      exists_decodeSettings_iff rest h.2, List.forall_mem_cons]

theorem exists_decodeIncludes_iff (v : Json.Value) (h : v.Distinct) :
    (∃ nested, decodeIncludes v = .ok nested) ↔ AcceptedIncludes v := by
  match v with
  | .string text => exact ⟨fun _ => .text, fun _ => ⟨_, by rw [decodeIncludes]⟩⟩
  | .array [] => exact ⟨fun _ => .nothing, fun _ => ⟨none, by rw [decodeIncludes]⟩⟩
  | .array [.string text] => exact ⟨fun _ => .listed, fun _ => ⟨_, by rw [decodeIncludes]⟩⟩
  | .array [.string text, options] =>
    have ho : options.Distinct := distinct_of_mem_array h options (by simp)
    rw [decodeIncludes, exists_ok_map, exists_decode_iff options ho]
    constructor
    · exact .listedWith
    · intro ha
      cases ha with
      | listedWith ha => exact ha
  -- All other shapes are refused: no array, no text in the first place, or too many items.
  | .null | .bool _ | .number _ | .object _ | .array (.null :: _) | .array (.bool _ :: _)
  | .array (.number _ :: _) | .array (.array _ :: _) | .array (.object _ :: _)
  | .array (.string _ :: _ :: _ :: _) =>
    constructor
    · rintro ⟨nested, hn⟩
      unfold decodeIncludes at hn
      cases hn
    · nofun

end

/-- Decoding gives options exactly for the values of the grammar, where no object of the value holds
a name twice; and no object of a value that is read from a text does. -/
theorem decode_grammar :
    (∀ v : Json.Value, v.Distinct → ((∃ o, SearchOptions.decode v = .ok o) ↔ Accepted v)) ∧
      ∀ (text : String) (v : Json.Value), Json.parse text = .ok v → v.Distinct :=
  ⟨exists_decode_iff, fun _ _ => Json.distinct_of_parse⟩

theorem decode_grammar_green :
    let nested : Json.Value := .object
      [("on", .array [.string "name"]), ("only", .null), ("boost_function", .array [.string "score"])]
    let v : Json.Value := .single "includes" (.array [.string "green", nested])
    let w : Json.Value := .array [.null]
    v.Distinct ∧ Accepted v ∧ Json.parse "[null]" = .ok w ∧ ¬ Accepted w := by
  intro nested v w
  have hlist (s : String) : (Json.Value.array [.string s]).Distinct :=
    .array (List.forall_mem_singleton.mpr (.string s))
  have hn : nested.Distinct := by
    refine .object (by decide) ?_
    rw [List.forall_mem_cons, List.forall_mem_cons, List.forall_mem_singleton]
    exact ⟨hlist "name", .null, hlist "score"⟩
  have hv : v.Distinct := by
    refine .object (by decide) (List.forall_mem_singleton.mpr (.array ?_))
    rw [List.forall_mem_cons, List.forall_mem_singleton]
    exact ⟨.string "green", hn⟩
  have hw : Json.parse "[null]" = .ok w := rfl
  have ha : ∃ o, SearchOptions.decode v = .ok o := ⟨_, by cbv⟩
  have he : SearchOptions.decode w = .error (.invalidShape "options" (.notOptions .array)) := by
    cbv
  have hr : ¬ ∃ o, SearchOptions.decode w = .ok o := by
    rintro ⟨o, ho⟩
    rw [he] at ho
    cases ho
  obtain ⟨hiff, hdist⟩ := decode_grammar
  exact ⟨hv, (hiff v hv).mp ha, hw, mt (hiff w (hdist _ w hw)).mpr hr⟩

end SearchCompiler
