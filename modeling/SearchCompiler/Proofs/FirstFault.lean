import SearchCompiler.Proofs.FilterDocuments
import SearchCompiler.Proofs.RewrittenLevels

/-!
Which fault an error of decoding is about. An object is refused for the first of its members that is
refused alone, conditions are refused for the first of their leaves that is no condition, under the
names that lead to it, and options of an included text are refused as they are by themselves.
-/

namespace SearchCompiler

/-- A value that is no scalar, with the words that name its type. -/
inductive Unfit : Json.Value → String → Prop
  | null : Unfit .null "null"
  | array {items : List Json.Value} : Unfit (.array items) "an array"
  | object {members : Entries Json.Value} : Unfit (.object members) "an object"

/-- A leaf that is no condition, with what is unfit about it: a null is unfit itself, an array
through the first of its items that is no scalar. -/
inductive Offends : Json.Value → Json.Value → Prop
  | null : Offends .null .null
  | item {before after : List Json.Value} {item : Json.Value} :
    (∀ other ∈ before, IsScalar other) → ¬ IsScalar item →
    Offends (.array (before ++ item :: after)) item

/-- The first of some leaves that is no condition, by the names that lead to it and what is unfit
about it. -/
inductive FirstOffender : List (List String × Json.Value) → List String → Json.Value → Prop
  | found {before after : List (List String × Json.Value)} {names : List String}
      {v item : Json.Value} :
    (∀ leaf ∈ before, ∀ other, ¬ Offends leaf.2 other) → Offends v item →
    FirstOffender (before ++ (names, v) :: after) names item

/-- The names of options that take conditions. -/
def conditionKeys : List String :=
  ["only", "except", "boost_where"]

/-- What an option that takes conditions is refused for: it is no object, or a leaf is unfit. The
error is about the option or the path to the leaf, and its message names the type of what is unfit
there. -/
inductive ReportsConditions (option : String) : Json.Value → CompileError → Prop
  | notObject {v : Json.Value} : (∀ members, v ≠ .object members) →
    ReportsConditions option v (.invalidShape option (.notConditions v.kind))
  | leaf {members : Entries Json.Value} {names : List String} {item : Json.Value} {words : String}
      {e : CompileError} :
    FirstOffender (memberLeaves members) names item → Unfit item words →
    e = .invalidShape (option ++ "." ++ dotted names) (.notScalar item.kind) →
    e.message = "invalid `" ++ (option ++ "." ++ dotted names) ++ "` option: " ++
      ("expected a string, number or boolean, found " ++ words) →
    ReportsConditions option (.object members) e

/-- An error that names an option, or a path into the conditions that it takes. -/
inductive Concerns (key : String) : CompileError → Prop
  | option {fault : ShapeFault} : Concerns key (.invalidShape key fault)
  | path {names : List String} {kind : Json.Kind} : key ∈ conditionKeys →
    Concerns key (.invalidShape (key ++ "." ++ dotted names) (.notScalar kind))

/-- An error about an option that has a meaning of its own, or about options as a whole. -/
def CompileError.IsDecoding (e : CompileError) : Prop :=
  ∃ key ∈ "options" :: reservedKeys, Concerns key e

theorem mem_conditionKeys_iff {key : String} :
    key ∈ conditionKeys ↔ key = "only" ∨ key = "except" ∨ key = "boost_where" := by
  rw [conditionKeys, List.mem_cons, List.mem_cons, List.mem_singleton]

/-- A value is a scalar or there are words for its type. -/
theorem isScalar_or_unfit (v : Json.Value) : IsScalar v ∨ ∃ words, Unfit v words := by
  cases v with
  | null => exact .inr ⟨_, .null⟩
  | bool b => exact .inl .bool
  | number n => exact .inl .number
  | string s => exact .inl .string
  | array items => exact .inr ⟨_, .array⟩
  | object members => exact .inr ⟨_, .object⟩

/-- There are words for the type of what is unfit. -/
theorem Offends.exists_unfit {v item : Json.Value} (h : Offends v item) :
    ∃ words, Unfit item words := by
  cases h with
  | null => exact ⟨_, .null⟩
  | item _ hu => exact (isScalar_or_unfit item).resolve_left hu

theorem FirstOffender.exists_unfit {leaves : List (List String × Json.Value)} {names : List String}
    {item : Json.Value} (h : FirstOffender leaves names item) : ∃ words, Unfit item words := by
  cases h with
  | found _ ho => exact ho.exists_unfit

/-- The message about a leaf names the type of what is unfit. -/
theorem message_of_unfit {item : Json.Value} {words : String} (h : Unfit item words)
    (path : String) :
    (CompileError.invalidShape path (.notScalar item.kind)).message =
      "invalid `" ++ path ++ "` option: " ++
        ("expected a string, number or boolean, found " ++ words) := by
  have hphrase : item.kind.phrase = words := by cases h <;> rfl
  subst hphrase
  rfl

theorem valueLeaves_eq_singleton {v : Json.Value} (h : v.kind ≠ .object) :
    valueLeaves v = [([], v)] := by
  cases v with
  | object members => exact absurd rfl h
  | _ => unfold valueLeaves; rfl

theorem mem_memberLeaves {members : Entries Json.Value} {leaf : List String × Json.Value}
    (h : leaf ∈ memberLeaves members) :
    ∃ member ∈ members, ∃ inner ∈ valueLeaves member.2, leaf = (member.1 :: inner.1, inner.2) := by
  induction members with
  | nil => rw [memberLeaves] at h; cases h
  | cons member rest ih =>
    rw [memberLeaves] at h
    rcases List.mem_append.mp h with h | h
    · obtain ⟨inner, hi, rfl⟩ := List.mem_map.mp h
      exact ⟨member, List.mem_cons_self, inner, hi, rfl⟩
    · obtain ⟨later, hl, found⟩ := ih h
      exact ⟨later, List.mem_cons_of_mem _ hl, found⟩

/-- A condition has no leaf that is unfit. -/
theorem not_offends_of_isCondition {v : Json.Value} (h : IsCondition v) :
    ∀ leaf ∈ valueLeaves v, ∀ item, ¬ Offends leaf.2 item := by
  induction h with
  | @scalar v h =>
    intro leaf hl item ho
    have hv : v.kind ≠ .object := by cases h <;> nofun
    rw [valueLeaves_eq_singleton hv, List.mem_singleton] at hl
    subst hl
    cases h <;> cases ho
  | @array items h =>
    intro leaf hl item ho
    rw [valueLeaves_eq_singleton (v := .array items) nofun, List.mem_singleton] at hl
    subst hl
    cases ho with
    | item _ hu => exact hu (h _ (by simp))
  | @object members _ ih =>
    intro leaf hl item ho
    rw [valueLeaves] at hl
    obtain ⟨member, hm, inner, hi, rfl⟩ := mem_memberLeaves hl
    exact ih member hm inner hi item ho

section Offenders

variable {xs ys : List (List String × Json.Value)} {names : List String} {item : Json.Value}

theorem FirstOffender.append (h : FirstOffender xs names item) (ys) :
    FirstOffender (xs ++ ys) names item := by
  cases h with
  | found hb ho =>
    rw [List.append_assoc, List.cons_append]
    exact .found hb ho

theorem FirstOffender.prepend (hx : ∀ leaf ∈ xs, ∀ other, ¬ Offends leaf.2 other)
    (h : FirstOffender ys names item) : FirstOffender (xs ++ ys) names item := by
  cases h with
  | found hb ho =>
    rw [← List.append_assoc]
    exact .found (List.forall_mem_append.mpr ⟨hx, hb⟩) ho

theorem FirstOffender.under (h : FirstOffender xs names item) (key : String) :
    FirstOffender (xs.map fun leaf => (key :: leaf.1, leaf.2)) (key :: names) item := by
  cases h with
  | found hb ho =>
    rw [List.map_append, List.map_cons]
    exact .found (List.forall_mem_map.mpr hb) ho

end Offenders

theorem dotted_append_cons (stem key : String) (names : List String) :
    dotted ((stem ++ key) :: names) = stem ++ dotted (key :: names) := by
  cases names with
  | nil => rw [dotted_singleton, dotted_singleton]
  | cons next rest =>
    rw [dotted_cons (List.cons_ne_nil _ _), dotted_cons (List.cons_ne_nil _ _)]
    simp only [String.append_assoc]

theorem decodeScalar_eq_error {path : String} {v : Json.Value} {e : CompileError}
    (h : decodeScalar path v = .error e) :
    ¬ IsScalar v ∧ e = .invalidShape path (.notScalar v.kind) := by
  cases v <;> cases h <;> exact ⟨nofun, rfl⟩

-- By induction on the value, where a nested object is refused under a path that its name extends.
mutual

theorem decodeCondition_eq_error (path : String) (v : Json.Value) {e : CompileError}
    (h : decodeCondition path v = .error e) :
    ∃ names item, FirstOffender (valueLeaves v) names item ∧
      e = .invalidShape (dotted (path :: names)) (.notScalar item.kind) := by
  match v with
  | .object members =>
    rw [decodeCondition, map_eq_error_iff] at h
    obtain ⟨names, item, hn, hf, rfl⟩ := decodeTree_eq_error path members h
    rw [valueLeaves]
    exact ⟨names, item, hf, by rw [dotted_cons hn]⟩
  | .array items =>
    rw [decodeCondition, map_eq_error_iff] at h
    obtain ⟨before, item, after, rfl, hb, he⟩ := exists_first_of_mapM_error h
    obtain ⟨hu, rfl⟩ := decodeScalar_eq_error he
    have hfit : ∀ other ∈ before, IsScalar other := fun other ho =>
      exists_decodeScalar_iff.mp (hb other ho)
    exact ⟨[], item, .found (List.forall_mem_nil _) (.item hfit hu), by
      rw [dotted_singleton]⟩
  | .null =>
    have he := (decodeScalar_eq_error (map_eq_error_iff.mp h)).2
    exact ⟨[], .null, .found (List.forall_mem_nil _) .null, by rw [he, dotted_singleton]⟩
  | .bool _ | .number _ | .string _ => cases h

theorem decodeTree_eq_error (path : String) (members : List (String × Json.Value))
    {e : CompileError} (h : decodeTree path members = .error e) :
    ∃ names item, names ≠ [] ∧ FirstOffender (memberLeaves members) names item ∧
      e = .invalidShape (path ++ "." ++ dotted names) (.notScalar item.kind) := by
  match members with
  | [] => rw [decodeTree] at h; cases h
  | (key, v) :: rest =>
    rw [decodeTree] at h
    rw [memberLeaves]
    -- Either this member is refused, or its leaves are all fit and come before the unfit one.
    rcases bind_eq_error_iff.mp h with he | ⟨condition, hc, h⟩
    · obtain ⟨names, item, hf, rfl⟩ := decodeCondition_eq_error (path ++ "." ++ key) v he
      exact ⟨key :: names, item, List.cons_ne_nil _ _, (hf.under key).append _, by
        rw [dotted_append_cons]⟩
    · obtain ⟨names, item, hn, hf, rfl⟩ := decodeTree_eq_error path rest (map_eq_error_iff.mp h)
      have hfit := not_offends_of_isCondition ((exists_decodeCondition_iff _ v).mp ⟨condition, hc⟩)
      exact ⟨names, item, hn, .prepend (List.forall_mem_map.mpr hfit) hf, rfl⟩

end

/-- Conditions are refused for being no object, or for the first leaf that is unfit. -/
theorem reportsConditions_of_decode {option : String} {v : Json.Value} {e : CompileError}
    (h : decodeConditions option v = .error e) : ReportsConditions option v e := by
  unfold decodeConditions at h
  split at h
  · cases h
  · obtain ⟨names, item, _, hf, rfl⟩ := decodeTree_eq_error option _ (map_eq_error_iff.mp h)
    obtain ⟨words, hu⟩ := hf.exists_unfit
    exact .leaf hf hu rfl (message_of_unfit hu _)
  · next hobject =>
    cases h
    exact .notObject hobject

section Members

variable {key : String} {v : Json.Value} {e : CompileError}

theorem decodeMember_conditions (hk : key ∈ conditionKeys) (hv : v.kind ≠ .null) :
    ∃ setting : Option ConditionTree → Setting,
      decodeMember key v = (do return setting (← decodeConditions key v)) := by
  have hd : decodeMember key v = decodeSimple key v := by
    rw [decodeMember, if_neg fun h => hv h.1, if_neg]
    rintro rfl
    exact absurd hk (by decide)
  rcases mem_conditionKeys_iff.mp hk with rfl | rfl | rfl
  · exact ⟨.only, hd⟩
  · exact ⟨.except, hd⟩
  · exact ⟨.boostWhere, hd⟩

theorem kind_ne_null_of_error (hk : key ∈ reservedKeys) (h : decodeMember key v = .error e) :
    v.kind ≠ .null := by
  intro hv
  rw [decodeMember, if_pos ⟨hv, hk⟩] at h
  cases h

theorem reportsConditions_of_decodeMember (hk : key ∈ conditionKeys)
    (h : decodeMember key v = .error e) : ReportsConditions key v e := by
  have hr : key ∈ reservedKeys := by
    rcases mem_conditionKeys_iff.mp hk with rfl | rfl | rfl <;> decide
  obtain ⟨setting, hd⟩ := decodeMember_conditions hk (kind_ne_null_of_error hr h)
  rw [hd, map_eq_error_iff] at h
  exact reportsConditions_of_decode h

theorem decode_eq_error_of_listed {text : String} {options : Json.Value}
    (h : decodeMember "includes" (.array [.string text, options]) = .error e) :
    SearchOptions.decode options = .error e := by
  rwa [decodeMember_listed, map_eq_error_iff] at h

theorem decode_alone_eq_error_iff :
    SearchOptions.decode (.object [(key, v)]) = .error e ↔ decodeMember key v = .error e := by
  rw [SearchOptions.decode, map_eq_error_iff, decodeSettings_cons, decodeSettings]
  exact map_eq_error_iff

theorem concerns_of_decodeFieldScope (h : decodeFieldScope v = .error e) : Concerns "on" e := by
  unfold decodeFieldScope at h
  split at h
  · cases h
  · rcases bind_eq_error_iff.mp h with h | ⟨fields, _, h⟩
    · obtain ⟨_, item, _, _, _, he⟩ := exists_first_of_mapM_error h
      cases item <;> cases he <;> exact .option
    · unfold FieldScope.ofFields at h
      split at h <;> cases h
      exact .option
  · cases h
    exact .option

theorem concerns_of_decodeScriptWith {script : String} {extra : Entries Json.Value}
    (h : decodeScriptWith script extra = .error e) : Concerns "boost_function" e := by
  unfold decodeScriptWith at h
  split at h
  · cases h
    exact .option
  · split at h <;> cases h
    exact .option

theorem concerns_of_decodeScript (h : decodeScript v = .error e) : Concerns "boost_function" e := by
  unfold decodeScript at h
  split at h
  · cases h
  · cases h
  · exact concerns_of_decodeScriptWith h
  · cases h
    exact .option
  · split at h
    · exact concerns_of_decodeScriptWith h
    · cases h
      exact .option
  · cases h
    exact .option

theorem concerns_of_decodeBoostField (h : decodeBoostField v = .error e) :
    Concerns "boost_by" e := by
  cases v <;> cases h <;> exact .option

theorem concerns_of_decodeConditions (hk : key ∈ conditionKeys)
    (h : decodeConditions key v = .error e) : Concerns key e := by
  cases reportsConditions_of_decode h with
  | notObject => exact .option
  | leaf _ _ he _ => exact he ▸ .path hk

theorem isDecoding_of_decodeSimple (h : decodeSimple key v = .error e) : e.IsDecoding := by
  unfold decodeSimple at h
  -- One case for each reserved name in turn; an option of a match is never refused.
  split_ifs at h
  · exact ⟨"on", by decide, concerns_of_decodeFieldScope (map_eq_error_iff.mp h)⟩
  · exact ⟨"only", by decide, concerns_of_decodeConditions (by decide) (map_eq_error_iff.mp h)⟩
  · exact ⟨"except", by decide, concerns_of_decodeConditions (by decide) (map_eq_error_iff.mp h)⟩
  · exact ⟨"boost_where", by decide,
      concerns_of_decodeConditions (by decide) (map_eq_error_iff.mp h)⟩
  · exact ⟨"boost_by", by decide, concerns_of_decodeBoostField (map_eq_error_iff.mp h)⟩
  · exact ⟨"boost_function", by decide, concerns_of_decodeScript (map_eq_error_iff.mp h)⟩

theorem isDecoding_of_decodeMember (hi : ∀ e, decodeIncludes v = .error e → e.IsDecoding)
    (h : decodeMember key v = .error e) : e.IsDecoding := by
  unfold decodeMember at h
  split_ifs at h
  · exact hi e (map_eq_error_iff.mp h)
  · exact isDecoding_of_decodeSimple h

/-- An object is refused for the first of its members that is refused alone, with the same error. -/
theorem exists_first_of_decode_error {members : Entries Json.Value}
    (h : SearchOptions.decode (.object members) = .error e) :
    ∃ before key v after, members = before ++ (key, v) :: after ∧
      (∀ member ∈ before, ∃ o, SearchOptions.decode (.object [member]) = .ok o) ∧
      decodeMember key v = .error e := by
  rw [SearchOptions.decode, map_eq_error_iff, decodeSettings_eq_mapM] at h
  obtain ⟨before, ⟨key, v⟩, after, hm, hb, he⟩ := exists_first_of_mapM_error h
  refine ⟨before, key, v, after, hm, fun member hmem => ?_, he⟩
  rw [exists_decode_object_iff, List.forall_mem_singleton]
  exact hb member hmem

end Members

-- By induction on the value, along its members and into the options of an included text.
mutual

theorem isDecoding_of_decode (v : Json.Value) (e : CompileError)
    (h : SearchOptions.decode v = .error e) : e.IsDecoding := by
  match v with
  | .null => rw [SearchOptions.decode] at h; cases h
  | .object members =>
    rw [SearchOptions.decode, map_eq_error_iff] at h
    exact isDecoding_of_decodeSettings members e h
  | .bool _ | .number _ | .string _ | .array _ =>
    unfold SearchOptions.decode at h
    cases h
    exact ⟨"options", by decide, .option⟩

theorem isDecoding_of_decodeSettings (members : List (String × Json.Value)) (e : CompileError)
    (h : decodeSettings members = .error e) : e.IsDecoding := by
  match members with
  | [] => rw [decodeSettings] at h; cases h
  | (key, v) :: rest =>
    rw [decodeSettings_cons] at h
    rcases bind_eq_error_iff.mp h with h | ⟨s, _, h⟩
    · exact isDecoding_of_decodeMember (isDecoding_of_decodeIncludes v) h
    · exact isDecoding_of_decodeSettings rest e (map_eq_error_iff.mp h)

theorem isDecoding_of_decodeIncludes (v : Json.Value) (e : CompileError)
    (h : decodeIncludes v = .error e) : e.IsDecoding := by
  match v with
  | .string text => rw [decodeIncludes] at h; cases h
  | .array [] => rw [decodeIncludes] at h; cases h
  | .array [.string text] => rw [decodeIncludes] at h; cases h
  | .array [.string text, options] =>
    rw [decodeIncludes, map_eq_error_iff] at h
    exact isDecoding_of_decode options e h
  | .null | .bool _ | .number _ | .object _ | .array (.null :: _) | .array (.bool _ :: _)
  | .array (.number _ :: _) | .array (.array _ :: _) | .array (.object _ :: _)
  | .array (.string _ :: _ :: _ :: _) =>
    unfold decodeIncludes at h
    cases h
    exact ⟨"includes", by decide, .option⟩

end

theorem isSome_shapeHint?_iff (option : String) :
    (shapeHint? option).isSome ↔ option ∈ ["on", "boost_function", "includes"] := by
  unfold shapeHint?
  split_ifs with hon hfunction hincludes
  · simp [hon]
  · simp [hfunction]
  · simp [hincludes]
  · simp [hon, hfunction, hincludes]

/-- A path into conditions is not the name of an option. -/
theorem shapeHint?_path {key : String} (hk : key ∈ conditionKeys) (path : String) :
    shapeHint? (key ++ "." ++ path) = none := by
  have hne : key ++ "." ++ path ∉ ["on", "boost_function", "includes"] := by
    -- The names differ in one of their first characters, whatever the path.
    simp only [List.mem_cons, List.not_mem_nil, or_false, ← String.toList_inj, String.toList_append]
    rcases mem_conditionKeys_iff.mp hk with rfl | rfl | rfl <;> simp
  exact Option.not_isSome_iff_eq_none.mp (mt (isSome_shapeHint?_iff _).mp hne)

/-- An error of decoding has a hint exactly if the option that it names is one of three. -/
theorem isSome_hint?_iff {e : CompileError} (h : e.IsDecoding) :
    e.hint?.isSome ↔
      ∃ option ∈ ["on", "boost_function", "includes"], ∃ fault, e = .invalidShape option fault := by
  have hshape : ∃ option fault, e = .invalidShape option fault := by
    obtain ⟨key, _, hc⟩ := h
    cases hc <;> exact ⟨_, _, rfl⟩
  obtain ⟨option, fault, rfl⟩ := hshape
  rw [CompileError.hint?, isSome_shapeHint?_iff]
  constructor
  · intro ho
    exact ⟨option, ho, fault, rfl⟩
  · rintro ⟨_, ho, _, he⟩
    cases he
    exact ho

/-- Decoding refuses an object for the first of its members that is refused alone. Conditions are
refused for being no object or, under the names that lead to it, for the first leaf in document
order that is unfit, in a message that names the type of the null or of the first unfit item; an
included text is refused as its options are. Every error of decoding names an option or a path into
conditions. It has a hint exactly if what it names is one of three options, and no path into
conditions is one of these. -/
theorem decode_firstFault :
    (∀ members e, SearchOptions.decode (.object members) = .error e →
      ∃ before key v after, members = before ++ (key, v) :: after ∧
        (∀ member ∈ before, ∃ o, SearchOptions.decode (.object [member]) = .ok o) ∧
        SearchOptions.decode (.object [(key, v)]) = .error e ∧
        (key ∈ conditionKeys → ReportsConditions key v e) ∧
        ∀ text options, (key, v) = ("includes", .array [.string text, options]) →
          SearchOptions.decode options = .error e) ∧
    (∀ v e, SearchOptions.decode v = .error e →
      (∃ key ∈ "options" :: reservedKeys, Concerns key e) ∧
        (e.hint?.isSome ↔ ∃ option ∈ ["on", "boost_function", "includes"], ∃ fault,
          e = .invalidShape option fault)) ∧
    ∀ key ∈ conditionKeys, ∀ path fault,
      (CompileError.invalidShape (key ++ "." ++ path) fault).hint? = none := by
  refine ⟨fun members e h => ?_, fun v e h => ?_, fun key hk path _ => shapeHint?_path hk path⟩
  · obtain ⟨before, key, v, after, hm, hb, he⟩ := exists_first_of_decode_error h
    refine ⟨before, key, v, after, hm, hb, decode_alone_eq_error_iff.mpr he,
      fun hk => reportsConditions_of_decodeMember hk he, fun text options hv => ?_⟩
    cases hv
    exact decode_eq_error_of_listed he
  · have hd := isDecoding_of_decode v e h
    exact ⟨hd, isSome_hint?_iff hd⟩

theorem decode_firstFault_company :
    let conditions : Entries Json.Value :=
      [("sku", .string "7"), ("company", .single "id" (.array [.bool true, .null]))]
    let members : Entries Json.Value :=
      [("operator", .string "and"), ("except", .object conditions), ("on", .null)]
    let e : CompileError := .invalidShape "except.company.id" (.notScalar .null)
    SearchOptions.decode (.object members) = .error e ∧
      ReportsConditions "except" (.object conditions) e ∧
      e.message = "invalid `except.company.id` option: " ++
        "expected a string, number or boolean, found null" ∧
      e.hint? = none ∧
      ∃ key ∈ "options" :: reservedKeys, Concerns key e := by
  intro conditions members e
  obtain ⟨hfirst, hnames, hpath⟩ := decode_firstFault
  have hd : SearchOptions.decode (.object members) = .error e := rfl
  have hoperator : SearchOptions.decode (.object [("operator", .string "and")]) ≠ .error e := by
    have hok : ∃ o, SearchOptions.decode (.object [("operator", .string "and")]) = .ok o :=
      ⟨_, rfl⟩
    obtain ⟨o, ho⟩ := hok
    rw [ho]
    nofun
  have hexcept :
      ¬ ∃ o, SearchOptions.decode (.object [("except", .object conditions)]) = .ok o := by
    have he : SearchOptions.decode (.object [("except", .object conditions)]) = .error e := rfl
    rw [he]
    nofun
  obtain ⟨before, key, v, after, hm, hb, ha, hreport, _⟩ := hfirst members e hd
  have hhint : e.hint? = none := hpath "except" (by decide) "company.id" (.notScalar .null)
  refine ⟨hd, ?_, rfl, hhint, (hnames (.object members) e hd).1⟩
  change [("operator", .string "and"), ("except", .object conditions), ("on", .null)] =
    before ++ (key, v) :: after at hm
  -- The member before is accepted and the one after comes too late, so it is `except`.
  rcases before with _ | ⟨first, _ | ⟨second, rest⟩⟩
  · cases hm
    exact absurd ha hoperator
  · cases hm
    exact hreport (by decide)
  · have hsecond : second = ("except", .object conditions) := by
      rw [List.cons_append, List.cons_append] at hm
      exact (List.cons.inj (List.cons.inj hm).2).1.symm
    subst hsecond
    exact absurd (hb _ (by simp)) hexcept

end SearchCompiler
