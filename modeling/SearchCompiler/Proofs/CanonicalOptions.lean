import SearchCompiler.Proofs.WrittenOptions

/-!
Which options can be decoded. Each setting that a member asks for keeps the outer level canonical, so
every level of decoded options is canonical; and canonical options are decoded from what they are
written as.
-/

namespace SearchCompiler

/-- Decoded conditions stand under the names of the object they come from. -/
theorem keys_of_decodeTree {path : String} {members : Entries Json.Value} {tree : ConditionTree}
    (h : decodeTree path members = .ok tree) : tree.keys = members.keys := by
  induction members generalizing tree with
  | nil =>
    rw [decodeTree] at h
    cases h
    rfl
  | cons member rest ih =>
    rw [decodeTree] at h
    obtain ⟨condition, _, h⟩ := bind_eq_ok_iff.mp h
    obtain ⟨conditions, hr, h⟩ := bind_eq_ok_iff.mp h
    cases h
    rw [Entries.keys_cons, Entries.keys_cons, ih hr]

mutual

theorem distinct_of_decodeCondition {path : String} {v : Json.Value} {condition : Condition}
    (hv : v.Distinct) (h : decodeCondition path v = .ok condition) : condition.Distinct := by
  unfold decodeCondition at h
  split at h
  · next members =>
    obtain ⟨tree, ht, h⟩ := bind_eq_ok_iff.mp h
    cases h
    have hkeys := keys_of_decodeTree ht
    refine .tree ?_ (distinct_of_decodeTree (distinct_of_mem_object hv) ht)
    rw [hkeys]
    exact nodup_keys_of_distinct hv
  · obtain ⟨values, _, h⟩ := bind_eq_ok_iff.mp h
    cases h
    exact .list values
  · obtain ⟨value, _, h⟩ := bind_eq_ok_iff.mp h
    cases h
    exact .scalar value

theorem distinct_of_decodeTree {path : String} {members : List (String × Json.Value)}
    {tree : ConditionTree} (hv : ∀ member ∈ members, member.2.Distinct)
    (h : decodeTree path members = .ok tree) : ∀ entry ∈ tree, entry.2.Distinct := by
  match members with
  | [] =>
    rw [decodeTree] at h
    cases h
    exact List.forall_mem_nil _
  | (key, v) :: rest =>
    rw [List.forall_mem_cons] at hv
    rw [decodeTree] at h
    obtain ⟨condition, hc, h⟩ := bind_eq_ok_iff.mp h
    obtain ⟨conditions, hr, h⟩ := bind_eq_ok_iff.mp h
    cases h
    rw [List.forall_mem_cons]
    exact ⟨distinct_of_decodeCondition hv.1 hc, distinct_of_decodeTree hv.2 hr⟩

end

theorem canonical_of_decodeConditions {option : String} {v : Json.Value}
    {result : Option ConditionTree} (hv : v.Distinct) (h : decodeConditions option v = .ok result) :
    ∀ tree ∈ result, tree.Canonical := by
  unfold decodeConditions at h
  split at h
  · cases h
    nofun
  · next members hne =>
    obtain ⟨tree, ht, h⟩ := bind_eq_ok_iff.mp h
    cases h
    rintro _ ⟨rfl⟩
    have hkeys := keys_of_decodeTree ht
    have hnil : tree ≠ [] := by
      rintro rfl
      exact hne (List.map_eq_nil_iff.mp hkeys.symm)
    refine ⟨hnil, .tree ?_ (distinct_of_decodeTree (distinct_of_mem_object hv) ht)⟩
    rw [hkeys]
    exact nodup_keys_of_distinct hv
  · cases h

theorem distinct_params_of_decodeScriptWith {script : String} {extra : Entries Json.Value}
    {s : ScoreScript} (hv : ∀ member ∈ extra, member.2.Distinct)
    (h : decodeScriptWith script extra = .ok s) :
    ∀ params ∈ s.params, (Json.Value.object params).Distinct := by
  unfold decodeScriptWith at h
  split at h
  · cases h
  · split at h
    · cases h
      nofun
    · cases h
      nofun
    · next params hl =>
      cases h
      rintro _ ⟨rfl⟩
      obtain ⟨before, after, rfl, _⟩ := List.lookup_eq_some_iff.mp hl
      exact hv ("params", .object params) (by simp)
    · cases h

theorem distinct_params_of_decodeScript {v : Json.Value} {s : ScoreScript} (hv : v.Distinct)
    (h : decodeScript v = .ok s) : ∀ params ∈ s.params, (Json.Value.object params).Distinct := by
  unfold decodeScript at h
  split at h
  · cases h
    nofun
  · cases h
    nofun
  · next script extra =>
    have hextra : (Json.Value.object extra).Distinct := distinct_of_mem_array hv _ (by simp)
    exact distinct_params_of_decodeScriptWith (distinct_of_mem_object hextra) h
  · cases h
  · next members =>
    have hn := nodup_keys_of_distinct hv
    split at h
    · refine distinct_params_of_decodeScriptWith (fun member hm => ?_) h
      exact distinct_of_mem_object hv member ((Entries.mem_swapErase_iff hn).mp hm).1
    · cases h
  · cases h

section Decoded

variable {key : String} {v : Json.Value} {s : Setting} {o : SearchOptions}

/-- A setting that a member asks for keeps the outer level canonical. -/
theorem canonical_apply (hv : v.Distinct) (ha : Asks key v s) (h : o.clauses.Canonical) :
    (o.apply s).clauses.Canonical := by
  cases s with
  | nothing => exact h
  | on scope =>
    have hon (fields : List String) (hf : some scope = some (.multi fields)) :
        2 ≤ fields.length := by
      cases hf
      exact two_le_length_of_decodeFieldScope ha.decodes
    rw [SearchOptions.apply, clauses_modify]
    exact { h with on := hon }
  | only tree =>
    rw [SearchOptions.apply, clauses_modify]
    exact { h with only := canonical_of_decodeConditions hv ha.decodes }
  | except tree =>
    rw [SearchOptions.apply, clauses_modify]
    exact { h with except := canonical_of_decodeConditions hv ha.decodes }
  | boostWhere tree =>
    rw [SearchOptions.apply, clauses_modify]
    exact { h with boostWhere := canonical_of_decodeConditions hv ha.decodes }
  | includes nested => rwa [SearchOptions.apply, SearchOptions.clauses_ofParts]
  | boostBy field =>
    rw [SearchOptions.apply, clauses_modify]
    exact { h with }
  | boostFunction script =>
    rw [SearchOptions.apply, clauses_modify]
    exact { h with }
  | matchOption name w =>
    obtain ⟨rfl, rfl, hkey⟩ := ha
    have hkeys : ∀ other ∈ (o.clauses.matchOptions.insert name w).keys, other ∉ reservedKeys := by
      intro other hother
      rw [Entries.keys_insert] at hother
      split at hother
      · exact h.matchOptions other hother
      · rcases List.mem_append.mp hother with hother | hother
        · exact h.matchOptions other hother
        · rwa [List.mem_singleton.mp hother]
    rw [SearchOptions.apply, SearchOptions.withMatchOption, clauses_modify]
    exact { h with matchOptions := hkeys }

/-- A setting that a member asks for brings no name twice into an object of the outer level. -/
theorem mapsDistinct_apply (hv : v.Distinct) (ha : Asks key v s) (h : o.clauses.MapsDistinct) :
    (o.apply s).clauses.MapsDistinct := by
  cases s with
  | nothing => exact h
  | includes nested => rwa [SearchOptions.apply, SearchOptions.clauses_ofParts]
  | boostFunction script =>
    have hp : ∀ other ∈ some script, ∀ params ∈ other.params,
        (Json.Value.object params).Distinct := by
      rintro _ ⟨rfl⟩
      exact distinct_params_of_decodeScript hv ha.decodes
    rw [SearchOptions.apply, clauses_modify]
    exact { h with params := hp }
  | matchOption name w =>
    obtain ⟨rfl, rfl, _⟩ := ha
    have hoptions : (Json.Value.object (o.clauses.matchOptions.insert name w)).Distinct := by
      refine .object (Entries.nodup_keys_insert (nodup_keys_of_distinct h.matchOptions) _ _) ?_
      intro option hoption
      rcases Entries.mem_of_mem_insert hoption with rfl | hoption
      · exact hv
      · exact distinct_of_mem_object h.matchOptions option hoption
    rw [SearchOptions.apply, SearchOptions.withMatchOption, clauses_modify]
    exact { h with matchOptions := hoptions }
  | on _ | only _ | except _ | boostWhere _ | boostBy _ =>
    rw [SearchOptions.apply, clauses_modify]
    exact { h with }

/-- What every setting keeps of the outer level holds of the outer level of decoded options. -/
theorem clauses_of_decode {P : Clauses → Prop} (hempty : P {})
    (hstep : ∀ {key w s} {o : SearchOptions},
      w.Distinct → Asks key w s → P o.clauses → P (o.apply s).clauses)
    (hv : v.Distinct) (h : SearchOptions.decode v = .ok o) : P o.clauses := by
  have hfold {members : Entries Json.Value} {settings : List Setting}
      (hm : ∀ member ∈ members, member.2.Distinct) (hs : AllAsk members settings)
      {o : SearchOptions} (ho : P o.clauses) : P (settings.foldl SearchOptions.apply o).clauses := by
    induction hs generalizing o with
    | nil => exact ho
    | cons ha _ ih =>
      rw [List.forall_mem_cons] at hm
      exact ih hm.2 (hstep hm.1 ha ho)
  obtain ⟨settings, hs, rfl⟩ := exists_settings h
  refine hfold ?_ hs hempty
  cases hv with
  | object _ hm => exact hm
  | _ => exact List.forall_mem_nil _

end Decoded

theorem canonical_empty : Clauses.Canonical {} where
  on := nofun
  only := nofun
  except := nofun
  boostWhere := nofun
  matchOptions := nofun

theorem mapsDistinct_empty : Clauses.MapsDistinct {} where
  params := nofun
  matchOptions := .object List.nodup_nil nofun

theorem distinct_of_included {v w : Json.Value} {text : String} (hv : v.Distinct)
    (h : included v = some (text, w)) : w.Distinct := by
  obtain ⟨u, hu, h⟩ := Option.bind_eq_some_iff.mp h
  have hud : u.Distinct := by
    cases hv with
    | object hn hm => exact hm ("includes", u) ((lastNamed_eq_some_iff hn).mp hu).1
    | _ => cases hu
  unfold includedText at h
  split at h
  · split at h
    · cases h
    · cases h
      exact .null
  · cases h
    exact .null
  · cases h
    exact distinct_of_mem_array hud _ (by simp)
  · cases h

/-- What every setting keeps of a level holds of all levels of decoded options. -/
theorem every_of_decode {P : Clauses → Prop} (hempty : P {})
    (hstep : ∀ {key w s} {o : SearchOptions},
      w.Distinct → Asks key w s → P o.clauses → P (o.apply s).clauses)
    {v : Json.Value} {o : SearchOptions} (hv : v.Distinct) (h : SearchOptions.decode v = .ok o) :
    o.Every P := by
  have hc := clauses_of_decode hempty hstep hv h
  induction o generalizing v with
  | plain c => exact hc
  | including c text inner ih =>
    obtain ⟨w, hi, hw⟩ := included_of_decode_including h
    have hwd := distinct_of_included hv hi
    exact ⟨hc, ih hwd hw (clauses_of_decode hempty hstep hwd hw)⟩

/-- Options are decoded from some JSON value exactly if they are canonical at every level and hold
no object with a name that stands twice; and canonical options are decoded, with the order of all
their entries, from what they are written as. -/
theorem decoded_iff_canonical :
    (∀ o : SearchOptions,
      (∃ v : Json.Value, v.Distinct ∧ SearchOptions.decode v = .ok o) ↔
        o.Every Clauses.MapsDistinct ∧ o.Every Clauses.Canonical) ∧
    ∀ o : SearchOptions, o.Every Clauses.MapsDistinct → o.Every Clauses.Canonical →
      o.toJson.Distinct ∧ SearchOptions.decode o.toJson = .ok o := by
  have hwritten (o : SearchOptions) (hm : o.Every Clauses.MapsDistinct)
      (hc : o.Every Clauses.Canonical) :
      o.toJson.Distinct ∧ SearchOptions.decode o.toJson = .ok o :=
    ⟨distinct_toJson hm hc, decode_toJson hm hc⟩
  refine ⟨fun o => ⟨?_, ?_⟩, hwritten⟩
  · rintro ⟨v, hv, h⟩
    exact ⟨every_of_decode mapsDistinct_empty mapsDistinct_apply hv h,
      every_of_decode canonical_empty canonical_apply hv h⟩
  · rintro ⟨hm, hc⟩
    exact ⟨o.toJson, hwritten o hm hc⟩

theorem decoded_iff_canonical_green :
    let tree : ConditionTree := [("price", .tree []), ("tags", .list [])]
    let o : SearchOptions :=
      .including { only := some tree, matchOptions := [("operator", .null)] } " "
        (.plain { on := some (.multi ["name", "note"]), boostFunction := some ⟨"score", some []⟩ })
    let short : SearchOptions := .plain { on := some (.multi ["name"]) }
    o.toJson.Distinct ∧ SearchOptions.decode o.toJson = .ok o ∧
      ¬ ∃ v : Json.Value, v.Distinct ∧ SearchOptions.decode v = .ok short := by
  intro tree o short
  have hempty : (Json.Value.object []).Distinct := .object List.nodup_nil nofun
  have htree : tree.Canonical := by
    refine ⟨List.cons_ne_nil _ _, .tree (by decide) ?_⟩
    rw [List.forall_mem_cons, List.forall_mem_singleton]
    exact ⟨.tree List.nodup_nil nofun, .list []⟩
  have hoperator : (Json.Value.object [("operator", .null)]).Distinct :=
    .object (by simp) (List.forall_mem_singleton.mpr .null)
  have hm : o.Every Clauses.MapsDistinct := by
    refine ⟨⟨nofun, hoperator⟩, ⟨?_, hempty⟩⟩
    rintro _ ⟨rfl⟩ _ ⟨rfl⟩
    exact hempty
  have hc : o.Every Clauses.Canonical := by
    refine ⟨⟨nofun, ?_, nofun, nofun, by decide⟩, ⟨?_, nofun, nofun, nofun, nofun⟩⟩
    · rintro _ ⟨rfl⟩
      exact htree
    · rintro _ ⟨rfl⟩
      decide
  obtain ⟨hiff, hwritten⟩ := decoded_iff_canonical
  obtain ⟨hd, ho⟩ := hwritten o hm hc
  refine ⟨hd, ho, fun hs => ?_⟩
  have hshort : 2 ≤ ["name"].length := ((hiff short).mp hs).2.on ["name"] rfl
  simp at hshort

end SearchCompiler
