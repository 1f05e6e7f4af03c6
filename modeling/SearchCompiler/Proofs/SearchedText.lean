import SearchCompiler.Proofs.FilterDocuments

/-!
The text in the base of a compiled document. A text under a single field is written by itself, or
under `query` beside the options of the match. These are what the caller gave under names that have
no meaning of their own, and `query` is such a name: an option under it takes the place of the text.
-/

namespace SearchCompiler

/-- The options of a match in a value of options: the members whose names are not reserved. -/
def matchMembers (v : Json.Value) : Entries Json.Value :=
  Entries.insertAll [] (v.members.filter fun member => member.1 ∉ reservedKeys)

theorem nodup_keys_matchMembers (v : Json.Value) : (matchMembers v).keys.Nodup :=
  Entries.nodup_keys_insertAll (by exact List.nodup_nil) _

theorem matchOptions_foldl {members : Entries Json.Value} {settings : List Setting}
    (h : List.Forall₂ (fun member s => Asks member.1 member.2 s) members settings)
    (o : SearchOptions) :
    (settings.foldl SearchOptions.apply o).clauses.matchOptions =
      Entries.insertAll o.clauses.matchOptions
        (members.filter fun member => member.1 ∉ reservedKeys) := by
  induction h generalizing o with
  | nil => rfl
  | @cons member s rest later hs _ ih =>
    rw [List.foldl_cons, ih]
    cases s with
    | matchOption name value =>
      obtain ⟨rfl, rfl, hk⟩ := hs
      rw [List.filter_cons_of_pos (by simpa using hk), Entries.insertAll_cons]
      simp only [SearchOptions.apply, SearchOptions.withMatchOption, clauses_modify]
    | nothing => rw [List.filter_cons_of_neg (by simpa using hs.2)]; rfl
    | _ =>
      have hk : member.1 ∈ reservedKeys := by rw [hs.key_eq]; decide
      rw [List.filter_cons_of_neg (by simpa using hk)]
      simp only [SearchOptions.apply, clauses_modify, SearchOptions.clauses_ofParts]

/-- Decoded options have the options of a match that their value holds, in its order. -/
theorem matchOptions_of_decode {v : Json.Value} {o : SearchOptions}
    (h : SearchOptions.decode v = .ok o) : o.clauses.matchOptions = matchMembers v := by
  obtain ⟨settings, hs, rfl⟩ := exists_settings h
  exact matchOptions_foldl hs .empty

/-- The field that a value of `on` names, if it is exactly one. -/
def namedField : Json.Value → Option String
  | .string field => some field
  | .array [.string field] => some field
  | _ => none

/-- The field that a value of options matches the text against, if it is exactly one. -/
def scopedField (v : Json.Value) : Option String :=
  (lastNamed "on" v.members).bind namedField

theorem decodeFieldScope_of_namedField {w : Json.Value} {field : String}
    (h : namedField w = some field) : decodeFieldScope w = .ok (.single field) := by
  unfold namedField at h
  split at h
  · cases h
    rfl
  · cases h
    rfl
  · cases h

theorem on_of_scopedField {v : Json.Value} {o : SearchOptions} {field : String}
    (hd : SearchOptions.decode v = .ok o) (hf : scopedField v = some field) :
    o.clauses.on = some (.single field) := by
  obtain ⟨w, hw, hn⟩ := Option.bind_eq_some_iff.mp hf
  have hc := Clause.on.decodeFrom_eq hd
  have hw' : lastNamed Clause.on.key v.members = some w := hw
  rw [Clause.decodeFrom, hw'] at hc
  change some <$> decodeFieldScope w = .ok o.clauses.on at hc
  rw [decodeFieldScope_of_namedField hn] at hc
  exact (Except.ok.inj hc).symm

/-- The base of a document: what stands inside its envelopes. -/
def documentBase : Json.Value → Json.Value
  | .object [("function_score", .object (("query", query) :: _))] => documentBase query
  | .object [("filtered", .object (("query", query) :: _))] => documentBase query
  | v => v

theorem documentBase_boosted (query : Json.Value) (function : Option (String × Json.Value)) :
    documentBase (boostedDocument query function) = documentBase query := by
  cases function with
  | none => rfl
  | some function => simp only [boostedDocument, Json.Value.single, documentBase]

theorem documentBase_filtered (base : Json.Value) (candidates : List Json.Value) :
    documentBase (filteredDocument base candidates) = documentBase base := by
  match candidates with
  | [] => rfl
  | [_] => simp only [filteredDocument, Json.Value.single, documentBase]
  | _ :: _ :: _ => simp only [filteredDocument, Json.Value.single, documentBase]

/-- The base of a compiled document is the document of the base of its outer level. -/
theorem documentBase_of_compile {settings : Settings} {text : String} {o : SearchOptions}
    {base q : QueryNode} (hb : o.clauses.base settings text = .ok base)
    (hc : o.compile settings text = .ok q) : documentBase q.toJson = base.toJson := by
  obtain ⟨base', candidates, hb', _, rfl⟩ := compile_eq_ok hc
  cases hb.symm.trans hb'
  rw [toJson_score, toJson_restrict_join, documentBase_boosted, documentBase_filtered]
  obtain ⟨name, hn, body, he⟩ := (baseDocument_of_base hb).no_envelope
  rw [he]
  simp only [List.mem_cons, List.not_mem_nil, or_false] at hn
  rcases hn with rfl | rfl | rfl <;> rfl

theorem base_of_field {settings : Settings} {text : String} {c : Clauses} {field : String}
    (ht : Text.isBlank text = false) (ho : c.on = some (.single field)) :
    c.base settings text = .ok (.single field text c.matchOptions) := by
  simp [Clauses.base, matchText, ht, ho]

theorem lookup_matchBody {options : Entries Json.Value} (h : options.keys.Nodup) (text : String) :
    (Entries.insertAll [("query", .string text)] options).lookup "query" =
      some ((options.lookup "query").getD (.string text)) := by
  rw [Entries.lookup_insertAll, Entries.lookup_reverse h]
  cases options.lookup "query" <;> rfl

/-- A text that is not blank under a single field is the whole base if there are no options of the
match. Else it is the `query` of the base, unless an option of that name has taken its place. -/
theorem searched_text_of_field {settings : Settings} {text field : String} {v : Json.Value}
    {o : SearchOptions} {q : QueryNode} (hd : SearchOptions.decode v = .ok o)
    (hc : o.compile settings text = .ok q) (ht : Text.isBlank text = false)
    (hf : scopedField v = some field) :
    (matchMembers v = [] →
      documentBase q.toJson = .single "match" (.single field (.string text))) ∧
    (matchMembers v ≠ [] →
      ∃ body : Entries Json.Value,
        documentBase q.toJson = .single "match" (.single field (.object body)) ∧
          body.lookup "query" = some (((matchMembers v).lookup "query").getD (.string text)) ∧
          ("query" ∉ (matchMembers v).keys → body.lookup "query" = some (.string text))) := by
  have hb : o.clauses.base settings text = .ok (.single field text o.clauses.matchOptions) :=
    base_of_field ht (on_of_scopedField hd hf)
  rw [matchOptions_of_decode hd] at hb
  have hbase := documentBase_of_compile hb hc
  rw [QueryNode.toJson] at hbase
  constructor
  · intro hm
    rw [hm] at hbase
    exact hbase
  · intro hm
    have hl := lookup_matchBody (nodup_keys_matchMembers v) text
    rw [matchBody, if_neg (by simpa using hm)] at hbase
    refine ⟨_, hbase, hl, fun hq => ?_⟩
    rw [hl, Entries.lookup_eq_none_of_not_mem hq]
    rfl

theorem searched_text_of_field_tea :
    let v : Json.Value := .object [("on", .string "name"), ("operator", .string "and")]
    let o : SearchOptions :=
      .plain { on := some (.single "name"), matchOptions := [("operator", .string "and")] }
    let q : QueryNode := .single "name" "tea" [("operator", .string "and")]
    SearchOptions.decode v = .ok o ∧ o.compile {} "tea" = .ok q ∧
      ∃ body : Entries Json.Value,
        documentBase q.toJson = .single "match" (.single "name" (.object body)) ∧
          body.lookup "query" = some (.string "tea") := by
  intro v o q
  have hd : SearchOptions.decode v = .ok o := by cbv
  have hc : o.compile {} "tea" = .ok q := by cbv
  have hm : matchMembers v = [("operator", .string "and")] := rfl
  obtain ⟨body, hb, _, hq⟩ :=
    (searched_text_of_field hd hc (by decide) rfl).2 (by rw [hm]; exact List.cons_ne_nil _ _)
  exact ⟨hd, hc, body, hb, hq (by rw [hm]; decide)⟩

/-- The text is not always in the base: an option named `query` displaces it. -/
theorem searched_text_displaced :
    ¬ ∀ (settings : Settings) (text field : String) (v : Json.Value) (o : SearchOptions)
        (q : QueryNode), SearchOptions.decode v = .ok o → o.compile settings text = .ok q →
      Text.isBlank text = false → scopedField v = some field → matchMembers v ≠ [] →
      ∃ body : Entries Json.Value,
        documentBase q.toJson = .single "match" (.single field (.object body)) ∧
          body.lookup "query" = some (.string text) := by
  intro h
  let v : Json.Value := .object [("on", .string "name"), ("query", .string "green")]
  let o : SearchOptions :=
    .plain { on := some (.single "name"), matchOptions := [("query", .string "green")] }
  let q : QueryNode := .single "name" "tea" [("query", .string "green")]
  have hd : SearchOptions.decode v = .ok o := by cbv
  have hc : o.compile {} "tea" = .ok q := by cbv
  have hm : matchMembers v = [("query", .string "green")] := rfl
  obtain ⟨body, hb, hq⟩ := h {} "tea" "name" v o q hd hc (by decide) rfl
    (by rw [hm]; exact List.cons_ne_nil _ _)
  have hbase : documentBase q.toJson =
      .single "match" (.single "name" (.object [("query", .string "green")])) := rfl
  rw [hbase] at hb
  simp only [Json.Value.single, Json.Value.object.injEq, List.cons.injEq, Prod.mk.injEq, true_and,
    and_true] at hb
  simp [← hb] at hq

end SearchCompiler
