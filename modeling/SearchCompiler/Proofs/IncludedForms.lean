import SearchCompiler.Proofs.FilterDocuments
import SearchCompiler.Proofs.NormalForm
import SearchCompiler.Proofs.RewrittenLevels

/-!
The forms in which an included text without options can be written: by itself, or in an array with
or without an object of options. For a text that is not blank they all come to the same. A blank
text counts as absent when it stands by itself, but not in an array: there it is included, and every
document has one filter more for it, which holds of all that is searched.
-/

namespace SearchCompiler

/-- The arrays that include a text without options. -/
def listedForms (text : String) : List Json.Value :=
  [.array [.string text], .array [.string text, .null], .array [.string text, .object []]]

/-- All forms of an included text without options: the text by itself, and the arrays. -/
def includedForms (text : String) : List Json.Value :=
  .string text :: listedForms text

/-- Members that include a text in different forms. A blank text is in an array in both. -/
inductive OtherForm (text : String) : Entries Json.Value → Entries Json.Value → Prop
  | shown {before after : Entries Json.Value} {v w : Json.Value} :
    Text.isBlank text = false → v ∈ includedForms text → w ∈ includedForms text →
    OtherForm text (before ++ ("includes", v) :: after) (before ++ ("includes", w) :: after)
  | listed {before after : Entries Json.Value} {v w : Json.Value} :
    v ∈ listedForms text → w ∈ listedForms text →
    OtherForm text (before ++ ("includes", v) :: after) (before ++ ("includes", w) :: after)

/-- Members that include nothing, and the same members with a form of an included text. -/
inductive Adds (form : Json.Value) : Entries Json.Value → Entries Json.Value → Prop
  | mk {before after : Entries Json.Value} :
    "includes" ∉ before.keys →
    Adds form (before ++ after) (before ++ ("includes", form) :: after)

/-- Options, and the same options with a text that the innermost level includes. -/
inductive Extended (text : String) : SearchOptions → SearchOptions → Prop
  | innermost (c : Clauses) : Extended text (.plain c) (.including c text .empty)
  | inside (c : Clauses) (included : String) {inner inner' : SearchOptions} :
    Extended text inner inner' →
    Extended text (.including c included inner) (.including c included inner')

section Forms

variable {text : String} {v w : Json.Value}

theorem decodeIncludes_listed (h : v ∈ listedForms text) :
    v.kind ≠ .null ∧ decodeIncludes v = .ok (some (text, .empty)) := by
  simp only [listedForms, List.mem_cons, List.not_mem_nil, or_false] at h
  rcases h with rfl | rfl | rfl
  · exact ⟨nofun, by rw [decodeIncludes]⟩
  · exact ⟨nofun, by rw [decodeIncludes, SearchOptions.decode]; rfl⟩
  · exact ⟨nofun, by rw [decodeIncludes, SearchOptions.decode, decodeSettings]; rfl⟩

theorem decodeIncludes_shown (ht : Text.isBlank text = false) (h : v ∈ includedForms text) :
    v.kind ≠ .null ∧ decodeIncludes v = .ok (some (text, .empty)) := by
  rcases List.mem_cons.mp h with rfl | h
  · exact ⟨nofun, by rw [decodeIncludes, ht]; rfl⟩
  · exact decodeIncludes_listed h

theorem decode_eq_of_otherForm {members others : Entries Json.Value}
    (h : OtherForm text members others) :
    SearchOptions.decode (.object members) = SearchOptions.decode (.object others) := by
  have hmember {v w : Json.Value} {nested : Option (String × SearchOptions)}
      (hv : v.kind ≠ .null ∧ decodeIncludes v = .ok nested)
      (hw : w.kind ≠ .null ∧ decodeIncludes w = .ok nested) :
      decodeMember "includes" v = decodeMember "includes" w := by
    rw [decodeMember_includes hv.1, decodeMember_includes hw.1, hv.2, hw.2]
  cases h with
  | shown ht hv hw =>
    exact decode_congr (hmember (decodeIncludes_shown ht hv) (decodeIncludes_shown ht hw)) _ _
  | listed hv hw =>
    exact decode_congr (hmember (decodeIncludes_listed hv) (decodeIncludes_listed hw)) _ _

theorem decode_eq_of_blank (ht : Text.isBlank text = true) {members others : Entries Json.Value}
    (h : Adds (.string text) members others) :
    SearchOptions.decode (.object members) = SearchOptions.decode (.object others) := by
  obtain ⟨hk⟩ := h
  refine (decode_drop ?_ .includes hk _).symm
  rw [decodeMember_includes (v := .string _) nofun, decodeIncludes, ht]
  rfl

/-- A text in an array is included where nothing else is. -/
theorem exists_extended_of_adds {form : Json.Value} (hform : form ∈ listedForms text)
    (hw : w.Distinct) (h : AtLevel (Adds form) v w) {o : SearchOptions}
    (ho : SearchOptions.decode v = .ok o) :
    ∃ o', SearchOptions.decode w = .ok o' ∧ Extended text o o' := by
  induction h generalizing o with
  | here h =>
    obtain @⟨before, after, _⟩ := h
    obtain ⟨hkind, hd⟩ := decodeIncludes_listed hform
    obtain ⟨hbefore, hafter⟩ := not_mem_around hw
    -- An empty array stands for nothing included and can be left out.
    have hempty : decodeIncludes (.array []) = .ok none := by rw [decodeIncludes]
    have hdrop : SearchOptions.decode (.object (before ++ ("includes", .array []) :: after)) =
        SearchOptions.decode (.object (before ++ after)) := by
      refine decode_drop ?_ .includes hbefore after
      rw [decodeMember_includes (v := .array []) nofun, hempty]
      rfl
    obtain ⟨⟨front, hf⟩, _, back, hb⟩ := parts_of_decode (hdrop.trans ho)
    obtain ⟨c, hc⟩ := decode_includes hf hb hafter
    cases ho.symm.trans (hdrop.symm.trans (hc _ none nofun hempty))
    exact ⟨.including c text .empty, hc form _ hkind hd, .innermost c⟩
  | @inside before after included v w _ ih =>
    obtain ⟨⟨front, hf⟩, hm, back, hb⟩ := parts_of_decode ho
    obtain ⟨inner, hi⟩ := exists_decodeMember_listed_iff.mp hm
    obtain ⟨inner', hi', hextended⟩ := ih (distinct_of_listed hw) hi
    obtain ⟨c, hc⟩ := decode_including hf hb (not_mem_around hw).2 included
    cases ho.symm.trans (hc v inner hi)
    exact ⟨.including c included inner', hc w inner' hi', .inside c included hextended⟩

end Forms

/-- The document of a conjunction. -/
def IsConjunctionDocument (document : Json.Value) : Prop :=
  ∃ filters, document = .single "and" filters

theorem candidatesOf_of_candidates {settings : Settings} {o : SearchOptions}
    {candidates : List FilterNode} (h : o.candidates settings = .ok candidates) :
    ∃ included, CandidatesOf included candidates := by
  cases o with
  | plain c =>
    cases h
    exact ⟨none, by simpa using candidatesOf_filters c none⟩
  | including c text inner =>
    obtain ⟨nested, _, rfl⟩ := candidates_including h
    exact ⟨some nested, candidatesOf_filters c (some nested)⟩

theorem not_isConjunctionDocument_of_candidates {settings : Settings} {o : SearchOptions}
    {candidates : List FilterNode} (h : o.candidates settings = .ok candidates) :
    ∀ document ∈ candidates.map FilterNode.toJson, ¬ IsConjunctionDocument document := by
  have hleaf {leaf : FilterNode} (hl : leaf.IsLeaf) : ¬ IsConjunctionDocument leaf.toJson := by
    rintro ⟨filters, he⟩
    cases hl <;> simp [FilterNode.toJson, Json.Value.single] at he
  have hnot (filter : FilterNode) : ¬ IsConjunctionDocument (FilterNode.not filter).toJson := by
    rintro ⟨filters, he⟩
    simp [FilterNode.toJson, Json.Value.single] at he
  have hquery (query : QueryNode) : ¬ IsConjunctionDocument (FilterNode.query query).toJson := by
    rintro ⟨filters, he⟩
    simp [FilterNode.toJson, Json.Value.single] at he
  obtain ⟨included, honly, hexcept⟩ := candidatesOf_of_candidates h
  simp only [List.map_append, List.map_map, List.forall_mem_append, List.forall_mem_map]
  exact ⟨⟨fun leaf hl => hleaf (honly leaf hl), fun leaf _ => hnot leaf⟩,
    fun query _ => hquery query⟩

theorem boostedDocument_injective {query query' : Json.Value}
    {function : Option (String × Json.Value)}
    (h : boostedDocument query function = boostedDocument query' function) : query = query' := by
  cases function with
  | none => exact h
  | some function =>
    simp only [boostedDocument, Json.Value.single, Json.Value.object.injEq, List.cons.injEq,
      Prod.mk.injEq, true_and, and_true] at h
    exact h

/-- A base that is no envelope shows which candidates it stands under. -/
theorem filteredDocument_injective {base : Json.Value} {xs ys : List Json.Value}
    (hb : ∃ name ∈ ["match_all", "match", "multi_match"], ∃ body, base = .single name body)
    (hx : ∀ x ∈ xs, ¬ IsConjunctionDocument x) (hy : ∀ y ∈ ys, ¬ IsConjunctionDocument y)
    (h : filteredDocument base xs = filteredDocument base ys) : xs = ys := by
  have hbare (body : Json.Value) : base ≠ .single "filtered" body := by
    obtain ⟨name, hn, inner, rfl⟩ := hb
    intro he
    simp only [Json.Value.single, Json.Value.object.injEq, List.cons.injEq, Prod.mk.injEq] at he
    rw [he.1.1] at hn
    exact absurd hn (by decide)
  have hinner {filter filter' : Json.Value}
      (he : Json.Value.single "filtered" (.object [("query", base), ("filter", filter)]) =
        .single "filtered" (.object [("query", base), ("filter", filter')])) :
      filter = filter' := by
    simpa [Json.Value.single] using he
  match xs, ys with
  | [], [] => rfl
  | [], [_] => exact absurd h (hbare _)
  | [], _ :: _ :: _ => exact absurd h (hbare _)
  | [_], [] => exact absurd h.symm (hbare _)
  | _ :: _ :: _, [] => exact absurd h.symm (hbare _)
  | [x], [y] => rw [hinner h]
  | [x], _ :: _ :: _ => exact absurd ⟨_, hinner h⟩ (hx x List.mem_cons_self)
  | _ :: _ :: _, [y] => exact absurd ⟨_, (hinner h).symm⟩ (hy y List.mem_cons_self)
  | _ :: _ :: _, _ :: _ :: _ => simpa [Json.Value.single] using hinner h

section Documents

variable {settings : Settings} {text : String} {o o' : SearchOptions} {q : QueryNode}

/-- Options that have the outer clauses of others and different candidates compile if the others do,
to a different document. -/
theorem compile_ne_of_candidates (hc : o'.clauses = o.clauses)
    (hq : o.compile settings text = .ok q) {candidates candidates' : List FilterNode}
    (ho : o.candidates settings = .ok candidates) (ho' : o'.candidates settings = .ok candidates')
    (hne : candidates'.map FilterNode.toJson ≠ candidates.map FilterNode.toJson) :
    ∃ q', o'.compile settings text = .ok q' ∧ q'.toJson ≠ q.toJson := by
  rw [SearchOptions.compile_eq, ho] at hq
  rw [SearchOptions.compile_eq, ho', hc]
  obtain ⟨base, hb, hq⟩ := bind_eq_ok_iff.mp hq
  obtain ⟨_, hk, hq⟩ := bind_eq_ok_iff.mp hq
  cases hk
  rw [boost_eq] at hq
  split at hq
  · cases hq
  · next hboosts =>
    cases hq
    refine ⟨_, bind_eq_ok_iff.mpr ⟨base, hb, bind_eq_ok_iff.mpr
      ⟨candidates', rfl, (boost_eq ..).trans (if_neg hboosts)⟩⟩, fun he => hne ?_⟩
    rw [toJson_score, toJson_score, toJson_restrict_join, toJson_restrict_join] at he
    exact filteredDocument_injective (baseDocument_of_base hb).no_envelope
      (not_isConjunctionDocument_of_candidates ho') (not_isConjunctionDocument_of_candidates ho)
      (boostedDocument_injective he)

theorem compile_empty_of_isBlank (settings : Settings) (ht : Text.isBlank text = true) :
    SearchOptions.empty.compile settings text = .ok .matchAll := by
  have hb : Clauses.base settings text {} = .ok .matchAll := by
    rw [Clauses.base, matchText, if_pos ht]
  have hfilters : Clauses.filters {} = [] := by cbv
  have hboosts : Clauses.boosts {} = [] := by cbv
  have hscore : Clauses.scoreFunction? settings {} = none := by cbv
  rw [SearchOptions.empty, compile_plain, hb, hfilters]
  change Clauses.boost settings {} .matchAll = .ok .matchAll
  rw [boost_eq, hboosts, hscore]
  rfl

/-- A blank text that is included where nothing else is shows in every document. -/
theorem compile_ne_of_extended {blank : String} (hblank : Text.isBlank blank = true)
    (h : Extended blank o o') (hq : o.compile settings text = .ok q) :
    ∃ q', o'.compile settings text = .ok q' ∧ q'.toJson ≠ q.toJson := by
  induction h generalizing text q with
  | innermost c =>
    have ho' : (SearchOptions.including c blank .empty).candidates settings =
        .ok (c.filters ++ [.query .matchAll]) := by
      rw [SearchOptions.candidates, compile_empty_of_isBlank settings hblank]
      rfl
    refine compile_ne_of_candidates (o := .plain c) rfl hq rfl ho' fun he => ?_
    simpa using congrArg List.length he
  | @inside c included inner inner' _ ih =>
    obtain ⟨_, candidates, _, ho, _⟩ := compile_eq_ok hq
    obtain ⟨nested, hn, rfl⟩ := candidates_including ho
    obtain ⟨nested', hn', hne⟩ := ih hn
    have ho' : (SearchOptions.including c included inner').candidates settings =
        .ok (c.filters ++ [.query nested']) := by
      rw [SearchOptions.candidates, hn']
      rfl
    refine compile_ne_of_candidates (o := .including c included inner) rfl hq ho ho' fun he =>
      hne ?_
    rw [List.map_append, List.map_append, List.append_cancel_left_eq] at he
    simpa [FilterNode.toJson, Json.Value.single] using he

end Documents

theorem compileValue_eq_ok_iff {settings : Settings} {text : String} {v : Json.Value}
    {q : QueryNode} {document : String} :
    compileValue settings text v = .ok (q, document) ↔
      ∃ o, SearchOptions.decode v = .ok o ∧ o.compile settings text = .ok q ∧
        q.toJson.compact = document := by
  rw [compileValue, bind_eq_ok_iff]
  refine exists_congr fun o => and_congr_right fun _ => ?_
  rw [bind_eq_ok_iff]
  constructor
  · rintro ⟨q', hq, h⟩
    cases h
    exact ⟨hq, rfl⟩
  · rintro ⟨hq, rfl⟩
    exact ⟨q, hq, rfl⟩

/-- Forms of an included text come to the same at any level if the text is not blank, and so do the
arrays if it is. A blank text by itself counts as absent. In an array it is included: what compiles
without it still compiles, and the document is the same only if the text stands by itself. -/
theorem compile_includedForms (included : String) (settings : Settings) (text : String) :
    (∀ v w : Json.Value, AtLevel (OtherForm included) v w →
      SearchOptions.decode v = SearchOptions.decode w ∧
        compileValue settings text v = compileValue settings text w) ∧
    (Text.isBlank included = true → ∀ form ∈ includedForms included, ∀ v w : Json.Value,
      w.Distinct → AtLevel (Adds form) v w →
      (form = .string included → SearchOptions.decode v = SearchOptions.decode w ∧
        compileValue settings text v = compileValue settings text w) ∧
      ∀ q document, compileValue settings text v = .ok (q, document) →
        ∃ q' document', compileValue settings text w = .ok (q', document') ∧
          (q'.toJson = q.toJson ↔ form = .string included)) := by
  refine ⟨fun v w h => ?_, fun ht form hform v w hw h => ?_⟩
  · have hd := decode_eq_of_atLevel decode_eq_of_otherForm h
    exact ⟨hd, compileValue_congr hd settings text⟩
  rcases List.mem_cons.mp hform with rfl | hlisted
  · have hd := decode_eq_of_atLevel (decode_eq_of_blank ht) h
    have hc := compileValue_congr hd settings text
    exact ⟨fun _ => ⟨hd, hc⟩, fun q document hq =>
      ⟨q, document, hc.symm.trans hq, fun _ => rfl, fun _ => rfl⟩⟩
  · have hne : form ≠ .string included := by
      rintro rfl
      simp [listedForms] at hlisted
    refine ⟨fun he => absurd he hne, fun q document hq => ?_⟩
    obtain ⟨o, ho, hcompiled, _⟩ := compileValue_eq_ok_iff.mp hq
    obtain ⟨o', ho', hextended⟩ := exists_extended_of_adds hlisted hw h ho
    obtain ⟨q', hq', hdoc⟩ := compile_ne_of_extended ht hextended hcompiled
    exact ⟨q', _, compileValue_eq_ok_iff.mpr ⟨o', ho', hq', rfl⟩, fun he => absurd he hdoc,
      fun he => absurd he hne⟩

theorem compile_includedForms_green :
    let only : String × Json.Value := ("only", .single "id" (.string "g1"))
    let around (v : Json.Value) : Json.Value := .object ([only] ++ ("includes", v) :: [])
    let nesting (v : Json.Value) : Json.Value :=
      .object ([] ++ ("includes", .array [.string "black", around v]) :: [])
    let absent : Json.Value := .object ([only] ++ [])
    compileValue {} "tea" (nesting (.string "green")) =
        compileValue {} "tea" (nesting (.array [.string "green", .object []])) ∧
      compileValue {} "tea" absent = compileValue {} "tea" (around (.string " ")) ∧
      ∃ q q' document document', compileValue {} "tea" absent = .ok (q, document) ∧
        compileValue {} "tea" (around (.array [.string " "])) = .ok (q', document') ∧
        q'.toJson ≠ q.toJson := by
  intro only around nesting absent
  have hgreen : AtLevel (OtherForm "green") (nesting (.string "green"))
      (nesting (.array [.string "green", .object []])) :=
    .inside (.here (.shown (by decide) List.mem_cons_self (by simp [includedForms, listedForms])))
  have hadds (form : Json.Value) : AtLevel (Adds form) absent (around form) :=
    .here (.mk (by decide))
  have hd {form : Json.Value} (hform : form.Distinct) : (around form).Distinct := by
    refine .object (by simp [Entries.keys, only]) ?_
    rw [List.singleton_append, List.forall_mem_cons, List.forall_mem_singleton]
    exact ⟨.object (by decide) (List.forall_mem_singleton.mpr (.string _)), hform⟩
  obtain ⟨q, document, hq⟩ :
      ∃ q document, compileValue {} "tea" absent = .ok (q, document) := ⟨_, _, by cbv⟩
  have hother := (compile_includedForms "green" {} "tea").1
  have hblank := (compile_includedForms " " {} "tea").2 (by decide)
  have halone := hblank (.string " ") List.mem_cons_self absent _ (hd (.string _)) (hadds _)
  have hlisted := hblank (.array [.string " "]) (by simp [includedForms, listedForms]) absent _
    (hd (.array (List.forall_mem_singleton.mpr (.string _)))) (hadds _)
  obtain ⟨q', document', hq', hiff⟩ := hlisted.2 q document hq
  refine ⟨(hother _ _ hgreen).2, (halone.1 rfl).2, q, q', document, document', hq, hq',
    fun he => ?_⟩
  cases hiff.mp he

/-- Not all forms of an included text come to the same: an array with a blank text does not count
as absent. -/
theorem includedForms_differ :
    ¬ ∀ (settings : Settings) (text included : String), ∀ v ∈ includedForms included,
      ∀ w ∈ includedForms included,
        compileValue settings text (.single "includes" v) =
          compileValue settings text (.single "includes" w) := by
  intro h
  have hsame := h {} "tea" "" (.string "") (by simp [includedForms]) (.array [.string ""])
    (by simp [includedForms, listedForms])
  obtain ⟨alone, halone⟩ : ∃ document, compileValue {} "tea" (.single "includes" (.string "")) =
      .ok (.single "_all" "tea" [], document) := ⟨_, by cbv⟩
  obtain ⟨listed, hlisted⟩ :
      ∃ document, compileValue {} "tea" (.single "includes" (.array [.string ""])) =
        .ok (.filtered (.single "_all" "tea" []) (.query .matchAll), document) := ⟨_, by cbv⟩
  rw [halone, hlisted] at hsame
  cases hsame

end SearchCompiler
