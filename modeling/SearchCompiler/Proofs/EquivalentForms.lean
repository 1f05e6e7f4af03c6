import SearchCompiler.Proofs.FirstFault

/-!
Forms of options that come to the same. A member that asks for nothing can be left out, and a field
or a script can be written in an array, a script also as a member of an object with its parameters.
Options in either form decode alike, at the outer level and in the options of every included text.
-/

namespace SearchCompiler

/-- A member that asks for nothing: a null, conditions without members, no text or a blank one. -/
inductive Idle : String → Json.Value → Prop
  | null {key : String} : key ∈ reservedKeys → Idle key .null
  | noConditions {key : String} : key ∈ conditionKeys → Idle key .empty
  | noText : Idle "includes" (.array [])
  | blankText {text : String} : Text.isBlank text = true → Idle "includes" (.string text)

/-- Forms of a script without parameters, other than the script itself. -/
inductive BareScript (script : String) : Json.Value → Prop
  | listed : BareScript script (.array [.string script])
  | noMembers : BareScript script (.array [.string script, .empty])
  | nullParams : BareScript script (.array [.string script, .single "params" .null])
  | member : BareScript script (.single "script" (.string script))

/-- A value of a clause in another form: one field out of its array, a script without parameters in
any of its forms, or a script in among the members that stood beside it. -/
inductive Rephrased : String → Json.Value → Json.Value → Prop
  | oneField {field : String} : Rephrased "on" (.strings [field]) (.string field)
  | bareScript {script : String} {v : Json.Value} :
    BareScript script v → Rephrased "boost_function" (.string script) v
  | scriptAmong {script : String} {front back : Entries Json.Value} :
    "script" ∉ Entries.keys (front ++ back) →
    Rephrased "boost_function" (.array [.string script, .object (front ++ back)])
      (.object (front ++ ("script", .string script) :: back))

/-- Members with one left out that asks for nothing, or with one in another form. -/
inductive EquivalentForm : Entries Json.Value → Entries Json.Value → Prop
  | without {before after : Entries Json.Value} {key : String} {v : Json.Value} :
    Idle key v → EquivalentForm (before ++ (key, v) :: after) (before ++ after)
  | rephrased {before after : Entries Json.Value} {key : String} {v w : Json.Value} :
    Rephrased key v w → EquivalentForm (before ++ (key, v) :: after) (before ++ (key, w) :: after)

/-- The forms of a script with other members: in an array before an object of them, or among
them. -/
def scriptForms (script : String) (front back : Entries Json.Value) : List Json.Value :=
  [.array [.string script, .object (front ++ back)],
    .object (front ++ ("script", .string script) :: back)]

/-- What the members beside a script are refused for: a name that none of them may have, or
parameters that are no object. -/
inductive ReportsExtra (extra : Entries Json.Value) : CompileError → Prop
  | unexpected {key : String} : key ∈ extra.keys → key ≠ "params" →
    ReportsExtra extra (.invalidShape "boost_function" (.unexpectedKey key))
  | params {v : Json.Value} : ("params", v) ∈ extra → v.kind ∉ [.null, .object] →
    ReportsExtra extra (.invalidShape "boost_function" (.notParams v.kind))

/-- Options with a member at one of their levels, and the members beside it or beside an included
text on the way to it. -/
inductive HoldsMember (member : String × Json.Value) : Json.Value → Entries Json.Value → Prop
  | here {before after : Entries Json.Value} :
    HoldsMember member (.object (before ++ member :: after)) (before ++ after)
  | inside {before after others : Entries Json.Value} {text : String} {v : Json.Value} :
    HoldsMember member v others →
    HoldsMember member (.object (before ++ ("includes", .array [.string text, v]) :: after))
      (before ++ others ++ after)

theorem exists_absent_of_idle {key : String} {v : Json.Value} (h : Idle key v) :
    ∃ s : Setting, decodeMember key v = .ok s ∧ s.Absent := by
  cases h with
  | null hk => exact ⟨.nothing, if_pos ⟨rfl, hk⟩, .nothing⟩
  | noConditions hk =>
    rcases mem_conditionKeys_iff.mp hk with rfl | rfl | rfl
    · exact ⟨.only none, rfl, .only⟩
    · exact ⟨.except none, rfl, .except⟩
    · exact ⟨.boostWhere none, rfl, .boostWhere⟩
  | noText =>
    refine ⟨.includes none, ?_, .includes⟩
    rw [decodeMember_includes (v := .array []) nofun, decodeIncludes]
    rfl
  | @blankText text hb =>
    refine ⟨.includes none, ?_, .includes⟩
    rw [decodeMember_includes (v := .string text) nofun, decodeIncludes, if_pos hb]
    rfl

theorem decodeMember_boostFunction {v : Json.Value} (hv : v.kind ≠ .null) :
    decodeMember "boost_function" v = (do return .boostFunction (← decodeScript v)) := by
  rw [decodeMember, if_neg fun h => hv h.1, if_neg (by decide)]
  rfl

theorem decodeScript_bareScript {script : String} {v : Json.Value} (h : BareScript script v) :
    decodeScript v = .ok ⟨script, none⟩ := by
  cases h <;> rfl

section Scripts

variable {script : String} {extra : Entries Json.Value} {e : CompileError}

/-- The members beside a script are one at most, so that their order does not matter. -/
theorem decodeScriptWith_of_perm {others : Entries Json.Value} (hn : extra.keys.Nodup)
    (hp : others.Perm extra) {s : ScoreScript} (h : decodeScriptWith script extra = .ok s) :
    decodeScriptWith script others = .ok s := by
  have hk : ∀ member ∈ extra, member.1 = "params" := by
    intro member hm
    cases (exists_decodeScriptWith_iff script hn).mp ⟨s, h⟩ member hm <;> rfl
  rcases Entries.eq_nil_or_singleton hn hk with rfl | ⟨v, rfl⟩
  · rwa [List.perm_nil.mp hp]
  · rwa [List.perm_singleton.mp hp]

theorem ReportsExtra.of_perm {others : Entries Json.Value} (hp : others.Perm extra)
    (h : ReportsExtra others e) : ReportsExtra extra e := by
  cases h with
  | unexpected hk hne => exact .unexpected ((hp.map Prod.fst).mem_iff.mp hk) hne
  | params hm hkind => exact .params (hp.mem_iff.mp hm) hkind

theorem reportsExtra_of_decodeScriptWith (hn : extra.keys.Nodup)
    (h : decodeScriptWith script extra = .error e) : ReportsExtra extra e := by
  unfold decodeScriptWith at h
  split at h
  · next key hf =>
    cases h
    exact .unexpected (List.mem_of_find?_eq_some hf) (by simpa using List.find?_some hf)
  · split at h
    · cases h
    · cases h
    · cases h
    · next v hnull hobject hl =>
      cases h
      refine .params ((Entries.lookup_eq_some_iff hn).mp hl) ?_
      cases v with
      | null => exact absurd rfl hnull
      | object params => exact absurd rfl (hobject params)
      | _ => simp [Json.Value.kind]

end Scripts

section Among

variable {front back : Entries Json.Value} (hn : (Entries.keys (front ++ back)).Nodup)
  (hk : "script" ∉ Entries.keys (front ++ back))

include hn hk

theorem nodup_keys_among (v : Json.Value) :
    (Entries.keys (front ++ ("script", v) :: back)).Nodup :=
  (List.perm_middle.map Prod.fst).nodup_iff.mpr (List.nodup_cons.mpr ⟨hk, hn⟩)

theorem swapErase_among_perm (v : Json.Value) :
    (Entries.swapErase "script" (front ++ ("script", v) :: back)).Perm (front ++ back) := by
  -- Taking a name out may put the last member in its place, so the others are kept up to order.
  have hkept : (front ++ ("script", v) :: back).filter (fun member => member.1 ≠ "script") =
      front ++ back := by
    rw [List.filter_append, List.filter_cons_of_neg (by simp), ← List.filter_append]
    exact Entries.filter_ne_of_not_mem hk
  rw [← hkept]
  exact Entries.swapErase_perm (nodup_keys_among hn hk v)

/-- A script among other members is decoded with these, in some order. -/
theorem exists_decodeScript_among (script : String) :
    ∃ others, others.Perm (front ++ back) ∧
      decodeScript (.object (front ++ ("script", .string script) :: back)) =
        decodeScriptWith script others := by
  have hl : List.lookup "script" (front ++ ("script", Json.Value.string script) :: back) =
      some (.string script) :=
    (Entries.lookup_eq_some_iff (nodup_keys_among hn hk _)).mpr (by simp)
  refine ⟨_, swapErase_among_perm hn hk (.string script), ?_⟩
  rw [decodeScript, hl]

theorem decodeScript_among_eq_ok_iff (script : String) (s : ScoreScript) :
    decodeScript (.array [.string script, .object (front ++ back)]) = .ok s ↔
      decodeScript (.object (front ++ ("script", .string script) :: back)) = .ok s := by
  obtain ⟨others, hp, ho⟩ := exists_decodeScript_among hn hk script
  have hn' : others.keys.Nodup := (hp.map Prod.fst).nodup_iff.mpr hn
  rw [ho, decodeScript]
  exact ⟨decodeScriptWith_of_perm hn hp, decodeScriptWith_of_perm hn' hp.symm⟩

/-- In both forms, what is wrong with a script is wrong with a member that stands beside it. -/
theorem reportsExtra_of_decodeScript {script : String} {v : Json.Value} {e : CompileError}
    (hv : v ∈ scriptForms script front back) (h : decodeScript v = .error e) :
    ReportsExtra (front ++ back) e := by
  rw [scriptForms, List.mem_cons, List.mem_singleton] at hv
  rcases hv with rfl | rfl
  · exact reportsExtra_of_decodeScriptWith hn h
  · obtain ⟨others, hp, ho⟩ := exists_decodeScript_among hn hk script
    have hn' : others.keys.Nodup := (hp.map Prod.fst).nodup_iff.mpr hn
    rw [ho] at h
    exact (reportsExtra_of_decodeScriptWith hn' h).of_perm hp

end Among

section Forms

variable {key : String} {v w : Json.Value} {members others : Entries Json.Value}

theorem distinct_of_rephrased (hv : v.Distinct) (h : Rephrased key v w) : w.Distinct := by
  cases h with
  | oneField => exact .string _
  | bareScript h =>
    cases h with
    | listed => exact .array (List.forall_mem_singleton.mpr hv)
    | noMembers =>
      refine .array ?_
      rw [List.forall_mem_cons, List.forall_mem_singleton]
      exact ⟨hv, .object .nil (List.forall_mem_nil _)⟩
    | nullParams =>
      refine .array ?_
      rw [List.forall_mem_cons, List.forall_mem_singleton]
      exact ⟨hv, .object (by simp [Entries.keys]) (List.forall_mem_singleton.mpr .null)⟩
    | member => exact .object (by simp [Entries.keys]) (List.forall_mem_singleton.mpr hv)
  | @scriptAmong script front back hk =>
    have hin := distinct_of_mem_array hv (.object (front ++ back)) (by simp)
    refine .object (nodup_keys_among (nodup_keys_of_distinct hin) hk _) ?_
    have hm := distinct_of_mem_object hin
    rw [List.forall_mem_append] at hm
    rw [List.forall_mem_append, List.forall_mem_cons]
    exact ⟨hm.1, .string script, hm.2⟩

theorem decodeMember_of_rephrased (hv : v.Distinct) (h : Rephrased key v w) (s : Setting) :
    decodeMember key v = .ok s ↔ decodeMember key w = .ok s := by
  cases h with
  | oneField => exact Iff.rfl
  | @bareScript script _ h =>
    have hv : (Json.Value.string script).kind ≠ .null := by
      intro hk
      cases hk
    have hw : w.kind ≠ .null := by
      intro hk
      cases h <;> cases hk
    rw [decodeMember_boostFunction hv, decodeMember_boostFunction hw, decodeScript_bareScript h,
      decodeScript]
  | @scriptAmong script front back hk =>
    have hin := distinct_of_mem_array hv (.object (front ++ back)) (by simp)
    have hlisted : (Json.Value.array [.string script, .object (front ++ back)]).kind ≠ .null := by
      intro hk
      cases hk
    have hamong :
        (Json.Value.object (front ++ ("script", .string script) :: back)).kind ≠ .null := by
      intro hk
      cases hk
    rw [decodeMember_boostFunction hlisted, decodeMember_boostFunction hamong, bind_eq_ok_iff,
      bind_eq_ok_iff]
    exact exists_congr fun s => and_congr_left fun _ =>
      decodeScript_among_eq_ok_iff (nodup_keys_of_distinct hin) hk _ s

/-- Members that ask for the same setting, or are both refused, count alike. -/
theorem decodesAlike_of_member (h : ∀ s, decodeMember key v = .ok s ↔ decodeMember key w = .ok s)
    (before after : Entries Json.Value) :
    DecodesAlike Eq (.object (before ++ (key, v) :: after))
      (.object (before ++ (key, w) :: after)) := by
  have haccepted : (∃ s, decodeMember key v = .ok s) ↔ ∃ s, decodeMember key w = .ok s :=
    exists_congr h
  refine ⟨?_, fun o o' ho ho' => ?_⟩
  · rw [exists_decode_object_iff, exists_decode_object_iff, List.forall_mem_append,
      List.forall_mem_append, List.forall_mem_cons, List.forall_mem_cons, haccepted]
  · obtain ⟨_, ⟨s, hs⟩, _⟩ := parts_of_decode ho
    have heq : decodeMember key v = decodeMember key w := hs.trans ((h s).mp hs).symm
    rw [decode_congr heq] at ho
    exact Except.ok.inj (ho.symm.trans ho')

theorem distinct_of_without {before after : Entries Json.Value}
    (h : (Json.Value.object (before ++ (key, v) :: after)).Distinct) :
    (Json.Value.object (before ++ after)).Distinct := by
  have hsub : (before ++ after).Sublist (before ++ (key, v) :: after) :=
    (List.sublist_cons_self _ _).append_left before
  exact .object ((nodup_keys_of_distinct h).sublist (hsub.map Prod.fst)) fun member hm =>
    distinct_of_mem_object h member (hsub.mem hm)

theorem distinct_of_equivalentForm (hd : (Json.Value.object members).Distinct)
    (h : EquivalentForm members others) : (Json.Value.object others).Distinct := by
  cases h with
  | without => exact distinct_of_without hd
  | rephrased h => exact distinct_around hd (distinct_of_rephrased (distinct_of_around hd) h)

theorem distinct_of_extra {script : String} {front back : Entries Json.Value} (hv : v.Distinct)
    (hform : v ∈ scriptForms script front back) :
    (Json.Value.object (front ++ back)).Distinct := by
  rw [scriptForms, List.mem_cons, List.mem_singleton] at hform
  rcases hform with rfl | rfl
  · exact distinct_of_mem_array hv _ (by simp)
  · exact distinct_of_without hv

theorem decodesAlike_of_equivalentForm (hd : (Json.Value.object members).Distinct)
    (h : EquivalentForm members others) : DecodesAlike Eq (.object members) (.object others) := by
  cases h with
  | @without before after _ _ h =>
    obtain ⟨s, hs, ha⟩ := exists_absent_of_idle h
    exact .of_eq congruence_eq (decode_drop hs ha (not_mem_around hd).1 after)
  | rephrased h =>
    exact decodesAlike_of_member (decodeMember_of_rephrased (distinct_of_around hd) h) _ _

end Forms

section Levels

variable {member : String × Json.Value} {v : Json.Value} {others : Entries Json.Value}
  {e : CompileError}

theorem distinct_of_holdsMember (hv : v.Distinct) (h : HoldsMember member v others) :
    member.2.Distinct := by
  induction h with
  | here => exact distinct_of_around hv
  | inside _ ih => exact ih (distinct_of_listed hv)

theorem decodeMember_or_other_error {before after : Entries Json.Value}
    (h : SearchOptions.decode (.object (before ++ member :: after)) = .error e) :
    decodeMember member.1 member.2 = .error e ∨
      ∃ other ∈ before ++ after, SearchOptions.decode (.object [other]) = .error e := by
  obtain ⟨first, key, w, rest, hm, _, he⟩ := exists_first_of_decode_error h
  have hmem : (key, w) ∈ before ++ member :: after := by simp [hm]
  rcases List.mem_append.mp hmem with hb | hmem
  · exact .inr ⟨(key, w), List.mem_append_left _ hb, decode_alone_eq_error_iff.mpr he⟩
  rcases List.mem_cons.mp hmem with rfl | ha
  · exact .inl he
  · exact .inr ⟨(key, w), List.mem_append_right _ ha, decode_alone_eq_error_iff.mpr he⟩

/-- Options are refused for a member at one of their levels or for another one. -/
theorem decode_error_of_holdsMember (h : HoldsMember member v others)
    (he : SearchOptions.decode v = .error e) :
    decodeMember member.1 member.2 = .error e ∨
      ∃ other ∈ others, SearchOptions.decode (.object [other]) = .error e := by
  induction h with
  | here => exact decodeMember_or_other_error he
  | @inside before after others text v _ ih =>
    rcases decodeMember_or_other_error he with hi | ⟨other, ho, he⟩
    · rcases ih (decode_eq_error_of_listed hi) with hm | ⟨other, ho, he⟩
      · exact .inl hm
      · exact .inr ⟨other, by simp [ho], he⟩
    · rw [List.mem_append] at ho
      exact .inr ⟨other, by rcases ho with ho | ho <;> simp [ho], he⟩

end Levels

/-- Options in equivalent forms, at whatever levels, decode to the same options or are all refused.
Options with a script beside other members, in an array or among them, are refused for one of these,
for its name or as parameters that are no object, if they are not for another member. -/
theorem decode_of_equivalentForms :
    (∀ v w : Json.Value, v.Distinct → Relation.ReflTransGen (AtLevel EquivalentForm) v w →
      ∀ o, SearchOptions.decode v = .ok o ↔ SearchOptions.decode w = .ok o) ∧
    ∀ (script : String) (front back : Entries Json.Value),
      "script" ∉ Entries.keys (front ++ back) →
      ∀ form ∈ scriptForms script front back,
      ∀ v others e, v.Distinct → HoldsMember ("boost_function", form) v others →
        SearchOptions.decode v = .error e →
        ReportsExtra (front ++ back) e ∨
          ∃ other ∈ others, SearchOptions.decode (.object [other]) = .error e := by
  refine ⟨fun v w hv h => ?_, fun script front back hk form hform v others e hv hh h => ?_⟩
  · exact (decodesAlike_of_rewritings congruence_eq decodesAlike_of_equivalentForm
      distinct_of_equivalentForm hv h).decode_iff
  · have hextra := distinct_of_extra (distinct_of_holdsMember hv hh) hform
    have hnull : form.kind ≠ .null := by
      rw [scriptForms, List.mem_cons, List.mem_singleton] at hform
      rcases hform with rfl | rfl <;> nofun
    refine (decode_error_of_holdsMember hh h).imp_left fun he => ?_
    rw [decodeMember_boostFunction hnull, map_eq_error_iff] at he
    exact reportsExtra_of_decodeScript (nodup_keys_of_distinct hextra) hk hform he

theorem decode_of_equivalentForms_green :
    let params : String × Json.Value := ("params", .object [("p", .number (.integer 2))])
    let script : String × Json.Value := ("script", .string "_score")
    let nesting (on function : Json.Value) : Json.Value :=
      .object [("includes",
        .array [.string "green", .object [("on", on), ("boost_function", function)]])]
    let listed (extra : String × Json.Value) : Json.Value := .array [script.2, .object [extra]]
    let v : Json.Value := nesting (.strings ["name"]) (listed params)
    let w : Json.Value := nesting (.string "name") (.object [params, script])
    let lang : String × Json.Value := ("lang", .string "painless")
    let x : Json.Value := .single "boost_function" (listed lang)
    let function : ScoreScript := ⟨"_score", some [("p", .number (.integer 2))]⟩
    let o : SearchOptions :=
      .including {} "green" (.plain { on := some (.single "name"), boostFunction := some function })
    let e : CompileError := .invalidShape "boost_function" (.unexpectedKey "lang")
    v.Distinct ∧ SearchOptions.decode v = .ok o ∧ SearchOptions.decode w = .ok o ∧
      SearchOptions.decode x = .error e ∧ ReportsExtra [lang] e := by
  intro params script nesting listed v w lang x function o e
  obtain ⟨hsame, hreport⟩ := decode_of_equivalentForms
  have hparams : params.2.Distinct :=
    .object (by decide) (List.forall_mem_singleton.mpr (.number _))
  have hlisted {extra : String × Json.Value} (hextra : extra.2.Distinct) :
      (listed extra).Distinct := by
    refine .array ?_
    rw [List.forall_mem_cons, List.forall_mem_singleton]
    exact ⟨.string _, .object (by simp [Entries.keys]) (List.forall_mem_singleton.mpr hextra)⟩
  have hv : v.Distinct := by
    refine .object (by decide) (List.forall_mem_singleton.mpr (.array ?_))
    rw [List.forall_mem_cons, List.forall_mem_singleton]
    refine ⟨.string _, .object (by simp [Entries.keys]) ?_⟩
    rw [List.forall_mem_cons, List.forall_mem_singleton]
    exact ⟨.array (List.forall_mem_singleton.mpr (.string _)), hlisted hparams⟩
  have hx : x.Distinct :=
    .object (by decide) (List.forall_mem_singleton.mpr (hlisted (.string _)))
  have hinside {members others : Entries Json.Value} (h : EquivalentForm members others) :
      AtLevel EquivalentForm
        (.object ([] ++ ("includes", .array [.string "green", .object members]) :: []))
        (.object ([] ++ ("includes", .array [.string "green", .object others]) :: [])) :=
    .inside (.here h)
  have hfield : EquivalentForm
      ([] ++ ("on", .strings ["name"]) :: [("boost_function", listed params)])
      ([] ++ ("on", .string "name") :: [("boost_function", listed params)]) :=
    .rephrased .oneField
  have hscript : EquivalentForm
      ([("on", .string "name")] ++
        ("boost_function", .array [script.2, .object ([params] ++ [])]) :: [])
      ([("on", .string "name")] ++ ("boost_function", .object ([params] ++ script :: [])) :: []) :=
    .rephrased (.scriptAmong (by decide))
  have hforms : Relation.ReflTransGen (AtLevel EquivalentForm) v w :=
    .tail (.single (hinside hfield)) (hinside hscript)
  have ho : SearchOptions.decode v = .ok o := rfl
  have he : SearchOptions.decode x = .error e := rfl
  have hholds : HoldsMember ("boost_function", listed lang)
      (.object ([] ++ ("boost_function", listed lang) :: [])) ([] ++ []) := .here
  refine ⟨hv, ho, (hsame v w hv hforms o).mp ho, he, ?_⟩
  rcases hreport "_score" [lang] [] (by decide) (listed lang) List.mem_cons_self x _ e hx hholds he
    with hextra | ⟨_, hmem, _⟩
  · exact hextra
  · cases hmem

end SearchCompiler
