import Mathlib.Logic.Relation
import SearchCompiler.Json.Printer
import SearchCompiler.Proofs.WrittenOptions
import SearchCompiler.Query.Document

/-!
Options rewritten at one of their levels. The members of an object of options are rewritten, at the
outer level or in the options of an included text at any depth. What such a rewriting keeps of the
decoded options is settled for the outer level alone: an included text hands it on to its options.
-/

namespace SearchCompiler

/-- Values of options that differ by a rewriting of the members of one level. -/
inductive AtLevel (R : Entries Json.Value → Entries Json.Value → Prop) :
    Json.Value → Json.Value → Prop
  | here {members others : Entries Json.Value} :
    R members others → AtLevel R (.object members) (.object others)
  | inside {before after : Entries Json.Value} {text : String} {v w : Json.Value} :
    AtLevel R v w →
    AtLevel R (.object (before ++ ("includes", .array [.string text, v]) :: after))
      (.object (before ++ ("includes", .array [.string text, w]) :: after))

/-- Values of options that both fail to decode, or decode to related options. -/
structure DecodesAlike (S : SearchOptions → SearchOptions → Prop) (v w : Json.Value) : Prop where
  accepted : (∃ o, SearchOptions.decode v = .ok o) ↔ ∃ o, SearchOptions.decode w = .ok o
  related : ∀ o o', SearchOptions.decode v = .ok o → SearchOptions.decode w = .ok o' → S o o'

/-- A relation of options that an included text hands on. -/
structure Congruence (S : SearchOptions → SearchOptions → Prop) : Prop where
  refl : ∀ o, S o o
  trans : ∀ {o o' o''}, S o o' → S o' o'' → S o o''
  including : ∀ (c : Clauses) (text : String) {o o'}, S o o' →
    S (.including c text o) (.including c text o')

/-- What a text compiles to under a value of options: the query, with the text of its document. -/
def compileValue (settings : Settings) (text : String) (v : Json.Value) :
    Except CompileError (QueryNode × String) := do
  let o ← SearchOptions.decode v
  let q ← o.compile settings text
  return (q, q.toJson.compact)

/-- Settings that leave the clause they are about absent. -/
inductive Setting.Absent : Setting → Prop
  | nothing : Absent .nothing
  | only : Absent (.only none)
  | except : Absent (.except none)
  | boostWhere : Absent (.boostWhere none)
  | includes : Absent (.includes none)

theorem congruence_eq : Congruence Eq where
  refl _ := rfl
  trans := Eq.trans
  including _ _ _ _ h := by rw [h]

theorem DecodesAlike.of_eq {S : SearchOptions → SearchOptions → Prop} (hS : Congruence S)
    {v w : Json.Value} (h : SearchOptions.decode v = SearchOptions.decode w) :
    DecodesAlike S v w := by
  refine ⟨by rw [h], fun o o' ho ho' => ?_⟩
  rw [h] at ho
  cases ho.symm.trans ho'
  exact hS.refl o

theorem DecodesAlike.trans {S : SearchOptions → SearchOptions → Prop} (hS : Congruence S)
    {u v w : Json.Value} (huv : DecodesAlike S u v) (hvw : DecodesAlike S v w) :
    DecodesAlike S u w := by
  refine ⟨huv.accepted.trans hvw.accepted, fun o o' ho ho' => ?_⟩
  obtain ⟨mid, hm⟩ := huv.accepted.mp ⟨o, ho⟩
  exact hS.trans (huv.related o mid ho hm) (hvw.related mid o' hm ho')

/-- To decode alike up to equality is to decode to the same options. -/
theorem DecodesAlike.decode_iff {v w : Json.Value} (h : DecodesAlike Eq v w) (o : SearchOptions) :
    SearchOptions.decode v = .ok o ↔ SearchOptions.decode w = .ok o := by
  constructor
  · intro ho
    obtain ⟨o', ho'⟩ := h.accepted.mp ⟨o, ho⟩
    rw [ho', h.related o o' ho ho']
  · intro ho
    obtain ⟨o', ho'⟩ := h.accepted.mpr ⟨o, ho⟩
    rw [ho', h.related o' o ho' ho]

theorem compileValue_congr {v w : Json.Value}
    (h : SearchOptions.decode v = SearchOptions.decode w) (settings : Settings) (text : String) :
    compileValue settings text v = compileValue settings text w := by
  rw [compileValue, compileValue, h]

section Members

variable {before after members : Entries Json.Value} {key : String} {v : Json.Value}

theorem decodeSettings_eq_mapM (members : Entries Json.Value) :
    decodeSettings members = members.mapM fun member => decodeMember member.1 member.2 := by
  induction members with
  | nil => rw [decodeSettings, List.mapM_nil]; rfl
  | cons member rest ih => rw [decodeSettings_cons, List.mapM_cons, ih]

theorem decodeSettings_append (xs ys : Entries Json.Value) :
    decodeSettings (xs ++ ys) = (do
      let settings ← decodeSettings xs
      let later ← decodeSettings ys
      return settings ++ later) := by
  simp only [decodeSettings_eq_mapM, List.mapM_append]

theorem decode_object_eq_ok_iff {o : SearchOptions} :
    SearchOptions.decode (.object members) = .ok o ↔
      ∃ settings, decodeSettings members = .ok settings ∧ o = .ofSettings settings := by
  rw [SearchOptions.decode, bind_eq_ok_iff]
  refine exists_congr fun settings => and_congr_right fun _ => ?_
  constructor
  · intro h
    cases h
    rfl
  · rintro rfl
    rfl

/-- An object of options decodes exactly if each of its members does. -/
theorem exists_decode_object_iff :
    (∃ o, SearchOptions.decode (.object members) = .ok o) ↔
      ∀ member ∈ members, ∃ s, decodeMember member.1 member.2 = .ok s := by
  rw [SearchOptions.decode, exists_ok_map, decodeSettings_eq_mapM, exists_ok_mapM]

theorem decodeSettings_around (before after : Entries Json.Value) (key : String) (v : Json.Value) :
    decodeSettings (before ++ (key, v) :: after) = (do
      let front ← decodeSettings before
      let s ← decodeMember key v
      let back ← decodeSettings after
      return front ++ s :: back) := by
  simp only [decodeSettings_eq_mapM, List.mapM_append, List.mapM_cons, bind_assoc, pure_bind]

/-- A member counts through what it decodes to alone. -/
theorem decode_congr {w : Json.Value} (h : decodeMember key v = decodeMember key w)
    (before after : Entries Json.Value) :
    SearchOptions.decode (.object (before ++ (key, v) :: after)) =
      SearchOptions.decode (.object (before ++ (key, w) :: after)) := by
  rw [SearchOptions.decode, SearchOptions.decode, decodeSettings_around, decodeSettings_around, h]

theorem ofSettings_append (front back : List Setting) :
    SearchOptions.ofSettings (front ++ back) =
      back.foldl SearchOptions.apply (.ofSettings front) :=
  List.foldl_append

theorem modify_eq_self {f : Clauses → Clauses} {o : SearchOptions} (h : f o.clauses = o.clauses) :
    o.modify f = o := by
  rw [SearchOptions.modify, h, SearchOptions.ofParts_parts]

/-- A setting that leaves its clause absent changes nothing after members of other names. -/
theorem apply_of_absent {front : List Setting} {s : Setting}
    (hf : decodeSettings members = .ok front) (hk : key ∉ members.keys) (ha : Asks key v s)
    (hs : s.Absent) : (SearchOptions.ofSettings front).apply s = .ofSettings front := by
  have hread {β : Type} (clause : Clause β) (hc : clause.key = key) :
      clause.read (.ofSettings front) = none := by
    have hr := clause.read_foldl (asks_of_decodeSettings hf) .empty
    rw [hc, lastNamed_of_not_mem hk] at hr
    exact hr.trans clause.read_empty
  cases hs with
  | nothing => rfl
  | only =>
    have honly : (SearchOptions.ofSettings front).clauses.only = none := hread .only ha.key_eq.symm
    rw [SearchOptions.apply]
    refine modify_eq_self ?_
    rw [← honly]
  | except =>
    have hexcept : (SearchOptions.ofSettings front).clauses.except = none :=
      hread .except ha.key_eq.symm
    rw [SearchOptions.apply]
    refine modify_eq_self ?_
    rw [← hexcept]
  | boostWhere =>
    have hwhere : (SearchOptions.ofSettings front).clauses.boostWhere = none :=
      hread .boostWhere ha.key_eq.symm
    rw [SearchOptions.apply]
    refine modify_eq_self ?_
    rw [← hwhere]
  | includes =>
    have hincludes : (SearchOptions.ofSettings front).includes = none :=
      hread .includes ha.key_eq.symm
    rw [SearchOptions.apply, ← hincludes, SearchOptions.ofParts_parts]

/-- A member that leaves its clause absent can be left out. -/
theorem decode_drop {s : Setting} (hs : decodeMember key v = .ok s) (ha : s.Absent)
    (hk : key ∉ before.keys) (after : Entries Json.Value) :
    SearchOptions.decode (.object (before ++ (key, v) :: after)) =
      SearchOptions.decode (.object (before ++ after)) := by
  rw [SearchOptions.decode, SearchOptions.decode, decodeSettings_around, decodeSettings_append, hs]
  cases hf : decodeSettings before with
  | error e => rfl
  | ok front =>
    cases decodeSettings after with
    | error e => rfl
    | ok back =>
      have hdrop : SearchOptions.ofSettings (front ++ s :: back) = .ofSettings (front ++ back) := by
        rw [ofSettings_append, ofSettings_append, List.foldl_cons,
          apply_of_absent hf hk (asks_of_decodeMember hs) ha]
      exact congrArg Except.ok hdrop

theorem apply_ofParts {s : Setting} (ha : Asks key v s) (hk : key ≠ "includes") (c : Clauses) :
    ∃ c', ∀ nested, (SearchOptions.ofParts c nested).apply s = .ofParts c' nested := by
  cases s with
  | nothing => exact ⟨c, fun _ => rfl⟩
  | includes nested => exact absurd ha.key_eq hk
  | matchOption name value =>
    exact ⟨_, fun nested => by
      rw [SearchOptions.apply, SearchOptions.withMatchOption, modify_ofParts]⟩
  | _ => exact ⟨_, fun nested => by rw [SearchOptions.apply, modify_ofParts]⟩

/-- Members other than an included text do not bear on it, nor it on what they set. -/
theorem foldl_ofParts {settings : List Setting} (h : AllAsk members settings)
    (hk : "includes" ∉ members.keys) (c : Clauses) :
    ∃ c', ∀ nested,
      settings.foldl SearchOptions.apply (.ofParts c nested) = .ofParts c' nested := by
  induction h generalizing c with
  | nil => exact ⟨c, fun _ => rfl⟩
  | cons ha _ ih =>
    rw [Entries.keys_cons, List.mem_cons, not_or] at hk
    obtain ⟨c₁, h₁⟩ := apply_ofParts ha (Ne.symm hk.1) c
    obtain ⟨c₂, h₂⟩ := ih hk.2 c₁
    exact ⟨c₂, fun nested => by rw [List.foldl_cons, h₁, h₂]⟩

theorem decodeMember_includes (hv : v.kind ≠ .null) :
    decodeMember "includes" v = (do return .includes (← decodeIncludes v)) := by
  rw [decodeMember, if_neg fun h => hv h.1, if_pos rfl]
  cases decodeIncludes v <;> rfl

theorem decodeMember_listed (text : String) (w : Json.Value) :
    decodeMember "includes" (.array [.string text, w]) =
      (do return .includes (some (text, ← SearchOptions.decode w))) := by
  rw [decodeMember_includes (v := .array [.string text, w]) nofun, decodeIncludes]
  cases SearchOptions.decode w <;> rfl

/-- A level is the same whatever text it includes. -/
theorem decode_includes {front back : List Setting} (hf : decodeSettings before = .ok front)
    (hb : decodeSettings after = .ok back) (hk : "includes" ∉ after.keys) :
    ∃ c, ∀ v nested, v.kind ≠ .null → decodeIncludes v = .ok nested →
      SearchOptions.decode (.object (before ++ ("includes", v) :: after)) =
        .ok (.ofParts c nested) := by
  obtain ⟨c, hc⟩ :=
    foldl_ofParts (asks_of_decodeSettings hb) hk (SearchOptions.ofSettings front).clauses
  refine ⟨c, fun v nested hv hd => decode_object_eq_ok_iff.mpr
    ⟨front ++ .includes nested :: back, ?_, ?_⟩⟩
  · rw [decodeSettings_around, hf, decodeMember_includes hv, hd, hb]
    rfl
  · rw [ofSettings_append, List.foldl_cons, SearchOptions.apply, hc]

/-- A level is the same whatever the options of the text it includes. -/
theorem decode_including {front back : List Setting} (hf : decodeSettings before = .ok front)
    (hb : decodeSettings after = .ok back) (hk : "includes" ∉ after.keys) (text : String) :
    ∃ c, ∀ w inner, SearchOptions.decode w = .ok inner →
      SearchOptions.decode (.object (before ++ ("includes", .array [.string text, w]) :: after)) =
        .ok (.including c text inner) := by
  obtain ⟨c, hc⟩ := decode_includes hf hb hk
  refine ⟨c, fun w inner hw => hc (.array [.string text, w]) (some (text, inner)) nofun ?_⟩
  rw [decodeIncludes, hw]
  rfl

theorem parts_of_decode {o : SearchOptions}
    (h : SearchOptions.decode (.object (before ++ (key, v) :: after)) = .ok o) :
    (∃ front, decodeSettings before = .ok front) ∧ (∃ s, decodeMember key v = .ok s) ∧
      ∃ back, decodeSettings after = .ok back := by
  obtain ⟨settings, hs, _⟩ := decode_object_eq_ok_iff.mp h
  rw [decodeSettings_around] at hs
  obtain ⟨front, hf, hs⟩ := bind_eq_ok_iff.mp hs
  obtain ⟨s, hm, hs⟩ := bind_eq_ok_iff.mp hs
  obtain ⟨back, hb, _⟩ := bind_eq_ok_iff.mp hs
  exact ⟨⟨front, hf⟩, ⟨s, hm⟩, back, hb⟩

theorem exists_decodeMember_listed_iff {text : String} {w : Json.Value} :
    (∃ s, decodeMember "includes" (.array [.string text, w]) = .ok s) ↔
      ∃ inner, SearchOptions.decode w = .ok inner := by
  rw [decodeMember_listed, exists_ok_map]

end Members

section Levels

variable {R : Entries Json.Value → Entries Json.Value → Prop}
  {S : SearchOptions → SearchOptions → Prop} {before after : Entries Json.Value} {key : String}
  {v w : Json.Value}

theorem not_mem_around (h : (Json.Value.object (before ++ (key, v) :: after)).Distinct) :
    key ∉ before.keys ∧ key ∉ after.keys := by
  have hn := nodup_keys_of_distinct h
  rw [Entries.keys, List.map_append, List.map_cons, List.nodup_append, List.nodup_cons] at hn
  exact ⟨fun hm => hn.2.2 _ hm _ List.mem_cons_self rfl, hn.2.1.1⟩

theorem distinct_of_around (h : (Json.Value.object (before ++ (key, v) :: after)).Distinct) :
    v.Distinct :=
  distinct_of_mem_object h (key, v) (by simp)

/-- A member of an object can be given another value. -/
theorem distinct_around (h : (Json.Value.object (before ++ (key, v) :: after)).Distinct)
    (hw : w.Distinct) : (Json.Value.object (before ++ (key, w) :: after)).Distinct := by
  have hn := nodup_keys_of_distinct h
  have hm := distinct_of_mem_object h
  refine .object ?_ ?_
  · simpa only [Entries.keys, List.map_append, List.map_cons] using hn
  · rw [List.forall_mem_append, List.forall_mem_cons] at hm ⊢
    exact ⟨hm.1, hw, hm.2.2⟩

theorem distinct_of_listed {text : String}
    (h : (Json.Value.object (before ++ ("includes", .array [.string text, v]) :: after)).Distinct) :
    v.Distinct :=
  distinct_of_mem_array (distinct_of_around h) v (by simp)

theorem distinct_of_atLevel
    (hR : ∀ {members others}, (Json.Value.object members).Distinct → R members others →
      (Json.Value.object others).Distinct)
    (hv : v.Distinct) (h : AtLevel R v w) : w.Distinct := by
  induction h with
  | here h => exact hR hv h
  | @inside before after text v w _ ih =>
    refine distinct_around hv (.array ?_)
    rw [List.forall_mem_cons, List.forall_mem_singleton]
    exact ⟨.string text, ih (distinct_of_listed hv)⟩

/-- A rewriting of members under which objects decode to the same, or fail with the same error, has
no effect at any level. -/
theorem decode_eq_of_atLevel
    (hR : ∀ {members others}, R members others →
      SearchOptions.decode (.object members) = SearchOptions.decode (.object others))
    (h : AtLevel R v w) : SearchOptions.decode v = SearchOptions.decode w := by
  induction h with
  | here h => exact hR h
  | @inside before after text v w _ ih =>
    refine decode_congr ?_ before after
    rw [decodeMember_listed, decodeMember_listed, ih]

/-- What a rewriting of members keeps of the decoded options, it keeps at every level. -/
theorem decodesAlike_of_atLevel (hS : Congruence S)
    (hR : ∀ {members others}, (Json.Value.object members).Distinct → R members others →
      DecodesAlike S (.object members) (.object others))
    (hv : v.Distinct) (h : AtLevel R v w) : DecodesAlike S v w := by
  induction h with
  | here h => exact hR hv h
  | @inside before after text v w _ ih =>
    have hin := ih (distinct_of_listed hv)
    refine ⟨?_, fun o o' ho ho' => ?_⟩
    · rw [exists_decode_object_iff, exists_decode_object_iff, List.forall_mem_append,
        List.forall_mem_append, List.forall_mem_cons, List.forall_mem_cons,
        exists_decodeMember_listed_iff, exists_decodeMember_listed_iff, hin.accepted]
    · obtain ⟨⟨front, hf⟩, hm, back, hb⟩ := parts_of_decode ho
      obtain ⟨inner, hi⟩ := exists_decodeMember_listed_iff.mp hm
      obtain ⟨inner', hi'⟩ := hin.accepted.mp ⟨inner, hi⟩
      obtain ⟨c, hc⟩ := decode_including hf hb (not_mem_around hv).2 text
      cases ho.symm.trans (hc v inner hi)
      cases ho'.symm.trans (hc w inner' hi')
      exact hS.including c text (hin.related inner inner' hi hi')

/-- What each of several rewritings keeps, at whatever levels, all of them keep. -/
theorem decodesAlike_of_rewritings (hS : Congruence S)
    (hR : ∀ {members others}, (Json.Value.object members).Distinct → R members others →
      DecodesAlike S (.object members) (.object others))
    (hD : ∀ {members others}, (Json.Value.object members).Distinct → R members others →
      (Json.Value.object others).Distinct)
    (hv : v.Distinct) (h : Relation.ReflTransGen (AtLevel R) v w) : DecodesAlike S v w := by
  have hkept : DecodesAlike S v w ∧ w.Distinct := by
    induction h with
    | refl => exact ⟨.of_eq hS rfl, hv⟩
    | tail _ hstep ih =>
      obtain ⟨halike, hd⟩ := ih
      exact ⟨halike.trans hS (decodesAlike_of_atLevel hS hR hd hstep),
        distinct_of_atLevel hD hd hstep⟩
  exact hkept.1

end Levels

end SearchCompiler
