import SearchCompiler.Aggregation.Basic
import SearchCompiler.Text.Lines

/-!
Descriptions of aggregations read. A text is cut at its first two colons, and the three parts are
a description if the first names a kind and the other two are not empty. The error of any other text
says which of this fails first.
-/

namespace SearchCompiler

theorem AggregationKind.ofName?_eq_some_iff {name : String} {kind : AggregationKind} :
    ofName? name = some kind ↔ kind.name = name := by
  constructor
  · intro h
    rw [ofName?] at h
    simpa using List.find?_some h
  · rintro rfl
    exact ofName?_name kind

theorem AggregationKind.name_injective : Function.Injective AggregationKind.name := by
  intro kind kind' h
  have hk := ofName?_name kind
  rw [h, ofName?_name kind'] at hk
  exact (Option.some.inj hk).symm

/-- The message about a name that is no kind lists the names of all kinds. -/
theorem AggregationKind.unknownMessage_eq (name : String) :
    unknownMessage name = "unknown kind '" ++ name ++
      "' (expected one of: max, min, avg, sum, value_count, cardinality, terms)" := by
  have hkinds : "' (expected one of: " ++ ", ".intercalate (all.map AggregationKind.name) ++ ")" =
      "' (expected one of: max, min, avg, sum, value_count, cardinality, terms)" := by
    decide +kernel
  calc unknownMessage name
      = "unknown kind '" ++ name ++ ("' (expected one of: "
          ++ ", ".intercalate (all.map AggregationKind.name) ++ ")") := by
        delta unknownMessage
        simp only [String.append_assoc]
    _ = "unknown kind '" ++ name ++
          "' (expected one of: max, min, avg, sum, value_count, cardinality, terms)" :=
        congrArg (("unknown kind '" ++ name) ++ ·) hkinds

theorem AggregationKind.unknownMessage_ne (name : String) {message : String}
    (h : message.toList.head? ≠ some 'u') : unknownMessage name ≠ message := by
  rintro rfl
  apply h
  rw [unknownMessage_eq]
  simp

theorem AggregationKind.colon_not_mem_name (kind : AggregationKind) : ':' ∉ kind.name.toList := by
  cases kind <;> decide

namespace Aggregation

/-- A text cut at its first two colons. -/
structure CutInto (text before name field : String) : Prop where
  text_eq : text = before ++ ":" ++ name ++ ":" ++ field
  before_undivided : ':' ∉ before.toList
  name_undivided : ':' ∉ name.toList

/-- A text that describes an aggregation by its kind, its name and its field. Only the field may
hold colons. -/
structure Describes (text : String) (kind : AggregationKind) (name field : String) : Prop where
  text_eq : text = kind.name ++ ":" ++ name ++ ":" ++ field
  name_nonempty : name ≠ ""
  name_undivided : ':' ∉ name.toList
  field_nonempty : field ≠ ""

theorem Describes.cutInto {text name field : String} {kind : AggregationKind}
    (h : Describes text kind name field) : CutInto text kind.name name field :=
  ⟨h.text_eq, kind.colon_not_mem_name, h.name_undivided⟩

section Cuts

theorem cutAtColon_of_not_mem {cs : List Char} (h : ':' ∉ cs) : cutAtColon cs = none := by
  have hplain : ∀ c ∈ cs, decide (c ≠ ':') = true := by
    intro c hc
    exact decide_eq_true (ne_of_mem_of_not_mem hc h)
  have hdrop : cs.dropWhile (· ≠ ':') = [] := by
    rw [← List.append_nil cs, List.dropWhile_append_of_pos hplain, List.dropWhile_nil]
  rw [cutAtColon, hdrop]

theorem cutAtColon_append {cs : List Char} (h : ':' ∉ cs) (rest : List Char) :
    cutAtColon (cs ++ ':' :: rest) = some (cs, rest) := by
  have hplain : cs.all (· ≠ ':') = true := by
    apply List.all_eq_true.mpr
    intro c hc
    exact decide_eq_true (ne_of_mem_of_not_mem hc h)
  have hcolon : decide (':' ≠ ':') = false := by decide
  obtain ⟨htake, hdrop⟩ := Text.run_append hplain hcolon rest
  simp only [cutAtColon, hdrop, htake]

variable {text before name field : String}

theorem CutInto.toList_eq (h : CutInto text before name field) :
    text.toList = before.toList ++ ':' :: (name.toList ++ ':' :: field.toList) := by
  rw [h.text_eq]
  simp

/-- A text is cut at its first two colons in one way only. -/
theorem CutInto.unique {before' name' field' : String} (h : CutInto text before name field)
    (h' : CutInto text before' name' field') :
    before = before' ∧ name = name' ∧ field = field' := by
  have hfirst := cutAtColon_append h.before_undivided (name.toList ++ ':' :: field.toList)
  have hsecond := cutAtColon_append h.name_undivided field.toList
  rw [← h.toList_eq, h'.toList_eq, cutAtColon_append h'.before_undivided] at hfirst
  obtain ⟨hb, hrest⟩ := Prod.mk.inj (Option.some.inj hfirst)
  rw [← hrest, cutAtColon_append h'.name_undivided] at hsecond
  obtain ⟨hn, hf⟩ := Prod.mk.inj (Option.some.inj hsecond)
  exact ⟨(String.toList_injective hb).symm, (String.toList_injective hn).symm,
    (String.toList_injective hf).symm⟩

/-- A text can be cut exactly if it has two colons. -/
theorem exists_cutInto_iff :
    (∃ before name field, CutInto text before name field) ↔ 2 ≤ text.toList.count ':' := by
  constructor
  · rintro ⟨before, name, field, h⟩
    rw [h.toList_eq, List.count_append, List.count_cons_self, List.count_append,
      List.count_cons_self]
    omega
  · intro h
    obtain ⟨before, rest, hfirst, hb⟩ :=
      List.eq_append_cons_of_mem (List.count_pos_iff.mp (by omega : 0 < text.toList.count ':'))
    have hrest : 0 < rest.count ':' := by
      rw [hfirst, List.count_append, List.count_eq_zero_of_not_mem hb, List.count_cons_self] at h
      omega
    obtain ⟨name, field, hsecond, hn⟩ := List.eq_append_cons_of_mem (List.count_pos_iff.mp hrest)
    refine ⟨String.ofList before, String.ofList name, String.ofList field, ?_, ?_, ?_⟩
    · apply String.toList_injective
      simp [hfirst, hsecond]
    · rwa [String.toList_ofList]
    · rwa [String.toList_ofList]

end Cuts

section Outcomes

variable {text before name field : String}

theorem parse_of_count_lt (h : text.toList.count ':' < 2) :
    parse text = .error (.invalidAggregation text .notThreeParts) := by
  by_cases hm : ':' ∈ text.toList
  · obtain ⟨before, rest, hcut, hb⟩ := List.eq_append_cons_of_mem hm
    have hr : ':' ∉ rest := by
      rw [hcut, List.count_append, List.count_cons_self] at h
      exact List.count_eq_zero.mp (by omega)
    simp only [parse, hcut, cutAtColon_append hb, cutAtColon_of_not_mem hr]
  · simp only [parse, cutAtColon_of_not_mem hm]

theorem parse_of_cutInto (h : CutInto text before name field) :
    parse text =
      if name = "" ∨ field = "" then .error (.invalidAggregation text .emptyPart)
      else
        match AggregationKind.ofName? before with
        | none => .error (.invalidAggregation text (.unknownKind before))
        | some kind => .ok (ofField kind name field) := by
  cases hkind : AggregationKind.ofName? before <;>
    simp only [parse, h.toList_eq, cutAtColon_append h.before_undivided,
      cutAtColon_append h.name_undivided, List.isEmpty_iff, String.toList_eq_nil_iff,
      String.ofList_toList, hkind]

theorem parse_eq_ok_iff {a : Aggregation} :
    parse text = .ok a ↔
      ∃ kind name field, Describes text kind name field ∧ a = ofField kind name field := by
  constructor
  · intro h
    by_cases hc : text.toList.count ':' < 2
    · rw [parse_of_count_lt hc] at h
      cases h
    · obtain ⟨before, name, field, hcut⟩ := exists_cutInto_iff.mpr (Nat.not_lt.mp hc)
      rw [parse_of_cutInto hcut] at h
      split at h
      · cases h
      · next hne =>
        rw [not_or] at hne
        split at h
        · cases h
        · next kind hkind =>
          cases h
          rw [AggregationKind.ofName?_eq_some_iff] at hkind
          subst hkind
          exact ⟨kind, name, field, ⟨hcut.text_eq, hne.1, hcut.name_undivided, hne.2⟩, rfl⟩
  · rintro ⟨kind, name, field, hd, rfl⟩
    rw [parse_of_cutInto hd.cutInto, if_neg (not_or.mpr ⟨hd.name_nonempty, hd.field_nonempty⟩),
      AggregationKind.ofName?_name]

/-- What is wrong with a text that is no description, by the first check that fails. -/
inductive FaultOf (text : String) : AggregationFault → Prop
  | notThreeParts : text.toList.count ':' < 2 → FaultOf text .notThreeParts
  | emptyPart {before name field : String} :
    CutInto text before name field → name = "" ∨ field = "" → FaultOf text .emptyPart
  | unknownKind {before name field : String} :
    CutInto text before name field → ¬ (name = "" ∨ field = "") →
      FaultOf text (.unknownKind before)

theorem faultOf_of_parse {e : CompileError} (h : parse text = .error e) :
    ∃ fault, e = .invalidAggregation text fault ∧ FaultOf text fault := by
  by_cases hc : text.toList.count ':' < 2
  · rw [parse_of_count_lt hc] at h
    cases h
    exact ⟨_, rfl, .notThreeParts hc⟩
  · obtain ⟨before, name, field, hcut⟩ := exists_cutInto_iff.mpr (Nat.not_lt.mp hc)
    rw [parse_of_cutInto hcut] at h
    split at h
    · next he =>
      cases h
      exact ⟨_, rfl, .emptyPart hcut he⟩
    · next he =>
      split at h
      · cases h
        exact ⟨_, rfl, .unknownKind hcut he⟩
      · cases h

/-- Each of the three messages belongs to one fault only. -/
theorem message_of_faultOf {fault : AggregationFault} (h : FaultOf text fault) :
    (fault.message = "expected kind:name:field" ↔ text.toList.count ':' < 2) ∧
      (fault.message = "name and field must not be empty" ↔
        ∃ before name field, CutInto text before name field ∧ (name = "" ∨ field = "")) ∧
      (fault.message ≠ "expected kind:name:field" →
        fault.message ≠ "name and field must not be empty" →
        ∃ before name field, CutInto text before name field ∧
          fault.message = "unknown kind '" ++ before ++
            "' (expected one of: max, min, avg, sum, value_count, cardinality, terms)") := by
  have hfew {before name field : String} (hc : CutInto text before name field) :
      ¬ text.toList.count ':' < 2 :=
    Nat.not_lt.mpr (exists_cutInto_iff.mp ⟨before, name, field, hc⟩)
  cases h with
  | notThreeParts hlt =>
    refine ⟨iff_of_true rfl hlt, iff_of_false (by decide) ?_, fun hne => absurd rfl hne⟩
    rintro ⟨before, name, field, hc, _⟩
    exact hfew hc hlt
  | emptyPart hc he =>
    exact ⟨iff_of_false (by decide) (hfew hc), iff_of_true rfl ⟨_, _, _, hc, he⟩,
      fun _ hne => absurd rfl hne⟩
  | unknownKind hc he =>
    refine ⟨iff_of_false (AggregationKind.unknownMessage_ne _ (by decide)) (hfew hc),
      iff_of_false (AggregationKind.unknownMessage_ne _ (by decide)) ?_,
      fun _ _ => ⟨_, _, _, hc, AggregationKind.unknownMessage_eq _⟩⟩
    rintro ⟨before', name', field', hc', he'⟩
    obtain ⟨_, rfl, rfl⟩ := hc.unique hc'
    exact he he'

end Outcomes

/-- Descriptions of aggregations are read exactly. A text is read if and only if it is a kind, a
name and a field between colons, which it then is in one way only, and gives the aggregation of
these without options. The error of any other text has the message of the first check that fails:
two colons, a name and a field that are not empty, a kind that is known. The last message names what
is no kind and lists the kinds. -/
theorem descriptions_read_exactly (text : String) :
    (∀ a, parse text = .ok a ↔
      ∃ kind name field, Describes text kind name field ∧ a = ofField kind name field) ∧
    (∀ kind kind' name name' field field', Describes text kind name field →
      Describes text kind' name' field' → kind = kind' ∧ name = name' ∧ field = field') ∧
    ∀ e, parse text = .error e →
      ∃ fault : AggregationFault, e = .invalidAggregation text fault ∧
        (fault.message = "expected kind:name:field" ↔ text.toList.count ':' < 2) ∧
        (fault.message = "name and field must not be empty" ↔
          ∃ before name field, CutInto text before name field ∧ (name = "" ∨ field = "")) ∧
        (fault.message ≠ "expected kind:name:field" →
          fault.message ≠ "name and field must not be empty" →
          ∃ before name field, CutInto text before name field ∧
            fault.message = "unknown kind '" ++ before ++
              "' (expected one of: max, min, avg, sum, value_count, cardinality, terms)") := by
  refine ⟨fun a => parse_eq_ok_iff, ?_, ?_⟩
  · intro kind kind' name name' field field' h h'
    obtain ⟨hk, hn, hf⟩ := h.cutInto.unique h'.cutInto
    exact ⟨AggregationKind.name_injective hk, hn, hf⟩
  · intro e he
    obtain ⟨fault, rfl, hf⟩ := faultOf_of_parse he
    exact ⟨fault, rfl, message_of_faultOf hf⟩

theorem descriptions_read_exactly_median :
    let text := "value_count:n:company:id"
    Describes text .valueCount "n" "company:id" ∧
      parse text = .ok (ofField .valueCount "n" "company:id") ∧
      (∃ fault, parse "median::" = .error (.invalidAggregation "median::" fault) ∧
        CutInto "median::" "median" "" "" ∧
        fault.message = "name and field must not be empty") ∧
      ∃ fault, parse "median:n:id" = .error (.invalidAggregation "median:n:id" fault) ∧
        fault.message = "unknown kind 'median' (expected one of: " ++
          "max, min, avg, sum, value_count, cardinality, terms)" := by
  intro text
  have hd : Describes text .valueCount "n" "company:id" :=
    ⟨by decide, by decide, by decide, by decide⟩
  refine ⟨hd, ((descriptions_read_exactly text).1 _).mpr ⟨_, _, _, hd, rfl⟩, ?_, ?_⟩
  · have hc : CutInto "median::" "median" "" "" := ⟨by decide, by decide, by decide⟩
    have he : parse "median::" = .error (.invalidAggregation "median::" .emptyPart) := by rfl
    obtain ⟨fault, hf, _, hempty, _⟩ := (descriptions_read_exactly "median::").2.2 _ he
    rw [hf] at he
    exact ⟨fault, he, hc, hempty.mpr ⟨_, _, _, hc, .inl rfl⟩⟩
  · have hc : CutInto "median:n:id" "median" "n" "id" := ⟨by decide, by decide, by decide⟩
    have he : parse "median:n:id" =
        .error (.invalidAggregation "median:n:id" (.unknownKind "median")) := by rfl
    obtain ⟨fault, hf, hfew, hempty, hunknown⟩ :=
      (descriptions_read_exactly "median:n:id").2.2 _ he
    rw [hf] at he
    have hne : fault.message ≠ "expected kind:name:field" := mt hfew.mp (by decide)
    have hne' : fault.message ≠ "name and field must not be empty" := by
      intro h
      obtain ⟨before, name, field, hcut, hparts⟩ := hempty.mp h
      obtain ⟨rfl, rfl, rfl⟩ := hc.unique hcut
      exact absurd hparts (by decide)
    obtain ⟨before, name, field, hcut, hmessage⟩ := hunknown hne hne'
    obtain ⟨rfl, _, _⟩ := hc.unique hcut
    refine ⟨fault, he, ?_⟩
    rw [hmessage]
    decide +kernel

end Aggregation

end SearchCompiler
