import SearchCompiler.Aggregation.Basic
import SearchCompiler.Proofs.InsertionOrder

/-!
What aggregations are written as. An option counts with the value it is given last and not at all
if that is null, and it keeps the place where it was first given. Aggregations of one name likewise
share the place of the first of them and have the body of the last.
-/

namespace SearchCompiler.Aggregation

/-- An aggregation over a field or over none, without options. -/
def start (kind : AggregationKind) (name : String) : Option String → Aggregation
  | some field => ofField kind name field
  | none => withoutField kind name

/-- Gives options one after another. -/
def withOptions (given : Entries Json.Value) (a : Aggregation) : Aggregation :=
  given.foldl (fun a option => a.withOption option.1 option.2) a

/-- The value that an option is left with: the one it was given last, unless that is null. -/
def valueOf? (given : Entries Json.Value) (key : String) : Option Json.Value :=
  (given.reverse.lookup key).filter fun v => v.kind ≠ .null

/-- The options that are left with a value, by the order in which they were first given. -/
def settled (given : Entries Json.Value) : Entries Json.Value :=
  given.keys.eraseDups.filterMap fun key => (valueOf? given key).map fun v => (key, v)

section Options

/-- Giving options inserts them one by one and changes nothing else. -/
theorem withOptions_eq (given : Entries Json.Value) (a : Aggregation) :
    a.withOptions given = { a with options := a.options.insertAll given } := by
  induction given generalizing a with
  | nil => rfl
  | cons option rest ih => exact ih (a.withOption option.1 option.2)

/-- Of inserted options those that are not null are the ones left with a value. -/
theorem filter_insertAll_nil (given : Entries Json.Value) :
    (Entries.insertAll [] given).filter (fun option => option.2.kind ≠ .null) = settled given := by
  have hn := Entries.nodup_keys_insertAll_nil given
  have hvalue (key : String) :
      ((given.reverse.lookup key).map fun v => (key, v)).filter
          (fun option => decide (option.2.kind ≠ .null)) =
        (valueOf? given key).map fun v => (key, v) := by
    unfold valueOf?
    cases given.reverse.lookup key with
    | none => rfl
    | some v => by_cases hv : v.kind = .null <;> simp [Option.filter_some, hv]
  -- Insertion has put the names in order with their last values; only nulls are left to drop.
  rw [Entries.eq_filterMap_lookup hn, List.filter_filterMap, Entries.keys_insertAll_nil, settled]
  simp only [Entries.lookup_insertAll_nil, hvalue]

theorem lookup_settled (given : Entries Json.Value) (key : String) :
    (settled given).lookup key = valueOf? given key := by
  rw [← filter_insertAll_nil, Entries.lookup_filter (Entries.nodup_keys_insertAll_nil given)
    fun v => v.kind ≠ .null, Entries.lookup_insertAll_nil]
  rfl

theorem nodup_keys_settled (given : Entries Json.Value) : (settled given).keys.Nodup := by
  rw [← filter_insertAll_nil]
  exact (Entries.nodup_keys_insertAll_nil given).sublist (List.filter_sublist.map Prod.fst)

theorem not_null_of_mem_settled {given : Entries Json.Value} {option : String × Json.Value}
    (h : option ∈ settled given) : option.2.kind ≠ .null := by
  rw [← filter_insertAll_nil] at h
  exact of_decide_eq_true (List.mem_filter.mp h).2

theorem content_withOptions (kind : AggregationKind) (name : String) (field : Option String)
    (given : Entries Json.Value) :
    ((start kind name field).withOptions given).content =
      Entries.insertAll (field.map fun f => ("field", Json.Value.string f)).toList
        (settled given) := by
  rw [withOptions_eq, ← filter_insertAll_nil]
  cases field <;> rfl

/-- A field comes first and gives way to an option of its name; the other options follow. -/
theorem content_of_field (kind : AggregationKind) (name field : String)
    (given : Entries Json.Value) :
    ((start kind name (some field)).withOptions given).content =
      ("field", (valueOf? given "field").getD (.string field)) ::
        (settled given).filter fun option => option.1 ≠ "field" := by
  have hn := nodup_keys_settled given
  have hrest : Entries.insertAll [] ((settled given).filter fun option => option.1 ≠ "field") =
      (settled given).filter fun option => option.1 ≠ "field" :=
    Entries.insertAll_of_nodup (hn.sublist (List.filter_sublist.map Prod.fst))
  rw [content_withOptions, Option.map_some, Option.toList_some, Entries.insertAll_first,
    Entries.lookup_reverse hn, lookup_settled, hrest]

theorem not_null_of_mem_content {kind : AggregationKind} {name : String} {field : Option String}
    {given : Entries Json.Value} {member : String × Json.Value}
    (h : member ∈ ((start kind name field).withOptions given).content) :
    member.2.kind ≠ .null := by
  rw [content_withOptions] at h
  rcases Entries.mem_of_mem_insertAll h with h | h
  · obtain ⟨f, _, rfl⟩ := Option.map_eq_some_iff.mp (Option.mem_toList.mp h)
    exact nofun
  · exact not_null_of_mem_settled h

theorem nodup_keys_content (kind : AggregationKind) (name : String) (field : Option String)
    (given : Entries Json.Value) :
    (Entries.keys ((start kind name field).withOptions given).content).Nodup := by
  rw [content_withOptions]
  apply Entries.nodup_keys_insertAll
  cases field with
  | none => exact List.nodup_nil
  | some f => exact List.pairwise_singleton _ _

-- A null holds the place of an option that is given a value later, and leaves the field as it is.
example :
    ((start .max "top" (some "price")).withOptions
        [("script", .null), ("missing", .bool false), ("field", .string "cost"),
          ("script", .string "_value"), ("field", .null)]).body =
      .single "max" (.object
        [("field", .string "price"), ("script", .string "_value"), ("missing", .bool false)]) := by
  rfl

end Options

section Documents

theorem lookup_bodies (aggregations : List Aggregation) (name : String) :
    (aggregations.map fun a => (a.name, a.body)).lookup name =
      (aggregations.find? fun a => a.name = name).map body := by
  induction aggregations with
  | nil => rfl
  | cons a rest ih =>
    rw [List.map_cons, Entries.lookup_cons, List.find?_cons, ih]
    by_cases ha : a.name = name
    · rw [if_pos ha.symm, decide_eq_true ha]
      rfl
    · rw [if_neg (Ne.symm ha), decide_eq_false ha]

/-- Aggregations after others are inserted into the object of those. -/
theorem entries_append (xs ys : List Aggregation) :
    entries (xs ++ ys) = Entries.insertAll (entries xs) (entries ys) := by
  let bodies : Entries Json.Value := ys.map fun a => (a.name, a.body)
  have hn : (entries xs).keys.Nodup := Entries.nodup_keys_insertAll_nil _
  have hnil : (Entries.keys ([] : Entries Json.Value)).Nodup := List.nodup_nil
  calc entries (xs ++ ys)
      = Entries.insertAll (entries xs) bodies := by
        rw [entries, List.map_append, Entries.insertAll, List.foldl_append]
        rfl
    _ = Entries.insertAll (entries xs) (entries ys) :=
        (Entries.insertAll_insertAll hn hnil bodies).symm

/-- The object of several aggregations has their names in the order in which these come first, each
with the body of the last aggregation of the name, and is extended by the object of further ones. In
a request it stands behind the query, which is kept as it is, unless there are no aggregations. -/
theorem aggregations_by_name :
    (∀ aggregations : List Aggregation,
      document aggregations = .object (entries aggregations) ∧
        (entries aggregations).keys = (aggregations.map Aggregation.name).eraseDups ∧
        (entries aggregations).keys.Nodup ∧
        ∀ name, (entries aggregations).lookup name =
          (aggregations.reverse.find? fun a => a.name = name).map body) ∧
    (∀ xs ys : List Aggregation,
      document (xs ++ ys) = .object (Entries.insertAll (entries xs) (entries ys))) ∧
    ∀ (query : Json.Value) (aggregations : List Aggregation),
      searchBody query aggregations =
        .object (("query", query) ::
          if aggregations = [] then [] else [("aggs", document aggregations)]) := by
  refine ⟨fun aggregations => ⟨rfl, ?_, Entries.nodup_keys_insertAll_nil _, fun name => ?_⟩,
    fun xs ys => ?_, fun query aggregations => ?_⟩
  · rw [entries, Entries.keys_insertAll_nil, Entries.keys, List.map_map]
    rfl
  · rw [entries, Entries.lookup_insertAll_nil, ← List.map_reverse, lookup_bodies]
  · rw [document, entries_append]
  · cases aggregations <;> rfl

end Documents

end SearchCompiler.Aggregation
