import SearchCompiler.Proofs.RewrittenLevels
import SearchCompiler.Proofs.SearchedText

/-!
The order of the members of options. A clause is read off the one member of its name, so that it
does not matter where the member stands; only the options of a match are kept in the order in which
they are given. This holds at the outer level and in the options of every included text.
-/

namespace SearchCompiler

/-- Members in another order, where those that no clause is named after stand in the same order. -/
structure Reordered (members others : Entries Json.Value) : Prop where
  perm : members.Perm others
  unreserved : members.filter (fun member => member.1 ∉ reservedKeys) =
    others.filter fun member => member.1 ∉ reservedKeys

/-- Levels with equal clauses, but for the order of the options of a match. -/
structure Clauses.SameButMatchOrder (c c' : Clauses) : Prop where
  clauses : c' = { c with matchOptions := c'.matchOptions }
  perm : c.matchOptions.Perm c'.matchOptions

/-- Options that differ at most in the order of the options of a match, at any of their levels. -/
inductive SearchOptions.SameButMatchOrder : SearchOptions → SearchOptions → Prop
  | plain {c c' : Clauses} : c.SameButMatchOrder c' → SameButMatchOrder (.plain c) (.plain c')
  | including {c c' : Clauses} (text : String) {inner inner' : SearchOptions} :
    c.SameButMatchOrder c' → SameButMatchOrder inner inner' →
    SameButMatchOrder (.including c text inner) (.including c' text inner')

theorem Clauses.SameButMatchOrder.refl (c : Clauses) : c.SameButMatchOrder c :=
  ⟨rfl, .refl _⟩

theorem Clauses.SameButMatchOrder.trans {c c' c'' : Clauses} (h : c.SameButMatchOrder c')
    (h' : c'.SameButMatchOrder c'') : c.SameButMatchOrder c'' := by
  refine ⟨?_, h.perm.trans h'.perm⟩
  rw [h'.clauses, h.clauses]

theorem congruence_sameButMatchOrder : Congruence SearchOptions.SameButMatchOrder where
  refl o := by
    induction o with
    | plain c => exact .plain (.refl c)
    | including c text inner ih => exact .including text (.refl c) ih
  trans {o o' o''} h h' := by
    induction h generalizing o'' with
    | plain hc =>
      cases h' with
      | plain hc' => exact .plain (hc.trans hc')
    | including text hc _ ih =>
      cases h' with
      | including _ hc' hinner => exact .including text (hc.trans hc') (ih hinner)
  including c text _ _ h := .including text (.refl c) h

section Reordering

variable {members others : Entries Json.Value} {o o' : SearchOptions}

theorem distinct_of_perm (hd : (Json.Value.object members).Distinct) (hp : members.Perm others) :
    (Json.Value.object others).Distinct :=
  .object ((hp.map Prod.fst).nodup_iff.mp (nodup_keys_of_distinct hd)) fun member hm =>
    distinct_of_mem_object hd member (hp.mem_iff.mpr hm)

/-- Every clause is the same in whatever order the members stand. -/
theorem read_eq_of_perm (hd : (Json.Value.object members).Distinct) (hp : members.Perm others)
    (ho : SearchOptions.decode (.object members) = .ok o)
    (ho' : SearchOptions.decode (.object others) = .ok o') {β : Type} (clause : Clause β) :
    clause.read o = clause.read o' := by
  have hl : lastNamed clause.key others = lastNamed clause.key members :=
    lastNamed_perm (nodup_keys_of_distinct hd) hp.symm clause.key
  have hr := clause.decodeFrom_eq ho
  have hr' := clause.decodeFrom_eq ho'
  simp only [Clause.decodeFrom, Json.Value.members, hl] at hr hr'
  exact Except.ok.inj (hr.symm.trans hr')

theorem matchOptions_of_distinct (hd : (Json.Value.object members).Distinct)
    (ho : SearchOptions.decode (.object members) = .ok o) :
    o.clauses.matchOptions = members.filter fun member => member.1 ∉ reservedKeys := by
  have hn : (Entries.keys (members.filter fun member => member.1 ∉ reservedKeys)).Nodup :=
    (nodup_keys_of_distinct hd).sublist (List.filter_sublist.map Prod.fst)
  rw [matchOptions_of_decode ho, matchMembers]
  exact Entries.insertAll_of_nodup hn

/-- Decoded options are the same in whatever order the members stand, but for the options of a
match. -/
theorem parts_of_perm (hd : (Json.Value.object members).Distinct) (hp : members.Perm others)
    (ho : SearchOptions.decode (.object members) = .ok o)
    (ho' : SearchOptions.decode (.object others) = .ok o') :
    o'.clauses = { o.clauses with matchOptions := o'.clauses.matchOptions } ∧
      o'.includes = o.includes := by
  have hread {β : Type} (clause : Clause β) : clause.read o' = clause.read o :=
    (read_eq_of_perm hd hp ho ho' clause).symm
  have hon : o'.clauses.on = o.clauses.on := hread .on
  have honly : o'.clauses.only = o.clauses.only := hread .only
  have hexcept : o'.clauses.except = o.clauses.except := hread .except
  have hwhere : o'.clauses.boostWhere = o.clauses.boostWhere := hread .boostWhere
  have hby : o'.clauses.boostBy = o.clauses.boostBy := hread .boostBy
  have hfunction : o'.clauses.boostFunction = o.clauses.boostFunction := hread .boostFunction
  refine ⟨?_, hread .includes⟩
  dsimp only
  rw [← hon, ← honly, ← hexcept, ← hwhere, ← hby, ← hfunction]

theorem exists_decode_of_perm (hp : members.Perm others) :
    (∃ o, SearchOptions.decode (.object members) = .ok o) ↔
      ∃ o, SearchOptions.decode (.object others) = .ok o := by
  rw [exists_decode_object_iff, exists_decode_object_iff]
  exact ⟨fun h member hm => h member (hp.mem_iff.mpr hm),
    fun h member hm => h member (hp.mem_iff.mp hm)⟩

theorem decodesAlike_of_perm (hd : (Json.Value.object members).Distinct)
    (hp : members.Perm others) :
    DecodesAlike SearchOptions.SameButMatchOrder (.object members) (.object others) := by
  refine ⟨exists_decode_of_perm hp, fun o o' ho ho' => ?_⟩
  obtain ⟨hclauses, hincludes⟩ := parts_of_perm hd hp ho ho'
  have hperm : o.clauses.matchOptions.Perm o'.clauses.matchOptions := by
    rw [matchOptions_of_distinct hd ho, matchOptions_of_distinct (distinct_of_perm hd hp) ho']
    exact hp.filter _
  have hlevel : o.clauses.SameButMatchOrder o'.clauses := ⟨hclauses, hperm⟩
  rw [← SearchOptions.ofParts_parts o, ← SearchOptions.ofParts_parts o', hincludes]
  cases o.includes with
  | none => exact .plain hlevel
  | some nested => exact .including nested.1 hlevel (congruence_sameButMatchOrder.refl nested.2)

theorem decodesAlike_of_reordered (hd : (Json.Value.object members).Distinct)
    (h : Reordered members others) : DecodesAlike Eq (.object members) (.object others) := by
  refine ⟨exists_decode_of_perm h.perm, fun o o' ho ho' => ?_⟩
  obtain ⟨hclauses, hincludes⟩ := parts_of_perm hd h.perm ho ho'
  have hoptions : o'.clauses.matchOptions = o.clauses.matchOptions := by
    rw [matchOptions_of_distinct hd ho, matchOptions_of_distinct (distinct_of_perm hd h.perm) ho',
      h.unreserved]
  rw [hoptions] at hclauses
  rw [← SearchOptions.ofParts_parts o, ← SearchOptions.ofParts_parts o', hincludes, hclauses]

end Reordering

/-- The order of members does not matter. Values of options that differ in it alone, at any levels,
decode to the same options or both fail, and what decodes compiles to the same query and the same
text, if the members that no clause is named after keep their order. If these change places too,
then the decoded options differ in the order of the options of a match at most. -/
theorem decode_of_reordered :
    (∀ v w : Json.Value, v.Distinct → Relation.ReflTransGen (AtLevel Reordered) v w →
      (∀ o, SearchOptions.decode v = .ok o ↔ SearchOptions.decode w = .ok o) ∧
        ∀ settings text, (∃ o, SearchOptions.decode v = .ok o) →
          compileValue settings text v = compileValue settings text w) ∧
    ∀ v w : Json.Value, v.Distinct → Relation.ReflTransGen (AtLevel List.Perm) v w →
      ((∃ o, SearchOptions.decode v = .ok o) ↔ ∃ o, SearchOptions.decode w = .ok o) ∧
        ∀ o o', SearchOptions.decode v = .ok o → SearchOptions.decode w = .ok o' →
          o.SameButMatchOrder o' := by
  constructor
  · intro v w hv h
    have halike := decodesAlike_of_rewritings congruence_eq decodesAlike_of_reordered
      (fun hd hr => distinct_of_perm hd hr.perm) hv h
    refine ⟨halike.decode_iff, fun settings text hok => ?_⟩
    obtain ⟨o, ho⟩ := hok
    exact compileValue_congr (ho.trans ((halike.decode_iff o).mp ho).symm) settings text
  · intro v w hv h
    have halike := decodesAlike_of_rewritings congruence_sameButMatchOrder decodesAlike_of_perm
      distinct_of_perm hv h
    exact ⟨halike.accepted, halike.related⟩

theorem decode_of_reordered_green :
    let operator : String × Json.Value := ("operator", .string "and")
    let fuzziness : String × Json.Value := ("fuzziness", .string "auto")
    let on : String × Json.Value := ("on", .string "name")
    let only : String × Json.Value := ("only", .single "id" (.string "g1"))
    let nesting (members : Entries Json.Value) : String × Json.Value :=
      ("includes", .array [.string "green", .object members])
    let v : Json.Value := .object [nesting [operator, fuzziness, on], only]
    let w : Json.Value := .object [only, nesting [on, operator, fuzziness]]
    let w' : Json.Value := .object [nesting [fuzziness, operator, on], only]
    let decoded (matchOptions : Entries Json.Value) : SearchOptions :=
      .including { only := some [("id", .scalar (.string "g1"))] } "green"
        (.plain { on := some (.single "name"), matchOptions })
    let o := decoded [operator, fuzziness]
    let o' := decoded [fuzziness, operator]
    v.Distinct ∧ SearchOptions.decode v = .ok o ∧ SearchOptions.decode w = .ok o ∧
      compileValue {} "tea" v = compileValue {} "tea" w ∧
      SearchOptions.decode w' = .ok o' ∧ o.SameButMatchOrder o' := by
  intro operator fuzziness on only nesting v w w' decoded o o'
  have hinner : (Json.Value.object [operator, fuzziness, on]).Distinct := by
    refine .object (by decide) ?_
    rw [List.forall_mem_cons, List.forall_mem_cons, List.forall_mem_singleton]
    exact ⟨.string _, .string _, .string _⟩
  have hv : v.Distinct := by
    refine .object (by decide) ?_
    rw [List.forall_mem_cons, List.forall_mem_singleton]
    refine ⟨.array ?_, .object (by decide) (List.forall_mem_singleton.mpr (.string _))⟩
    rw [List.forall_mem_cons, List.forall_mem_singleton]
    exact ⟨.string _, hinner⟩
  have hinside {R : Entries Json.Value → Entries Json.Value → Prop} {members : Entries Json.Value}
      (h : R [operator, fuzziness, on] members) :
      AtLevel R (.object ([] ++ nesting [operator, fuzziness, on] :: [only]))
        (.object ([] ++ nesting members :: [only])) :=
    .inside (.here h)
  have hw : Relation.ReflTransGen (AtLevel Reordered) v w := by
    -- First the options of the included text are put in another order, then the outer members.
    have hrotate : ([operator, fuzziness] ++ [on]).Perm ([on] ++ [operator, fuzziness]) :=
      List.perm_append_comm
    exact .tail (.single (hinside ⟨hrotate, rfl⟩)) (.here ⟨.swap _ _ _, rfl⟩)
  have hw' : Relation.ReflTransGen (AtLevel List.Perm) v w' := .single (hinside (.swap _ _ _))
  have ho : SearchOptions.decode v = .ok o := rfl
  have ho' : SearchOptions.decode w' = .ok o' := rfl
  obtain ⟨hkept, hmoved⟩ := decode_of_reordered
  obtain ⟨hdecode, hcompile⟩ := hkept v w hv hw
  obtain ⟨_, hrelated⟩ := hmoved v w' hv hw'
  exact ⟨hv, ho, (hdecode o).mp ho, hcompile {} "tea" ⟨o, ho⟩, ho', hrelated o o' ho ho'⟩

end SearchCompiler
