import SearchCompiler.Proofs.Decoding

/-!
When compiling fails, and with which error. Options are a chain of levels, the outer text first. All
texts are matched on the way in and all boosts are put on the way out: a text without a field to be
matched against is thus found before any ambiguity, and of several ambiguous levels the deepest one
is found first.
-/

namespace SearchCompiler

theorem compile_of_unscoped (settings : Settings) {text : String} {o : SearchOptions}
    (h : ∃ level ∈ o.levels text, Unscoped level) :
    o.compile settings text = .error (.invalidShape "on" .noFields) := by
  induction o generalizing text with
  | plain c =>
    obtain ⟨level, hl, hu⟩ := h
    rw [List.mem_singleton.mp hl] at hu
    rw [compile_plain, base_of_unscoped settings hu]
    rfl
  | including c included inner ih =>
    rw [compile_including]
    by_cases ho : Unscoped (text, c)
    · rw [base_of_unscoped settings ho]
      rfl
    · obtain ⟨base, hb⟩ := exists_base settings ho
      obtain ⟨level, hl, hu⟩ := h
      rcases List.mem_cons.mp hl with rfl | hl
      · exact absurd hu ho
      · rw [hb, ih ⟨level, hl, hu⟩]
        rfl

/-- Of the ambiguous levels of a chain the deepest. -/
inductive DeepestAmbiguous : List Level → Level → Prop
  | here {level : Level} {inner : List Level} :
    Ambiguous level → (∀ other ∈ inner, ¬ Ambiguous other) → DeepestAmbiguous (level :: inner) level
  | inside {outer level : Level} {inner : List Level} :
    DeepestAmbiguous inner level → DeepestAmbiguous (outer :: inner) level

theorem exists_deepestAmbiguous {levels : List Level} (h : ∃ level ∈ levels, Ambiguous level) :
    ∃ level, DeepestAmbiguous levels level := by
  induction levels with
  | nil =>
    obtain ⟨level, hl, _⟩ := h
    cases hl
  | cons outer inner ih =>
    -- The levels inside are asked first: the outer one is the deepest only if none of them is.
    by_cases hi : ∃ level ∈ inner, Ambiguous level
    · obtain ⟨level, hl⟩ := ih hi
      exact ⟨level, .inside hl⟩
    · obtain ⟨level, hl, ha⟩ := h
      rcases List.mem_cons.mp hl with rfl | hl
      · exact ⟨level, .here ha fun other ho hb => hi ⟨other, ho, hb⟩⟩
      · exact absurd ⟨level, hl, ha⟩ hi

theorem boost_of_ambiguous {settings : Settings} (hp : settings.boostPolicy = .reject)
    {text : String} {c : Clauses} (h : Ambiguous (text, c)) (query : QueryNode) :
    c.boost settings query = .error (.ambiguousBoost c.boosts) := by
  rw [boost_eq, if_pos ⟨ambiguous_iff.mp h, hp⟩]

theorem exists_boost {settings : Settings} {text : String} {c : Clauses}
    (h : settings.boostPolicy = .reject → ¬ Ambiguous (text, c)) (query : QueryNode) :
    ∃ q, c.boost settings query = .ok q := by
  rw [boost_eq, if_neg fun ha => h ha.2 (ambiguous_iff.mpr ha.1)]
  exact ⟨_, rfl⟩

theorem exists_compile {settings : Settings} {text : String} {o : SearchOptions}
    (hs : ∀ level ∈ o.levels text, ¬ Unscoped level)
    (ha : settings.boostPolicy = .reject → ∀ level ∈ o.levels text, ¬ Ambiguous level) :
    ∃ q, o.compile settings text = .ok q := by
  induction o generalizing text with
  | plain c =>
    obtain ⟨base, hb⟩ := exists_base settings (hs _ (List.mem_singleton.mpr rfl))
    obtain ⟨q, hq⟩ := exists_boost (fun hp => ha hp _ (List.mem_singleton.mpr rfl))
      (base.restrict (FilterNode.join c.filters))
    rw [compile_plain, hb]
    exact ⟨q, hq⟩
  | including c included inner ih =>
    obtain ⟨base, hb⟩ := exists_base settings (hs _ List.mem_cons_self)
    obtain ⟨nested, hn⟩ := ih (fun level hl => hs level (List.mem_cons_of_mem _ hl))
      fun hp level hl => ha hp level (List.mem_cons_of_mem _ hl)
    obtain ⟨q, hq⟩ := exists_boost (fun hp => ha hp _ List.mem_cons_self)
      (base.restrict (FilterNode.join (c.filters ++ [.query nested])))
    rw [compile_including, hb, hn]
    exact ⟨q, hq⟩

/-- Where several boosts are refused, scoped texts fail on the deepest level that has them. -/
theorem compile_of_deepestAmbiguous {settings : Settings} (hp : settings.boostPolicy = .reject)
    {text : String} {o : SearchOptions} (hs : ∀ level ∈ o.levels text, ¬ Unscoped level)
    {level : Level} (h : DeepestAmbiguous (o.levels text) level) :
    o.compile settings text = .error (.ambiguousBoost level.2.boosts) := by
  induction o generalizing text with
  | plain c =>
    obtain ⟨base, hb⟩ := exists_base settings (hs _ (List.mem_singleton.mpr rfl))
    rw [compile_plain, hb]
    cases h with
    | here ha _ => exact boost_of_ambiguous hp ha _
    | inside hl => cases hl
  | including c included inner ih =>
    have hsi (other : Level) (ho : other ∈ inner.levels included) : ¬ Unscoped other :=
      hs other (List.mem_cons_of_mem _ ho)
    obtain ⟨base, hb⟩ := exists_base settings (hs _ List.mem_cons_self)
    rw [compile_including, hb]
    cases h with
    | here ha hi =>
      -- Nothing inside is ambiguous, so the included text compiles and the outer boost is reached.
      obtain ⟨nested, hn⟩ := exists_compile hsi fun _ => hi
      rw [hn]
      exact boost_of_ambiguous hp ha _
    | inside hl =>
      rw [ih hsi hl]
      rfl

theorem two_le_length_of_decodeFieldScope {v : Json.Value} {fields : List String}
    (h : decodeFieldScope v = .ok (.multi fields)) : 2 ≤ fields.length := by
  unfold decodeFieldScope at h
  split at h
  · cases h
  · obtain ⟨names, _, h⟩ := bind_eq_ok_iff.mp h
    unfold FieldScope.ofFields at h
    split at h
    · cases h
    · cases h
    · next h0 h1 =>
      cases h
      match fields with
      | [] => exact absurd rfl h0
      | [field] => exact absurd rfl (h1 field)
      | _ :: _ :: _ => simp
  · cases h

theorem two_le_length_of_decode {v : Json.Value} {o : SearchOptions}
    (h : SearchOptions.decode v = .ok o) {fields : List String}
    (ho : o.clauses.on = some (.multi fields)) : 2 ≤ fields.length := by
  have hd := Clause.on.decodeFrom_eq h
  unfold Clause.decodeFrom at hd
  split at hd
  · cases (Except.ok.inj hd).trans ho
  · next w _ =>
    change some <$> decodeFieldScope w = .ok o.clauses.on at hd
    rw [ho] at hd
    cases hw : decodeFieldScope w with
    | error e => rw [hw] at hd; cases hd
    | ok scope =>
      rw [hw] at hd
      cases hd
      exact two_le_length_of_decodeFieldScope hw

/-- Decoding leaves no short list of fields at any level. -/
theorem two_le_length_of_mem_levels {v : Json.Value} {o : SearchOptions}
    (h : SearchOptions.decode v = .ok o) {text : String} {level : Level}
    (hl : level ∈ o.levels text) {fields : List String}
    (ho : level.2.on = some (.multi fields)) : 2 ≤ fields.length := by
  induction o generalizing v text with
  | plain c =>
    rw [List.mem_singleton.mp hl] at ho
    exact two_le_length_of_decode h ho
  | including c included inner ih =>
    rcases List.mem_cons.mp hl with rfl | hl
    · exact two_le_length_of_decode h ho
    · obtain ⟨w, _, hw⟩ := included_of_decode_including h
      exact ih hw hl

theorem not_unscoped_of_decode {v : Json.Value} {o : SearchOptions}
    (h : SearchOptions.decode v = .ok o) {text : String} {level : Level}
    (hl : level ∈ o.levels text) : ¬ Unscoped level := by
  intro hu
  have h2 := two_le_length_of_mem_levels h hl hu.2
  simp at h2

/-- The whole outcome of compiling: an unscoped level anywhere is the error, else under refusal of
several boosts the deepest ambiguous level is, with the boosts present there in order of precedence,
else there is a query. Decoded options have no unscoped level: they fail by ambiguity or not at all.
-/
theorem compile_outcome :
    (∀ (settings : Settings) (text : String) (o : SearchOptions),
      if ∃ level ∈ o.levels text, Unscoped level then
        o.compile settings text = .error (.invalidShape "on" .noFields)
      else if settings.boostPolicy = .reject ∧ ∃ level ∈ o.levels text, Ambiguous level then
        ∃ level, DeepestAmbiguous (o.levels text) level ∧
          level.2.boosts.Sublist [.boostBy, .boostFunction, .boostWhere] ∧
          (∀ option, option ∈ level.2.boosts ↔ option.Present level.2) ∧
          o.compile settings text = .error (.ambiguousBoost level.2.boosts)
      else ∃ q, o.compile settings text = .ok q) ∧
    ∀ (v : Json.Value) (o : SearchOptions), SearchOptions.decode v = .ok o →
      ∀ (settings : Settings) (text : String),
        (∀ level ∈ o.levels text, ¬ Unscoped level) ∧
          (settings.boostPolicy = .firstMatch → ∃ q, o.compile settings text = .ok q) ∧
          ((∃ q, o.compile settings text = .ok q) ∨
            ∃ boosts, o.compile settings text = .error (.ambiguousBoost boosts)) := by
  constructor
  · intro settings text o
    split
    · next hu => exact compile_of_unscoped settings hu
    · next hu =>
      have hs (level : Level) (hl : level ∈ o.levels text) : ¬ Unscoped level :=
        fun h => hu ⟨level, hl, h⟩
      split
      · next ha =>
        obtain ⟨level, hd⟩ := exists_deepestAmbiguous ha.2
        exact ⟨level, hd, Clauses.boosts_sublist level.2, fun _ => Clauses.mem_boosts,
          compile_of_deepestAmbiguous ha.1 hs hd⟩
      · next ha => exact exists_compile hs fun hp level hl hb => ha ⟨hp, level, hl, hb⟩
  · intro v o h settings text
    have hs (level : Level) (hl : level ∈ o.levels text) : ¬ Unscoped level :=
      not_unscoped_of_decode h hl
    refine ⟨hs, fun hp => exists_compile hs fun hr => ?_, ?_⟩
    · rw [hp] at hr
      cases hr
    · by_cases ha : settings.boostPolicy = .reject ∧ ∃ level ∈ o.levels text, Ambiguous level
      · obtain ⟨level, hd⟩ := exists_deepestAmbiguous ha.2
        exact .inr ⟨_, compile_of_deepestAmbiguous ha.1 hs hd⟩
      · exact .inl (exists_compile hs fun hp level hl hb => ha ⟨hp, level, hl, hb⟩)

/-- Two levels are ambiguous. Where several boosts are refused the inner one is the error, with the
boosts that it has. -/
theorem compile_outcome_tea :
    let v : Json.Value := .object
      [("boost_by", .string "sales"), ("boost_function", .string "score"),
        ("includes", .array [.string "green", .object
          [("on", .array [.string "name", .string "note"]),
            ("boost_where", .single "maker" (.string "us")), ("boost_by", .string "rank")]])]
    let outer : Clauses := { boostBy := some "sales", boostFunction := some { script := "score" } }
    let inner : Clauses :=
      { on := some (.multi ["name", "note"]), boostBy := some "rank",
        boostWhere := some [("maker", .scalar (.string "us"))] }
    let o : SearchOptions := .including outer "green" (.plain inner)
    SearchOptions.decode v = .ok o ∧ Ambiguous ("tea", outer) ∧ Ambiguous ("green", inner) ∧
      (∃ q, o.compile {} "tea" = .ok q) ∧
      o.compile { boostPolicy := .reject } "tea" =
        .error (.ambiguousBoost [.boostBy, .boostWhere]) := by
  intro v outer inner o
  have h : SearchOptions.decode v = .ok o := by rfl
  have hleaves : leaves? inner.boostWhere = [("maker", .scalar (.string "us"))] := by
    simp [inner, leaves?, leaves, leavesUnder]
  have houter : Ambiguous ("tea", outer) := ⟨.boostBy, .boostFunction, by decide, rfl, rfl⟩
  have hwhere : leaves? inner.boostWhere ≠ [] := by
    rw [hleaves]
    exact List.cons_ne_nil _ _
  have hinner : Ambiguous ("green", inner) := ⟨.boostBy, .boostWhere, by decide, rfl, hwhere⟩
  have hlisted : inner.boosts = [.boostBy, .boostWhere] := by
    rw [Clauses.boosts, hleaves]
    rfl
  refine ⟨h, houter, hinner, (compile_outcome.2 v o h {} "tea").2.1 rfl, ?_⟩
  have hscoped : ¬ ∃ level ∈ o.levels "tea", Unscoped level := by
    rintro ⟨level, hl, hu⟩
    exact (compile_outcome.2 v o h {} "tea").1 level hl hu
  have hall := compile_outcome.1 { boostPolicy := .reject } "tea" o
  rw [if_neg hscoped, if_pos ⟨rfl, _, List.mem_cons_self, houter⟩] at hall
  obtain ⟨level, hd, _, _, he⟩ := hall
  cases hd with
  | here _ hnone => exact absurd hinner (hnone _ List.mem_cons_self)
  | inside hd =>
    cases hd with
    | here => rw [he, hlisted]
    | inside hd => cases hd

end SearchCompiler
