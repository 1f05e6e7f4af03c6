import SearchCompiler.Proofs.Agreement
import SearchCompiler.Proofs.Meaning

/-!
Where settings and options of a match are used. The catch-all field is used by a text without a
scope, the modifier by a boost by a field, the factor by a boost by conditions, and options of a
match by a text in a single field. A level that does not use one of these is the same for every
value of it, and options compile alike under all values that none of their levels uses.
-/

namespace SearchCompiler

/-- A text that is not blank, without a scope. -/
def UsesCatchAll (level : Level) : Prop :=
  Text.isBlank level.1 = false ∧ level.2.on = none

/-- A level with a boost by a field. -/
def UsesModifier (level : Level) : Prop :=
  level.2.boostBy.isSome = true

/-- A level with a condition to boost by, and no boost that takes precedence over it. -/
def UsesFactor (level : Level) : Prop :=
  leaves? level.2.boostWhere ≠ [] ∧ level.2.boostBy = none ∧ level.2.boostFunction = none

/-- A text that is not blank, in exactly one field. -/
def UsesMatchOptions (level : Level) : Prop :=
  Text.isBlank level.1 = false ∧
    ∃ scope field, level.2.on = some scope ∧ scope.fields = [field]

/-- Levels that differ in options of a match at most, and in these only where they are not used. -/
structure Level.SameButMatchOptions (level level' : Level) : Prop where
  text : level'.1 = level.1
  clauses : ∃ options, level'.2 = { level.2 with matchOptions := options }
  options : UsesMatchOptions level → level'.2.matchOptions = level.2.matchOptions

section Settings

variable {settings settings' : Settings} {level : Level}

theorem base_eq_of_unused
    (h : settings.catchAllField = settings'.catchAllField ∨ ¬ UsesCatchAll level) :
    level.2.base settings level.1 = level.2.base settings' level.1 := by
  unfold Clauses.base matchText
  by_cases hb : Text.isBlank level.1 = true
  · rw [if_pos hb, if_pos hb]
  · rw [if_neg hb, if_neg hb]
    cases ho : level.2.on with
    | none =>
      rcases h with h | h
      · simp only [h]
      · exact absurd ⟨by simpa using hb, ho⟩ h
    | some scope => rcases scope with field | (_ | ⟨field, _ | ⟨next, rest⟩⟩) <;> rfl

theorem scoreFunction?_eq_of_unused
    (hm : settings.boostModifier = settings'.boostModifier ∨ ¬ UsesModifier level)
    (hf : settings.boostFactor = settings'.boostFactor ∨ ¬ UsesFactor level) :
    level.2.scoreFunction? settings = level.2.scoreFunction? settings' := by
  unfold Clauses.scoreFunction?
  cases hby : level.2.boostBy with
  | some field =>
    rcases hm with hm | hm
    · simp only [hm]
    · exact absurd (Option.isSome_of_eq_some hby) hm
  | none =>
    cases hfun : level.2.boostFunction with
    | some script => rfl
    | none =>
      rcases hf with hf | hf
      · simp only [hf]
      · -- Without a condition there is no filter to boost by, so no factor is written.
        have hleaves : leaves? level.2.boostWhere = [] := by
          by_contra hne
          exact hf ⟨hne, hby, hfun⟩
        simp only [conditionFilters, hleaves, List.map_nil, FilterNode.join, Option.map_none]

end Settings

theorem matchText_eq_of_unused (settings : Settings) {text : String} {c : Clauses}
    {options : Entries Json.Value} (h : UsesMatchOptions (text, c) → options = c.matchOptions) :
    matchText settings text c.on c.matchOptions = matchText settings text c.on options := by
  unfold matchText
  by_cases hb : Text.isBlank text = true
  · rw [if_pos hb, if_pos hb]
  · rw [if_neg hb, if_neg hb]
    have hused {scope : FieldScope} {field : String} (ho : c.on = some scope)
        (hs : scope.fields = [field]) : options = c.matchOptions :=
      h ⟨by simpa using hb, scope, field, ho, hs⟩
    split
    · rfl
    · next field ho => rw [hused ho rfl]
    · rfl
    · next field ho => rw [hused ho rfl]
    · rfl

theorem agrees_of_sameButMatchOptions (settings : Settings) {level level' : Level}
    (h : level.SameButMatchOptions level') : level.Agrees settings settings level' := by
  obtain ⟨text, c⟩ := level
  obtain ⟨text', c'⟩ := level'
  obtain ⟨htext, ⟨options, hc⟩, hu⟩ := h
  change text' = text at htext
  change c' = { c with matchOptions := options } at hc
  subst htext hc
  exact ⟨matchText_eq_of_unused settings hu, rfl, rfl, rfl⟩

/-- Settings and options of a match matter only where they are used: settings that agree on what
some level of the options uses, and on the policy for several boosts, compile a text to the same
query or error, and so do options that differ in unused options of a match alone. -/
theorem compile_eq_of_unused :
    (∀ (settings settings' : Settings) (text : String) (o : SearchOptions),
      settings.boostPolicy = settings'.boostPolicy →
      (settings.catchAllField = settings'.catchAllField ∨
        ∀ level ∈ o.levels text, ¬ UsesCatchAll level) →
      (settings.boostModifier = settings'.boostModifier ∨
        ∀ level ∈ o.levels text, ¬ UsesModifier level) →
      (settings.boostFactor = settings'.boostFactor ∨
        ∀ level ∈ o.levels text, ¬ UsesFactor level) →
      o.compile settings text = o.compile settings' text) ∧
    ∀ (settings : Settings) (text : String) (o o' : SearchOptions),
      List.Forall₂ Level.SameButMatchOptions (o.levels text) (o'.levels text) →
      o.compile settings text = o'.compile settings text := by
  constructor
  · intro settings settings' text o hp ha hm hf
    refine compile_eq_of_agrees hp (List.forall₂_same.mpr fun level hl => ?_)
    have hbase := base_eq_of_unused (ha.imp_right fun h => h level hl)
    have hscore := scoreFunction?_eq_of_unused (hm.imp_right fun h => h level hl)
      (hf.imp_right fun h => h level hl)
    exact ⟨hbase, rfl, rfl, hscore⟩
  · intro settings text o o' h
    exact compile_eq_of_agrees rfl (h.imp fun _ _ => agrees_of_sameButMatchOptions settings)

theorem compile_eq_of_unused_tea :
    let o : SearchOptions :=
      .including { on := some (.single "name"), boostBy := some "sales" } "green"
        (.plain { on := some (.multi ["name", "note"]), boostWhere := some [("none", .tree [])] })
    let o' : SearchOptions :=
      .including { on := some (.single "name"), boostBy := some "sales" } "green"
        (.plain { on := some (.multi ["name", "note"]), boostWhere := some [("none", .tree [])]
                  matchOptions := [("operator", .string "and")] })
    let q : QueryNode :=
      .functionScore
        (.filtered (.single "name" "tea" []) (.query (.multi ["name", "note"] "green")))
        (.fieldValue "sales" "ln2p")
    o.compile {} "tea" = .ok q ∧
      o.compile { catchAllField := "all", boostFactor := 5 } "tea" = .ok q ∧
      o'.compile {} "tea" = .ok q := by
  intro o o' q
  have h : o.compile {} "tea" = .ok q := by cbv
  have hcatch : ∀ level ∈ o.levels "tea", ¬ UsesCatchAll level := by
    simp [o, SearchOptions.levels, UsesCatchAll]
  have hfactor : ∀ level ∈ o.levels "tea", ¬ UsesFactor level := by
    simp [o, SearchOptions.levels, UsesFactor, leaves?, leaves, leavesUnder]
  have hsame : List.Forall₂ Level.SameButMatchOptions (o.levels "tea") (o'.levels "tea") := by
    refine .cons ⟨rfl, ⟨_, rfl⟩, fun _ => rfl⟩ (.cons ⟨rfl, ⟨_, rfl⟩, fun hu => ?_⟩ .nil)
    obtain ⟨_, scope, field, hon, hfields⟩ := hu
    cases hon
    simp [FieldScope.fields] at hfields
  have hsettings := compile_eq_of_unused.1 {} { catchAllField := "all", boostFactor := 5 } "tea" o
    rfl (.inr hcatch) (.inl rfl) (.inr hfactor)
  have hoptions := compile_eq_of_unused.2 {} "tea" o o' hsame
  exact ⟨h, hsettings.symm.trans h, hoptions.symm.trans h⟩

end SearchCompiler
