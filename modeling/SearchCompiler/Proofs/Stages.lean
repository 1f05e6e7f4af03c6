import SearchCompiler.Compile

/-!
The stages of compiling one level, each summed up by all that it can give. A text is compiled at a
level unless it lacks a field to be matched against, a boost is put around a query unless several
boosts are refused, and a compiled query is its base under its candidate filters under its score
function.
-/

namespace SearchCompiler

theorem bind_eq_ok_iff {ε α β : Type} {x : Except ε α} {f : α → Except ε β} {b : β} :
    (x >>= f) = .ok b ↔ ∃ a, x = .ok a ∧ f a = .ok b := by
  cases x with
  | error e =>
    constructor
    · intro h
      cases h
    · rintro ⟨a, ha, _⟩
      cases ha
  | ok a =>
    constructor
    · intro h
      exact ⟨a, rfl, h⟩
    · rintro ⟨a', ha, hb⟩
      cases ha
      exact hb

theorem bind_eq_error_iff {ε α β : Type} {x : Except ε α} {f : α → Except ε β} {e : ε} :
    (x >>= f) = .error e ↔ x = .error e ∨ ∃ a, x = .ok a ∧ f a = .error e := by
  cases x with
  | error e' =>
    constructor
    · intro h
      cases h
      exact .inl rfl
    · rintro (h | ⟨a, ha, _⟩)
      · cases h
        rfl
      · cases ha
  | ok a =>
    constructor
    · intro h
      exact .inr ⟨a, rfl, h⟩
    · rintro (h | ⟨a', ha, he⟩)
      · cases h
      · cases ha
        exact he

theorem map_eq_error_iff {ε α β : Type} {x : Except ε α} {f : α → β} {e : ε} :
    (do return f (← x) : Except ε β) = .error e ↔ x = .error e := by
  cases x with
  | error e' =>
    constructor
    · intro h
      cases h
      rfl
    · intro h
      cases h
      rfl
  | ok a => exact ⟨nofun, nofun⟩

theorem exists_ok_map {ε α β : Type} {x : Except ε α} {f : α → β} :
    (∃ b, (do return f (← x) : Except ε β) = .ok b) ↔ ∃ a, x = .ok a := by
  cases x with
  | error e => exact ⟨nofun, nofun⟩
  | ok a => exact ⟨fun _ => ⟨a, rfl⟩, fun _ => ⟨f a, rfl⟩⟩

theorem exists_ok_map₂ {ε α β γ : Type} {x : Except ε α} {y : Except ε β} {f : α → β → γ} :
    (∃ c, (do let a ← x; let b ← y; return f a b : Except ε γ) = .ok c) ↔
      (∃ a, x = .ok a) ∧ ∃ b, y = .ok b := by
  constructor
  · rintro ⟨c, h⟩
    obtain ⟨a, ha, h⟩ := bind_eq_ok_iff.mp h
    obtain ⟨b, hb, _⟩ := bind_eq_ok_iff.mp h
    exact ⟨⟨a, ha⟩, b, hb⟩
  · rintro ⟨⟨a, ha⟩, b, hb⟩
    rw [ha, hb]
    exact ⟨f a b, rfl⟩

theorem exists_ok_mapM {ε α β : Type} {f : α → Except ε β} {xs : List α} :
    (∃ ys, xs.mapM f = .ok ys) ↔ ∀ x ∈ xs, ∃ y, f x = .ok y := by
  induction xs with
  | nil => exact ⟨fun _ => List.forall_mem_nil _, fun _ => ⟨[], rfl⟩⟩
  | cons x rest ih => rw [List.forall_mem_cons, ← ih, List.mapM_cons, exists_ok_map₂]

theorem exists_of_mem_mapM {ε α β : Type} {f : α → Except ε β} {xs : List α} {ys : List β}
    (h : xs.mapM f = .ok ys) {y : β} (hy : y ∈ ys) : ∃ x ∈ xs, f x = .ok y := by
  induction xs generalizing ys with
  | nil =>
    rw [List.mapM_nil] at h
    cases h
    cases hy
  | cons x rest ih =>
    rw [List.mapM_cons] at h
    obtain ⟨first, hx, h⟩ := bind_eq_ok_iff.mp h
    obtain ⟨later, hl, h⟩ := bind_eq_ok_iff.mp h
    cases h
    rcases List.mem_cons.mp hy with rfl | hy
    · exact ⟨x, List.mem_cons_self, hx⟩
    · obtain ⟨z, hz, hf⟩ := ih hl hy
      exact ⟨z, List.mem_cons_of_mem _ hz, hf⟩

/-- A list is mapped up to the first element that gives an error, which is the error of the list. -/
theorem exists_first_of_mapM_error {ε α β : Type} {f : α → Except ε β} {xs : List α} {e : ε}
    (h : xs.mapM f = .error e) :
    ∃ before x after, xs = before ++ x :: after ∧ (∀ y ∈ before, ∃ z, f y = .ok z) ∧
      f x = .error e := by
  induction xs with
  | nil =>
    rw [List.mapM_nil] at h
    cases h
  | cons x rest ih =>
    rw [List.mapM_cons] at h
    rcases bind_eq_error_iff.mp h with hx | ⟨y, hy, h⟩
    · exact ⟨[], x, rest, rfl, List.forall_mem_nil _, hx⟩
    · obtain ⟨before, x', after, rfl, hb, he⟩ := ih (map_eq_error_iff.mp h)
      exact ⟨x :: before, x', after, rfl, List.forall_mem_cons.mpr ⟨⟨y, hy⟩, hb⟩, he⟩

theorem mapM_congr_of_mem {ε α β : Type} {f g : α → Except ε β} {xs : List α}
    (h : ∀ x ∈ xs, f x = g x) : xs.mapM f = xs.mapM g := by
  induction xs with
  | nil => rfl
  | cons x rest ih =>
    rw [List.forall_mem_cons] at h
    rw [List.mapM_cons, List.mapM_cons, h.1, ih h.2]

theorem mapM_map_eq_pure {m : Type → Type} [Monad m] [LawfulMonad m] {α β : Type} {f : α → β}
    {g : β → m α} (hg : ∀ x, g (f x) = pure x) (xs : List α) : (xs.map f).mapM g = pure xs := by
  have hgf : g ∘ f = pure := funext hg
  rw [List.mapM_map, hgf, List.mapM_pure, List.map_id']

theorem map_of_mapM {α β ε : Type} {f : α → Except ε β} {g : β → α}
    (hg : ∀ x y, f x = .ok y → g y = x) {xs : List α} {ys : List β} (h : xs.mapM f = .ok ys) :
    ys.map g = xs := by
  induction xs generalizing ys with
  | nil =>
    rw [List.mapM_nil] at h
    cases h
    rfl
  | cons x rest ih =>
    rw [List.mapM_cons] at h
    obtain ⟨y, hy, h⟩ := bind_eq_ok_iff.mp h
    obtain ⟨later, hl, h⟩ := bind_eq_ok_iff.mp h
    cases h
    rw [List.map_cons, hg x y hy, ih hl]

/-- A text together with the level of options that it is compiled under. -/
abbrev Level := String × Clauses

/-- The levels of options under a text, from the outer one inward. -/
def SearchOptions.levels (text : String) : SearchOptions → List Level
  | .plain c => [(text, c)]
  | .including c included inner => (text, c) :: inner.levels included

/-- A text that is not blank, under an empty list of fields. -/
def Unscoped (level : Level) : Prop :=
  Text.isBlank level.1 = false ∧ level.2.on = some (.multi [])

instance (level : Level) : Decidable (Unscoped level) :=
  inferInstanceAs (Decidable (_ ∧ _))

theorem base_of_unscoped (settings : Settings) {text : String} {c : Clauses}
    (h : Unscoped (text, c)) :
    c.base settings text = .error (.invalidShape "on" .noFields) := by
  have ht : Text.isBlank text = false := h.1
  have ho : c.on = some (.multi []) := h.2
  simp [Clauses.base, matchText, ht, ho]

theorem exists_base (settings : Settings) {text : String} {c : Clauses}
    (h : ¬ Unscoped (text, c)) : ∃ base, c.base settings text = .ok base := by
  unfold Clauses.base matchText
  split
  · exact ⟨_, rfl⟩
  · next hb =>
    -- Of all scopes only the empty list of fields gives an error, and that one is excluded.
    split
    · exact ⟨_, rfl⟩
    · exact ⟨_, rfl⟩
    · next ho => exact absurd ⟨by simpa using hb, ho⟩ h
    · exact ⟨_, rfl⟩
    · exact ⟨_, rfl⟩

/-- What the base of a level is, by its text and by the fields that the text is matched against. -/
inductive BaseCase (settings : Settings) (text : String) (c : Clauses) : QueryNode → Prop
  | matchAll : Text.isBlank text = true → BaseCase settings text c .matchAll
  | catchAll :
    Text.isBlank text = false → c.on = none →
      BaseCase settings text c (.single settings.catchAllField text [])
  | single {field : String} :
    Text.isBlank text = false → c.on = some (.single field) ∨ c.on = some (.multi [field]) →
      BaseCase settings text c (.single field text c.matchOptions)
  | multi {first second : String} {rest : List String} :
    Text.isBlank text = false → c.on = some (.multi (first :: second :: rest)) →
      BaseCase settings text c (.multi (first :: second :: rest) text)

theorem base_cases {settings : Settings} {text : String} {c : Clauses} {base : QueryNode}
    (h : c.base settings text = .ok base) : BaseCase settings text c base := by
  unfold Clauses.base matchText at h
  split at h
  · next hb =>
    cases h
    exact .matchAll hb
  · next hb =>
    have hb' : Text.isBlank text = false := by simpa using hb
    split at h
    · next ho =>
      cases h
      exact .catchAll hb' ho
    · next ho =>
      cases h
      exact .single hb' (.inl ho)
    · cases h
    · next ho =>
      cases h
      exact .single hb' (.inr ho)
    · next fields hne hne' ho =>
      cases h
      -- The lists of none and of one field were taken by the branches before.
      match fields with
      | [] => exact absurd rfl hne
      | [field] => exact absurd rfl (hne' field)
      | first :: second :: rest => exact .multi hb' ho

/-- A level where two boosting options are present. -/
def Ambiguous (level : Level) : Prop :=
  ∃ option other : BoostOption, option ≠ other ∧ option.Present level.2 ∧ other.Present level.2

/-- A level is ambiguous if more than one boosting option is listed. -/
theorem ambiguous_iff {level : Level} : Ambiguous level ↔ 1 < level.2.boosts.length := by
  have hnodup : level.2.boosts.Nodup := (Clauses.boosts_sublist level.2).nodup (by decide)
  simp only [Ambiguous, ← Clauses.mem_boosts]
  match level.2.boosts, hnodup with
  | [], _ => simp
  | [only], _ =>
    refine iff_of_false ?_ (by simp)
    rintro ⟨option, other, hne, ho, ho'⟩
    exact hne ((List.mem_singleton.mp ho).trans (List.mem_singleton.mp ho').symm)
  | first :: second :: rest, hnodup =>
    have hne : first ≠ second := by
      rintro rfl
      exact (List.nodup_cons.mp hnodup).1 List.mem_cons_self
    exact iff_of_true ⟨first, second, hne, by simp, by simp⟩ (by simp)

instance (level : Level) : Decidable (Ambiguous level) :=
  decidable_of_iff _ ambiguous_iff.symm

/-- A query under a score function, if there is one. -/
def QueryNode.score (query : QueryNode) : Option ScoreFunction → QueryNode
  | none => query
  | some function => .functionScore query function

theorem boost_eq (settings : Settings) (c : Clauses) (query : QueryNode) :
    c.boost settings query =
      if 1 < c.boosts.length ∧ settings.boostPolicy = .reject then
        .error (.ambiguousBoost c.boosts)
      else .ok (query.score (c.scoreFunction? settings)) := by
  unfold Clauses.boost
  split
  · rfl
  · cases c.scoreFunction? settings <;> rfl

theorem compile_plain (settings : Settings) (text : String) (c : Clauses) :
    (SearchOptions.plain c).compile settings text = (do
      let base ← c.base settings text
      c.boost settings (base.restrict (FilterNode.join c.filters))) :=
  rfl

theorem compile_including (settings : Settings) (text : String) (c : Clauses) (included : String)
    (inner : SearchOptions) :
    (SearchOptions.including c included inner).compile settings text = (do
      let base ← c.base settings text
      let nested ← inner.compile settings included
      c.boost settings (base.restrict (FilterNode.join (c.filters ++ [.query nested])))) :=
  rfl

theorem candidates_including {settings : Settings} {c : Clauses} {included : String}
    {inner : SearchOptions} {candidates : List FilterNode}
    (h : (SearchOptions.including c included inner).candidates settings = .ok candidates) :
    ∃ nested, inner.compile settings included = .ok nested ∧
      candidates = c.filters ++ [.query nested] := by
  obtain ⟨nested, hn, hc⟩ := bind_eq_ok_iff.mp h
  cases hc
  exact ⟨nested, hn, rfl⟩

/-- A compiled query is its base under the candidate filters under the score function. -/
theorem compile_eq_ok {settings : Settings} {text : String} {o : SearchOptions} {q : QueryNode}
    (h : o.compile settings text = .ok q) :
    ∃ base candidates, o.clauses.base settings text = .ok base ∧
      o.candidates settings = .ok candidates ∧
      q = (base.restrict (FilterNode.join candidates)).score
        (o.clauses.scoreFunction? settings) := by
  rw [SearchOptions.compile_eq] at h
  obtain ⟨base, hb, h⟩ := bind_eq_ok_iff.mp h
  obtain ⟨candidates, hc, h⟩ := bind_eq_ok_iff.mp h
  rw [boost_eq] at h
  split at h
  · cases h
  · cases h
    exact ⟨base, candidates, hb, hc, rfl⟩

end SearchCompiler
