import Mathlib.Data.List.Forall2
import Mathlib.Tactic.SplitIfs
import SearchCompiler.Options.Decoder
import SearchCompiler.Proofs.Stages

/-!
Decoded options read off the JSON they come from. Every member of an object asks for one setting, a
clause of the outer level is what the last member of its name that is not null decodes to, and an
included text has options that are decoded in their turn.
-/

namespace SearchCompiler

/-- The members of an object; no other value has any. -/
def Json.Value.members : Json.Value → Entries Json.Value
  | .object members => members
  | _ => []

/-- A member sets a clause of a name to what the value decodes to. -/
structure Sets {α : Type} (key : String) (v : Json.Value) (name : String)
    (decode : Json.Value → Except CompileError α) (x : α) : Prop where
  key_eq : key = name
  not_null : v.kind ≠ .null
  decodes : decode v = .ok x

/-- A member of an object of options asks for a setting: for nothing if it is a null under a
reserved name, for a clause under the name of the clause, for an option of a match otherwise. -/
def Asks (key : String) (v : Json.Value) : Setting → Prop
  | .nothing => v.kind = .null ∧ key ∈ reservedKeys
  | .on scope => Sets key v "on" decodeFieldScope scope
  | .only tree => Sets key v "only" (decodeConditions "only") tree
  | .except tree => Sets key v "except" (decodeConditions "except") tree
  | .boostWhere tree => Sets key v "boost_where" (decodeConditions "boost_where") tree
  | .includes nested => Sets key v "includes" decodeIncludes nested
  | .boostBy field => Sets key v "boost_by" decodeBoostField field
  | .boostFunction script => Sets key v "boost_function" decodeScript script
  | .matchOption name w => name = key ∧ w = v ∧ key ∉ reservedKeys

theorem sets_of_bind {α : Type} {key name : String} {v : Json.Value}
    {decode : Json.Value → Except CompileError α} {setting : α → Setting} {s : Setting}
    (hk : key = name) (hr : name ∈ reservedKeys) (hn : ¬ (v.kind = .null ∧ key ∈ reservedKeys))
    (h : (do return setting (← decode v)) = Except.ok s) :
    ∃ x, s = setting x ∧ Sets key v name decode x := by
  obtain ⟨x, hx, h⟩ := bind_eq_ok_iff.mp h
  cases h
  exact ⟨x, rfl, hk, fun hv => hn ⟨hv, hk ▸ hr⟩, hx⟩

theorem asks_of_decodeSimple {key : String} {v : Json.Value} {s : Setting}
    (hi : key ≠ "includes") (hn : ¬ (v.kind = .null ∧ key ∈ reservedKeys))
    (h : decodeSimple key v = .ok s) : Asks key v s := by
  unfold decodeSimple at h
  -- One case for each reserved name in turn; the last one is left with the other names.
  split_ifs at h with h1 h2 h3 h4 h5 h6
  · obtain ⟨scope, rfl, hs⟩ := sets_of_bind h1 (by decide) hn h
    exact hs
  · obtain ⟨tree, rfl, hs⟩ := sets_of_bind h2 (by decide) hn h
    exact hs
  · obtain ⟨tree, rfl, hs⟩ := sets_of_bind h3 (by decide) hn h
    exact hs
  · obtain ⟨tree, rfl, hs⟩ := sets_of_bind h4 (by decide) hn h
    exact hs
  · obtain ⟨field, rfl, hs⟩ := sets_of_bind h5 (by decide) hn h
    exact hs
  · obtain ⟨script, rfl, hs⟩ := sets_of_bind h6 (by decide) hn h
    exact hs
  · cases h
    exact ⟨rfl, rfl, by simp [reservedKeys, hi, h1, h2, h3, h4, h5, h6]⟩

/-- The setting that a member asks for, or what is wrong with it. -/
def decodeMember (key : String) (v : Json.Value) : Except CompileError Setting :=
  if v.kind = .null ∧ key ∈ reservedKeys then .ok .nothing
  else if key = "includes" then .includes <$> decodeIncludes v
  else decodeSimple key v

theorem asks_of_decodeMember {key : String} {v : Json.Value} {s : Setting}
    (h : decodeMember key v = .ok s) : Asks key v s := by
  unfold decodeMember at h
  split_ifs at h with hn hk
  · cases h
    exact hn
  · cases hd : decodeIncludes v with
    | error e => rw [hd] at h; cases h
    | ok nested =>
      rw [hd] at h
      cases h
      exact ⟨hk, fun hv => hn ⟨hv, by simp [hk, reservedKeys]⟩, hd⟩
  · exact asks_of_decodeSimple hk hn h

theorem decodeSettings_cons (key : String) (v : Json.Value) (rest : Entries Json.Value) :
    decodeSettings ((key, v) :: rest) = (do
      let s ← decodeMember key v
      let settings ← decodeSettings rest
      return s :: settings) := by
  rw [decodeSettings, decodeMember]
  split
  · rfl
  · split <;> rfl

theorem asks_of_decodeSettings {members : Entries Json.Value} {settings : List Setting}
    (h : decodeSettings members = .ok settings) :
    List.Forall₂ (fun member s => Asks member.1 member.2 s) members settings := by
  induction members generalizing settings with
  | nil =>
    rw [decodeSettings] at h
    cases h
    exact .nil
  | cons member rest ih =>
    rw [decodeSettings_cons] at h
    obtain ⟨s, hs, h⟩ := bind_eq_ok_iff.mp h
    obtain ⟨later, hl, h⟩ := bind_eq_ok_iff.mp h
    cases h
    exact .cons (asks_of_decodeMember hs) (ih hl)

theorem exists_settings {v : Json.Value} {o : SearchOptions} (h : SearchOptions.decode v = .ok o) :
    ∃ settings, List.Forall₂ (fun member s => Asks member.1 member.2 s) v.members settings ∧
      o = .ofSettings settings := by
  unfold SearchOptions.decode at h
  split at h
  · cases h
    exact ⟨[], .nil, rfl⟩
  · obtain ⟨settings, hs, h⟩ := bind_eq_ok_iff.mp h
    cases h
    exact ⟨settings, asks_of_decodeSettings hs, rfl⟩
  · cases h

/-- The value that counts for a name: that of the last member of the name that is not null. -/
def lastNamed (key : String) : Entries Json.Value → Option Json.Value
  | [] => none
  | (name, v) :: rest =>
    (lastNamed key rest).or (if name = key ∧ v.kind ≠ .null then some v else none)

theorem lastNamed_of_not_mem {key : String} {members : Entries Json.Value}
    (h : key ∉ members.keys) : lastNamed key members = none := by
  induction members with
  | nil => rfl
  | cons member rest ih =>
    obtain ⟨name, w⟩ := member
    rw [Entries.keys_cons, List.mem_cons, not_or] at h
    have hk : ¬ (name = key ∧ w.kind ≠ .null) := fun he => h.1 he.1.symm
    rw [lastNamed, ih h.2, if_neg hk, Option.or_none]

/-- In an object that holds no name twice, a value counts for a name exactly when it is the value of
a member of that name and not null. -/
theorem lastNamed_eq_some_iff {members : Entries Json.Value} (h : members.keys.Nodup) {key : String}
    {v : Json.Value} :
    lastNamed key members = some v ↔ (key, v) ∈ members ∧ v.kind ≠ .null := by
  induction members with
  | nil => simp [lastNamed]
  | cons member rest ih =>
    obtain ⟨name, w⟩ := member
    obtain ⟨hn, hr⟩ : name ∉ Entries.keys rest ∧ (Entries.keys rest).Nodup := List.nodup_cons.mp h
    by_cases hk : name = key
    · subst hk
      have hv : (name, v) ∉ rest := fun hm => hn (List.mem_map_of_mem (f := Prod.fst) hm)
      rw [lastNamed, lastNamed_of_not_mem hn, Option.none_or]
      by_cases hw : w.kind = .null
      · simp only [hw, ne_eq, not_true_eq_false, and_false, ↓reduceIte, reduceCtorEq,
          List.mem_cons, Prod.mk.injEq, true_and, hv, or_false, false_iff]
        rintro ⟨rfl, hne⟩
        exact hne hw
      · simp only [hw, ne_eq, not_false_eq_true, and_self, ↓reduceIte, Option.some.injEq,
          List.mem_cons, Prod.mk.injEq, true_and, hv, or_false]
        constructor
        · rintro rfl
          exact ⟨rfl, hw⟩
        · rintro ⟨rfl, _⟩
          rfl
    · have hne : (key, v) ≠ (name, w) := fun he => hk (congrArg Prod.fst he).symm
      rw [lastNamed, if_neg (fun he => hk he.1), Option.or_none, ih hr, List.mem_cons,
        or_iff_right hne]

/-- The clause that a setting sets, if it sets one. -/
def Setting.key? : Setting → Option String
  | .nothing => none
  | .on _ => some "on"
  | .only _ => some "only"
  | .except _ => some "except"
  | .boostWhere _ => some "boost_where"
  | .includes _ => some "includes"
  | .boostBy _ => some "boost_by"
  | .boostFunction _ => some "boost_function"
  | .matchOption _ _ => none

theorem key?_of_asks {key : String} {v : Json.Value} {s : Setting} (h : Asks key v s) :
    s.key? = if key ∈ reservedKeys ∧ v.kind ≠ .null then some key else none := by
  cases s with
  | nothing => simp [Setting.key?, h.1]
  | matchOption name w => simp [Setting.key?, h.2.2]
  | _ => simp [Setting.key?, h.key_eq, h.not_null, reservedKeys]

/-- One clause of options: the name of its members, what their values decode to, and where it is
kept. A setting of the clause leaves it as the value decodes, and no other setting bears on it. -/
structure Clause (β : Type) where
  key : String
  decode : Json.Value → Except CompileError (Option β)
  read : SearchOptions → Option β
  reserved : key ∈ reservedKeys
  read_empty : read .empty = none
  read_set {v : Json.Value} {s : Setting} (o : SearchOptions) :
    s.key? = some key → Asks key v s → decode v = .ok (read (o.apply s))
  read_other {s : Setting} (o : SearchOptions) :
    s.key? ≠ some key → read (o.apply s) = read o

/-- A clause decoded from the value that counts for its name. -/
def Clause.decodeFrom {β : Type} (clause : Clause β) (v : Json.Value) :
    Except CompileError (Option β) :=
  match lastNamed clause.key v.members with
  | none => .ok none
  | some w => clause.decode w

theorem Clause.read_foldl {β : Type} (clause : Clause β) {members : Entries Json.Value}
    {settings : List Setting}
    (h : List.Forall₂ (fun member s => Asks member.1 member.2 s) members settings)
    (o : SearchOptions) :
    match lastNamed clause.key members with
    | none => clause.read (settings.foldl SearchOptions.apply o) = clause.read o
    | some v => clause.decode v = .ok (clause.read (settings.foldl SearchOptions.apply o)) := by
  induction h generalizing o with
  | nil => rfl
  | @cons member s rest later hs _ ih =>
    obtain ⟨name, v⟩ := member
    have hl := ih (o.apply s)
    have hk := key?_of_asks hs
    rw [lastNamed, List.foldl_cons]
    -- A later member of the name overrides this one; without any, this one is the last.
    cases hr : lastNamed clause.key rest with
    | some w =>
      rw [hr] at hl
      exact hl
    | none =>
      rw [hr] at hl
      by_cases hn : name = clause.key ∧ v.kind ≠ .null
      · obtain ⟨rfl, hv⟩ := hn
        rw [if_pos ⟨clause.reserved, hv⟩] at hk
        rw [if_pos ⟨rfl, hv⟩, hl]
        exact clause.read_set o hk hs
      · rw [if_neg hn, hl]
        refine clause.read_other o fun he => hn ?_
        rw [he] at hk
        split at hk
        · next hr => exact ⟨(Option.some.inj hk).symm, hr.2⟩
        · cases hk

/-- A clause of decoded options is what the value that counts for its name decodes to. -/
theorem Clause.decodeFrom_eq {β : Type} (clause : Clause β) {v : Json.Value} {o : SearchOptions}
    (h : SearchOptions.decode v = .ok o) : clause.decodeFrom v = .ok (clause.read o) := by
  obtain ⟨settings, hs, rfl⟩ := exists_settings h
  have hr := clause.read_foldl hs .empty
  unfold Clause.decodeFrom
  cases hn : lastNamed clause.key v.members with
  | none =>
    rw [hn] at hr
    exact congrArg Except.ok ((hr.trans clause.read_empty).symm)
  | some w =>
    rw [hn] at hr
    exact hr

@[simp] theorem clauses_modify (f : Clauses → Clauses) (o : SearchOptions) :
    (o.modify f).clauses = f o.clauses :=
  SearchOptions.clauses_ofParts _ _

@[simp] theorem includes_modify (f : Clauses → Clauses) (o : SearchOptions) :
    (o.modify f).includes = o.includes :=
  SearchOptions.includes_ofParts _ _

attribute [local simp] Setting.key? SearchOptions.apply SearchOptions.withMatchOption

namespace Clause

def on : Clause FieldScope where
  key := "on"
  decode v := some <$> decodeFieldScope v
  read o := o.clauses.on
  reserved := by decide
  read_empty := rfl
  read_set {v s} o hk h := by
    cases s with
    | on scope => simp only [h.decodes, SearchOptions.apply, clauses_modify]; rfl
    | _ => simp at hk
  read_other {s} o hk := by
    cases s with
    | on scope => simp at hk
    | _ => simp

def only : Clause ConditionTree where
  key := "only"
  decode := decodeConditions "only"
  read o := o.clauses.only
  reserved := by decide
  read_empty := rfl
  read_set {v s} o hk h := by
    cases s with
    | only tree => simpa using h.decodes
    | _ => simp at hk
  read_other {s} o hk := by
    cases s with
    | only tree => simp at hk
    | _ => simp

def except : Clause ConditionTree where
  key := "except"
  decode := decodeConditions "except"
  read o := o.clauses.except
  reserved := by decide
  read_empty := rfl
  read_set {v s} o hk h := by
    cases s with
    | except tree => simpa using h.decodes
    | _ => simp at hk
  read_other {s} o hk := by
    cases s with
    | except tree => simp at hk
    | _ => simp

def boostWhere : Clause ConditionTree where
  key := "boost_where"
  decode := decodeConditions "boost_where"
  read o := o.clauses.boostWhere
  reserved := by decide
  read_empty := rfl
  read_set {v s} o hk h := by
    cases s with
    | boostWhere tree => simpa using h.decodes
    | _ => simp at hk
  read_other {s} o hk := by
    cases s with
    | boostWhere tree => simp at hk
    | _ => simp

def boostBy : Clause String where
  key := "boost_by"
  decode v := some <$> decodeBoostField v
  read o := o.clauses.boostBy
  reserved := by decide
  read_empty := rfl
  read_set {v s} o hk h := by
    cases s with
    | boostBy field => simp only [h.decodes, SearchOptions.apply, clauses_modify]; rfl
    | _ => simp at hk
  read_other {s} o hk := by
    cases s with
    | boostBy field => simp at hk
    | _ => simp

def boostFunction : Clause ScoreScript where
  key := "boost_function"
  decode v := some <$> decodeScript v
  read o := o.clauses.boostFunction
  reserved := by decide
  read_empty := rfl
  read_set {v s} o hk h := by
    cases s with
    | boostFunction script => simp only [h.decodes, SearchOptions.apply, clauses_modify]; rfl
    | _ => simp at hk
  read_other {s} o hk := by
    cases s with
    | boostFunction script => simp at hk
    | _ => simp

def includes : Clause (String × SearchOptions) where
  key := "includes"
  decode := decodeIncludes
  read o := o.includes
  reserved := by decide
  read_empty := rfl
  read_set {v s} o hk h := by
    cases s with
    | includes nested => simpa using h.decodes
    | _ => simp at hk
  read_other {s} o hk := by
    cases s with
    | includes nested => simp at hk
    | _ => simp

end Clause

/-- The text that a value of `includes` asks for, with the value of its options. -/
def includedText : Json.Value → Option (String × Json.Value)
  | .string text => if Text.isBlank text then none else some (text, .null)
  | .array [.string text] => some (text, .null)
  | .array [.string text, options] => some (text, options)
  | _ => none

theorem decodeIncludes_eq_ok {v : Json.Value} {nested : Option (String × SearchOptions)}
    (h : decodeIncludes v = .ok nested) :
    match includedText v with
    | none => nested = none
    | some (text, w) =>
      ∃ inner, SearchOptions.decode w = .ok inner ∧ nested = some (text, inner) := by
  have hnull : SearchOptions.decode .null = .ok .empty := by rw [SearchOptions.decode]
  unfold decodeIncludes at h
  split at h
  · next text =>
    cases h
    by_cases hb : Text.isBlank text = true
    · simp [includedText, hb]
    · simpa [includedText, hb] using hnull
  · cases h
    rfl
  · cases h
    exact ⟨.empty, hnull, rfl⟩
  · next text options =>
    obtain ⟨inner, hi, h⟩ := bind_eq_ok_iff.mp h
    cases h
    exact ⟨inner, hi, rfl⟩
  · cases h
  · cases h

/-- The text that a value of options includes, with the value of its options. -/
def included (v : Json.Value) : Option (String × Json.Value) :=
  (lastNamed "includes" v.members).bind includedText

/-- Decoded options include the text that their value does, with the options decoded in turn. -/
theorem includes_of_decode {v : Json.Value} {o : SearchOptions}
    (h : SearchOptions.decode v = .ok o) :
    match included v with
    | none => o.includes = none
    | some (text, w) =>
      ∃ inner, SearchOptions.decode w = .ok inner ∧ o.includes = some (text, inner) := by
  have hd := Clause.includes.decodeFrom_eq h
  unfold Clause.decodeFrom at hd
  split at hd
  · next hn =>
    have hn' : lastNamed "includes" v.members = none := hn
    simp only [included, hn', Option.bind_none]
    exact (Except.ok.inj hd).symm
  · next w hw =>
    have hw' : lastNamed "includes" v.members = some w := hw
    simp only [included, hw', Option.bind_some]
    exact decodeIncludes_eq_ok hd

theorem included_of_decode_plain {v : Json.Value} {c : Clauses}
    (h : SearchOptions.decode v = .ok (.plain c)) : included v = none := by
  have hi := includes_of_decode h
  split at hi
  · assumption
  · obtain ⟨inner, _, he⟩ := hi
    cases he

theorem included_of_decode_including {v : Json.Value} {c : Clauses} {text : String}
    {inner : SearchOptions} (h : SearchOptions.decode v = .ok (.including c text inner)) :
    ∃ w, included v = some (text, w) ∧ SearchOptions.decode w = .ok inner := by
  have hi := includes_of_decode h
  split at hi
  · cases hi
  · next w hw =>
    obtain ⟨inner', hd, he⟩ := hi
    cases he
    exact ⟨w, hw, hd⟩

end SearchCompiler
