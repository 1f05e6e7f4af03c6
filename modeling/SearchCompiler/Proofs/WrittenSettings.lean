import SearchCompiler.Proofs.MergedSettings
import SearchCompiler.Proofs.PrintedSettings
import SearchCompiler.Proofs.Stages

/-!
Settings as they are written in a file. A setting has a section, a name in it and the values that
fit it; what fits is read as what it is written for, so nothing but the text for a setting is read
as it. Entries of a section are taken one by one, each on its own, so a section is read exactly if
each of its entries can be, and then holds every setting as it is written there.
-/

namespace SearchCompiler

open Toml (Value)

namespace SettingName

/-- The section that a setting stands in. -/
def sectionName : SettingName → String
  | .pretty => "output"
  | .color => "output"
  | _ => "compile"

/-- The name of a setting in its section. -/
def key : SettingName → String
  | .catchAllField => "catch_all_field"
  | .boostModifier => "boost_modifier"
  | .boostFactor => "boost_factor"
  | .boostPolicy => "boost_precedence"
  | .pretty => "pretty"
  | .color => "color"

/-- What a setting is set to, as it is written in a document. -/
def written : (s : SettingName) → s.Value → Toml.Value
  | .catchAllField, text => .string text
  | .boostModifier, text => .string text
  | .boostFactor, factor => .integer factor.toNat
  | .boostPolicy, policy => .string policy.name
  | .pretty, b => .boolean b
  | .color, b => .boolean b

/-- What can be written for a setting. -/
def Fits : SettingName → Toml.Value → Prop
  | .catchAllField, v => ∃ text, v = .string text
  | .boostModifier, v => ∃ text, v = .string text
  | .boostFactor, v => ∃ n, v = .integer n ∧ 0 ≤ n ∧ n ≤ 4294967295
  | .boostPolicy, v => v = .string "first-match" ∨ v = .string "reject"
  | .pretty, v => ∃ b, v = .boolean b
  | .color, v => ∃ b, v = .boolean b

/-- The reading of a setting. -/
def read : (s : SettingName) → Toml.Value → Except Misfit s.Value
  | .catchAllField => textSetting
  | .boostModifier => textSetting
  | .boostFactor => factorSetting
  | .boostPolicy => policySetting
  | .pretty => truthSetting
  | .color => truthSetting

end SettingName

/-- A value that is no array, no table and no date. -/
def Toml.Value.isSimple : Toml.Value → Bool
  | .datetime => false
  | .array _ => false
  | .table _ => false
  | _ => true

section Settings

variable {s : SettingName} {v : Value}

theorem wrongType_ne_ok {α : Type} (v : Value) (wanted : Wanted) (a : α) :
    wrongType v wanted ≠ .ok a := by
  unfold wrongType
  split <;> exact nofun

theorem textSetting_eq_ok_iff {text : String} : textSetting v = .ok text ↔ v = .string text := by
  unfold textSetting
  split
  · rw [Except.ok.injEq, Value.string.injEq]
  · next hne => exact iff_of_false (wrongType_ne_ok _ _ _) (hne text)

theorem truthSetting_eq_ok_iff {b : Bool} : truthSetting v = .ok b ↔ v = .boolean b := by
  unfold truthSetting
  split
  · rw [Except.ok.injEq, Value.boolean.injEq]
  · next hne => exact iff_of_false (wrongType_ne_ok _ _ _) (hne b)

theorem fitsUnsigned_32_iff {n : Int} :
    Toml.fitsUnsigned 32 n = true ↔ 0 ≤ n ∧ n ≤ 4294967295 := by
  simp [Toml.fitsUnsigned]
  omega

theorem toNat_toUInt32 {n : Int} (hhigh : n ≤ 4294967295) : n.toNat.toUInt32.toNat = n.toNat := by
  apply UInt32.toNat_ofNat_of_lt'
  change n.toNat < 4294967296
  omega

theorem factorSetting_eq_ok_iff {n : UInt32} :
    factorSetting v = .ok n ↔ v = .integer n.toNat := by
  constructor
  · intro h
    unfold factorSetting at h
    split at h
    · next m =>
      split at h
      · next hfits =>
        obtain ⟨hlow, hhigh⟩ := fitsUnsigned_32_iff.mp hfits
        rw [← Except.ok.inj h, toNat_toUInt32 hhigh, Int.toNat_of_nonneg hlow]
      · split at h
        · cases h
        · exact absurd h (wrongType_ne_ok _ _ _)
    · exact absurd h (wrongType_ne_ok _ _ _)
  · rintro rfl
    exact factorSetting_uint32 n

theorem policyNamed_eq_ok_iff {name : String} {policy : BoostPolicy} :
    policyNamed name = .ok policy ↔ name = policy.name := by
  unfold policyNamed
  split
  · next found hfound =>
    -- The policy that was found has the name, and no two policies share one.
    have hname : found.name = name := by simpa using List.find?_some hfound
    rw [Except.ok.injEq, ← hname]
    cases found <;> cases policy <;> decide
  · next hnone =>
    refine iff_of_false nofun ?_
    rintro rfl
    rw [BoostPolicy.ofName?_name] at hnone
    cases hnone

theorem policySetting_eq_ok_iff (hv : v.isSimple = true) {policy : BoostPolicy} :
    policySetting v = .ok policy ↔ v = .string policy.name := by
  unfold policySetting
  split
  · rw [policyNamed_eq_ok_iff, Value.string.injEq]
  · cases hv
  · next hne _ => exact iff_of_false nofun (hne _)

/-- A setting is read exactly as it is written. -/
theorem read_eq_ok_iff_written (hv : v.isSimple = true) {value : s.Value} :
    s.read v = .ok value ↔ v = s.written value := by
  cases s with
  | catchAllField => exact textSetting_eq_ok_iff
  | boostModifier => exact textSetting_eq_ok_iff
  | boostFactor => exact factorSetting_eq_ok_iff
  | boostPolicy => exact policySetting_eq_ok_iff hv
  | pretty => exact truthSetting_eq_ok_iff
  | color => exact truthSetting_eq_ok_iff

theorem exists_written_iff : (∃ value, v = s.written value) ↔ s.Fits v := by
  cases s with
  | catchAllField => exact Iff.rfl
  | boostModifier => exact Iff.rfl
  | boostFactor =>
    constructor
    · rintro ⟨value, rfl⟩
      have hlt := value.toNat_lt
      exact ⟨_, rfl, by omega, by omega⟩
    · rintro ⟨n, rfl, hlow, hhigh⟩
      exact ⟨n.toNat.toUInt32, by
        rw [SettingName.written, toNat_toUInt32 hhigh, Int.toNat_of_nonneg hlow]⟩
  | boostPolicy =>
    constructor
    · rintro ⟨value, rfl⟩
      cases value
      · exact .inl rfl
      · exact .inr rfl
    · rintro (rfl | rfl)
      · exact ⟨.firstMatch, rfl⟩
      · exact ⟨.reject, rfl⟩
  | pretty => exact Iff.rfl
  | color => exact Iff.rfl

theorem isReadable_written (value : s.Value) : (s.written value).isReadable = true := by
  cases s <;> rfl

theorem isSimple_written (value : s.Value) : (s.written value).isSimple = true := by
  cases s <;> rfl

/-- What is written tells the setting. -/
theorem written_injective {value value' : s.Value} (h : s.written value = s.written value') :
    value = value' := by
  have hread := (read_eq_ok_iff_written (isSimple_written value)).mpr rfl
  have hread' := (read_eq_ok_iff_written (isSimple_written value)).mpr h
  exact Except.ok.inj (hread.symm.trans hread')

end Settings

section Entries

variable {R D : Type} {take : R → String × Value → Except Misfit R} {entries : Entries Value}
  {raw raw' : R}

theorem entriesReadable_iff :
    entriesReadable entries = true ↔ ∀ entry ∈ entries, entry.2.isReadable = true := by
  induction entries with
  | nil => exact iff_of_true rfl (List.forall_mem_nil _)
  | cons entry rest ih =>
    rw [entriesReadable, Bool.and_eq_true, ih, List.forall_mem_cons]

/-- Entries are all taken exactly if each is taken, provided that taking one does not depend on
those before it. -/
theorem exists_foldlM_iff {accepts : String × Value → Prop}
    (htake : ∀ raw, ∀ entry ∈ entries, (∃ raw', take raw entry = .ok raw') ↔ accepts entry) :
    (∃ raw', entries.foldlM take raw = .ok raw') ↔ ∀ entry ∈ entries, accepts entry := by
  induction entries generalizing raw with
  | nil => exact iff_of_true ⟨raw, rfl⟩ (List.forall_mem_nil _)
  | cons entry rest ih =>
    have hrest (raw : R) : (∃ raw', rest.foldlM take raw = .ok raw') ↔
        ∀ entry ∈ rest, accepts entry :=
      ih fun raw e he => htake raw e (List.mem_cons_of_mem _ he)
    rw [List.forall_mem_cons, ← htake raw entry List.mem_cons_self]
    -- What was taken so far does not matter to the rest, so any `mid` will do.
    constructor
    · rintro ⟨raw', h⟩
      rw [List.foldlM_cons] at h
      obtain ⟨mid, hmid, h⟩ := bind_eq_ok_iff.mp h
      exact ⟨⟨mid, hmid⟩, (hrest mid).mp ⟨raw', h⟩⟩
    · rintro ⟨⟨mid, hmid⟩, hall⟩
      obtain ⟨raw', h⟩ := (hrest mid).mpr hall
      exact ⟨raw', (foldlM_cons_ok hmid rest).trans h⟩

/-- Where each entry sets what it names and leaves the rest alone, a run sets what the entries hold
under a name, if they hold it, and leaves it alone otherwise. -/
theorem held_of_foldlM (held : R → D) {content : Value → D} {name : String}
    (hstep : ∀ raw, ∀ entry ∈ entries, ∀ raw', take raw entry = .ok raw' →
      held raw' = if entry.1 = name then content entry.2 else held raw)
    (hkeys : entries.keys.Nodup) (h : entries.foldlM take raw = .ok raw') :
    held raw' = ((entries.lookup name).map content).getD (held raw) := by
  induction entries generalizing raw with
  | nil =>
    cases h
    rfl
  | cons entry rest ih =>
    obtain ⟨hnew, hkeys⟩ : entry.1 ∉ Entries.keys rest ∧ (Entries.keys rest).Nodup :=
      List.nodup_cons.mp hkeys
    rw [List.foldlM_cons] at h
    obtain ⟨mid, hmid, h⟩ := bind_eq_ok_iff.mp h
    have hrest := ih (fun raw e he => hstep raw e (List.mem_cons_of_mem _ he)) hkeys h
    rw [hrest, hstep raw entry List.mem_cons_self mid hmid, Entries.lookup_cons]
    by_cases hname : entry.1 = name
    -- The name does not stand in the rest again, so what the entry has set stays.
    · rw [if_pos hname, if_pos hname.symm, Entries.lookup_eq_none_of_not_mem (hname ▸ hnew)]
      rfl
    · rw [if_neg hname, if_neg fun he => hname he.symm]

end Entries

section Sections

theorem SettingName.key_injective {s t : SettingName} (h : s.key = t.key) : s = t := by
  revert h
  cases s <;> cases t <;> decide

theorem sectionName_cases (s : SettingName) :
    s.sectionName = "compile" ∨ s.sectionName = "output" := by
  cases s <;> decide

/-- Entries of a section are taken setting by setting: what stands under the name of a setting is
read as the setting is and sets it alone, and what stands under any other name is passed over. -/
structure TakesSettings (name : String) {R : Type} (take : R → String × Value → Except Misfit R)
    (get : R → (s : SettingName) → Option s.Value) (set : R → (s : SettingName) → s.Value → R) :
    Prop where
  known : ∀ raw v, ∀ s : SettingName, s.sectionName = name →
    take raw (s.key, v) = do return set raw s (← s.read v)
  other : ∀ raw entry, (∀ s : SettingName, s.sectionName = name → entry.1 ≠ s.key) →
    take raw entry = passOver raw entry.2
  get_set : ∀ raw, ∀ s : SettingName, s.sectionName = name → ∀ value,
    get (set raw s value) s = some value
  get_set_of_ne : ∀ raw, ∀ s t : SettingName, s ≠ t → ∀ value,
    get (set raw s value) t = get raw t

/-- The setting of a section on compiling, if it is one of them and is there. -/
def RawCompile.get? (raw : RawCompile) : (s : SettingName) → Option s.Value
  | .catchAllField => raw.catchAllField
  | .boostModifier => raw.boostModifier
  | .boostFactor => raw.boostFactor
  | .boostPolicy => raw.boostPolicy
  | .pretty => none
  | .color => none

def RawCompile.set (raw : RawCompile) : (s : SettingName) → s.Value → RawCompile
  | .catchAllField, text => { raw with catchAllField := some text }
  | .boostModifier, text => { raw with boostModifier := some text }
  | .boostFactor, factor => { raw with boostFactor := some factor }
  | .boostPolicy, policy => { raw with boostPolicy := some policy }
  | .pretty, _ => raw
  | .color, _ => raw

def RawOutput.get? (raw : RawOutput) : (s : SettingName) → Option s.Value
  | .pretty => raw.pretty
  | .color => raw.color
  | .catchAllField => none
  | .boostModifier => none
  | .boostFactor => none
  | .boostPolicy => none

def RawOutput.set (raw : RawOutput) : (s : SettingName) → s.Value → RawOutput
  | .pretty, b => { raw with pretty := some b }
  | .color, b => { raw with color := some b }
  | .catchAllField, _ => raw
  | .boostModifier, _ => raw
  | .boostFactor, _ => raw
  | .boostPolicy, _ => raw

theorem get?_of_compile {s : SettingName} (hs : s.sectionName = "compile") (raw : RawConfig) :
    raw.get? s = raw.compile.bind fun c => c.get? s := by
  cases s with
  | catchAllField => rfl
  | boostModifier => rfl
  | boostFactor => rfl
  | boostPolicy => rfl
  | _ => exact absurd hs (by decide)

theorem get?_of_output {s : SettingName} (hs : s.sectionName = "output") (raw : RawConfig) :
    raw.get? s = raw.output.bind fun o => o.get? s := by
  cases s with
  | pretty => rfl
  | color => rfl
  | _ => exact absurd hs (by decide)

theorem takesSettings_compile :
    TakesSettings "compile" RawCompile.take RawCompile.get? RawCompile.set where
  known raw v s hs := by
    cases s with
    | catchAllField => rfl
    | boostModifier => rfl
    | boostFactor => rfl
    | boostPolicy => rfl
    | pretty => exact absurd hs (by decide)
    | color => exact absurd hs (by decide)
  other raw entry hno := by
    have hfield : entry.1 ≠ "catch_all_field" := hno .catchAllField rfl
    have hmodifier : entry.1 ≠ "boost_modifier" := hno .boostModifier rfl
    have hfactor : entry.1 ≠ "boost_factor" := hno .boostFactor rfl
    have hpolicy : entry.1 ≠ "boost_precedence" := hno .boostPolicy rfl
    rw [RawCompile.take, if_neg hfield, if_neg hmodifier, if_neg hfactor, if_neg hpolicy]
  get_set raw s hs value := by
    cases s with
    | catchAllField => rfl
    | boostModifier => rfl
    | boostFactor => rfl
    | boostPolicy => rfl
    | pretty => exact absurd hs (by decide)
    | color => exact absurd hs (by decide)
  get_set_of_ne raw s t hne value := by
    cases s <;> cases t <;> first | rfl | exact absurd rfl hne

theorem takesSettings_output :
    TakesSettings "output" RawOutput.take RawOutput.get? RawOutput.set where
  known raw v s hs := by
    cases s with
    | pretty => rfl
    | color => rfl
    | _ => exact absurd hs (by decide)
  other raw entry hno := by
    have hpretty : entry.1 ≠ "pretty" := hno .pretty rfl
    have hcolor : entry.1 ≠ "color" := hno .color rfl
    rw [RawOutput.take, if_neg hpretty, if_neg hcolor]
  get_set raw s hs value := by
    cases s with
    | pretty => rfl
    | color => rfl
    | _ => exact absurd hs (by decide)
  get_set_of_ne raw s t hne value := by
    cases s <;> cases t <;> first | rfl | exact absurd rfl hne

end Sections

section Taken

variable {name : String} {R : Type} {take : R → String × Value → Except Misfit R}
  {get : R → (s : SettingName) → Option s.Value} {set : R → (s : SettingName) → s.Value → R}

theorem exists_passOver_iff {raw : R} {v : Value} :
    (∃ raw', passOver raw v = .ok raw') ↔ v.isReadable = true := by
  unfold passOver
  split
  · next h => exact iff_of_true ⟨raw, rfl⟩ h
  · next h => exact iff_of_false nofun h

theorem eq_of_passOver {raw raw' : R} {v : Value} (h : passOver raw v = .ok raw') : raw' = raw := by
  unfold passOver at h
  split at h
  · exact (Except.ok.inj h).symm
  · cases h

/-- The settings of a section that are in the entries satisfy a property. -/
def OfSettings (name : String) (entries : Entries Value) (p : SettingName → Value → Prop) : Prop :=
  ∀ s : SettingName, s.sectionName = name → ∀ v, entries.lookup s.key = some v → p s v

theorem read_written (s : SettingName) (value : s.Value) : s.read (s.written value) = .ok value :=
  (read_eq_ok_iff_written (isSimple_written value)).mpr rfl

/-- An entry is taken exactly if it can be read and, under the name of a setting, fits it. -/
theorem TakesSettings.exists_take_iff (ht : TakesSettings name take get set) {raw : R}
    {entry : String × Value} (hsimple : ∀ s : SettingName, s.sectionName = name →
      entry.1 = s.key → entry.2.isSimple = true) :
    (∃ raw', take raw entry = .ok raw') ↔ entry.2.isReadable = true ∧
      ∀ s : SettingName, s.sectionName = name → entry.1 = s.key → s.Fits entry.2 := by
  by_cases hknown : ∃ s : SettingName, s.sectionName = name ∧ entry.1 = s.key
  · obtain ⟨s, hs, hk⟩ := hknown
    obtain ⟨key, v⟩ := entry
    obtain rfl : key = s.key := hk
    -- What fits is written for some value of the setting, and such a text can be read.
    have hread : (∃ value, s.read v = .ok value) ↔ s.Fits v := by
      simp only [read_eq_ok_iff_written (hsimple s hs rfl), exists_written_iff]
    rw [ht.known raw v s hs, exists_ok_map, hread]
    constructor
    · intro hfits
      obtain ⟨value, rfl⟩ := exists_written_iff.mpr hfits
      refine ⟨isReadable_written value, fun t _ hkey => ?_⟩
      obtain rfl := SettingName.key_injective hkey
      exact hfits
    · rintro ⟨_, hfits⟩
      exact hfits s hs rfl
  · have hno : ∀ s : SettingName, s.sectionName = name → entry.1 ≠ s.key :=
      fun s hs hk => hknown ⟨s, hs, hk⟩
    rw [ht.other raw entry hno, exists_passOver_iff, and_iff_left]
    exact fun s hs hk => absurd hk (hno s hs)

/-- An entry that is taken sets the setting whose name it stands under and no other. -/
theorem TakesSettings.get_take (ht : TakesSettings name take get set) {raw raw' : R}
    {entry : String × Value} (h : take raw entry = .ok raw') {s : SettingName}
    (hs : s.sectionName = name) :
    get raw' s = if entry.1 = s.key then (s.read entry.2).toOption else get raw s := by
  by_cases hknown : ∃ t : SettingName, t.sectionName = name ∧ entry.1 = t.key
  · obtain ⟨t, htn, hk⟩ := hknown
    obtain ⟨key, v⟩ := entry
    obtain rfl : key = t.key := hk
    rw [ht.known raw v t htn] at h
    obtain ⟨value, hv, h⟩ := bind_eq_ok_iff.mp h
    cases h
    by_cases hst : t = s
    · subst hst
      rw [ht.get_set raw t htn, if_pos rfl, hv]
      rfl
    · rw [ht.get_set_of_ne raw t s hst, if_neg fun he => hst (SettingName.key_injective he)]
  · have hno : ∀ t : SettingName, t.sectionName = name → entry.1 ≠ t.key :=
      fun t ht hk => hknown ⟨t, ht, hk⟩
    rw [ht.other raw entry hno] at h
    rw [eq_of_passOver h, if_neg (hno s hs)]

variable {entries : Entries Value} {start raw : R}

/-- The entries of a section are taken exactly if each of them can be read and its settings fit. -/
theorem TakesSettings.exists_foldlM_iff (ht : TakesSettings name take get set)
    (hkeys : entries.keys.Nodup) (hsimple : OfSettings name entries fun _ v => v.isSimple = true) :
    (∃ raw, entries.foldlM take start = .ok raw) ↔
      entriesReadable entries = true ∧ OfSettings name entries SettingName.Fits := by
  have hlookup : ∀ {key : String} {v : Value}, entries.lookup key = some v ↔ (key, v) ∈ entries :=
    Entries.lookup_eq_some_iff hkeys
  have htake : ∀ raw, ∀ entry ∈ entries, (∃ raw', take raw entry = .ok raw') ↔
      entry.2.isReadable = true ∧
        ∀ s : SettingName, s.sectionName = name → entry.1 = s.key → s.Fits entry.2 :=
    fun raw entry he => ht.exists_take_iff fun s hs hk => hsimple s hs _ (hlookup.mpr (hk ▸ he))
  rw [SearchCompiler.exists_foldlM_iff htake, entriesReadable_iff]
  constructor
  · intro h
    exact ⟨fun entry he => (h entry he).1,
      fun s hs v hv => (h _ (hlookup.mp hv)).2 s hs rfl⟩
  · rintro ⟨hreadable, hfits⟩ entry he
    exact ⟨hreadable entry he, fun s hs hk => hfits s hs _ (hlookup.mpr (hk ▸ he))⟩

/-- Entries that were all taken hold every setting of the section as it was set. -/
theorem TakesSettings.lookup_of_foldlM (ht : TakesSettings name take get set)
    (hkeys : entries.keys.Nodup) (hsimple : OfSettings name entries fun _ v => v.isSimple = true)
    (h : entries.foldlM take start = .ok raw) {s : SettingName} (hs : s.sectionName = name)
    (hstart : get start s = none) : entries.lookup s.key = (get raw s).map s.written := by
  have hheld : get raw s =
      ((entries.lookup s.key).map fun v => (s.read v).toOption).getD (get start s) :=
    held_of_foldlM (fun raw => get raw s) (fun _ _ _ _ htake => ht.get_take htake hs) hkeys h
  have hfits := ((ht.exists_foldlM_iff hkeys hsimple).mp ⟨raw, h⟩).2 s hs
  cases hv : entries.lookup s.key with
  | none =>
    rw [hheld, hv, Option.map_none, Option.getD_none, hstart]
    rfl
  | some v =>
    -- The entries were taken, so what stands under the name fits.
    obtain ⟨value, rfl⟩ := exists_written_iff.mpr (hfits v hv)
    rw [hheld, hv, Option.map_some, Option.getD_some, read_written]
    rfl

end Taken

end SearchCompiler
