import SearchCompiler.Proofs.NearestDefinition

/-!
Where warnings come from. Each warning is about one setting and looks at its value alone, the
defaults give no warning, and a merge takes every value from one file. So a merge has exactly the
warnings that the deciding files have by themselves.
-/

namespace SearchCompiler

/-- The setting that a warning is about. -/
def Warning.setting : Warning → SettingName
  | .emptyCatchAllField => .catchAllField
  | .unknownModifier _ => .boostModifier
  | .zeroFactor => .boostFactor

section Values

variable {c c' : Config} {w : Warning}

theorem mem_warnings_iff {s : Settings} : w ∈ s.warnings ↔
    match w with
    | .emptyCatchAllField => Text.isBlank s.catchAllField = true
    | .unknownModifier modifier => modifier = s.boostModifier ∧ s.boostModifier ∉ boostModifiers
    | .zeroFactor => s.boostFactor = 0 := by
  unfold Settings.warnings
  simp only [List.mem_append, List.mem_ite_nil_right, List.mem_ite_nil_left, List.mem_singleton]
  cases w <;> simp [and_comm]

/-- A warning looks at the value of its setting alone. -/
theorem mem_warnings_congr (h : c.get w.setting = c'.get w.setting) :
    w ∈ c.compile.warnings ↔ w ∈ c'.compile.warnings := by
  rw [mem_warnings_iff, mem_warnings_iff]
  cases w with
  | emptyCatchAllField =>
    have hfield : c.compile.catchAllField = c'.compile.catchAllField := h
    simp only [hfield]
  | unknownModifier modifier =>
    have hmodifier : c.compile.boostModifier = c'.compile.boostModifier := h
    simp only [hmodifier]
  | zeroFactor =>
    have hfactor : c.compile.boostFactor = c'.compile.boostFactor := h
    simp only [hfactor]

theorem warnings_default : ({} : Config).compile.warnings = [] := by
  decide

theorem compile_eq_of_get (h : ∀ s, c.get s = c'.get s) : c.compile = c'.compile := by
  have hfield : c.compile.catchAllField = c'.compile.catchAllField := h .catchAllField
  have hmodifier : c.compile.boostModifier = c'.compile.boostModifier := h .boostModifier
  have hfactor : c.compile.boostFactor = c'.compile.boostFactor := h .boostFactor
  have hpolicy : c.compile.boostPolicy = c'.compile.boostPolicy := h .boostPolicy
  calc
    c.compile = ⟨c.compile.catchAllField, c.compile.boostModifier, c.compile.boostFactor,
        c.compile.boostPolicy⟩ := rfl
    _ = c'.compile := by rw [hfield, hmodifier, hfactor, hpolicy]

end Values

section Merged

variable {files : List ConfigFile} {w : Warning}

/-- The first file in a list that defines a setting. -/
def FirstDefining (files : List ConfigFile) (s : SettingName) (file : ConfigFile) : Prop :=
  ∃ before after, files = before ++ file :: after ∧
    (∀ earlier ∈ before, earlier.raw.get? s = none) ∧ (file.raw.get? s).isSome = true

theorem exists_firstDefining {s : SettingName}
    (h : ∃ file ∈ files, (file.raw.get? s).isSome = true) : ∃ file, FirstDefining files s file := by
  obtain ⟨before, file, after, value, hfiles, hbefore, hfile⟩ := exists_first_defining h
  exact ⟨file, before, after, hfiles, hbefore, Option.isSome_of_eq_some hfile⟩

/-- The first file that defines a setting gives it the value that it has in the file by itself. -/
theorem get_merge_of_firstDefining {s : SettingName} {file : ConfigFile}
    (h : FirstDefining files s file) :
    (Config.merge files).get s = (Config.merge [file]).get s := by
  obtain ⟨before, after, rfl, hbefore, hf⟩ := h
  obtain ⟨value, hv⟩ := Option.isSome_iff_exists.mp hf
  rw [get_merge_of_first hbefore hv, get_merge_cons, hv]
  rfl

/-- A setting that no file defines has no warning. -/
theorem not_mem_warnings_of_none (h : ∀ file ∈ files, file.raw.get? w.setting = none) :
    w ∉ (Config.merge files).compile.warnings := by
  rw [mem_warnings_congr (get_merge_of_none h), warnings_default]
  exact List.not_mem_nil

/-- A merge has a warning exactly if the first file that defines its setting has it by itself. -/
theorem mem_warnings_merge_iff : w ∈ (Config.merge files).compile.warnings ↔
    ∃ file, FirstDefining files w.setting file ∧ w ∈ (Config.merge [file]).compile.warnings := by
  constructor
  · intro hw
    rcases defined_or_undefined files w.setting with hdef | hundef
    · obtain ⟨file, hfile⟩ := exists_firstDefining hdef
      exact ⟨file, hfile, (mem_warnings_congr (get_merge_of_firstDefining hfile)).mp hw⟩
    · exact absurd hw (not_mem_warnings_of_none hundef)
  · rintro ⟨file, hfile, hw⟩
    exact (mem_warnings_congr (get_merge_of_firstDefining hfile)).mpr hw

theorem warnings_merge_of_clean (h : ∀ file ∈ files, (Config.merge [file]).compile.warnings = []) :
    (Config.merge files).compile.warnings = [] := by
  apply List.eq_nil_iff_forall_not_mem.mpr
  intro w hw
  obtain ⟨file, ⟨before, after, rfl, _⟩, hfile⟩ := mem_warnings_merge_iff.mp hw
  rw [h file (by simp)] at hfile
  cases hfile

end Merged

/-- A merge has exactly the warnings, each about a setting that some file defines, that the first
file defining the setting has by itself. So files without warnings can be merged in any choice and
order without one, and a definition behind another one never matters for them. -/
theorem warnings_of_deciding_files (files : List ConfigFile) :
    (∀ w, w ∈ (Config.merge files).compile.warnings ↔ ∃ file,
      FirstDefining files w.setting file ∧ w ∈ (Config.merge [file]).compile.warnings) ∧
    ((∀ file ∈ files, (Config.merge [file]).compile.warnings = []) →
      ∀ chosen : List ConfigFile, (∀ file ∈ chosen, file ∈ files) →
        (Config.merge chosen).compile.warnings = []) ∧
    ∀ before file after other, files = before ++ file :: after →
      (∀ s, other.raw.get? s = file.raw.get? s ∨
        ∃ earlier ∈ before, (earlier.raw.get? s).isSome = true) →
        (Config.merge (before ++ other :: after)).compile.warnings =
          (Config.merge files).compile.warnings := by
  refine ⟨fun _ => mem_warnings_merge_iff, ?chosen, ?replaced⟩
  case chosen =>
    intro hclean chosen hchosen
    exact warnings_merge_of_clean fun file hf => hclean file (hchosen file hf)
  case replaced =>
    rintro before file after other rfl h
    rw [compile_eq_of_get fun s => get_merge_replace (h s) after]

/-- A factor of zero behind another definition gives no warning, an unknown modifier that no file
before defines does. -/
theorem warnings_of_deciding_files_factor :
    let near : ConfigFile := ⟨⟨.none, ["near"]⟩, { compile := some { boostFactor := some 5 } }⟩
    let far : ConfigFile := ⟨⟨.none, ["far"]⟩,
      { compile := some { boostModifier := some "cubed", boostFactor := some 0 } }⟩
    let other : ConfigFile := ⟨⟨.none, ["far"]⟩,
      { compile := some { boostModifier := some "cubed" } }⟩
    FirstDefining [near, far] .boostModifier far ∧
      .unknownModifier "cubed" ∈ (Config.merge [far]).compile.warnings ∧
      .unknownModifier "cubed" ∈ (Config.merge [near, far]).compile.warnings ∧
      (Config.merge [near, other]).compile.warnings =
        (Config.merge [near, far]).compile.warnings ∧
      (Config.merge [near]).compile.warnings = [] ∧
      (Config.merge [near, near]).compile.warnings = [] := by
  intro near far other
  have hfirst : FirstDefining [near, far] .boostModifier far :=
    ⟨[near], [], rfl, by simp [near, RawConfig.get?], rfl⟩
  have hfar : .unknownModifier "cubed" ∈ (Config.merge [far]).compile.warnings := by decide
  have hnear : (Config.merge [near]).compile.warnings = [] := by decide
  obtain ⟨hwarns, _, hreplaced⟩ := warnings_of_deciding_files [near, far]
  obtain ⟨_, hclean, _⟩ := warnings_of_deciding_files [near]
  refine ⟨hfirst, hfar, (hwarns _).mpr ⟨far, hfirst, hfar⟩, ?_, hnear,
    hclean (List.forall_mem_singleton.mpr hnear) [near, near] (by simp)⟩
  refine hreplaced [near] far [] other rfl fun s => ?_
  cases s with
  | boostFactor => exact .inr ⟨near, List.mem_cons_self, rfl⟩
  | catchAllField => exact .inl rfl
  | boostModifier => exact .inl rfl
  | boostPolicy => exact .inl rfl
  | pretty => exact .inl rfl
  | color => exact .inl rfl

end SearchCompiler
