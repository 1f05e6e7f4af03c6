import Mathlib
import SearchCompiler.Proofs.Discovery
import SearchCompiler.Proofs.MergedSettings

/-!
Every setting is decided by the nearest file that defines it. Files are merged from the farthest one
on, each put over the result so far; what that amounts to is a look-up, setting by setting, of the
first definition. So files in front that define a setting hide all definitions behind them, and
files in front that do not leave it alone.
-/

namespace SearchCompiler

section Merged

variable {files first before : List ConfigFile} {file : ConfigFile} {s : SettingName}

theorem defined_or_undefined (files : List ConfigFile) (s : SettingName) :
    (∃ file ∈ files, (file.raw.get? s).isSome = true) ∨
      ∀ file ∈ files, file.raw.get? s = none := by
  by_cases h : ∃ file ∈ files, (file.raw.get? s).isSome = true
  · exact .inl h
  · refine .inr fun file hf => ?_
    rw [← Option.not_isSome_iff_eq_none]
    exact fun hs => h ⟨file, hf, hs⟩

/-- Files in front that define a setting decide it. -/
theorem get_merge_of_defined (h : ∃ file ∈ first, (file.raw.get? s).isSome = true)
    (second : List ConfigFile) :
    (Config.merge (first ++ second)).get s = (Config.merge first).get s := by
  obtain ⟨before, file, after, value, rfl, hbefore, hfile⟩ := exists_first_defining h
  rw [List.append_assoc, List.cons_append, get_merge_of_first hbefore hfile,
    get_merge_of_first hbefore hfile]

theorem get_merge_of_none (h : ∀ file ∈ files, file.raw.get? s = none) :
    (Config.merge files).get s = Config.get {} s := by
  have hmerge := get_merge_of_undefined h []
  rw [List.append_nil] at hmerge
  exact hmerge

/-- Where an earlier file defines a setting, or a file is replaced by one that says the same of it,
the setting stays as it is. -/
theorem get_merge_replace {other : ConfigFile} (h : other.raw.get? s = file.raw.get? s ∨
      ∃ earlier ∈ before, (earlier.raw.get? s).isSome = true) (after : List ConfigFile) :
    (Config.merge (before ++ other :: after)).get s =
      (Config.merge (before ++ file :: after)).get s := by
  rcases defined_or_undefined before s with hdef | hundef
  · rw [get_merge_of_defined hdef, get_merge_of_defined hdef]
  · have hsame : other.raw.get? s = file.raw.get? s := by
      rcases h with hsame | ⟨earlier, he, hs⟩
      · exact hsame
      · rw [hundef earlier he] at hs
        cases hs
    rw [get_merge_of_undefined hundef, get_merge_of_undefined hundef, get_merge_cons,
      get_merge_cons, hsame]

/-- A file that does not define a setting may stand anywhere. -/
theorem get_merge_insert (h : file.raw.get? s = none) (before after : List ConfigFile) :
    (Config.merge (before ++ file :: after)).get s = (Config.merge (before ++ after)).get s := by
  rcases defined_or_undefined before s with hdef | hundef
  · rw [get_merge_of_defined hdef, get_merge_of_defined hdef]
  · rw [get_merge_of_undefined hundef, get_merge_of_undefined hundef, get_merge_cons, h]
    rfl

end Merged

section Loaded

variable {fs : FileSystem} {paths : List FilePath} {e : ConfigError}

theorem not_unusable_iff {p : FilePath} :
    (∀ e, ¬ Unusable fs p e) ↔ ∃ file, ConfigFile.read fs p = .ok file := by
  simp only [← read_eq_error_iff]
  cases ConfigFile.read fs p <;> simp

/-- Files fail to load with the error of the first one that is no configuration. -/
theorem loadFiles_eq_error_iff : Config.loadFiles fs paths = .error e ↔
    ∃ before p after, paths = before ++ p :: after ∧ (∀ q ∈ before, ∀ e', ¬ Unusable fs q e') ∧
      Unusable fs p e := by
  unfold Config.loadFiles
  rw [map_eq_error_iff]
  constructor
  · intro h
    obtain ⟨before, p, after, hpaths, hbefore, hp⟩ := exists_first_of_mapM_error h
    exact ⟨before, p, after, hpaths, fun q hq => not_unusable_iff.mpr (hbefore q hq),
      read_eq_error_iff.mp hp⟩
  · rintro ⟨before, p, after, rfl, hbefore, hp⟩
    obtain ⟨read, hread⟩ := exists_ok_mapM.mpr fun q hq => not_unusable_iff.mp (hbefore q hq)
    rw [List.mapM_append, hread, List.mapM_cons, read_eq_error_iff.mpr hp]
    rfl

theorem exists_loadFiles_error_iff : (∃ e, Config.loadFiles fs paths = .error e) ↔
    ∃ p ∈ paths, ∃ e, Unusable fs p e := by
  constructor
  · rintro ⟨e, h⟩
    obtain ⟨before, p, after, rfl, _, hp⟩ := loadFiles_eq_error_iff.mp h
    exact ⟨p, by simp, e, hp⟩
  · rintro ⟨p, hp, e, he⟩
    cases hload : Config.loadFiles fs paths with
    | error first => exact ⟨first, rfl⟩
    | ok config =>
      obtain ⟨read, hread, _⟩ := bind_eq_ok_iff.mp hload
      have hfile := exists_ok_mapM.mp ⟨read, hread⟩ p hp
      exact absurd he (not_unusable_iff.mpr hfile e)

end Loaded

/-- Every setting of a merge takes the value of the first file that defines it, or its default where
no file does, and the sources are all files in order. So a definition behind another one may be
replaced, a file may stand anywhere for the settings that it does not define, and of two parts of a
list the first decides a setting if one of its files defines it, else the second. Files given by
paths amount to a configuration unless one of them is none, and then the first such file is the
error. -/
theorem nearest_definition_decides (files : List ConfigFile) (s : SettingName) (fs : FileSystem)
    (paths : List FilePath) :
    (∀ before file after value, files = before ++ file :: after →
      (∀ earlier ∈ before, earlier.raw.get? s = none) → file.raw.get? s = some value →
        (Config.merge files).get s = value) ∧
    ((∀ file ∈ files, file.raw.get? s = none) → (Config.merge files).get s = Config.get {} s) ∧
    (Config.merge files).sources = files.map ConfigFile.path ∧
    (∀ before file after other, files = before ++ file :: after →
      (other.raw.get? s = file.raw.get? s ∨
        ∃ earlier ∈ before, (earlier.raw.get? s).isSome = true) →
        (Config.merge (before ++ other :: after)).get s = (Config.merge files).get s) ∧
    (∀ before after idle, files = before ++ after → idle.raw.get? s = none →
      (Config.merge (before ++ idle :: after)).get s = (Config.merge files).get s) ∧
    (∀ first second, files = first ++ second →
      ((∃ file ∈ first, (file.raw.get? s).isSome = true) →
        (Config.merge files).get s = (Config.merge first).get s) ∧
      (¬ (∃ file ∈ first, (file.raw.get? s).isSome = true) →
        (Config.merge files).get s = (Config.merge second).get s)) ∧
    ((∃ e, Config.loadFiles fs paths = .error e) ↔ ∃ p ∈ paths, ∃ e, Unusable fs p e) ∧
    ∀ e, Config.loadFiles fs paths = .error e ↔
      ∃ before p after, paths = before ++ p :: after ∧ (∀ q ∈ before, ∀ e', ¬ Unusable fs q e') ∧
        Unusable fs p e := by
  refine ⟨?first, get_merge_of_none, rfl, ?replaced, ?inserted, ?split,
    exists_loadFiles_error_iff, fun _ => loadFiles_eq_error_iff⟩
  case first =>
    rintro before file after value rfl hbefore hfile
    exact get_merge_of_first hbefore hfile after
  case replaced =>
    rintro before file after other rfl h
    exact get_merge_replace h after
  case inserted =>
    rintro before after idle rfl h
    exact get_merge_insert h before after
  case split =>
    rintro first second rfl
    refine ⟨fun hdef => get_merge_of_defined hdef second, fun hnot => ?_⟩
    exact get_merge_of_undefined ((defined_or_undefined first s).resolve_left hnot) second

theorem nearest_definition_decides_factor :
    let plain : ConfigFile := ⟨⟨.none, ["plain"]⟩, { output := some {} }⟩
    let near : ConfigFile := ⟨⟨.none, ["near"]⟩, { compile := some { boostFactor := some 5 } }⟩
    let far : ConfigFile := ⟨⟨.none, ["far"]⟩, { compile := some { boostFactor := some 9 } }⟩
    let broken : FilePath := ⟨.root, ["broken"]⟩
    let fs := FileSystem.empty.set ["broken"] (some (.file "[".toUTF8))
    plain.raw.get? .boostFactor = none ∧ near.raw.get? .boostFactor = some 5 ∧
      (Config.merge [plain, near, far]).get .boostFactor = 5 ∧
      (Config.merge [plain, near, plain]).get .boostFactor =
        (Config.merge [plain, near, far]).get .boostFactor ∧
      (Config.merge [plain, near, plain, far]).get .boostFactor =
        (Config.merge [plain, near, far]).get .boostFactor ∧
      (Config.merge [plain, near, far]).get .boostFactor =
        (Config.merge [near, far]).get .boostFactor ∧
      (Config.merge [plain]).get .boostFactor = 1000 ∧
      Unusable fs broken (.invalid broken .notToml) ∧
      ∃ e, Config.loadFiles fs [broken, ⟨.root, ["missing"]⟩] = .error e := by
  intro plain near far broken fs
  have hplain : plain.raw.get? .boostFactor = none := rfl
  have hbefore : ∀ earlier ∈ [plain], earlier.raw.get? .boostFactor = none :=
    List.forall_mem_singleton.mpr hplain
  have hcontent : fs.content? broken = some "[".toUTF8 := by cbv
  have hparse : RawConfig.parse "[" = .error .notToml := rfl
  have hbroken : Unusable fs broken (.invalid broken .notToml) :=
    .invalid (read_of_text hcontent) hparse
  obtain ⟨hfirst, _, _, hreplaced, hinserted, hsplit, hfails, _⟩ := nearest_definition_decides
    [plain, near, far] .boostFactor fs [broken, ⟨.root, ["missing"]⟩]
  obtain ⟨_, hnone, _⟩ := nearest_definition_decides [plain] .boostFactor fs []
  refine ⟨hplain, rfl, hfirst [plain] near [far] 5 rfl hbefore rfl,
    hreplaced [plain, near] far [] plain rfl (.inr ⟨near, by simp, rfl⟩),
    hinserted [plain, near] [far] plain rfl hplain, (hsplit [plain] [near, far] rfl).2 ?_,
    hnone hbefore, hbroken, hfails.mpr ⟨broken, by simp, _, hbroken⟩⟩
  rintro ⟨file, hf, hs⟩
  rw [hbefore file hf] at hs
  cases hs

end SearchCompiler
