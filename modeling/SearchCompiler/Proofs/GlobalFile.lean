import Mathlib
import SearchCompiler.Proofs.Ancestors
import SearchCompiler.Proofs.Discovery
import SearchCompiler.Proofs.MergedSettings

/-!
The place of the global file among the files of a configuration. When the search does not meet it on
the way up it comes last. When the home directory is on the way the file stands where the search
meets it, before the files of the directories above home, and those it overrides.
-/

namespace SearchCompiler

/-- A file defines a setting with a value. -/
def Defines (fs : FileSystem) (p : FilePath) (s : SettingName) (value : s.Value) : Prop :=
  ∃ file, ConfigFile.read fs p = .ok file ∧ file.raw.get? s = some value

section Loaded

variable {fs : FileSystem} {files : List FilePath} {config : Config}

theorem path_of_read {p : FilePath} {file : ConfigFile} (h : ConfigFile.read fs p = .ok file) :
    file.path = p := by
  unfold ConfigFile.read at h
  split at h
  · cases h
  · split at h
    · cases h
    · cases h
      rfl

/-- A loaded configuration is merged from the files as they were read. -/
theorem exists_read_of_loadFiles (h : Config.loadFiles fs files = .ok config) :
    ∃ read : List ConfigFile, read.map ConfigFile.path = files ∧
      (∀ file ∈ read, ConfigFile.read fs file.path = .ok file) ∧ config = Config.merge read := by
  obtain ⟨read, hr, h⟩ := bind_eq_ok_iff.mp h
  cases h
  refine ⟨read, map_of_mapM (fun _ _ => path_of_read) hr, fun file hf => ?_, rfl⟩
  obtain ⟨p, _, hp⟩ := exists_of_mem_mapM hr hf
  rw [path_of_read hp, hp]

/-- A setting that one of the first files defines takes the value of one of them. -/
theorem exists_defines_of_loadFiles {before after : List FilePath}
    (h : Config.loadFiles fs (before ++ after) = .ok config) {p : FilePath} (hp : p ∈ before)
    {s : SettingName} {value : s.Value} (hd : Defines fs p s value) :
    ∃ q ∈ before, Defines fs q s (config.get s) := by
  obtain ⟨read, hpaths, hread, rfl⟩ := exists_read_of_loadFiles h
  obtain ⟨nearer, further, rfl, rfl, rfl⟩ := List.map_eq_append_iff.mp hpaths
  obtain ⟨file, hfile, rfl⟩ := List.mem_map.mp hp
  obtain ⟨held, hheld, hvalue⟩ := hd
  obtain rfl : file = held :=
    Except.ok.inj ((hread file (List.mem_append_left _ hfile)).symm.trans hheld)
  obtain ⟨decider, hdecider, hget⟩ :=
    exists_get?_of_merge ⟨file, hfile, Option.isSome_of_eq_some hvalue⟩ further
  exact ⟨decider.path, List.mem_map_of_mem hdecider, decider,
    hread decider (List.mem_append_left _ hdecider), hget⟩

end Loaded

section Global

variable {fs : FileSystem} {home : Option FilePath} {cwd p q : FilePath}

theorem isGlobal_iff : isGlobal home p = true ↔
    ∃ dir, home = some dir ∧ p.same (dir.join configName) = true := by
  cases home with
  | none => simp [isGlobal, globalPath?]
  | some dir => simp [isGlobal, globalPath?]

/-- Files that are both global are the same. -/
theorem same_of_isGlobal (hp : isGlobal home p = true) (hq : isGlobal home q = true) :
    p.same q = true := by
  obtain ⟨dir, rfl, hp⟩ := isGlobal_iff.mp hp
  obtain ⟨dir', hdir, hq⟩ := isGlobal_iff.mp hq
  cases hdir
  rw [FilePath.same_comm] at hq
  exact FilePath.same_trans hp hq

/-- The file of a directory is global exactly if the directory is the home directory. -/
theorem isGlobal_join_iff {dir : FilePath} : isGlobal home (dir.join configName) = true ↔
    ∃ house, home = some house ∧ dir.same house = true := by
  rw [isGlobal_iff]
  simp only [FilePath.same_join_iff configName_not_idle]

/-- Directories of different height do not both hold the global file. -/
theorem not_isGlobal_of_height_ne {dir other : FilePath} (hg : isGlobal home (dir.join configName))
    (h : other.height ≠ dir.height) : isGlobal home (other.join configName) = false := by
  cases hother : isGlobal home (other.join configName) with
  | false => rfl
  | true =>
    have hsame := same_of_isGlobal hother hg
    rw [FilePath.same_join_iff configName_not_idle] at hsame
    exact absurd (FilePath.height_eq_of_same hsame) h

/-- A global file that the search meets on the way up stands in the home directory. The files after
it are those of the directories above, if it is not a root, and no other file is global. -/
theorem discover_of_met (hp : p ∈ localFiles fs cwd) (hg : isGlobal home p = true) :
    ∃ nearer dir further, cwd.ancestors = nearer ++ dir :: further ∧ p = dir.join configName ∧
      discover fs home cwd = (filesAmong fs nearer).1 ++ p ::
        (if isRoot fs p then [] else (filesAmong fs further).1) ∧
      ∀ other ∈ (filesAmong fs nearer).1 ++ (filesAmong fs further).1,
        isGlobal home other = false := by
  obtain ⟨nearer, dir, further, hdirs, rfl, hfiles⟩ := filesAmong_split hp
  have hnot : globalFile? fs home cwd = none := by
    have hany : ∀ g ∈ globalPath? home, (localFiles fs cwd).any g.same = true := by
      intro g hgp
      have hgg : isGlobal home g = true := by
        rw [isGlobal, hgp, Option.any_some]
        exact FilePath.same_iff.mpr ⟨rfl, rfl⟩
      exact List.any_eq_true.mpr ⟨_, hp, same_of_isGlobal hgg hg⟩
    unfold globalFile?
    split
    · rfl
    · rw [Option.filter_eq_none_iff]
      intro g hgp
      simp [hany g hgp]
  have hheight := FilePath.ancestors_pairwise cwd
  rw [hdirs, List.pairwise_append, List.pairwise_cons] at hheight
  obtain ⟨_, ⟨hfurther, _⟩, hnearer⟩ := hheight
  refine ⟨nearer, dir, further, hdirs, rfl, ?_, fun other hother => ?_⟩
  · rw [discover, hnot, localFiles, hfiles]
    simp
  · rcases List.mem_append.mp hother with hother | hother
    · obtain ⟨_, d, hd, rfl⟩ := mem_filesAmong hother
      have hlt := hnearer d hd dir List.mem_cons_self
      exact not_isGlobal_of_height_ne hg (by omega)
    · obtain ⟨_, d, hd, rfl⟩ := mem_filesAmong hother
      have hlt := hfurther d hd
      exact not_isGlobal_of_height_ne hg (by omega)

/-- A global file that the search does not meet on the way up comes last, and no other is global. -/
theorem discover_of_added (hp : p ∈ globalFile? fs home cwd) :
    discover fs home cwd = localFiles fs cwd ++ [p] ∧
      ∀ other ∈ localFiles fs cwd, isGlobal home other = false := by
  have hp' : globalFile? fs home cwd = some p := hp
  refine ⟨by rw [discover, hp']; rfl, fun other hother => ?_⟩
  unfold globalFile? at hp'
  split at hp'
  · cases hp'
  · obtain ⟨hglobal, hkeep⟩ := Option.filter_eq_some_iff.mp hp'
    have hnone : (localFiles fs cwd).any p.same = false := by
      simp only [Bool.and_eq_true, Bool.not_eq_true'] at hkeep
      exact hkeep.2
    have hother' := List.any_eq_false.mp hnone other hother
    rw [isGlobal, hglobal, Option.any_some, FilePath.same_comm]
    simpa using hother'

end Global

section Precedence

variable {fs : FileSystem} {home : Option FilePath} {cwd p : FilePath} {config : Config}

theorem sources_of_load (h : Config.load fs home cwd = .ok config) :
    config.sources = discover fs home cwd := by
  obtain ⟨read, hpaths, _, rfl⟩ := exists_read_of_loadFiles h
  exact hpaths

/-- Where the global file, that of the home directory, stands among the files of a configuration. No
other file is global. The files before it decide the settings that they define, and it decides those
that it defines and they do not. Files after it, whose settings it overrides, there are only if the
home directory is the working directory or above it, and these are the files of the directories above
home. -/
theorem sources_of_global (h : Config.load fs home cwd = .ok config) (hp : p ∈ config.sources)
    (hg : isGlobal home p = true) :
    (∀ q, isGlobal home q = true ↔
      ∃ house, home = some house ∧ q.same (house.join ".sift.toml") = true) ∧
    ∃ before after, config.sources = before ++ p :: after ∧
      (∀ q ∈ before ++ after, isGlobal home q = false) ∧
      (∀ s, ∀ q ∈ before, ∀ value, Defines fs q s value →
        ∃ decider ∈ before, Defines fs decider s (config.get s)) ∧
      (∀ s value, Defines fs p s value →
        ∃ decider ∈ before ++ [p], Defines fs decider s (config.get s)) ∧
      (after ≠ [] → ∃ house nearer dir further, home = some house ∧ dir.same house = true ∧
        cwd.ancestors = nearer ++ dir :: further ∧ p = dir.join configName ∧
        after = (filesAmong fs further).1) := by
  refine ⟨fun q => isGlobal_iff, ?_⟩
  have hsources := sources_of_load h
  have hsettings {before after : List FilePath}
      (hfiles : discover fs home cwd = before ++ p :: after) :
      (∀ s, ∀ q ∈ before, ∀ value, Defines fs q s value →
        ∃ decider ∈ before, Defines fs decider s (config.get s)) ∧
      ∀ s value, Defines fs p s value →
        ∃ decider ∈ before ++ [p], Defines fs decider s (config.get s) := by
    rw [Config.load, hfiles] at h
    constructor
    · intro s q hq value hd
      exact exists_defines_of_loadFiles h hq hd
    · intro s value hd
      rw [List.append_cons] at h
      exact exists_defines_of_loadFiles h (by simp) hd
  rw [hsources, discover] at hp
  rcases List.mem_append.mp hp with hlocal | hadded
  · obtain ⟨nearer, dir, further, hdirs, hdir, hfiles, hothers⟩ := discover_of_met hlocal hg
    obtain ⟨hbefore, hglobal⟩ := hsettings hfiles
    refine ⟨_, _, hsources.trans hfiles, fun q hq => hothers q ?_, hbefore, hglobal, fun hafter => ?_⟩
    · split at hq
      · exact List.mem_append_left _ (by simpa using hq)
      · exact hq
    · obtain ⟨house, hhome, hsame⟩ := isGlobal_join_iff.mp (hdir ▸ hg)
      rw [if_neg fun hroot => hafter (if_pos hroot)]
      exact ⟨house, nearer, dir, further, hhome, hsame, hdirs, hdir, rfl⟩
  · obtain ⟨hfiles, hothers⟩ := discover_of_added (Option.mem_toList.mp hadded)
    obtain ⟨hbefore, hglobal⟩ := hsettings hfiles
    refine ⟨_, [], hsources.trans hfiles, fun q hq => hothers q ?_, hbefore, hglobal, nofun⟩
    rwa [List.append_nil] at hq

end Precedence

theorem sources_of_global_home :
    let house : FilePath := ⟨.root, ["home"]⟩
    let cwd : FilePath := ⟨.root, ["tea"]⟩
    let fs := ((FileSystem.empty.set [".sift.toml"] (some (.file "".toUTF8))).set
      ["home"] (some .directory)).set ["home", ".sift.toml"]
        (some (.file "output.color = false".toUTF8))
    ∃ config, Config.load fs (some house) cwd = .ok config ∧
      house.join configName ∈ config.sources ∧
      isGlobal (some house) (house.join configName) = true ∧
      ∃ before after, config.sources = before ++ house.join configName :: after ∧
        ∀ q ∈ before ++ after, isGlobal (some house) q = false := by
  intro house cwd fs
  let config : Config :=
    { output := { color := false }
      directory := some ⟨.root, []⟩
      sources := [⟨.root, [".sift.toml"]⟩, ⟨.root, ["home", ".sift.toml"]⟩] }
  have h : Config.load fs (some house) cwd = .ok config := by cbv
  have hp : house.join configName ∈ config.sources := by decide
  have hg : isGlobal (some house) (house.join configName) = true := by decide
  obtain ⟨_, before, after, hsources, hothers, _⟩ := sources_of_global h hp hg
  exact ⟨config, h, hp, hg, before, after, hsources, hothers⟩

/-- With the home directory on the way up, the global file comes before the file of a directory above
home and overrides it. -/
theorem global_overrides_above_home :
    let house : FilePath := ⟨.root, ["home"]⟩
    let above : FilePath := ⟨.root, [".sift.toml"]⟩
    let fs := ((FileSystem.empty.set [".sift.toml"]
      (some (.file "[output]\ncolor = true\n".toUTF8))).set ["home"] (some .directory)).set
        ["home", ".sift.toml"] (some (.file "[output]\ncolor = false\n".toUTF8))
    ∃ config, Config.load fs (some house) ⟨.root, ["home", "tea"]⟩ = .ok config ∧
      config.sources = [house.join configName, above] ∧
      isGlobal (some house) (house.join configName) = true ∧ isGlobal (some house) above = false ∧
      Defines fs above .color true ∧ config.get .color = false := by
  intro house above fs
  let config : Config :=
    { output := { color := false }
      directory := some house
      sources := [house.join configName, above] }
  have h : Config.load fs (some house) ⟨.root, ["home", "tea"]⟩ = .ok config := by cbv
  have hread : ConfigFile.read fs above = .ok ⟨above, { output := some { color := some true } }⟩ := by
    cbv
  exact ⟨config, h, rfl, by decide, by decide, ⟨_, hread, rfl⟩, rfl⟩

end SearchCompiler
