import Mathlib
import SearchCompiler.Proofs.Discovery

/-!
What lies behind a configuration file that calls itself the root, or that cannot be read, has no
part in loading. The two passes over the files, one that finds them and one that reads them, stop at
such a file for different reasons: the first ends at a root, the second at an error.
-/

namespace SearchCompiler

/-- A directory behind whose configuration nothing counts: the file calls itself the root, or it
cannot be read. -/
def Shields (fs : FileSystem) (dir : FilePath) : Prop :=
  fs.isFile (dir.join configName) = true ∧
    ((∃ file, ConfigFile.read fs (dir.join configName) = .ok file ∧ file.raw.root = some true) ∨
      ∃ e, ConfigFile.read fs (dir.join configName) = .error e)

/-- Directories up to one that shields them end the search at a root, or have a file among them that
cannot be read. -/
theorem root_or_unreadable {fs : FileSystem} {dir : FilePath} (h : Shields fs dir)
    (nearer : List FilePath) :
    (filesAmong fs (nearer ++ [dir])).2 = true ∨
      ∃ p ∈ (filesAmong fs (nearer ++ [dir])).1, ∃ e, ConfigFile.read fs p = .error e := by
  obtain ⟨hf, hs⟩ := h
  rw [filesAmong_append]
  by_cases hn : (filesAmong fs nearer).2 = true
  · rw [if_pos hn]
    exact .inl hn
  · rw [if_neg hn]
    rcases hs with ⟨file, hread, hroot⟩ | ⟨e, hread⟩
    · have hr : isRoot fs (dir.join configName) = true := by simp [isRoot, hread, hroot]
      exact .inl (by rw [filesAmong, hf, hr]; rfl)
    · have hr : isRoot fs (dir.join configName) = false := by simp [isRoot, hread]
      have hfiles : filesAmong fs [dir] = ([dir.join configName], false) := by
        rw [filesAmong, hf, hr]
        rfl
      exact .inr ⟨dir.join configName, by simp [hfiles], e, hread⟩

/-- Files that cannot all be read fail to load as they do with any others after them. -/
theorem loadFiles_append_of_error {fs : FileSystem} {files : List FilePath} {p : FilePath}
    {e : ConfigError} (hp : p ∈ files) (he : ConfigFile.read fs p = .error e)
    (others : List FilePath) :
    Config.loadFiles fs (files ++ others) = Config.loadFiles fs files := by
  cases hm : files.mapM (ConfigFile.read fs) with
  | ok read =>
    obtain ⟨file, hfile⟩ := exists_ok_mapM.mp ⟨read, hm⟩ p hp
    rw [he] at hfile
    cases hfile
  | error first =>
    unfold Config.loadFiles
    rw [List.mapM_append, hm]
    rfl

/-- Loading for a directory is loading the files up to one that shields it. -/
theorem load_of_shields {fs : FileSystem} {home : Option FilePath} {cwd dir : FilePath}
    {nearer further : List FilePath} (hc : cwd.ancestors = nearer ++ dir :: further)
    (h : Shields fs dir) :
    Config.load fs home cwd = Config.loadFiles fs (filesAmong fs (nearer ++ [dir])).1 := by
  have hdirs : cwd.ancestors = (nearer ++ [dir]) ++ further := by rw [hc]; simp
  have happend := filesAmong_append fs (nearer ++ [dir]) further
  rw [← hdirs] at happend
  unfold Config.load discover localFiles globalFile?
  rcases root_or_unreadable h nearer with hroot | ⟨p, hp, e, he⟩
  · rw [if_pos hroot] at happend
    rw [happend, if_pos hroot]
    simp
  · -- Whatever the search finds after the file that cannot be read, the files before it fail first.
    obtain ⟨others, hothers⟩ : ∃ others,
        (filesAmong fs cwd.ancestors).1 = (filesAmong fs (nearer ++ [dir])).1 ++ others := by
      rw [happend]
      split
      · exact ⟨[], by simp⟩
      · exact ⟨_, rfl⟩
    rw [hothers, List.append_assoc]
    exact loadFiles_append_of_error hp he _

/-- Two file systems that hold the same configurations up to one that calls itself the root or
cannot be read load the same, be it a configuration or an error, whatever they hold further up and
wherever their home directories are. -/
theorem load_eq_of_shields {fs fs' : FileSystem} {home home' : Option FilePath}
    {cwd dir : FilePath} {nearer further : List FilePath}
    (hc : cwd.ancestors = nearer ++ dir :: further)
    (hagree : ∀ d ∈ nearer ++ [dir],
      fs.content? (d.join configName) = fs'.content? (d.join configName))
    (h : Shields fs dir) : Config.load fs home cwd = Config.load fs' home' cwd := by
  have hdir : fs.content? (dir.join configName) = fs'.content? (dir.join configName) :=
    hagree dir (by simp)
  have h' : Shields fs' dir := by
    obtain ⟨hf, hs⟩ := h
    have hf' : fs'.isFile (dir.join configName) = true := by
      rw [isFile_eq_isSome, ← hdir, ← isFile_eq_isSome, hf]
    rw [read_congr hdir hf] at hs
    exact ⟨hf', hs⟩
  rw [load_of_shields hc h, load_of_shields hc h', filesAmong_congr hagree]
  unfold Config.loadFiles
  have hread : (filesAmong fs' (nearer ++ [dir])).1.mapM (ConfigFile.read fs) =
      (filesAmong fs' (nearer ++ [dir])).1.mapM (ConfigFile.read fs') := by
    refine mapM_congr_of_mem fun p hp => ?_
    rw [← filesAmong_congr hagree] at hp
    obtain ⟨hf, d, hd, rfl⟩ := mem_filesAmong hp
    exact read_congr (hagree d hd) hf
  rw [hread]

/-- Behind a root and behind a file that is no configuration, a file of the wrong shape makes no
difference, nor does a home directory that holds it. -/
theorem load_eq_of_shields_work :
    let work : FilePath := ⟨.root, ["work"]⟩
    let cwd : FilePath := ⟨.root, ["work", "tea"]⟩
    let shield : FilePath := ⟨.root, ["work", ".sift.toml"]⟩
    let holding (text : String) := (FileSystem.empty.set ["work"] (some .directory)).set
      ["work", ".sift.toml"] (some (.file text.toUTF8))
    let below (fs : FileSystem) := fs.set [".sift.toml"] (some (.file "root = 1".toUTF8))
    let home : FilePath := ⟨.root, []⟩
    let config : Config := { directory := some work, sources := [shield] }
    Shields (holding "root = true") work ∧
      Config.load (holding "root = true") none cwd = .ok config ∧
      Config.load (below (holding "root = true")) (some home) cwd = .ok config ∧
      Shields (holding "root") work ∧
      Config.load (holding "root") none cwd = .error (.invalid shield .notToml) ∧
      Config.load (below (holding "root")) (some home) cwd =
        .error (.invalid shield .notToml) := by
  intro work cwd shield holding below home config
  have hc : cwd.ancestors = [cwd] ++ work :: [home] := by cbv
  have hwork (text : String) :
      (holding text).content? (work.join configName) = some text.toUTF8 := by cbv
  have hagree (text : String) : ∀ d ∈ [cwd] ++ [work],
      (holding text).content? (d.join configName) =
        (below (holding text)).content? (d.join configName) := by
    have hcwd : (holding text).content? (cwd.join configName) = none := by cbv
    have hcwd' : (below (holding text)).content? (cwd.join configName) = none := by cbv
    have hwork' : (below (holding text)).content? (work.join configName) = some text.toUTF8 := by
      cbv
    rw [List.singleton_append, List.forall_mem_cons, List.forall_mem_singleton, hcwd, hcwd',
      hwork, hwork']
    exact ⟨rfl, rfl⟩
  have hshields {text : String} (h : (∃ file,
      ConfigFile.read (holding text) shield = .ok file ∧ file.raw.root = some true) ∨
        ∃ e, ConfigFile.read (holding text) shield = .error e) : Shields (holding text) work := by
    refine ⟨?_, h⟩
    rw [isFile_eq_isSome, hwork]
    rfl
  have hparse : RawConfig.parse "root = true" = .ok { root := some true } := by cbv
  have hfault : RawConfig.parse "root" = .error .notToml := by cbv
  have hroot : Shields (holding "root = true") work :=
    hshields (.inl ⟨_, read_of_parse (hwork _) hparse, rfl⟩)
  have hbroken : Shields (holding "root") work :=
    hshields (.inr ⟨_, read_eq_error_iff.mpr (.invalid (read_of_text (hwork _)) hfault)⟩)
  have hload : Config.load (holding "root = true") none cwd = .ok config := by cbv
  have hload' : Config.load (holding "root") none cwd = .error (.invalid shield .notToml) := by cbv
  exact ⟨hroot, hload, (load_eq_of_shields hc (hagree _) hroot).symm.trans hload,
    hbroken, hload', (load_eq_of_shields hc (hagree _) hbroken).symm.trans hload'⟩

end SearchCompiler
