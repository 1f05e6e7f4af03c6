import Mathlib
import SearchCompiler.Proofs.Ancestors
import SearchCompiler.Proofs.Discovery

/-!
Which files count for a directory, and in which order. They are the configuration files in the
directory and those above it, nearest first, up to the first one that calls itself the root. Where
there is no root the global file comes last, unless it is among them already.
-/

namespace SearchCompiler

/-- The configuration files that stand in some directories, in the order of the directories. -/
def filesIn (fs : FileSystem) (dirs : List FilePath) : List FilePath :=
  (dirs.map fun dir => dir.join configName).filter fs.isFile

/-- A file holds the text of a configuration that sets `root` to true. -/
def CallsItselfRoot (fs : FileSystem) (p : FilePath) : Prop :=
  ∃ text raw, fs.read p = .ok text ∧ RawConfig.parse text = .ok raw ∧ raw.root = some true

namespace FilePath

/-- Going up from an absolute path leads through all beginnings of its names, the longest first. -/
theorem ancestors_of_absolute {p : FilePath} (h : p.lead = .root) :
    p.ancestors.map (fun dir => (dir.lead, dir.names)) =
      p.names.inits.reverse.map fun names => (Lead.root, names) := by
  induction p using ancestors.induct with
  | case1 p hp =>
    rw [ancestors_of_top hp, names_of_top hp, List.map_singleton, h, names_of_top hp]
    rfl
  | case2 p parent hp _ ih =>
    rcases parent?_cases hp with ⟨hlead, last, hnames⟩ | ⟨hlead, _, _⟩
    · have hinits : p.names.inits.reverse = p.names :: parent.names.inits.reverse := by
        rw [hnames, List.inits_append, List.reverse_append]
        rfl
      rw [ancestors_of_parent? hp, List.map_cons, ih (hlead.trans h), hinits, List.map_cons, h]
    · rw [h] at hlead
      cases hlead

end FilePath

section Listed

variable {fs : FileSystem} {home : Option FilePath} {cwd p : FilePath}

theorem isRoot_iff : isRoot fs p = true ↔ CallsItselfRoot fs p := by
  unfold isRoot CallsItselfRoot
  cases hr : ConfigFile.read fs p with
  | error e =>
    refine iff_of_false (by simp) ?_
    rintro ⟨text, raw, ht, hp, _⟩
    rw [read_eq_ok_iff.mpr ⟨text, raw, ht, hp, rfl⟩] at hr
    cases hr
  | ok file =>
    obtain ⟨text, raw, ht, hp, rfl⟩ := read_eq_ok_iff.mp hr
    simp [ht, hp]

theorem isRoot_eq_false_iff : isRoot fs p = false ↔ ¬ CallsItselfRoot fs p := by
  rw [← isRoot_iff, Bool.not_eq_true]

theorem filesIn_cons (dir : FilePath) (rest : List FilePath) :
    filesIn fs (dir :: rest) = if fs.isFile (dir.join configName) then
      dir.join configName :: filesIn fs rest else filesIn fs rest := by
  rw [filesIn, List.map_cons, List.filter_cons]
  rfl

/-- The search lists the files in the directories up to the first root, or all of them. -/
theorem filesAmong_eq (fs : FileSystem) (dirs : List FilePath) :
    (∃ before top after, filesIn fs dirs = before ++ top :: after ∧
      (∀ p ∈ before, ¬ CallsItselfRoot fs p) ∧ CallsItselfRoot fs top ∧
      filesAmong fs dirs = (before ++ [top], true)) ∨
    ((∀ p ∈ filesIn fs dirs, ¬ CallsItselfRoot fs p) ∧
      filesAmong fs dirs = (filesIn fs dirs, false)) := by
  induction dirs with
  | nil => exact .inr ⟨List.forall_mem_nil _, rfl⟩
  | cons dir rest ih =>
    rw [filesIn_cons]
    rcases filesAmong_cons fs dir with ⟨hf, he⟩ | ⟨hf, hr, he⟩ | ⟨hf, hr, he⟩
    · rw [he, hf]
      exact ih
    · rw [he, if_pos hf]
      exact .inl ⟨[], _, _, rfl, List.forall_mem_nil _, isRoot_iff.mp hr, rfl⟩
    · have hnot := isRoot_eq_false_iff.mp hr
      rw [he, if_pos hf]
      rcases ih with ⟨before, top, after, hfiles, hbefore, htop, ha⟩ | ⟨hall, ha⟩
      · refine .inl ⟨dir.join configName :: before, top, after, by rw [hfiles, List.cons_append],
          List.forall_mem_cons.mpr ⟨hnot, hbefore⟩, htop, by rw [ha, List.cons_append]⟩
      · exact .inr ⟨List.forall_mem_cons.mpr ⟨hnot, hall⟩, by rw [ha]⟩

/-- No two files in the directories above a path are the same. -/
theorem filesIn_ancestors_pairwise (fs : FileSystem) (cwd : FilePath) :
    (filesIn fs cwd.ancestors).Pairwise fun p q => p.same q = false := by
  refine List.Pairwise.filter _ (List.pairwise_map.mpr ?_)
  refine (FilePath.ancestors_pairwise cwd).imp fun {nearer further} hlt => ?_
  rw [← Bool.not_eq_true, FilePath.same_join_iff configName_not_idle]
  intro hsame
  exact absurd (FilePath.height_eq_of_same hsame) (by omega)

/-- The global path is that of the configuration file in the home directory. -/
theorem globalPath?_eq_some_iff {g : FilePath} :
    globalPath? home = some g ↔ ∃ dir, home = some dir ∧ g = dir.join ".sift.toml" := by
  rw [globalPath?, Option.map_eq_some_iff]
  exact exists_congr fun dir => and_congr_right fun _ => eq_comm

/-- Where the search meets no root, the global file is added exactly if it is a file and not among
those found. -/
theorem globalFile?_eq_some_iff (h : (filesAmong fs cwd.ancestors).2 = false) {g : FilePath} :
    globalFile? fs home cwd = some g ↔
      (∃ dir, home = some dir ∧ g = dir.join ".sift.toml") ∧ fs.isFile g = true ∧
        ∀ p ∈ localFiles fs cwd, p.same g = false := by
  rw [globalFile?, h, if_neg Bool.false_ne_true, Option.filter_eq_some_iff, Bool.and_eq_true,
    Bool.not_eq_true', List.any_eq_false, globalPath?_eq_some_iff]
  simp only [FilePath.same_comm g, Bool.not_eq_true]

/-- The files that count are those found up to the first root, or all that are found and the global
file if it is not among them. -/
theorem discover_cases (fs : FileSystem) (home : Option FilePath) (cwd : FilePath) :
    (∃ before top after, filesIn fs cwd.ancestors = before ++ top :: after ∧
      (∀ p ∈ before, ¬ CallsItselfRoot fs p) ∧ CallsItselfRoot fs top ∧
      discover fs home cwd = before ++ [top]) ∨
    ((∀ p ∈ filesIn fs cwd.ancestors, ¬ CallsItselfRoot fs p) ∧ ∃ added : Option FilePath,
      discover fs home cwd = filesIn fs cwd.ancestors ++ added.toList ∧
      ∀ g, added = some g ↔
        (∃ dir, home = some dir ∧ g = dir.join ".sift.toml") ∧ fs.isFile g = true ∧
          ∀ p ∈ filesIn fs cwd.ancestors, p.same g = false) := by
  rcases filesAmong_eq fs cwd.ancestors with
    ⟨before, top, after, hfiles, hbefore, htop, ha⟩ | ⟨hall, ha⟩
  · have hnone : globalFile? fs home cwd = none := by rw [globalFile?, ha, if_pos rfl]
    refine .inl ⟨before, top, after, hfiles, hbefore, htop, ?_⟩
    rw [discover, hnone, localFiles, ha, Option.toList_none, List.append_nil]
  · have hlocal : localFiles fs cwd = filesIn fs cwd.ancestors := by rw [localFiles, ha]
    have hadded (g : FilePath) : globalFile? fs home cwd = some g ↔
        (∃ dir, home = some dir ∧ g = dir.join ".sift.toml") ∧ fs.isFile g = true ∧
          ∀ p ∈ filesIn fs cwd.ancestors, p.same g = false := by
      rw [globalFile?_eq_some_iff (by rw [ha]), hlocal]
    exact .inr ⟨hall, _, by rw [discover, hlocal], hadded⟩

/-- No two files that count are the same. -/
theorem discover_pairwise (fs : FileSystem) (home : Option FilePath) (cwd : FilePath) :
    (discover fs home cwd).Pairwise fun p q => p.same q = false := by
  have hfound := filesIn_ancestors_pairwise fs cwd
  rcases discover_cases fs home cwd with
    ⟨before, top, after, hfiles, _, _, hd⟩ | ⟨_, added, hd, hadded⟩
  · rw [hfiles, List.append_cons] at hfound
    rw [hd]
    exact (List.pairwise_append.mp hfound).1
  · rw [hd]
    refine List.pairwise_append.mpr ⟨hfound, ?_, fun p hp g hg => ?_⟩
    · cases added with
      | none => exact .nil
      | some g => exact List.pairwise_singleton _ _
    · exact ((hadded g).mp (Option.mem_toList.mp hg)).2.2 p hp

/-- A file that is found counts unless there is a root before it. -/
theorem mem_discover_of_found {before after : List FilePath}
    (hfound : filesIn fs cwd.ancestors = before ++ p :: after)
    (hbefore : ∀ q ∈ before, ¬ CallsItselfRoot fs q) : p ∈ discover fs home cwd := by
  rcases discover_cases fs home cwd with
    ⟨nearer, top, further, hfiles, _, htop, hd⟩ | ⟨_, added, hd, _⟩
  · rw [hd]
    have hsplit : before ++ p :: after = (nearer ++ [top]) ++ further := by
      rw [← hfound, hfiles, List.append_cons]
    -- The root is not before the file, so the file is among those up to the root.
    rcases List.append_eq_append_iff.mp hsplit with ⟨rest, hrest, htail⟩ | ⟨rest, hrest, _⟩
    · rcases List.cons_eq_append_iff.mp htail with ⟨rfl, _⟩ | ⟨rest', rfl, _⟩
      · rw [List.append_nil] at hrest
        exact absurd htop (hbefore top (by rw [← hrest]; simp))
      · rw [hrest]
        simp
    · exact absurd htop (hbefore top (by rw [hrest]; simp))
  · rw [hd, hfound]
    simp

/-- The files before the last one that counts are no roots. -/
theorem not_root_of_mem_dropLast (hp : p ∈ (discover fs home cwd).dropLast) :
    ¬ CallsItselfRoot fs p := by
  rcases discover_cases fs home cwd with
    ⟨before, top, after, _, hbefore, _, hd⟩ | ⟨hall, added, hd, _⟩
  · rw [hd, List.dropLast_concat] at hp
    exact hbefore p hp
  · rw [hd] at hp
    cases added with
    | none =>
      rw [Option.toList_none, List.append_nil] at hp
      exact hall p (List.mem_of_mem_dropLast hp)
    | some g =>
      rw [Option.toList_some, List.dropLast_concat] at hp
      exact hall p hp

theorem not_root_of_unusable {e : ConfigError} (h : Unusable fs p e) : ¬ CallsItselfRoot fs p := by
  rw [← isRoot_eq_false_iff, isRoot, read_eq_error_iff.mpr h]

theorem not_mem_discover_of_directory (h : fs.find? p = some .directory) :
    p ∉ discover fs home cwd := by
  intro hp
  have hf := isFile_of_mem_discover hp
  rw [FileSystem.isFile, h] at hf
  cases hf

/-- Behind a root no file counts. -/
theorem eq_nil_of_root {before after : List FilePath}
    (h : discover fs home cwd = before ++ p :: after) (hp : CallsItselfRoot fs p) : after = [] := by
  cases after with
  | nil => rfl
  | cons next rest =>
    have hmem : p ∈ (discover fs home cwd).dropLast := by simp [h]
    exact absurd hp (not_root_of_mem_dropLast hmem)

end Listed

/-- The files that count for an absolute directory. The directories above it are those named by the
beginnings of its names, and the files found are those that stand in them, nearest first. What
counts is cut off after the first root among these or, where there is none, followed by the file in
the home directory exactly if there is such a directory and the file is one and not among them. So
no file counts twice, a file that is no configuration counts but ends nothing, a directory never
counts, and nothing counts behind a root. -/
theorem discover_lists_exactly (fs : FileSystem) (home : Option FilePath) {cwd : FilePath}
    (h : cwd.lead = .root) :
    let found := (cwd.ancestors.map fun dir => dir.join ".sift.toml").filter fs.isFile
    let listed := discover fs home cwd
    (cwd.ancestors.map fun dir => (dir.lead, dir.names)) =
        (cwd.names.inits.reverse.map fun names => (Lead.root, names)) ∧
      ((∃ before top after, found = before ++ top :: after ∧
          (∀ p ∈ before, ¬ CallsItselfRoot fs p) ∧ CallsItselfRoot fs top ∧
          listed = before ++ [top]) ∨
        ((∀ p ∈ found, ¬ CallsItselfRoot fs p) ∧ ∃ added : Option FilePath,
          listed = found ++ added.toList ∧
          ∀ g, added = some g ↔
            (∃ dir, home = some dir ∧ g = dir.join ".sift.toml") ∧ fs.isFile g = true ∧
              ∀ p ∈ found, p.same g = false)) ∧
      listed.Pairwise (fun p q => p.same q = false) ∧
      (∀ before p after, found = before ++ p :: after →
        (∀ q ∈ before, ¬ CallsItselfRoot fs q) → p ∈ listed) ∧
      (∀ p e, Unusable fs p e → ¬ CallsItselfRoot fs p) ∧
      (∀ p, fs.find? p = some .directory → p ∉ listed) ∧
      ∀ before p after, listed = before ++ p :: after → CallsItselfRoot fs p → after = [] := by
  intro found listed
  exact ⟨FilePath.ancestors_of_absolute h, discover_cases fs home cwd,
    discover_pairwise fs home cwd, fun _ _ _ hfound => mem_discover_of_found hfound,
    fun _ _ => not_root_of_unusable, fun _ => not_mem_discover_of_directory,
    fun _ _ _ => eq_nil_of_root⟩

/-- A file that is no configuration counts. Where a root comes after it, the files behind the root
and in the home directory do not; where none does, the file in the home directory counts last. -/
theorem discover_lists_exactly_work :
    let cwd : FilePath := ⟨.root, ["work", "tea"]⟩
    let house : FilePath := ⟨.root, ["home"]⟩
    let broken : FilePath := ⟨.root, ["work", "tea", ".sift.toml"]⟩
    let top : FilePath := ⟨.root, ["work", ".sift.toml"]⟩
    let global : FilePath := ⟨.root, ["home", ".sift.toml"]⟩
    let rootless := ((((FileSystem.empty.set ["work"] (some .directory)).set ["work", "tea"]
      (some .directory)).set ["home"] (some .directory)).set
        ["work", "tea", ".sift.toml"] (some (.file "root".toUTF8))).set
          ["home", ".sift.toml"] (some (.file "".toUTF8))
    let fs := (rootless.set ["work", ".sift.toml"] (some (.file "root = true".toUTF8))).set
      [".sift.toml"] (some (.file "".toUTF8))
    cwd.lead = .root ∧
      (filesIn fs cwd.ancestors = [broken, top, ⟨.root, [".sift.toml"]⟩] ∧
        (∃ e, Unusable fs broken e) ∧ CallsItselfRoot fs top ∧
        discover fs (some house) cwd = [broken, top]) ∧
      filesIn rootless cwd.ancestors = [broken] ∧ (∃ e, Unusable rootless broken e) ∧
        discover rootless (some house) cwd = [broken, global] := by
  intro cwd house broken top global rootless fs
  have hlead : cwd.lead = .root := rfl
  have hfault : RawConfig.parse "root" = .error .notToml := by cbv
  refine ⟨hlead, ?_, ?_⟩
  · have hfound : (cwd.ancestors.map fun dir => dir.join ".sift.toml").filter fs.isFile =
        [broken, top, ⟨.root, [".sift.toml"]⟩] := by cbv
    have hbroken : fs.content? broken = some "root".toUTF8 := by cbv
    have hroot : fs.content? top = some "root = true".toUTF8 := by cbv
    have hparse : RawConfig.parse "root = true" = .ok { root := some true } := by cbv
    have hunusable : Unusable fs broken _ := .invalid (read_of_text hbroken) hfault
    have htop : CallsItselfRoot fs top := ⟨_, _, read_of_text hroot, hparse, rfl⟩
    refine ⟨hfound, ⟨_, hunusable⟩, htop, ?_⟩
    obtain ⟨_, hcases, _, _, hnot, _⟩ := discover_lists_exactly fs (some house) hlead
    rw [hfound] at hcases
    rcases hcases with ⟨before, root, after, hfiles, hbefore, hr, hd⟩ | ⟨hall, _⟩
    · match before with
      | [] =>
        cases hfiles
        exact absurd hr (hnot _ _ hunusable)
      | [_] =>
        cases hfiles
        exact hd
      | _ :: second :: _ =>
        simp only [List.cons_append, List.cons.injEq] at hfiles
        exact absurd htop (hbefore top (by simp [hfiles.2.1]))
    · exact absurd htop (hall top (by simp))
  · have hfound : (cwd.ancestors.map fun dir => dir.join ".sift.toml").filter rootless.isFile =
        [broken] := by cbv
    have hbroken : rootless.content? broken = some "root".toUTF8 := by cbv
    have hunusable : Unusable rootless broken _ := .invalid (read_of_text hbroken) hfault
    refine ⟨hfound, ⟨_, hunusable⟩, ?_⟩
    obtain ⟨_, hcases, _, _, hnot, _⟩ := discover_lists_exactly rootless (some house) hlead
    rw [hfound] at hcases
    rcases hcases with ⟨before, root, after, hfiles, _, hr, _⟩ | ⟨_, added, hd, hadded⟩
    · -- The only file that is found is no configuration, so it is no root.
      have hmem : root ∈ [broken] := by rw [hfiles]; simp
      rw [List.mem_singleton] at hmem
      exact absurd hr (hmem ▸ hnot _ _ hunusable)
    · have hapart : ∀ p ∈ [broken], p.same global = false := by
        rw [List.forall_mem_singleton]
        cbv
      have hglobal : added = some global :=
        (hadded global).mpr ⟨⟨house, rfl, by cbv⟩, by cbv, hapart⟩
      rw [hd, hglobal]
      rfl

end SearchCompiler
