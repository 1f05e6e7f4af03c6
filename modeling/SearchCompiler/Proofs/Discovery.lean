import SearchCompiler.Config.Discovery
import SearchCompiler.Proofs.Stages

/-!
The two passes over configuration files: the search, which lists the files of directories in order
up to a root, and the reading. Both depend on nothing but what the files hold.
-/

namespace SearchCompiler

/-- What the file at a path holds, if there is a file. -/
def FileSystem.content? (fs : FileSystem) (p : FilePath) : Option ByteArray :=
  match fs.find? p with
  | some (.file content) => some content
  | _ => none

/-- The text that bytes hold. -/
def textOfBytes (content : ByteArray) : Except FileFault String :=
  match String.fromUTF8? content with
  | some text => .ok text
  | none => .error .notText

section Content

variable {fs fs' : FileSystem} {p : FilePath}

theorem isFile_eq_isSome : fs.isFile p = (fs.content? p).isSome := by
  unfold FileSystem.isFile FileSystem.content?
  split <;> simp_all

theorem place_of_content {content : ByteArray} (h : fs.content? p = some content) :
    ∃ place, fs.locate p = .ok place ∧ fs.entry place = some (.file content) := by
  unfold FileSystem.content? at h
  split at h
  · next held hf =>
    cases h
    unfold FileSystem.find? at hf
    split at hf
    · next place hl => exact ⟨place, hl, hf⟩
    · cases hf
  · cases h

/-- Reading a file gives the text that it holds. -/
theorem read_of_content {content : ByteArray} (h : fs.content? p = some content) :
    fs.read p = textOfBytes content := by
  obtain ⟨place, hl, he⟩ := place_of_content h
  have hl' : fs.locateFrom ⟨.root, []⟩ p = .ok place := hl
  simp only [FileSystem.read, FileSystem.readFrom, hl', bind, Except.bind, he]
  rfl

theorem fromUTF8?_toUTF8 (text : String) : String.fromUTF8? text.toUTF8 = some text :=
  dif_pos text.isValidUTF8

theorem read_of_text {text : String} (h : fs.content? p = some text.toUTF8) :
    fs.read p = .ok text := by
  rw [read_of_content h, textOfBytes, fromUTF8?_toUTF8]

/-- A file that holds a text is read as the text is. -/
theorem read_of_parse {text : String} {raw : RawConfig} (h : fs.content? p = some text.toUTF8)
    (hp : RawConfig.parse text = .ok raw) : ConfigFile.read fs p = .ok ⟨p, raw⟩ := by
  simp only [ConfigFile.read, read_of_text h, hp]

/-- Why a file is no configuration: its text cannot be read, or the text is not one. -/
inductive Unusable (fs : FileSystem) (p : FilePath) : ConfigError → Prop
  | unreadable {fault : FileFault} : fs.read p = .error fault → Unusable fs p (.unreadable p fault)
  | invalid {text : String} {fault : TextFault} : fs.read p = .ok text →
    RawConfig.parse text = .error fault → Unusable fs p (.invalid p fault)

theorem read_eq_ok_iff {file : ConfigFile} : ConfigFile.read fs p = .ok file ↔
    ∃ text raw, fs.read p = .ok text ∧ RawConfig.parse text = .ok raw ∧ file = ⟨p, raw⟩ := by
  unfold ConfigFile.read
  cases fs.read p with
  | error fault => simp
  | ok text => cases hp : RawConfig.parse text <;> simp [hp, eq_comm]

theorem read_eq_error_iff {e : ConfigError} :
    ConfigFile.read fs p = .error e ↔ Unusable fs p e := by
  unfold ConfigFile.read
  constructor
  · intro h
    split at h
    · next fault hr =>
      cases h
      exact .unreadable hr
    · next text hr =>
      split at h
      · next fault hp =>
        cases h
        exact .invalid hr hp
      · cases h
  · rintro (hr | ⟨hr, hp⟩)
    · rw [hr]
    · simp only [hr, hp]

/-- A configuration file is read the same from two file systems in which it holds the same. -/
theorem read_congr (h : fs.content? p = fs'.content? p) (hf : fs.isFile p = true) :
    ConfigFile.read fs p = ConfigFile.read fs' p := by
  rw [isFile_eq_isSome] at hf
  obtain ⟨content, hc⟩ := Option.isSome_iff_exists.mp hf
  have hr : fs.read p = fs'.read p := by
    rw [read_of_content hc, read_of_content (h ▸ hc)]
  unfold ConfigFile.read
  rw [hr]

end Content

section Among

variable {fs fs' : FileSystem}

/-- What a directory adds to the files of those behind it: nothing, a root that ends the search, or a
file that does not. -/
theorem filesAmong_cons (fs : FileSystem) (dir : FilePath) :
    (fs.isFile (dir.join configName) = false ∧
      ∀ rest, filesAmong fs (dir :: rest) = filesAmong fs rest) ∨
    (fs.isFile (dir.join configName) = true ∧ isRoot fs (dir.join configName) = true ∧
      ∀ rest, filesAmong fs (dir :: rest) = ([dir.join configName], true)) ∨
    (fs.isFile (dir.join configName) = true ∧ isRoot fs (dir.join configName) = false ∧
      ∀ rest, filesAmong fs (dir :: rest) =
        (dir.join configName :: (filesAmong fs rest).1, (filesAmong fs rest).2)) := by
  cases hf : fs.isFile (dir.join configName) with
  | false => exact .inl ⟨rfl, fun rest => by rw [filesAmong, hf]; rfl⟩
  | true =>
    cases hr : isRoot fs (dir.join configName) with
    | false => exact .inr (.inr ⟨rfl, rfl, fun rest => by rw [filesAmong, hf, hr]; rfl⟩)
    | true => exact .inr (.inl ⟨rfl, rfl, fun rest => by rw [filesAmong, hf, hr]; rfl⟩)

/-- The files among directories are those among the first ones, and those among the others unless a
root was met. -/
theorem filesAmong_append (fs : FileSystem) (dirs others : List FilePath) :
    filesAmong fs (dirs ++ others) =
      if (filesAmong fs dirs).2 then filesAmong fs dirs
      else ((filesAmong fs dirs).1 ++ (filesAmong fs others).1, (filesAmong fs others).2) := by
  induction dirs with
  | nil => rfl
  | cons dir rest ih =>
    rw [List.cons_append]
    rcases filesAmong_cons fs dir with ⟨_, he⟩ | ⟨_, _, he⟩ | ⟨_, _, he⟩
    · rw [he, he, ih]
    · rw [he, he]
      rfl
    · rw [he, he, ih]
      split <;> rfl

/-- The files among directories are files that stand in them under the name of a configuration. -/
theorem mem_filesAmong {dirs : List FilePath} {p : FilePath} (h : p ∈ (filesAmong fs dirs).1) :
    fs.isFile p = true ∧ ∃ dir ∈ dirs, p = dir.join configName := by
  induction dirs with
  | nil => cases h
  | cons dir rest ih =>
    have later (hp : p ∈ (filesAmong fs rest).1) :
        fs.isFile p = true ∧ ∃ d ∈ dir :: rest, p = d.join configName := by
      obtain ⟨hf, d, hd, he⟩ := ih hp
      exact ⟨hf, d, List.mem_cons_of_mem _ hd, he⟩
    rcases filesAmong_cons fs dir with ⟨_, he⟩ | ⟨hf, _, he⟩ | ⟨hf, _, he⟩
    · exact later (he rest ▸ h)
    · rw [he] at h
      obtain rfl := List.mem_singleton.mp h
      exact ⟨hf, dir, List.mem_cons_self, rfl⟩
    · rw [he] at h
      rcases List.mem_cons.mp h with rfl | h
      · exact ⟨hf, dir, List.mem_cons_self, rfl⟩
      · exact later h

/-- A file among directories stands in one of them, after the files of those before it and, unless it
is a root, before the files of those behind it. -/
theorem filesAmong_split {dirs : List FilePath} {p : FilePath} (h : p ∈ (filesAmong fs dirs).1) :
    ∃ nearer dir further, dirs = nearer ++ dir :: further ∧ p = dir.join configName ∧
      (filesAmong fs dirs).1 = (filesAmong fs nearer).1 ++ p ::
        (if isRoot fs p then [] else (filesAmong fs further).1) := by
  induction dirs with
  | nil => cases h
  | cons dir rest ih =>
    rcases filesAmong_cons fs dir with ⟨_, he⟩ | ⟨_, hr, he⟩ | ⟨_, hr, he⟩
    · rw [he] at h
      obtain ⟨nearer, d, further, rfl, hp, hfiles⟩ := ih h
      exact ⟨dir :: nearer, d, further, rfl, hp, by rw [he, he, hfiles]⟩
    · rw [he] at h
      obtain rfl := List.mem_singleton.mp h
      exact ⟨[], dir, rest, rfl, rfl, by rw [he, hr]; rfl⟩
    · rw [he] at h
      rcases List.mem_cons.mp h with rfl | h
      · exact ⟨[], dir, rest, rfl, rfl, by rw [he, hr]; rfl⟩
      · obtain ⟨nearer, d, further, rfl, hp, hfiles⟩ := ih h
        exact ⟨dir :: nearer, d, further, rfl, hp, by rw [he, he, hfiles, List.cons_append]⟩

/-- File systems with the same configurations in some directories have the same files among them. -/
theorem filesAmong_congr {dirs : List FilePath}
    (h : ∀ dir ∈ dirs, fs.content? (dir.join configName) = fs'.content? (dir.join configName)) :
    filesAmong fs dirs = filesAmong fs' dirs := by
  induction dirs with
  | nil => rfl
  | cons dir rest ih =>
    rw [List.forall_mem_cons] at h
    have hfile : fs.isFile (dir.join configName) = fs'.isFile (dir.join configName) := by
      rw [isFile_eq_isSome, isFile_eq_isSome, h.1]
    have hroot (hf : fs.isFile (dir.join configName) = true) :
        isRoot fs (dir.join configName) = isRoot fs' (dir.join configName) := by
      unfold isRoot
      rw [read_congr h.1 hf]
    rw [filesAmong, filesAmong, ← hfile, ih h.2]
    cases hf : fs.isFile (dir.join configName) with
    | false => rfl
    | true => rw [hroot hf]

theorem isFile_of_mem_discover {home : Option FilePath} {cwd p : FilePath}
    (h : p ∈ discover fs home cwd) : fs.isFile p = true := by
  rcases List.mem_append.mp h with hlocal | hglobal
  · exact (mem_filesAmong hlocal).1
  · have hfound := Option.mem_toList.mp hglobal
    unfold globalFile? at hfound
    split at hfound
    · cases hfound
    · have hkeep := (Option.mem_filter_iff.mp hfound).2
      simp only [Bool.and_eq_true] at hkeep
      exact hkeep.1

end Among

end SearchCompiler
