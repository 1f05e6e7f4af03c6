import SearchCompiler.Proofs.Ancestors
import SearchCompiler.Proofs.Discovery

/-!
File systems that have grown by configuration files that set nothing. Paths lead to the same places
as before, because no directory is new, and every file that was there holds what it held. The search
may meet the new files, but they are no roots and leave every setting to the files after them, so
what is loaded for a directory stays the same.
-/

namespace SearchCompiler

/-- A content that is read as a configuration without sections that does not call itself the root.
-/
def SetsNothing (content : ByteArray) : Prop :=
  ∃ text, String.fromUTF8? content = some text ∧ RawConfig.parse text = .ok {}

/-- Whatever the first file system holds the second one holds too. What else the second one holds
are files that set nothing. -/
def Grown (fs fs' : FileSystem) : Prop :=
  ∀ place, fs'.entry place = fs.entry place ∨
    (fs.entry place = none ∧ ∃ content, fs'.entry place = some (.file content) ∧
      SetsNothing content)

/-- The sections of a configuration. -/
def Config.sections (c : Config) : Settings × OutputSettings :=
  (c.compile, c.output)

/-- Sections with those of a file put over them. -/
def RawConfig.applyTo (raw : RawConfig) (s : Settings × OutputSettings) :
    Settings × OutputSettings :=
  ((raw.compile.getD {}).applyTo s.1, (raw.output.getD {}).applyTo s.2)

theorem setsNothing_of_parse {text : String} (h : RawConfig.parse text = .ok {}) :
    SetsNothing text.toUTF8 :=
  ⟨text, fromUTF8?_toUTF8 text, h⟩

section Set

variable {fs : FileSystem}

@[simp]
theorem entry_set_self (place : Place) (held : Option FileEntry) :
    (fs.set place held).entry place = held :=
  if_pos rfl

theorem entry_set_of_ne {place other : Place} (h : other ≠ place) (held : Option FileEntry) :
    (fs.set place held).entry other = fs.entry other :=
  if_neg h

end Set

section Walk

variable {fs fs' : FileSystem} {goal : Place}

theorem walk_cons {place : Place} (h : fs.entry place = some .directory) (piece : String)
    (rest : List String) : fs.walk place (piece :: rest) =
      if isIdle piece then fs.walk place rest
      else if piece = ".." then fs.walk place.dropLast rest
      else if maxNameBytes < piece.utf8ByteSize then .error .nameTooLong
      else fs.walk (place ++ [piece]) rest := by
  rw [FileSystem.walk, h]

theorem directory_of_walk {place : Place} {piece : String} {rest : List String}
    (h : fs.walk place (piece :: rest) = .ok goal) : fs.entry place = some .directory := by
  rw [FileSystem.walk] at h
  split at h
  · cases h
  · cases h
  · next hd => exact hd

/-- A walk that arrives passes through directories only, so it arrives where these are directories
too. -/
theorem walk_of_directories
    (hdirs : ∀ place, fs.entry place = some .directory → fs'.entry place = some .directory)
    {place : Place} {pieces : List String} (h : fs.walk place pieces = .ok goal) :
    fs'.walk place pieces = .ok goal := by
  induction pieces generalizing place with
  | nil => exact h
  | cons piece rest ih =>
    have hd := directory_of_walk h
    rw [walk_cons hd] at h
    rw [walk_cons (hdirs place hd)]
    split at h
    · next hidle => rw [if_pos hidle, ih h]
    · next hname =>
      rw [if_neg hname]
      split at h
      · next hup => rw [if_pos hup, ih h]
      · next hdown =>
        rw [if_neg hdown]
        split at h
        · cases h
        · next hshort => rw [if_neg hshort, ih h]

/-- A walk that arrives does so without the pieces that name nothing. -/
theorem walk_names {place : Place} {pieces : List String} (h : fs.walk place pieces = .ok goal) :
    fs.walk place (pieces.filter fun piece => !isIdle piece) = .ok goal := by
  induction pieces generalizing place with
  | nil => exact h
  | cons piece rest ih =>
    have hd := directory_of_walk h
    rw [walk_cons hd] at h
    split at h
    · next hidle =>
      rw [List.filter_cons_of_neg (by simp [hidle])]
      exact ih h
    · next hname =>
      rw [List.filter_cons_of_pos (by simp [hname]), walk_cons hd, if_neg hname]
      split at h
      · next hup => rw [if_pos hup, ih h]
      · next hdown =>
        rw [if_neg hdown]
        split at h
        · cases h
        · next hshort => rw [if_neg hshort, ih h]

theorem locate_eq_ok_iff {p : FilePath} :
    fs.locate p = .ok goal ↔ p.refusal? = none ∧ fs.walk [] p.pieces = .ok goal := by
  have hinside : (FilePath.inside ⟨.root, []⟩ p).pieces = p.pieces := by
    unfold FilePath.inside
    split <;> rfl
  unfold FileSystem.locate FileSystem.locateFrom
  rw [hinside]
  cases p.refusal? <;> simp

theorem locate_of_directories
    (hdirs : ∀ place, fs.entry place = some .directory → fs'.entry place = some .directory)
    {p : FilePath} (h : fs.locate p = .ok goal) : fs'.locate p = .ok goal := by
  obtain ⟨hp, hw⟩ := locate_eq_ok_iff.mp h
  exact locate_eq_ok_iff.mpr ⟨hp, walk_of_directories hdirs hw⟩

/-- Paths that are written with the same names do not lead to different places. -/
theorem place_eq_of_same {p q : FilePath} (h : p.same q = true) {place : Place}
    (hp : fs.locate p = .ok goal) (hq : fs.locate q = .ok place) : goal = place := by
  have hp' := walk_names (locate_eq_ok_iff.mp hp).2
  have hq' := walk_names (locate_eq_ok_iff.mp hq).2
  have hnames : (p.pieces.filter fun piece => !isIdle piece) =
      q.pieces.filter fun piece => !isIdle piece := (FilePath.same_iff.mp h).2
  rw [hnames] at hp'
  exact Except.ok.inj (hp'.symm.trans hq')

end Walk

section Grown

variable {fs fs' : FileSystem}

theorem grown_refl (fs : FileSystem) : Grown fs fs :=
  fun _ => .inl rfl

theorem grown_trans {fs'' : FileSystem} (h : Grown fs fs') (h' : Grown fs' fs'') :
    Grown fs fs'' := by
  intro place
  rcases h' place with hkept | ⟨hnone, hadded⟩
  · rw [hkept]
    exact h place
  · rcases h place with hkept | ⟨hnone', _⟩
    · exact .inr ⟨hkept ▸ hnone, hadded⟩
    · exact .inr ⟨hnone', hadded⟩

theorem grown_set {place : Place} (h : fs.entry place = none) {content : ByteArray}
    (hc : SetsNothing content) : Grown fs (fs.set place (some (.file content))) := by
  intro other
  by_cases hother : other = place
  · subst hother
    exact .inr ⟨h, content, entry_set_self other _, hc⟩
  · exact .inl (entry_set_of_ne hother _)

variable (h : Grown fs fs')
include h

theorem entry_of_grown {place : Place} {held : FileEntry} (he : fs.entry place = some held) :
    fs'.entry place = some held := by
  rcases h place with hkept | ⟨hnone, _⟩
  · rw [hkept, he]
  · cases he.symm.trans hnone

theorem directory_of_grown {place : Place} (he : fs'.entry place = some .directory) :
    fs.entry place = some .directory := by
  rcases h place with hkept | ⟨_, _, hfile, _⟩
  · rw [← hkept, he]
  · cases he.symm.trans hfile

theorem locate_iff_of_grown {p : FilePath} {place : Place} :
    fs'.locate p = .ok place ↔ fs.locate p = .ok place :=
  ⟨locate_of_directories fun _ => directory_of_grown h,
    locate_of_directories fun _ => entry_of_grown h⟩

theorem content_of_grown {p : FilePath} (hf : fs.isFile p = true) :
    fs'.content? p = fs.content? p := by
  rw [isFile_eq_isSome] at hf
  obtain ⟨content, hc⟩ := Option.isSome_iff_exists.mp hf
  obtain ⟨place, hl, he⟩ := place_of_content hc
  rw [hc, FileSystem.content?, FileSystem.find?, (locate_iff_of_grown h).mpr hl]
  simp only [entry_of_grown h he]

theorem isFile_of_grown {p : FilePath} (hf : fs.isFile p = true) : fs'.isFile p = true := by
  rw [isFile_eq_isSome, content_of_grown h hf, ← isFile_eq_isSome, hf]

theorem read_of_grown {p : FilePath} (hf : fs.isFile p = true) :
    ConfigFile.read fs' p = ConfigFile.read fs p :=
  read_congr (content_of_grown h hf) (isFile_of_grown h hf)

/-- A file that is new sets nothing. -/
theorem read_of_new {p : FilePath} (hf : fs.isFile p = false) (hf' : fs'.isFile p = true) :
    ConfigFile.read fs' p = .ok ⟨p, {}⟩ := by
  rw [isFile_eq_isSome] at hf'
  obtain ⟨content, hc⟩ := Option.isSome_iff_exists.mp hf'
  obtain ⟨place, hl, he⟩ := place_of_content hc
  have hnew : fs.entry place ≠ some (.file content) := by
    intro hold
    have hfind : fs.find? p = some (.file content) := by
      rw [FileSystem.find?, (locate_iff_of_grown h).mp hl]
      exact hold
    simp [FileSystem.isFile, hfind] at hf
  rcases h place with hkept | ⟨_, content', hfile, text, htext, hparse⟩
  · exact absurd (hkept.symm.trans he) hnew
  · cases he.symm.trans hfile
    have hread : fs'.read p = .ok text := by rw [read_of_content hc, textOfBytes, htext]
    simp only [ConfigFile.read, hread, hparse]

theorem isRoot_of_grown {p : FilePath} (hf : fs.isFile p = true) : isRoot fs' p = isRoot fs p := by
  unfold isRoot
  rw [read_of_grown h hf]

/-- Where a path leads to a file, the paths with the same names lead to no file that is new. -/
theorem isFile_of_same {p q : FilePath} (hs : p.same q = true) (hp : fs.isFile p = true)
    (hq : fs'.isFile q = true) : fs.isFile q = true := by
  rw [isFile_eq_isSome] at hp hq
  obtain ⟨content, hc⟩ := Option.isSome_iff_exists.mp hp
  obtain ⟨content', hc'⟩ := Option.isSome_iff_exists.mp hq
  obtain ⟨place, hl, he⟩ := place_of_content hc
  obtain ⟨place', hl', _⟩ := place_of_content hc'
  have hl' := (locate_iff_of_grown h).mp hl'
  obtain rfl := place_eq_of_same hs hl hl'
  rw [FileSystem.isFile, FileSystem.find?, hl']
  simp only [he]

/-- The files among directories are those that were among them before and new ones, which do not end
the search. -/
theorem filesAmong_of_grown (dirs : List FilePath) :
    (filesAmong fs' dirs).1.filter fs.isFile = (filesAmong fs dirs).1 ∧
      (filesAmong fs' dirs).2 = (filesAmong fs dirs).2 := by
  induction dirs with
  | nil => exact ⟨rfl, rfl⟩
  | cons dir rest ih =>
    obtain ⟨ihfiles, ihroot⟩ := ih
    rw [filesAmong, filesAmong]
    cases hf : fs.isFile (dir.join configName) with
    | true =>
      rw [isFile_of_grown h hf, isRoot_of_grown h hf]
      cases isRoot fs (dir.join configName) with
      | true => exact ⟨by simp [hf], rfl⟩
      | false => exact ⟨by simp [hf, ihfiles], ihroot⟩
    | false =>
      cases hf' : fs'.isFile (dir.join configName) with
      | false => exact ⟨ihfiles, ihroot⟩
      | true =>
        have hroot : isRoot fs' (dir.join configName) = false := by
          simp [isRoot, read_of_new h hf hf']
        rw [hroot]
        exact ⟨by simp [hf, ihfiles], ihroot⟩

theorem localFiles_of_grown (cwd : FilePath) :
    (localFiles fs' cwd).filter fs.isFile = localFiles fs cwd :=
  (filesAmong_of_grown h cwd.ancestors).1

/-- Whether one of the local files is written as a file that was there before stays the same. -/
theorem any_same_of_grown {p : FilePath} (hp : fs.isFile p = true) (cwd : FilePath) :
    (localFiles fs' cwd).any p.same =
      (localFiles fs cwd).any p.same := by
  rw [Bool.eq_iff_iff, List.any_eq_true, List.any_eq_true]
  constructor
  · rintro ⟨q, hq, hs⟩
    have hq' := isFile_of_same h hs hp (mem_filesAmong hq).1
    exact ⟨q, localFiles_of_grown h cwd ▸ List.mem_filter.mpr ⟨hq, hq'⟩, hs⟩
  · rintro ⟨q, hq, hs⟩
    rw [← localFiles_of_grown h cwd] at hq
    exact ⟨q, (List.mem_filter.mp hq).1, hs⟩

theorem globalFile?_of_grown (home : Option FilePath) (cwd : FilePath) :
    (globalFile? fs' home cwd).filter fs.isFile = globalFile? fs home cwd := by
  unfold globalFile?
  rw [(filesAmong_of_grown h cwd.ancestors).2]
  split
  · rfl
  · cases globalPath? home with
    | none => rfl
    | some p =>
      cases hf : fs.isFile p with
      | false => simp [Option.filter_some, hf]
      | true =>
        simp only [Option.filter_some, hf, isFile_of_grown h hf, any_same_of_grown h hf,
          Bool.true_and]
        split
        · rw [Option.filter_some, if_pos hf]
        · rfl

/-- The files that count for a directory are those that counted before and new ones. -/
theorem discover_of_grown (home : Option FilePath) (cwd : FilePath) :
    (discover fs' home cwd).filter fs.isFile = discover fs home cwd := by
  unfold discover
  rw [List.filter_append, localFiles_of_grown h, ← globalFile?_of_grown h home cwd]
  cases hglobal : globalFile? fs' home cwd with
  | none => rfl
  | some p => cases hf : fs.isFile p <;> simp [Option.filter_some, hf]

end Grown

section Loaded

/-- The sections that files amount to are those of the first one put over those of the others. -/
theorem sections_loadFiles_cons (fs : FileSystem) (p : FilePath) (others : List FilePath) :
    (Config.loadFiles fs (p :: others)).map Config.sections = (do
      let file ← ConfigFile.read fs p
      let sections ← (Config.loadFiles fs others).map Config.sections
      return file.raw.applyTo sections) := by
  unfold Config.loadFiles
  rw [List.mapM_cons]
  cases ConfigFile.read fs p with
  | error e => rfl
  | ok file => cases others.mapM (ConfigFile.read fs) <;> rfl

/-- Files that set nothing may be left out. -/
theorem sections_loadFiles_filter {fs fs' : FileSystem} {keep : FilePath → Bool}
    {files : List FilePath}
    (hkept : ∀ p ∈ files, keep p = true → ConfigFile.read fs' p = ConfigFile.read fs p)
    (hleft : ∀ p ∈ files, keep p = false → ConfigFile.read fs' p = .ok ⟨p, {}⟩) :
    (Config.loadFiles fs' files).map Config.sections =
      (Config.loadFiles fs (files.filter keep)).map Config.sections := by
  induction files with
  | nil => rfl
  | cons p others ih =>
    rw [List.forall_mem_cons] at hkept hleft
    rw [sections_loadFiles_cons, ih hkept.2 hleft.2]
    cases hk : keep p with
    | true => rw [List.filter_cons_of_pos hk, sections_loadFiles_cons, hkept.1 hk]
    | false =>
      rw [List.filter_cons_of_neg (by simp [hk]), hleft.1 hk]
      cases (Config.loadFiles fs (others.filter keep)).map Config.sections <;> rfl

/-- What is loaded for a directory, or the error, does not change by files that set nothing. -/
theorem load_of_grown {fs fs' : FileSystem} (h : Grown fs fs') (home : Option FilePath)
    (cwd : FilePath) :
    (Config.load fs' home cwd).map Config.sections =
      (Config.load fs home cwd).map Config.sections := by
  unfold Config.load
  rw [← discover_of_grown h home cwd]
  exact sections_loadFiles_filter (fun _ _ hf => read_of_grown h hf)
    fun p hp hf => read_of_new h hf (isFile_of_mem_discover hp)

end Loaded

end SearchCompiler
