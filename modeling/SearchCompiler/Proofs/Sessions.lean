import Mathlib
import SearchCompiler.Command.Run
import SearchCompiler.Proofs.CommentedOut
import SearchCompiler.Proofs.GrownFiles

/-!
Sessions: runs of the program one after another, each on the files that the runs before it left.
Only a successful request for a new configuration file changes files, and it changes one file, which
then holds a template. As long as no run is forced to replace a file, what was there before a
session is there after it, and the same configuration is loaded for every directory.
-/

namespace SearchCompiler

/-- The path that a request for a new configuration file is about, and the template for the file.
They are those of the user if that is asked for or if the run is in the home directory. -/
inductive InitRequest.Targets (w : World) (r : InitRequest) : FilePath → String → Prop
  | user {house : FilePath} : w.home = some house →
    r.userWide = true ∨ house.same w.cwd = true →
    Targets w r (house.join configName) globalTemplate
  | project : r.userWide = false → (∀ house ∈ w.home, house.same w.cwd = false) →
    Targets w r (w.cwd.join configName) localTemplate

/-- One run of a session: its command line, and what it sees besides the files. -/
structure Call where
  words : List String
  home : Option FilePath
  cwd : FilePath
  input : ByteArray := .empty
  terminal : Bool := false

namespace Call

def world (call : Call) (files : FileSystem) : World where
  files
  home := call.home
  cwd := call.cwd
  input := call.input
  terminal := call.terminal

def run (call : Call) (files : FileSystem) : Outcome :=
  (call.world files).run call.words

/-- The command line asks for a new configuration file. -/
def Asks (call : Call) (r : InitRequest) : Prop :=
  ∃ verbosity, Invocation.ofWords call.words = .ok ⟨verbosity, .init r⟩

/-- The command line asks for a new configuration file even where there is one. -/
def Forces (call : Call) : Prop :=
  ∃ r, call.Asks r ∧ r.force = true

/-- What a run may do to the files it finds. -/
structure Harmless (call : Call) (files : FileSystem) : Prop where
  unasked : (¬ ∃ r, call.Asks r) → (call.run files).files = files
  failed : (call.run files).status ≠ .success → (call.run files).files = files
  created : ∀ r, call.Asks r → (call.run files).status = .success →
    ∃ path text place, r.Targets (call.world files) path text ∧ files.locate path = .ok place ∧
      (call.run files).files.read path = .ok text ∧
      ∀ other, other ≠ place → (call.run files).files.entry other = files.entry other

end Call

/-- The files after a session. -/
def filesAfter (files : FileSystem) (calls : List Call) : FileSystem :=
  calls.foldl (fun files call => (call.run files).files) files

section Write

variable {fs fs' : FileSystem}

theorem write_eq_ok_iff {p : FilePath} {text : String} :
    fs.write p text = .ok fs' ↔ ∃ place, fs.locate p = .ok place ∧
      fs.entry place ≠ some .directory ∧ fs' = fs.set place (some (.file text.toUTF8)) := by
  unfold FileSystem.write
  rw [bind_eq_ok_iff]
  refine exists_congr fun place => and_congr_right fun _ => ?_
  split
  · next hd => simp [hd]
  · next hd =>
    rw [Except.ok.injEq, eq_comm]
    exact ⟨fun hfiles => ⟨fun he => hd he, hfiles⟩, And.right⟩

/-- A file that is written is read as it was written. -/
theorem read_set {p : FilePath} {place : Place} (hl : fs.locate p = .ok place)
    (hd : fs.entry place ≠ some .directory) (text : String) :
    (fs.set place (some (.file text.toUTF8))).read p = .ok text := by
  have hl' : (fs.set place (some (.file text.toUTF8))).locate p = .ok place := by
    refine locate_of_directories (fun other he => ?_) hl
    have hne : other ≠ place := by
      rintro rfl
      exact hd he
    rw [entry_set_of_ne hne, he]
  have hc : (fs.set place (some (.file text.toUTF8))).content? p = some text.toUTF8 := by
    rw [FileSystem.content?, FileSystem.find?, hl']
    simp only [entry_set_self]
  rw [read_of_content hc, textOfBytes, fromUTF8?_toUTF8]

end Write

section Init

variable {w : World} {r : InitRequest}

theorem isGlobal_iff_home : r.isGlobal w = true ↔
    r.userWide = true ∨ ∃ house, w.home = some house ∧ house.same w.cwd = true := by
  have hparent (house : FilePath) :
      ((house.join configName).parent?.any w.cwd.same) = house.same w.cwd := by
    obtain ⟨q, hq, hs⟩ := FilePath.exists_parent?_join configName_not_idle house
    rw [hq, Option.any_some, FilePath.same_comm, Bool.eq_iff_iff]
    constructor
    · intro h
      rw [FilePath.same_comm] at hs
      exact FilePath.same_trans hs h
    · exact FilePath.same_trans hs
  rw [InitRequest.isGlobal, Bool.or_eq_true]
  cases w.home with
  | none => simp [globalPath?]
  | some house => simp [globalPath?, hparent]

theorem targets_of_target? {path : FilePath} (h : r.target? w = some path) :
    r.Targets w path (r.content w) := by
  unfold InitRequest.target? at h
  unfold InitRequest.content
  split at h
  · next hglobal =>
    obtain ⟨house, hhome, rfl⟩ := Option.map_eq_some_iff.mp h
    rw [if_pos hglobal]
    refine .user hhome ?_
    rcases isGlobal_iff_home.mp hglobal with hwide | ⟨house', hhome', hsame⟩
    · exact .inl hwide
    · cases hhome.symm.trans hhome'
      exact .inr hsame
  · next hlocal =>
    cases h
    rw [if_neg hlocal]
    rw [isGlobal_iff_home, not_or] at hlocal
    refine .project (by simpa using hlocal.1) fun house hhome => ?_
    cases hsame : house.same w.cwd with
    | false => rfl
    | true => exact absurd ⟨house, hhome, hsame⟩ hlocal.2

theorem written_eq_ok {path : FilePath} {files : FileSystem} (h : r.written w = .ok (path, files)) :
    r.target? w = some path ∧ (r.force = false → w.files.holds path = false) ∧
      w.files.write path (r.content w) = .ok files := by
  unfold InitRequest.written at h
  split at h
  · cases h
  · next target htarget =>
    split at h
    · cases h
    · next hfree =>
      split at h
      · cases h
      · next hwrite =>
        cases h
        exact ⟨htarget, fun hforce => by simpa [hforce] using hfree, hwrite⟩

theorem entry_of_holds {p : FilePath} {place : Place} (hl : w.files.locate p = .ok place)
    (h : w.files.holds p = false) : w.files.entry place = none := by
  rw [FileSystem.holds, FileSystem.find?, hl] at h
  simpa using h

/-- Everything that a request for a new file does: it fails and changes nothing, or it writes the
template to its target. Without force the target was free. -/
theorem run_init_cases (w : World) (r : InitRequest) :
    ((r.run w).status = .failure ∧ (r.run w).files = w.files) ∨
    ((r.run w).status = .success ∧ ∃ path text place, r.Targets w path text ∧
      w.files.locate path = .ok place ∧ w.files.entry place ≠ some .directory ∧
      (r.force = false → w.files.entry place = none) ∧
      (r.run w).files = w.files.set place (some (.file text.toUTF8))) := by
  unfold InitRequest.run
  split
  · exact .inl ⟨rfl, rfl⟩
  · next path files hwritten =>
    obtain ⟨htarget, hfree, hwrite⟩ := written_eq_ok hwritten
    obtain ⟨place, hl, hd, hfiles⟩ := write_eq_ok_iff.mp hwrite
    exact .inr ⟨rfl, path, r.content w, place, targets_of_target? htarget, hl, hd,
      fun hforce => entry_of_holds hl (hfree hforce), hfiles⟩

/-- A request whose target is a free place in a directory succeeds. -/
theorem success_of_free {path : FilePath} {place : Place} (htarget : r.target? w = some path)
    (hl : w.files.locate path = .ok place) (he : w.files.entry place = none) :
    (r.run w).status = .success := by
  have hfree : w.files.holds path = false := by
    rw [FileSystem.holds, FileSystem.find?, hl]
    simp [he]
  have hwrite : w.files.write path (r.content w) =
      .ok (w.files.set place (some (.file (r.content w).toUTF8))) :=
    write_eq_ok_iff.mpr ⟨place, hl, by simp [he], rfl⟩
  have hwritten : r.written w =
      .ok (path, w.files.set place (some (.file (r.content w).toUTF8))) := by
    simp only [InitRequest.written, htarget, hfree, hwrite, Bool.false_and, Bool.false_eq_true,
      if_false]
  rw [InitRequest.run, hwritten]

theorem setsNothing_of_targets {path : FilePath} {text : String} (h : r.Targets w path text) :
    SetsNothing text.toUTF8 := by
  cases h with
  | user => exact setsNothing_of_parse parse_globalTemplate
  | project => exact setsNothing_of_parse parse_localTemplate

end Init

section Run

variable {w : World} {words : List String}

theorem files_finish (w : World) (result : Except CommandError String) :
    (w.finish result).files = w.files := by
  cases result <;> rfl

theorem files_misused (w : World) (fault : UsageFault) : (w.misused fault).files = w.files := by
  unfold World.misused
  split <;> rfl

theorem files_configured {use : Config → Outcome} (h : ∀ c, (use c).files = w.files)
    (verbosity : Nat) : (w.configured verbosity use).files = w.files := by
  unfold World.configured
  cases Config.load w.files w.home w.cwd with
  | error e => rfl
  | ok c => exact h c

theorem run_of_ofWords {verbosity : Nat} {command : Command}
    (h : Invocation.ofWords words = .ok ⟨verbosity, command⟩) :
    w.run words = command.run w verbosity := by
  rw [World.run, h]

/-- A run that is not for a new file leaves all files as they are. -/
theorem files_run_of_not_init
    (h : ∀ verbosity r, Invocation.ofWords words ≠ .ok ⟨verbosity, .init r⟩) :
    (w.run words).files = w.files := by
  cases hwords : Invocation.ofWords words with
  | error fault =>
    rw [World.run, hwords]
    exact files_misused w fault
  | ok invocation =>
    obtain ⟨verbosity, command⟩ := invocation
    rw [run_of_ofWords hwords]
    cases command with
    | compile r =>
      refine files_configured (fun c => ?_) verbosity
      exact files_finish w (r.result w c)
    | init r => exact absurd hwords (h verbosity r)
    | config => exact files_configured (fun c => files_finish w (.ok (c.printed w))) verbosity
    | status => exact files_configured (fun _ => rfl) verbosity

end Run

section Calls

variable {call : Call} {files : FileSystem}

theorem run_of_asks {r : InitRequest} (h : call.Asks r) :
    call.run files = r.run (call.world files) := by
  obtain ⟨_, h⟩ := h
  exact run_of_ofWords h

theorem files_run_of_not_asks (h : ¬ ∃ r, call.Asks r) : (call.run files).files = files :=
  files_run_of_not_init fun verbosity r hwords => h ⟨r, verbosity, hwords⟩

theorem harmless_call (call : Call) (files : FileSystem) : call.Harmless files where
  unasked := files_run_of_not_asks
  failed hfailed := by
    by_cases h : ∃ r, call.Asks r
    · obtain ⟨r, hr⟩ := h
      rw [run_of_asks hr] at hfailed ⊢
      rcases run_init_cases (call.world files) r with ⟨_, hfiles⟩ | ⟨hstatus, _⟩
      · exact hfiles
      · exact absurd hstatus hfailed
    · exact files_run_of_not_asks h
  created r hr hsuccess := by
    rw [run_of_asks hr] at hsuccess ⊢
    rcases run_init_cases (call.world files) r with
      ⟨hstatus, _⟩ | ⟨_, path, text, place, htarget, hl, hd, _, hfiles⟩
    · cases hstatus.symm.trans hsuccess
    · refine ⟨path, text, place, htarget, hl, ?_, fun other hother => ?_⟩
      · rw [hfiles]
        exact read_set hl hd text
      · rw [hfiles]
        exact entry_set_of_ne hother _

/-- A run that is not forced adds at most a file that sets nothing. -/
theorem grown_call (h : ¬ call.Forces) : Grown files (call.run files).files := by
  by_cases hasks : ∃ r, call.Asks r
  · obtain ⟨r, hr⟩ := hasks
    rw [run_of_asks hr]
    rcases run_init_cases (call.world files) r with
      ⟨_, hfiles⟩ | ⟨_, path, text, place, htarget, _, _, hfree, hfiles⟩
    · rw [hfiles]
      exact grown_refl files
    · have hforce : r.force = false := by
        cases hforce : r.force with
        | false => rfl
        | true => exact absurd ⟨r, hr, hforce⟩ h
      rw [hfiles]
      exact grown_set (hfree hforce) (setsNothing_of_targets htarget)
  · rw [files_run_of_not_asks hasks]
    exact grown_refl files

theorem grown_filesAfter {calls : List Call} (h : ∀ call ∈ calls, ¬ call.Forces) :
    Grown files (filesAfter files calls) := by
  induction calls generalizing files with
  | nil => exact grown_refl files
  | cons call calls ih =>
    rw [List.forall_mem_cons] at h
    exact grown_trans (grown_call h.1) (ih h.2)

/-- Every run of a session is harmless on the files that it finds. If none is forced, what was there
before the session is there after it, and the same sections are loaded for every directory, or the
same error. The templates that new files hold are commented out line by line. -/
theorem sessions_do_no_harm (files : FileSystem) (calls : List Call) :
    (∀ before call after, calls = before ++ call :: after →
      call.Harmless (filesAfter files before)) ∧
    ((∀ call ∈ calls, ¬ call.Forces) →
      (∀ place held, files.entry place = some held →
        (filesAfter files calls).entry place = some held) ∧
      ∀ home dir, (Config.load (filesAfter files calls) home dir).map Config.sections =
        (Config.load files home dir).map Config.sections) ∧
    List.Forall₂ CommentedLine (Text.lines projectTemplate) (Text.lines localTemplate) ∧
    List.Forall₂ CommentedLine (Text.lines userTemplate) (Text.lines globalTemplate) := by
  refine ⟨?harmless, ?unforced, commentedLines_localTemplate, commentedLines_globalTemplate⟩
  case harmless =>
    intro before call _ _
    exact harmless_call call (filesAfter files before)
  case unforced =>
    intro h
    have hgrown : Grown files (filesAfter files calls) := grown_filesAfter h
    exact ⟨fun _ _ => entry_of_grown hgrown, load_of_grown hgrown⟩

end Calls

theorem sessions_do_no_harm_work :
    let house : FilePath := ⟨.root, ["home"]⟩
    let work : FilePath := ⟨.root, ["work"]⟩
    let files := (FileSystem.empty.set ["work"] (some .directory)).set [".sift.toml"]
      (some (.file "output.color = false".toUTF8))
    let init : Call := { words := ["init"], home := some house, cwd := work }
    let initHome : Call := { words := ["init", "--global"], home := some house, cwd := work }
    let shown := [
      "# sift project configuration.",
      "#",
      "# Settings here override ~/.sift.toml. Uncomment what you need.",
      "",
      "# Stop looking for parent and global configs.",
      "# root = false",
      "",
      "# [compile]",
      "# Field matched when a query has no `on` option.",
      "# catch_all_field = \"_all\"",
      "# Modifier applied by `boost_by`: none, log, log1p, log2p, ln, ln1p, ln2p,",
      "# square, sqrt, reciprocal.",
      "# boost_modifier = \"ln2p\"",
      "# Score multiplier for documents matched by `boost_where`.",
      "# boost_factor = 1000",
      "# With several boost options: \"first-match\" applies boost_by, then",
      "# boost_function, then boost_where; \"reject\" refuses to compile.",
      "# boost_precedence = \"first-match\"",
      "",
      "# [output]",
      "# pretty = true",
      "# color = true"]
    (init.run files).files.read ⟨.root, ["work", ".sift.toml"]⟩ = .ok (textOfLines shown) ∧
      (initHome.run (filesAfter files [init])).files = filesAfter files [init] ∧
      (Config.load (filesAfter files [init, initHome]) (some house) work).map Config.sections =
        .ok ({}, { color := false }) := by
  intro house work files init initHome shown
  have htemplate : localTemplate = textOfLines shown :=
    (commentOut_textOfLines (by cbv)).trans (congrArg textOfLines (by decide +kernel))
  have hinit : init.Asks {} := ⟨0, by cbv⟩
  have hhome : initHome.Asks { userWide := true } := ⟨0, by cbv⟩
  have hforces : ∀ call ∈ [init, initHome], ¬ call.Forces := by
    have hunforced {call : Call} {r : InitRequest} (hr : call.Asks r) (hf : r.force = false) :
        ¬ call.Forces := by
      rintro ⟨r', ⟨_, hr'⟩, hforce⟩
      obtain ⟨_, hr⟩ := hr
      cases hr.symm.trans hr'
      cases hf.symm.trans hforce
    simp only [List.forall_mem_cons]
    exact ⟨hunforced hinit rfl, hunforced hhome rfl, List.forall_mem_nil _⟩
  obtain ⟨hruns, hunforced, _⟩ := sessions_do_no_harm files [init, initHome]
  obtain ⟨_, _, hcreated⟩ := hruns [] init [initHome] rfl
  obtain ⟨_, hfailed, hcreated'⟩ := hruns [init] initHome [] rfl
  refine ⟨?_, hfailed fun hsuccess => ?_, ?_⟩
  · have hlocate : files.locate (work.join configName) = .ok ["work", ".sift.toml"] := by cbv
    have hsuccess : (init.run files).status = .success := by
      rw [run_of_asks hinit]
      exact success_of_free rfl hlocate rfl
    obtain ⟨_, _, _, htarget, _, hread, _⟩ := hcreated {} hinit hsuccess
    cases htarget with
    | user hhouse hglobal =>
      cases hhouse
      rcases hglobal with hwide | hsame
      · cases hwide
      · exact absurd hsame (by decide)
    | project => exact hread.trans (congrArg _ htemplate)
  · obtain ⟨_, _, _, htarget, hlocate, _⟩ := hcreated' _ hhome hsuccess
    cases htarget with
    | user hhouse =>
      cases hhouse
      -- The directory was missing before the session, and the first run made none.
      have hmissing : files.locate (house.join configName) = .error .notFound := by cbv
      have hgrown : Grown files (filesAfter files [init]) :=
        grown_filesAfter (List.forall_mem_singleton.mpr (hforces init List.mem_cons_self))
      cases hmissing.symm.trans ((locate_iff_of_grown hgrown).mp hlocate)
    | project hwide => cases hwide
  · rw [(hunforced hforces).2]
    cbv

end SearchCompiler
