import SearchCompiler.Command.Line
import SearchCompiler.Proofs.Stages

/-!
A switch added to a command line. What a word says does not depend on the switches before it, unless
it is one of them again. So a line that does not have a switch may be given it after the name of the
command, and asks for the same with that switch turned on.
-/

namespace SearchCompiler

namespace Scan

/-- A scan with a switch before those it has. -/
def withSwitch (w : Switch) (s : Scan) : Scan :=
  { s with switches := w :: s.switches }

/-- A step of reading that keeps the switches and does the same after one more switch, if it does
not take that switch itself. -/
def Passes (w : Switch) (step : Scan → Except UsageFault Scan) : Prop :=
  ∀ s t, step s = .ok t → w ∉ t.switches →
    w ∉ s.switches ∧ step (s.withSwitch w) = .ok (t.withSwitch w)

section Steps

variable {w : Switch}

theorem passes_bind {first second : Scan → Except UsageFault Scan} (hf : Passes w first)
    (hs : Passes w second) : Passes w fun s => first s >>= second := by
  intro s t h hw
  obtain ⟨m, hm, ht⟩ := bind_eq_ok_iff.mp h
  obtain ⟨hwm, hsecond⟩ := hs m t ht hw
  obtain ⟨hws, hfirst⟩ := hf s m hm hwm
  exact ⟨hws, bind_eq_ok_iff.mpr ⟨_, hfirst, hsecond⟩⟩

theorem passes_record (p : Parameter) (value : String) : Passes w fun s => s.record p value := by
  intro s t h hw
  cases p with
  | options =>
    simp only [record] at h ⊢
    have hinline : (s.withSwitch w).hasInline = s.hasInline := rfl
    rw [hinline]
    split at h
    · cases h
    · next hnew =>
      cases h
      exact ⟨hw, if_neg hnew⟩
  | optionsFile =>
    simp only [record] at h ⊢
    have hfile : (s.withSwitch w).hasFile = s.hasFile := rfl
    rw [hfile]
    split at h
    · cases h
    · next hnew =>
      split at h
      · cases h
      · next hvalue =>
        cases h
        exact ⟨hw, by rw [if_neg hnew, if_neg hvalue]; rfl⟩
  | aggregation =>
    simp only [record] at h ⊢
    split at h
    · cases h
    · cases h
      exact ⟨hw, rfl⟩

theorem passes_settle : Passes w settle := by
  intro s t h hw
  have hpending : (s.withSwitch w).pending = s.pending := rfl
  unfold settle at h ⊢
  rw [hpending]
  split at h
  · cases h
    exact ⟨hw, rfl⟩
  · cases h
  · next p value _ => exact passes_record p value { s with pending := none } t h hw

theorem passes_turnOn (x : Switch) : Passes w fun s => s.turnOn x := by
  refine passes_bind passes_settle fun s t h hw => ?_
  split at h
  · cases h
  · next hhelp =>
    split at h
    · cases h
    · next hnew =>
      cases h
      simp only [List.mem_append, List.mem_singleton, not_or] at hw
      -- The step takes another switch, and that one is new after `w` if it was new before.
      have hnew' : ¬ (x ≠ .verbose ∧ x ∈ (s.withSwitch w).switches) := by
        simpa [withSwitch, Ne.symm hw.2] using hnew
      exact ⟨hw.1, by rw [if_neg hhelp, if_neg hnew']; rfl⟩

theorem passes_begin (p : Parameter) (value : Option String) :
    Passes w fun s => s.begin p value := by
  refine passes_bind passes_settle fun s t h hw => ?_
  cases value with
  | some value => exact passes_record p value s t h hw
  | none =>
    cases h
    exact ⟨hw, rfl⟩

theorem passes_takeLong (g : Grammar) (name : String) (value : Option String) :
    Passes w fun s => s.takeLong g name value := by
  intro s t h hw
  simp only [takeLong] at h ⊢
  split at h
  · cases h
  · next p _ => exact passes_begin p value s t h hw
  · next x _ =>
    cases value with
    | some value => cases h
    | none => exact passes_turnOn x s t h hw

theorem passes_takeLetters (g : Grammar) (letters : List Char) :
    Passes w fun s => s.takeLetters g letters := by
  induction letters with
  | nil =>
    intro s t h hw
    cases h
    exact ⟨hw, rfl⟩
  | cons letter rest ih =>
    intro s t h hw
    simp only [takeLetters] at h ⊢
    split at h
    · cases h
    · next x _ => exact passes_bind (passes_turnOn x) ih s t h hw
    · next p _ =>
      split at h
      · exact passes_begin p none s t h hw
      · exact passes_begin p _ s t h hw
      · exact passes_begin p _ s t h hw

theorem passes_takeText (g : Grammar) (text : String) : Passes w fun s => s.takeText g text := by
  intro s t h hw
  simp only [takeText] at h ⊢
  have htext : (s.withSwitch w).text = s.text := rfl
  rw [htext]
  split at h
  · next hfirst =>
    rw [if_pos hfirst]
    refine passes_bind passes_settle (fun m t hm hwm => ?_) s t h hw
    cases hm
    exact ⟨hwm, rfl⟩
  · cases h

theorem passes_take (g : Grammar) (text : String) : Passes w fun s => s.take g text := by
  intro s t h hw
  simp only [take] at h ⊢
  have hstopped : (s.withSwitch w).stopped = s.stopped := rfl
  have hpending : (s.withSwitch w).pending = s.pending := rfl
  rw [hstopped, hpending]
  split at h
  · next hs =>
    rw [if_pos hs]
    exact passes_takeText g text s t h hw
  · next hs =>
    rw [if_neg hs]
    split at h
    · cases h
      exact ⟨hw, rfl⟩
    · exact passes_takeLong g _ _ s t h hw
    · exact passes_takeLetters g _ s t h hw
    · split at h
      · cases h
        exact ⟨hw, rfl⟩
      · exact passes_takeText g text s t h hw

theorem passes_words (g : Grammar) (words : List String) :
    Passes w fun s => words.foldlM (take g) s := by
  induction words with
  | nil =>
    intro s t h hw
    cases h
    exact ⟨hw, rfl⟩
  | cons word rest ih => exact passes_bind (passes_take g word) ih

end Steps

/-- A line may be given a switch that it does not have before its first word. -/
theorem ofWords_cons_switch {g : Grammar} {w : Switch} {word : String}
    (hword : ({} : Scan).take g word = .ok (({} : Scan).withSwitch w)) {words : List String}
    {s : Scan} (h : ofWords g words = .ok s) (hw : w ∉ s.switches) :
    ofWords g (word :: words) = .ok (s.withSwitch w) := by
  have hread := passes_bind (passes_words g words) passes_settle {} s h hw
  rw [ofWords, List.foldlM_cons, hword]
  exact hread.2

end Scan

namespace Invocation

theorem text_of_ofText? {word : String} {name : CommandName}
    (h : CommandName.ofText? word = some name) : name.text = word := by
  simpa using List.find?_some h

/-- A line that asks for compiling names the command, and what comes after the name is read by
itself. -/
theorem exists_name_of_compile {before : Scan} {words : List String} {verbosity : Nat}
    {r : CompileRequest} (h : fromOptions before words = .ok ⟨verbosity, .compile r⟩) :
    ∃ front rest leading, words = front ++ "compile" :: rest ∧
      ∀ later, fromOptions before (front ++ "compile" :: later) =
        afterName leading .compile later := by
  induction words generalizing before with
  | nil => cases h
  | cons word words ih =>
    rw [fromOptions] at h
    split at h
    · cases h
    · next hstopped =>
      split at h
      · cases h
      · next hhelp =>
        split at h
        · next name hname =>
          obtain ⟨after, _, hafter⟩ := bind_eq_ok_iff.mp h
          obtain ⟨command, hcommand, hinvocation⟩ := bind_eq_ok_iff.mp hafter
          cases hinvocation
          cases name with
          | compile =>
            obtain rfl := text_of_ofText? hname
            refine ⟨[], words, before, rfl, fun later => ?_⟩
            rw [List.nil_append, fromOptions, if_neg hstopped, if_neg (by decide)]
            rfl
          | init => cases hcommand
          | config => cases hcommand
          | status => cases hcommand
        · next hname =>
          split at h
          · cases h
          · next hplain =>
            obtain ⟨next, hnext, hrest⟩ := bind_eq_ok_iff.mp h
            obtain ⟨front, rest, leading, rfl, hfront⟩ := ih hrest
            refine ⟨word :: front, rest, leading, rfl, fun later => ?_⟩
            rw [List.cons_append, fromOptions, if_neg hstopped, if_neg hhelp]
            simp only [hname, hnext]
            exact hfront later

/-- A line that asks for compiling without an explanation may be given `--explain` after the name of
the command, and then asks for the same with one. -/
theorem exists_explain {words : List String} {verbosity : Nat} {r : CompileRequest}
    (h : ofWords words = .ok ⟨verbosity, .compile r⟩) (hr : r.explain = false) :
    ∃ front rest, words = front ++ "compile" :: rest ∧
      ofWords (front ++ "compile" :: "--explain" :: rest) =
        .ok ⟨verbosity, .compile { r with explain := true }⟩ := by
  obtain ⟨front, rest, leading, rfl, hlater⟩ := exists_name_of_compile h
  refine ⟨front, rest, rfl, ?_⟩
  rw [ofWords, hlater] at h
  rw [ofWords, hlater]
  obtain ⟨after, hread, h⟩ := bind_eq_ok_iff.mp h
  obtain ⟨command, hcommand, h⟩ := bind_eq_ok_iff.mp h
  obtain ⟨source, hsource, hcommand⟩ := bind_eq_ok_iff.mp hcommand
  cases hcommand
  cases h
  have hnew : Switch.explain ∉ after.switches := by simpa using hr
  have hword : ({} : Scan).take CommandName.compile.grammar "--explain" =
      .ok (({} : Scan).withSwitch .explain) := by cbv
  have hread' := Scan.ofWords_cons_switch hword hread hnew
  have hverbosity : (after.withSwitch .explain).verbosity = after.verbosity := by
    simp [Scan.verbosity, Scan.withSwitch]
  have hsource' : (after.withSwitch .explain).source = .ok source := hsource
  have hcommand : (after.withSwitch .explain).command .compile = .ok (.compile
      { text := after.text.getD ""
        source
        aggregations := after.aggregations
        output := { json := after.switches.contains .json
                    noColor := after.switches.contains .noColor }
        explain := true }) := by
    rw [Scan.command, hsource']
    simp [Scan.withSwitch, pure, Except.pure, bind, Except.bind]
  rw [afterName, hread']
  simp only [hverbosity, hcommand, pure, Except.pure, bind, Except.bind]

end Invocation

end SearchCompiler
