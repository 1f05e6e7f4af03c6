import Mathlib
import SearchCompiler.Command.Run
import SearchCompiler.Proofs.AddedSwitch

/-!
What a run that compiles prints. Either every stage gives a result, and then the whole document is
printed, after the explanation if one is asked for, or nothing is printed at all.
-/

namespace SearchCompiler

/-- The text that a source of options stands for: itself, standard input, or what a file holds. -/
inductive OptionsSource.Holds (w : World) : OptionsSource → String → Prop
  | inline (text : String) : Holds w (.inline text) text
  | input {path text : String} : (FilePath.ofText path).same (FilePath.ofText "-") = true →
    String.fromUTF8? w.input = some text → Holds w (.file path) text
  | file {path text : String} : (FilePath.ofText path).same (FilePath.ofText "-") = false →
    w.files.readFrom w.cwd (FilePath.ofText path) = .ok text → Holds w (.file path) text

namespace CompileRequest

/-- The value that the options of a request are written as. Without a source it is null. -/
inductive Gives (w : World) (r : CompileRequest) : Json.Value → Prop
  | absent : r.source = none → Gives w r .null
  | read {source : OptionsSource} {text : String} {v : Json.Value} : r.source = some source →
    source.Holds w text → Json.parse text = .ok v → Gives w r v

/-- Every stage of a request gives a result: the configuration loads, the options are read and
decoded, and the text compiles under them. -/
structure Succeeds (w : World) (r : CompileRequest) (c : Config) (o : SearchOptions)
    (q : QueryNode) : Prop where
  loads : Config.load w.files w.home w.cwd = .ok c
  decodes : ∃ v, r.Gives w v ∧ SearchOptions.decode v = .ok o
  compiles : o.compile c.compile r.text = .ok q

/-- The document of a request on lines of its own, without colour. -/
def plainText (c : Config) (r : CompileRequest) (q : QueryNode) : String :=
  let document :=
    match r.aggregations with
    | [] => q.toJson
    | aggregations => searchBody q.toJson aggregations
  (if r.output.json = true ∨ c.output.pretty = false then document.compact else document.pretty)
    ++ "\n"

end CompileRequest

section Stages

variable {w : World} {r : CompileRequest}

theorem exists_read_iff {source : OptionsSource} {text : String} :
    (∃ name, source.read w = .ok (name, text)) ↔ source.Holds w text := by
  cases source with
  | inline given =>
    constructor
    · rintro ⟨name, h⟩
      cases h
      exact .inline _
    · intro h
      cases h
      exact ⟨_, rfl⟩
  | file path =>
    simp only [OptionsSource.read]
    constructor
    · rintro ⟨name, h⟩
      split at h
      · next content hread =>
        cases h
        split at hread
        · next hinput =>
          split at hread
          · next text htext =>
            cases hread
            exact .input hinput htext
          · cases hread
        · next hfile => exact .file (by simpa using hfile) hread
      · cases h
    · intro h
      cases h with
      | input hinput htext => exact ⟨path, by rw [if_pos hinput, htext]⟩
      | file hfile hread => exact ⟨path, by rw [if_neg (by simp [hfile]), hread]⟩

theorem options_eq_ok_iff {o : SearchOptions} :
    r.options w = .ok o ↔ ∃ v, r.Gives w v ∧ SearchOptions.decode v = .ok o := by
  unfold CompileRequest.options
  cases hsource : r.source with
  | none =>
    have hnull : SearchOptions.decode .null = .ok .empty := by rw [SearchOptions.decode]
    simp only [bind_eq_ok_iff, Except.ok.injEq, exists_eq_left', hnull]
    constructor
    · rintro rfl
      exact ⟨.null, .absent hsource, hnull⟩
    · rintro ⟨v, _ | ⟨h, _, _⟩, hv⟩
      · exact Except.ok.inj (hnull.symm.trans hv)
      · cases hsource.symm.trans h
  | some source =>
    constructor
    · intro h
      obtain ⟨⟨name, text⟩, hread, h⟩ := bind_eq_ok_iff.mp h
      have hholds := exists_read_iff.mp ⟨name, hread⟩
      cases hparse : Json.parse text with
      | error fault =>
        simp only [hparse] at h
        cases h
      | ok v =>
        refine ⟨v, .read hsource hholds hparse, ?_⟩
        simp only [hparse, bind_eq_ok_iff, Except.ok.injEq, exists_eq_left'] at h
        cases hv : SearchOptions.decode v with
        | error e =>
          rw [hv] at h
          cases h
        | ok o' =>
          rw [hv] at h
          cases h
          rfl
    · rintro ⟨v, h | ⟨h, hholds, hparse⟩, hv⟩
      · cases hsource.symm.trans h
      · cases hsource.symm.trans h
        obtain ⟨name, hread⟩ := exists_read_iff.mpr hholds
        refine bind_eq_ok_iff.mpr ⟨_, hread, ?_⟩
        simp only [hparse]
        refine bind_eq_ok_iff.mpr ⟨v, rfl, ?_⟩
        rw [hv]

theorem query_eq_ok_iff {settings : Settings} {o : SearchOptions} {q : QueryNode} :
    r.query settings o = .ok q ↔ o.compile settings r.text = .ok q := by
  unfold CompileRequest.query
  split
  · next q' hq => rw [hq, Except.ok.injEq, Except.ok.injEq]
  · next e he => exact ⟨nofun, fun h => nomatch he.symm.trans h⟩

theorem result_eq_ok_iff {c : Config} {text : String} :
    r.result w c = .ok text ↔ ∃ o q, r.options w = .ok o ∧ r.query c.compile o = .ok q ∧
      text = (if r.explain then explanation o q else "") ++ r.printed w c q := by
  unfold CompileRequest.result
  simp only [bind_eq_ok_iff]
  constructor
  · rintro ⟨o, ho, q, hq, h⟩
    cases h
    exact ⟨o, q, ho, hq, rfl⟩
  · rintro ⟨o, q, ho, hq, rfl⟩
    exact ⟨o, ho, q, hq, rfl⟩

theorem printed_of_not_terminal (hw : w.terminal = false) (c : Config) (q : QueryNode) :
    r.printed w c q = r.plainText c q := by
  have hdocument : r.document q =
      match r.aggregations with
      | [] => q.toJson
      | aggregations => searchBody q.toJson aggregations := by
    unfold CompileRequest.document
    cases r.aggregations <;> rfl
  unfold CompileRequest.printed CompileRequest.plainText
  rw [hdocument, hw, Rendering.choose_of_no_terminal]
  cases hjson : r.output.json <;> cases hpretty : c.output.pretty <;> simp [Rendering.render]

theorem gives_explain_iff {explain : Bool} {v : Json.Value} :
    CompileRequest.Gives w { r with explain } v ↔ r.Gives w v := by
  constructor
  · rintro (h | ⟨h, hholds, hparse⟩)
    · exact .absent h
    · exact .read h hholds hparse
  · rintro (h | ⟨h, hholds, hparse⟩)
    · exact .absent h
    · exact .read h hholds hparse

/-- Whether a request succeeds does not depend on its explanation. -/
theorem succeeds_explain_iff {explain : Bool} {c : Config} {o : SearchOptions} {q : QueryNode} :
    CompileRequest.Succeeds w { r with explain } c o q ↔ r.Succeeds w c o q := by
  constructor
  · rintro ⟨hload, ⟨v, hv, ho⟩, hq⟩
    exact ⟨hload, ⟨v, gives_explain_iff.mp hv, ho⟩, hq⟩
  · rintro ⟨hload, ⟨v, hv, ho⟩, hq⟩
    exact ⟨hload, ⟨v, gives_explain_iff.mpr hv, ho⟩, hq⟩

theorem exists_result_iff {c : Config} (hc : Config.load w.files w.home w.cwd = .ok c) :
    (∃ text, r.result w c = .ok text) ↔ ∃ o q, r.Succeeds w c o q := by
  constructor
  · rintro ⟨text, h⟩
    obtain ⟨o, q, ho, hq, _⟩ := result_eq_ok_iff.mp h
    exact ⟨o, q, hc, options_eq_ok_iff.mp ho, query_eq_ok_iff.mp hq⟩
  · rintro ⟨o, q, h⟩
    exact ⟨_, result_eq_ok_iff.mpr
      ⟨o, q, options_eq_ok_iff.mpr h.decodes, query_eq_ok_iff.mpr h.compiles, rfl⟩⟩

theorem result_of_succeeds {c : Config} {o : SearchOptions} {q : QueryNode}
    (h : r.Succeeds w c o q) :
    r.result w c = .ok ((if r.explain then explanation o q else "") ++ r.printed w c q) :=
  result_eq_ok_iff.mpr
    ⟨o, q, options_eq_ok_iff.mpr h.decodes, query_eq_ok_iff.mpr h.compiles, rfl⟩

end Stages

section Runs

variable {w : World} {words : List String} {verbosity : Nat} {r : CompileRequest}

/-- A run that compiles ends in success and prints its result, or in failure and prints nothing. -/
theorem run_of_succeeds (h : Invocation.ofWords words = .ok ⟨verbosity, .compile r⟩) {c : Config}
    {o : SearchOptions} {q : QueryNode} (hs : r.Succeeds w c o q) :
    (w.run words).status = .success ∧
      (w.run words).output = (if r.explain then explanation o q else "") ++ r.printed w c q := by
  have hrun : w.run words = (Command.compile r).run w verbosity := by rw [World.run, h]
  rw [hrun, Command.run, World.configured, hs.loads]
  simp only [result_of_succeeds hs]
  exact ⟨rfl, rfl⟩

theorem run_of_not_succeeds (h : Invocation.ofWords words = .ok ⟨verbosity, .compile r⟩)
    (hs : ¬ ∃ c o q, r.Succeeds w c o q) :
    (w.run words).status = .failure ∧ (w.run words).output = "" := by
  have hrun : w.run words = (Command.compile r).run w verbosity := by rw [World.run, h]
  rw [hrun, Command.run, World.configured]
  cases hc : Config.load w.files w.home w.cwd with
  | error e => exact ⟨rfl, rfl⟩
  | ok c =>
    cases hresult : r.result w c with
    | error e =>
      simp only [hresult]
      exact ⟨rfl, rfl⟩
    | ok text =>
      obtain ⟨o, q, hoq⟩ := (exists_result_iff hc).mp ⟨text, hresult⟩
      exact absurd ⟨c, o, q, hoq⟩ hs

theorem status_eq_success_iff (h : Invocation.ofWords words = .ok ⟨verbosity, .compile r⟩) :
    (w.run words).status = .success ↔ ∃ c o q, r.Succeeds w c o q := by
  constructor
  · intro hsuccess
    by_cases hs : ∃ c o q, r.Succeeds w c o q
    · exact hs
    · cases (run_of_not_succeeds h hs).1.symm.trans hsuccess
  · rintro ⟨c, o, q, hs⟩
    exact (run_of_succeeds h hs).1

/-- A run that is no success prints nothing. -/
theorem output_of_failure (h : Invocation.ofWords words = .ok ⟨verbosity, .compile r⟩)
    (hfailed : (w.run words).status ≠ .success) : (w.run words).output = "" :=
  (run_of_not_succeeds h fun hs => hfailed ((status_eq_success_iff h).mpr hs)).2

/-- A success without an explanation prints the document. -/
theorem output_of_unexplained (h : Invocation.ofWords words = .ok ⟨verbosity, .compile r⟩)
    (hr : r.explain = false) {c : Config} {o : SearchOptions} {q : QueryNode}
    (hs : r.Succeeds w c o q) : (w.run words).output = r.printed w c q := by
  rw [(run_of_succeeds h hs).2, hr]
  exact String.empty_append

variable {words' : List String} {verbosity' : Nat}

/-- A success with an explanation prints it before what it prints without one. -/
theorem output_of_explained (h : Invocation.ofWords words = .ok ⟨verbosity, .compile r⟩)
    (h' : Invocation.ofWords words' = .ok ⟨verbosity', .compile { r with explain := true }⟩)
    (hr : r.explain = false) {c : Config} {o : SearchOptions} {q : QueryNode}
    (hs : r.Succeeds w c o q) :
    (w.run words').output = explanation o q ++ (w.run words).output := by
  rw [output_of_unexplained h hr hs, (run_of_succeeds h' (succeeds_explain_iff.mpr hs)).2]
  rfl

theorem status_of_explained (h : Invocation.ofWords words = .ok ⟨verbosity, .compile r⟩)
    (h' : Invocation.ofWords words' = .ok ⟨verbosity', .compile { r with explain := true }⟩) :
    (w.run words').status = (w.run words).status := by
  by_cases hs : ∃ c o q, r.Succeeds w c o q
  · obtain ⟨c, o, q, hs⟩ := hs
    rw [(run_of_succeeds h hs).1, (run_of_succeeds h' (succeeds_explain_iff.mpr hs)).1]
  · have hs' : ¬ ∃ c o q, CompileRequest.Succeeds w { r with explain := true } c o q :=
      fun ⟨c, o, q, hoq⟩ => hs ⟨c, o, q, succeeds_explain_iff.mp hoq⟩
    rw [(run_of_not_succeeds h hs).1, (run_of_not_succeeds h' hs').1]

/-- A run that compiles is a success exactly if every stage gives a result, and else prints nothing.
Where no explanation is asked for, a success prints the document, wrapped if there are aggregations,
and nothing else. The same may be asked for with an explanation, and then the run ends the same way
and prints the explanation before what it prints without one. -/
theorem document_or_nothing (h : Invocation.ofWords words = .ok ⟨verbosity, .compile r⟩) :
    ((w.run words).status = .success ↔ ∃ c o q, r.Succeeds w c o q) ∧
    ((w.run words).status ≠ .success → (w.run words).output = "") ∧
    (r.explain = false →
      (w.terminal = false → ∀ c o q, r.Succeeds w c o q →
        (w.run words).output = r.plainText c q) ∧
      (∃ front rest, words = front ++ "compile" :: rest ∧
        Invocation.ofWords (front ++ "compile" :: "--explain" :: rest) =
          .ok ⟨verbosity, .compile { r with explain := true }⟩) ∧
      ∀ words' verbosity',
        Invocation.ofWords words' = .ok ⟨verbosity', .compile { r with explain := true }⟩ →
        (w.run words').status = (w.run words).status ∧
          ∀ c o q, r.Succeeds w c o q →
            (w.run words').output = explanation o q ++ (w.run words).output) := by
  refine ⟨status_eq_success_iff h, output_of_failure h, fun hr =>
    ⟨fun hw c o q hs => ?_, Invocation.exists_explain h hr, fun words' verbosity' h' =>
      ⟨status_of_explained h h', fun c o q hs => output_of_explained h h' hr hs⟩⟩⟩
  rw [output_of_unexplained h hr hs, printed_of_not_terminal hw]

end Runs

/-- A run with options and an aggregation prints the document on several lines or, with the switch
for it, on one. With an explanation it prints that first. -/
theorem document_or_nothing_tea :
    let w : World := { files := .empty, home := none, cwd := ⟨.root, ["work"]⟩ }
    let options := "\x7b\"on\": \"name\"\x7d"
    let given := ["tea", "--options", options, "-a", "max:top:price"]
    let r : CompileRequest :=
      { text := "tea", source := some (.inline options)
        aggregations := [.ofField .max "top" "price"] }
    let compact : CompileRequest := { r with output := { json := true } }
    let o : SearchOptions := .plain { on := some (.single "name") }
    let q : QueryNode := .single "name" "tea" []
    let shown := "\x1b[1m\x1b[36mQuery tree\x1b[0m\n  Match(\"name\": \"tea\")\n\n" ++
      "\x1b[1mConditions:\x1b[0m\n  \x1b[2m(none)\x1b[0m\n\n"
    let document := "\x7b\n" ++
      "  \"query\": \x7b\n    \"match\": \x7b\n      \"name\": \"tea\"\n    \x7d\n  \x7d,\n" ++
      "  \"aggs\": \x7b\n    \"top\": \x7b\n      \"max\": \x7b\n" ++
      "        \"field\": \"price\"\n      \x7d\n    \x7d\n  \x7d\n\x7d\n"
    Invocation.ofWords ("compile" :: given) = .ok ⟨0, .compile r⟩ ∧
      r.Succeeds w {} o q ∧
      (w.run ("compile" :: given)).status = .success ∧
      (w.run ("compile" :: given)).output = document ∧
      (w.run ("compile" :: "--explain" :: given)).status = .success ∧
      (w.run ("compile" :: "--explain" :: given)).output = shown ++ document ∧
      Invocation.ofWords ("compile" :: "--json" :: given) = .ok ⟨0, .compile compact⟩ ∧
      (w.run ("compile" :: "--json" :: given)).output =
        "\x7b\"query\":\x7b\"match\":\x7b\"name\":\"tea\"\x7d\x7d," ++
          "\"aggs\":\x7b\"top\":\x7b\"max\":\x7b\"field\":\"price\"\x7d\x7d\x7d\x7d\n" := by
  intro w options given r compact o q shown document
  have h : Invocation.ofWords ("compile" :: given) = .ok ⟨0, .compile r⟩ := by cbv
  have hexplain : Invocation.ofWords ("compile" :: "--explain" :: given) =
      .ok ⟨0, .compile { r with explain := true }⟩ := by cbv
  have hcompact : Invocation.ofWords ("compile" :: "--json" :: given) =
      .ok ⟨0, .compile compact⟩ := by cbv
  have hload : Config.load w.files w.home w.cwd = .ok {} := by cbv
  have hparse : Json.parse options = .ok (.single "on" (.string "name")) := by cbv
  have hdecode : SearchOptions.decode (.single "on" (.string "name")) = .ok o := rfl
  have hcompile : o.compile {} "tea" = .ok q := by cbv
  have hs : r.Succeeds w {} o q :=
    ⟨hload, ⟨_, .read rfl (.inline _) hparse, hdecode⟩, hcompile⟩
  have hs' : compact.Succeeds w {} o q :=
    ⟨hload, ⟨_, .read rfl (.inline _) hparse, hdecode⟩, hcompile⟩
  obtain ⟨hstatus, _, hunexplained⟩ := document_or_nothing (w := w) h
  obtain ⟨hplain, _, hexplained⟩ := hunexplained rfl
  obtain ⟨hstatus', houtput'⟩ := hexplained _ _ hexplain
  obtain ⟨_, _, hunexplained'⟩ := document_or_nothing (w := w) hcompact
  have hsuccess : (w.run ("compile" :: given)).status = .success := hstatus.mpr ⟨_, _, _, hs⟩
  have hdocument : (w.run ("compile" :: given)).output = document := by
    rw [hplain rfl _ _ _ hs]
    cbv
  refine ⟨h, hs, hsuccess, hdocument, hstatus'.trans hsuccess, ?_, hcompact, ?_⟩
  · have hshown : explanation o q = shown := by cbv
    rw [houtput' _ _ _ hs, hdocument, hshown]
  · rw [(hunexplained' rfl).1 rfl _ _ _ hs']
    cbv

end SearchCompiler
