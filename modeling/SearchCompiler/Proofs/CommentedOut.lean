import Mathlib.Data.List.Forall2
import SearchCompiler.Proofs.PrintedSettings
import SearchCompiler.Proofs.TextLines

/-!
Files whose settings are all commented out. Every line of such a file is empty or a comment, so it
is TOML that sets nothing: it has no section, and it does not call itself the root.
-/

namespace SearchCompiler

namespace Toml

theorem afterComment?_of_line {cs : List Char} (h : ∀ c ∈ cs, isControl c = false)
    (rest : List Char) : afterComment? (cs ++ '\n' :: rest) = some rest := by
  induction cs with
  | nil => rfl
  | cons c cs ih =>
    rw [List.forall_mem_cons] at h
    have hother (d : Char) (hd : isControl d = true) : c ≠ d := by
      rintro rfl
      rw [h.1] at hd
      cases hd
    rw [List.cons_append, afterComment?, h.1]
    · exact ih h.2
    · exact hother '\n' (by decide)
    · exact fun _ heq => absurd heq (hother '\r' (by decide))

/-- A comment is read as no statement. -/
theorem readsAs_comment {cs : List Char} (h : ∀ c ∈ cs, isControl c = false) :
    ReadsAs ('#' :: cs) [] := by
  intro steps rest
  have hblank : skipBlanks ('#' :: cs ++ '\n' :: rest) = '#' :: (cs ++ '\n' :: rest) :=
    skipBlanks_cons (by decide) (by decide) _
  rw [statements, hblank]
  simp only [afterComment?_of_line h, Option.bind_some, List.nil_append, Option.map_id']

end Toml

open Toml (ReadsAs)

/-- What becomes of a line: an empty line and a comment stay, before any other line a number sign
and a blank are put. -/
inductive CommentedLine : String → String → Prop
  | empty : CommentedLine "" ""
  | comment (rest : String) : CommentedLine ("#" ++ rest) ("#" ++ rest)
  | setting {line : String} :
    line ≠ "" → line.toList.head? ≠ some '#' → CommentedLine line ("# " ++ line)

section Lines

theorem startsWith_sign_iff {line : String} :
    line.startsWith "#" = true ↔ ∃ rest, line = "#" ++ rest := by
  rw [String.startsWith_string_iff]
  constructor
  · rintro ⟨cs, hcs⟩
    have hrest : (String.ofList cs).toList = cs := String.toList_ofList
    refine ⟨String.ofList cs, String.toList_inj.mp ?_⟩
    rw [String.toList_append, hrest]
    exact hcs.symm
  · rintro ⟨rest, rfl⟩
    rw [String.toList_append]
    exact List.prefix_append _ _

theorem commentedLine_commentLine (line : String) : CommentedLine line (commentLine line) := by
  unfold commentLine
  split
  · next hkept =>
    rcases hkept with hempty | hcomment
    · obtain rfl := String.isEmpty_iff.mp hempty
      exact .empty
    · obtain ⟨rest, rfl⟩ := startsWith_sign_iff.mp hcomment
      exact .comment rest
  · next hother =>
    rw [not_or] at hother
    refine .setting (fun hempty => hother.1 (String.isEmpty_iff.mpr hempty)) fun hhead => ?_
    obtain ⟨cs, hcs⟩ := List.head?_eq_some_iff.mp hhead
    exact hother.2 (String.startsWith_string_iff.mpr ⟨cs, hcs.symm⟩)

/-- What is commented out already stays as it is. -/
theorem CommentedLine.commentLine_eq {line shown : String} (h : CommentedLine line shown) :
    commentLine shown = shown := by
  have hkeeps (rest : String) : commentLine ("#" ++ rest) = "#" ++ rest := by
    rw [commentLine, if_pos (.inr (startsWith_sign_iff.mpr ⟨rest, rfl⟩))]
  cases h with
  | empty => rfl
  | comment rest => exact hkeeps rest
  | setting _ _ => exact hkeeps (" " ++ line)

/-- A line that is commented out is empty or a comment. -/
theorem commentLine_cases (line : String) :
    (commentLine line).toList = [] ∨ ∃ rest, (commentLine line).toList = '#' :: rest ∧
      ∀ c ∈ rest, c = ' ' ∨ c ∈ line.toList := by
  generalize hshown : commentLine line = shown
  have hline : CommentedLine line shown := hshown ▸ commentedLine_commentLine line
  cases hline with
  | empty => exact .inl rfl
  | comment rest =>
    refine .inr ⟨rest.toList, String.toList_append, fun c hc => .inr ?_⟩
    rw [String.toList_append]
    exact List.mem_append_right _ hc
  | setting _ _ =>
    refine .inr ⟨' ' :: line.toList, String.toList_append, fun c hc => ?_⟩
    exact List.mem_cons.mp hc

theorem mem_commentLine {line : String} {c : Char} (h : c ∈ (commentLine line).toList) :
    c = '#' ∨ c = ' ' ∨ c ∈ line.toList := by
  rcases commentLine_cases line with hempty | ⟨rest, hrest, hall⟩
  · rw [hempty] at h
    cases h
  · rw [hrest] at h
    exact (List.mem_cons.mp h).imp_right (hall c)

theorem commentOut_eq (text : String) :
    commentOut text = textOfLines ((Text.lines text).map commentLine) := by
  rw [commentOut, textOfLines, List.map_map]
  rfl

theorem lines_commentOut {text : String} (h : '\r' ∉ text.toList) :
    Text.lines (commentOut text) = (Text.lines text).map commentLine := by
  have hother {line : String} (hline : line ∈ Text.lines text) {c : Char}
      (hc : c ∈ (commentLine line).toList) : c ≠ '\n' ∧ c ≠ '\r' := by
    rcases mem_commentLine hc with rfl | rfl | hc
    · decide
    · decide
    · obtain ⟨hmem, hfeed⟩ := Text.mem_lines hline hc
      exact ⟨hfeed, fun hreturn => h (hreturn ▸ hmem)⟩
  rw [commentOut_eq]
  apply Text.lines_textOfLines
  intro shown hshown
  obtain ⟨line, hline, rfl⟩ := List.mem_map.mp hshown
  exact ⟨fun hfeed => (hother hline hfeed).1 rfl,
    fun hlast => (hother hline (List.mem_of_getLast? hlast)).2 rfl⟩

/-- Line by line a text is kept or put behind a number sign. -/
theorem commentedLines_commentOut {text : String} (h : '\r' ∉ text.toList) :
    List.Forall₂ CommentedLine (Text.lines text) (Text.lines (commentOut text)) := by
  rw [lines_commentOut h, List.forall₂_map_right_iff, List.forall₂_same]
  exact fun line _ => commentedLine_commentLine line

theorem commentOut_commentOut {text : String} (h : '\r' ∉ text.toList) :
    commentOut (commentOut text) = commentOut text := by
  have hline (line : String) : commentLine (commentLine line) = commentLine line :=
    (commentedLine_commentLine line).commentLine_eq
  calc commentOut (commentOut text)
      = textOfLines (((Text.lines text).map commentLine).map commentLine) := by
        rw [commentOut_eq, lines_commentOut h]
    _ = textOfLines ((Text.lines text).map commentLine) := by
        rw [List.map_map]
        exact congrArg textOfLines (List.map_congr_left fun line _ => hline line)
    _ = commentOut text := (commentOut_eq text).symm

end Lines

theorem readsAs_commentLine {line : String} (h : ∀ c ∈ line.toList, Toml.isControl c = false) :
    ReadsAs (commentLine line).toList [] := by
  rcases commentLine_cases line with hempty | ⟨rest, hrest, hall⟩
  · rw [hempty]
    exact Toml.readsAs_nil
  · rw [hrest]
    refine Toml.readsAs_comment fun c hc => ?_
    rcases hall c hc with rfl | hc
    · decide
    · exact h c hc

/-- The lines of a text that is commented out, and the statements on them, of which there are none.
-/
def commentedLines (text : String) : List (List Char × List Toml.Statement) :=
  (Text.lines text).map fun line => ((commentLine line).toList, [])

theorem toList_commentOut (text : String) : (commentOut text).toList =
    (commentedLines text).flatMap fun line => line.1 ++ ['\n'] := by
  rw [commentOut_eq, toList_textOfLines, commentedLines, List.flatMap_map, List.flatMap_map]

theorem dropByteOrderMark_commentOut (text : String) :
    Toml.dropByteOrderMark (commentOut text).toList = (commentOut text).toList := by
  rw [toList_commentOut]
  cases hlines : Text.lines text with
  | nil =>
    rw [commentedLines, hlines]
    rfl
  | cons line lines =>
    rw [commentedLines, hlines, List.map_cons, List.flatMap_cons]
    rcases commentLine_cases line with hempty | ⟨rest, hrest, _⟩
    · rw [hempty]
      rfl
    · rw [hrest]
      rfl

/-- A text without control characters but for tabs and the ends of its lines sets nothing once it is
commented out. -/
theorem parse_commentOut {text : String}
    (h : ∀ c ∈ text.toList, Toml.isControl c = true → c = '\n') :
    RawConfig.parse (commentOut text) = .ok {} := by
  have hplain (line : String) (hl : line ∈ Text.lines text) (c : Char) (hc : c ∈ line.toList) :
      Toml.isControl c = false := by
    obtain ⟨hmem, hfeed⟩ := Text.mem_lines hl hc
    cases hcontrol : Toml.isControl c with
    | false => rfl
    | true => exact absurd (h c hmem hcontrol) hfeed
  have hread : ∀ line ∈ commentedLines text, ReadsAs line.1 line.2 := by
    intro line hl
    obtain ⟨source, hsource, rfl⟩ := List.mem_map.mp hl
    exact readsAs_commentLine (hplain source hsource)
  have hnone : (commentedLines text).flatMap Prod.snd = [] := by
    rw [List.flatMap_eq_nil_iff]
    intro line hl
    obtain ⟨_, _, rfl⟩ := List.mem_map.mp hl
    rfl
  have hparse : Toml.parse? (commentOut text) = some [] := by
    rw [Toml.parse?_of_lines (toList_commentOut text) (dropByteOrderMark_commentOut text) hread,
      hnone]
    rfl
  exact parse_of_decode hparse rfl

theorem not_mem_of_onlyFeeds {text : String}
    (h : ∀ c ∈ text.toList, Toml.isControl c = true → c = '\n') : '\r' ∉ text.toList :=
  fun hreturn => absurd (h '\r' hreturn (by decide)) (by decide)

/-- A text without control characters but tabs and line feeds sets nothing once it is commented out.
Line by line it is kept or put behind a number sign, every line then ends in a line feed, and to
comment it out again changes nothing. -/
theorem commented_out_sets_nothing {text : String}
    (h : ∀ c ∈ text.toList, Toml.isControl c = true → c = '\n') :
    RawConfig.parse (commentOut text) = .ok ⟨none, none, none⟩ ∧
      Text.AreLines (Text.lines text) text ∧
      List.Forall₂ CommentedLine (Text.lines text) (Text.lines (commentOut text)) ∧
      textOfLines (Text.lines (commentOut text)) = commentOut text ∧
      commentOut (commentOut text) = commentOut text := by
  have hreturn := not_mem_of_onlyFeeds h
  refine ⟨parse_commentOut h, Text.areLines_lines hreturn, commentedLines_commentOut hreturn, ?_,
    commentOut_commentOut hreturn⟩
  rw [lines_commentOut hreturn, commentOut_eq]

theorem commented_out_sets_nothing_root :
    let text := "# top\n\n[compile] # x\n\tboost_factor = 0\n \n\"root\" = true"
    (∀ c ∈ text.toList, Toml.isControl c = true → c = '\n') ∧
      RawConfig.parse (commentOut text) = .ok ⟨none, none, none⟩ ∧
      Text.lines (commentOut text) = ["# top", "", "# [compile] # x", "# \tboost_factor = 0", "#  ",
        "# \"root\" = true"] ∧
      textOfLines (Text.lines (commentOut text)) = commentOut text ∧
      commentOut (commentOut text) = commentOut text := by
  intro text
  have hall : text.toList.all (fun c => !Toml.isControl c || c == '\n') = true := by
    unfold text
    decide +kernel
  have hplain : ∀ c ∈ text.toList, Toml.isControl c = true → c = '\n' := by
    intro c hc hcontrol
    have hone := List.all_eq_true.mp hall c hc
    simpa [hcontrol] using hone
  have h := commented_out_sets_nothing hplain
  exact ⟨hplain, h.1, by decide +kernel, h.2.2.2⟩

section Templates

/-- Lines without any control characters. -/
def PlainLines (lines : List String) : Prop :=
  lines.all (fun line => line.toList.all fun c => !Toml.isControl c) = true

variable {lines : List String}

theorem not_mem_of_plainLines (h : PlainLines lines) {line : String} (hline : line ∈ lines)
    {c : Char} (hc : Toml.isControl c = true) : c ∉ line.toList := by
  intro hmem
  have hplain := List.all_eq_true.mp (List.all_eq_true.mp h line hline) c hmem
  simp [hc] at hplain

theorem eq_feed_of_plainLines (h : PlainLines lines) :
    ∀ c ∈ (textOfLines lines).toList, Toml.isControl c = true → c = '\n' := by
  intro c hc hcontrol
  rcases mem_textOfLines hc with hfeed | ⟨line, hline, hc⟩
  · exact hfeed
  · exact absurd hc (not_mem_of_plainLines h hline hcontrol)

/-- Lines are commented out one by one. -/
theorem commentOut_textOfLines (h : PlainLines lines) :
    commentOut (textOfLines lines) = textOfLines (lines.map commentLine) := by
  rw [commentOut_eq, Text.lines_textOfLines]
  intro line hline
  exact ⟨not_mem_of_plainLines h hline (by decide), fun hlast =>
    not_mem_of_plainLines h hline (by decide) (List.mem_of_getLast? hlast)⟩

theorem eq_feed_of_projectTemplate :
    ∀ c ∈ projectTemplate.toList, Toml.isControl c = true → c = '\n' :=
  eq_feed_of_plainLines (by cbv)

theorem eq_feed_of_userTemplate :
    ∀ c ∈ userTemplate.toList, Toml.isControl c = true → c = '\n' :=
  eq_feed_of_plainLines (by cbv)

/-- The templates set nothing. -/
theorem parse_localTemplate : RawConfig.parse localTemplate = .ok {} :=
  parse_commentOut eq_feed_of_projectTemplate

theorem parse_globalTemplate : RawConfig.parse globalTemplate = .ok {} :=
  parse_commentOut eq_feed_of_userTemplate

theorem commentedLines_localTemplate :
    List.Forall₂ CommentedLine (Text.lines projectTemplate) (Text.lines localTemplate) :=
  commentedLines_commentOut (not_mem_of_onlyFeeds eq_feed_of_projectTemplate)

theorem commentedLines_globalTemplate :
    List.Forall₂ CommentedLine (Text.lines userTemplate) (Text.lines globalTemplate) :=
  commentedLines_commentOut (not_mem_of_onlyFeeds eq_feed_of_userTemplate)

end Templates

end SearchCompiler
