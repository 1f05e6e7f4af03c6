import SearchCompiler.Config.Template
import SearchCompiler.Proofs.OneLineTexts

/-!
The lines of a text and the text of lines. A text is either one line without a line feed or begins
with a line that a line feed ends, so what is said about lines is said by induction on them. Lines
with a line feed after each are read back; the lines of a text without carriage returns make up the
text, but for a line feed at the very end.
-/

namespace SearchCompiler

namespace Text

theorem splitAtFeeds_append {cs : List Char} (h : '\n' ∉ cs) (rest : List Char) :
    splitAtFeeds (cs ++ '\n' :: rest) = cs :: splitAtFeeds rest := by
  induction cs with
  | nil => rw [List.nil_append, splitAtFeeds]
  | cons c cs ih =>
    rw [List.mem_cons, not_or] at h
    rw [List.cons_append, splitAtFeeds, ih h.2]
    exact fun hc => h.1 hc.symm

theorem splitAtFeeds_of_not_mem {cs : List Char} (h : '\n' ∉ cs) : splitAtFeeds cs = [cs] := by
  induction cs with
  | nil => rw [splitAtFeeds]
  | cons c cs ih =>
    rw [List.mem_cons, not_or] at h
    rw [splitAtFeeds, ih h.2]
    exact fun hc => h.1 hc.symm

theorem splitAtFeeds_ne_nil (cs : List Char) : splitAtFeeds cs ≠ [] := by
  unfold splitAtFeeds
  split
  · exact List.cons_ne_nil _ _
  · exact List.cons_ne_nil _ _
  · split <;> exact List.cons_ne_nil _ _

theorem toList_cut (line rest : String) :
    (line ++ "\n" ++ rest).toList = line.toList ++ '\n' :: rest.toList := by
  simp

/-- Induction on the lines of a text, from its last line on. -/
@[elab_as_elim]
theorem lineInduction {motive : String → Prop} (last : ∀ line, OneLine line → motive line)
    (cut : ∀ line rest, OneLine line → motive rest → motive (line ++ "\n" ++ rest))
    (text : String) : motive text := by
  -- What comes after the first line feed is shorter than the text.
  induction hlength : text.toList.length using Nat.strongRecOn generalizing text with
  | _ n ih =>
    by_cases hfeed : '\n' ∈ text.toList
    · obtain ⟨cs, ds, hsplit, hcs⟩ := List.eq_append_cons_of_mem hfeed
      have htext : text = String.ofList cs ++ "\n" ++ String.ofList ds := by
        apply String.toList_inj.mp
        rw [hsplit, toList_cut, String.toList_ofList, String.toList_ofList]
      have hshort : (String.ofList ds).toList.length < n := by
        rw [← hlength, hsplit, String.toList_ofList, List.length_append, List.length_cons]
        omega
      rw [htext]
      exact cut _ _ (oneLine_ofList.mpr hcs) (ih _ hshort _ rfl)
    · exact last text hfeed

theorem lines_of_oneLine {line : String} (h : OneLine line) :
    lines line = if line = "" then [] else [line] := by
  rw [lines, splitAtFeeds_of_not_mem h, linesOfPieces]
  by_cases hline : line = ""
  · subst hline
    rfl
  · have hchars : line.toList.isEmpty = false := by simpa using hline
    simp [hchars, hline]

/-- The text before the first line feed is the first line, less a carriage return at its end. -/
theorem lines_cut {line : String} (h : OneLine line) (rest : String) :
    lines (line ++ "\n" ++ rest) = String.ofList (dropReturn line.toList) :: lines rest := by
  obtain ⟨piece, pieces, hp⟩ := List.exists_cons_of_ne_nil (splitAtFeeds_ne_nil rest.toList)
  rw [lines, lines, toList_cut, splitAtFeeds_append h, hp, linesOfPieces, List.map_cons]
  exact List.cons_ne_nil _ _

/-- A line that does not end in a carriage return is read back before its line feed. -/
theorem lines_append {s : String} (h : OneLine s) (hreturn : s.toList.getLast? ≠ some '\r')
    (t : String) : lines (s ++ "\n" ++ t) = s :: lines t := by
  rw [lines_cut h, dropReturn, if_neg hreturn, String.ofList_toList]

theorem mem_of_mem_dropReturn {line : List Char} {c : Char} (h : c ∈ dropReturn line) :
    c ∈ line := by
  unfold dropReturn at h
  split at h
  · exact List.dropLast_subset _ h
  · exact h

/-- The characters on the lines of a text are those of the text, and none is a line feed. -/
theorem mem_lines {text line : String} (h : line ∈ lines text) {c : Char} (hc : c ∈ line.toList) :
    c ∈ text.toList ∧ c ≠ '\n' := by
  induction text using lineInduction with
  | last text hone =>
    rw [lines_of_oneLine hone] at h
    split at h
    · cases h
    · obtain rfl := List.mem_singleton.mp h
      exact ⟨hc, fun hfeed => hone (hfeed ▸ hc)⟩
  | cut first rest hone ih =>
    rw [lines_cut hone] at h
    rw [toList_cut, List.mem_append, List.mem_cons]
    rcases List.mem_cons.mp h with rfl | h
    · rw [String.toList_ofList] at hc
      have hmem : c ∈ first.toList := mem_of_mem_dropReturn hc
      exact ⟨.inl hmem, fun hfeed => hone (hfeed ▸ hmem)⟩
    · obtain ⟨hmem, hfeed⟩ := ih h
      exact ⟨.inr (.inr hmem), hfeed⟩

theorem oneLine_of_mem_lines {text line : String} (h : line ∈ lines text) : OneLine line :=
  fun hfeed => (mem_lines h hfeed).2 rfl

end Text

theorem textOfLines_cons (line : String) (lines : List String) :
    textOfLines (line :: lines) = line ++ "\n" ++ textOfLines lines := by
  rw [textOfLines, List.map_cons, String.join_cons, textOfLines]

theorem toList_textOfLines (lines : List String) :
    (textOfLines lines).toList = lines.flatMap fun line => line.toList ++ ['\n'] := by
  rw [textOfLines, String.toList_join, List.flatMap_map]
  simp only [String.toList_append]
  rfl

theorem mem_textOfLines {lines : List String} {c : Char} (h : c ∈ (textOfLines lines).toList) :
    c = '\n' ∨ ∃ line ∈ lines, c ∈ line.toList := by
  rw [toList_textOfLines, List.mem_flatMap] at h
  obtain ⟨line, hline, hc⟩ := h
  rcases List.mem_append.mp hc with hc | hc
  · exact .inr ⟨line, hline, hc⟩
  · exact .inl (List.mem_singleton.mp hc)

namespace Text

/-- Lines that do not end in a carriage return are read back from their text. -/
theorem lines_textOfLines {found : List String}
    (h : ∀ line ∈ found, OneLine line ∧ line.toList.getLast? ≠ some '\r') :
    lines (textOfLines found) = found := by
  induction found with
  | nil => rfl
  | cons line rest ih =>
    rw [List.forall_mem_cons] at h
    rw [textOfLines_cons, lines_append h.1.1 h.1.2, ih h.2]

/-- A text with a line feed after its last line, whether it had one or not. -/
def closed (text : String) : String :=
  if text.toList.getLast?.all (· = '\n') then text else text ++ "\n"

theorem closed_cut (line rest : String) :
    closed (line ++ "\n" ++ rest) = line ++ "\n" ++ closed rest := by
  have hlast : (line ++ "\n" ++ rest).toList.getLast?.all (· = '\n') =
      rest.toList.getLast?.all (· = '\n') := by
    rw [toList_cut, List.getLast?_append, List.getLast?_cons, Option.some_or]
    cases rest.toList.getLast? <;> rfl
  unfold closed
  rw [hlast]
  split
  · rfl
  · rw [String.append_assoc]

theorem closed_of_oneLine {line : String} (h : OneLine line) (hne : line ≠ "") :
    closed line = line ++ "\n" := by
  have hchars : line.toList ≠ [] := fun hnil => hne (String.toList_eq_nil_iff.mp hnil)
  obtain ⟨c, hc⟩ := Option.isSome_iff_exists.mp (List.getLast?_isSome.mpr hchars)
  have hfeed : c ≠ '\n' := by
    rintro rfl
    exact h (List.mem_of_getLast? hc)
  rw [closed, hc, Option.all_some, decide_eq_false hfeed, if_neg Bool.false_ne_true]

/-- The lines of a text: none holds a line feed, and with a line feed after each they make up the
text, which may go without the last one. -/
structure AreLines (found : List String) (text : String) : Prop where
  oneLine : ∀ line ∈ found, OneLine line
  joined : textOfLines found = closed text

theorem textOfLines_lines {text : String} (h : '\r' ∉ text.toList) :
    textOfLines (lines text) = closed text := by
  induction text using lineInduction with
  | last line hone =>
    rw [lines_of_oneLine hone]
    split
    · next hempty =>
      subst hempty
      rfl
    · next hne =>
      rw [closed_of_oneLine hone hne]
      simp [textOfLines]
  | cut line rest hone ih =>
    rw [toList_cut, List.mem_append, List.mem_cons, not_or, not_or] at h
    have hreturn : line.toList.getLast? ≠ some '\r' :=
      fun hlast => h.1 (List.mem_of_getLast? hlast)
    rw [lines_append hone hreturn, textOfLines_cons, ih h.2.2, closed_cut]

theorem areLines_lines {text : String} (h : '\r' ∉ text.toList) : AreLines (lines text) text :=
  ⟨fun _ => oneLine_of_mem_lines, textOfLines_lines h⟩

end Text

end SearchCompiler
