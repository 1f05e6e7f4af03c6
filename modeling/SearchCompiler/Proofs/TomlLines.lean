import Mathlib.Tactic.SplitIfs
import SearchCompiler.Text.Lines
import SearchCompiler.Proofs.TomlStrings

/-!
Lines of TOML read one after another. A line that is empty, opens a table or gives a value to a name
is read in one step, whatever comes after it, so a document made of such lines is read line by line.
-/

namespace SearchCompiler.Toml

section Digits

theorem range_of_isDigit {c : Char} (h : c.isDigit = true) : '0' ≤ c ∧ c ≤ '9' := by
  have hvalues : 48 ≤ c.val ∧ c.val ≤ 57 := by simpa [Char.isDigit] using h
  exact hvalues

theorem digitBelow?_of_isDigit {c : Char} (h : c.isDigit = true) :
    digitBelow? 10 c = some (c.toNat - 48) := by
  have hrange := range_of_isDigit h
  have hle : c.toNat ≤ 57 := hrange.2
  have hlt : c.toNat - 48 < 10 := by omega
  rw [digitBelow?, Text.hexValue?, if_pos hrange, Option.bind_some, if_pos hlt]

theorem spacedDigits_of_isDigit {cs : List Char} (hne : cs ≠ [])
    (h : ∀ c ∈ cs, c.isDigit = true) :
    spacedDigits 10 cs = some (cs.map fun c => c.toNat - 48) := by
  induction cs with
  | nil => exact absurd rfl hne
  | cons c cs ih =>
    rw [List.forall_mem_cons] at h
    obtain ⟨hc, hcs⟩ := h
    have hd := digitBelow?_of_isDigit hc
    by_cases hnil : cs = []
    · subst hnil
      rw [spacedDigits, hd]
      rfl
    · rw [spacedDigits, hd, ih hnil hcs]
      · rfl
      · exact hnil
      · rintro more rfl
        exact absurd (hcs '_' List.mem_cons_self) (by decide)

theorem digitValue_map (cs : List Char) :
    digitValue 10 (cs.map fun c => c.toNat - 48) = Nat.ofDigitChars 10 cs 0 := by
  rw [digitValue, List.foldl_map, Nat.ofDigitChars_eq_foldl]
  simp only [Nat.mul_comm]
  rfl

theorem isDigit_of_mem_toDigits (n : Nat) : ∀ c ∈ Nat.toDigits 10 n, c.isDigit = true :=
  fun _ hc => Nat.isDigit_of_mem_toDigits (by decide) (by decide) hc

/-- Only the number zero is written with a zero first. -/
theorem eq_nil_of_toDigits {n : Nat} {cs : List Char} (h : Nat.toDigits 10 n = '0' :: cs) :
    cs = [] := by
  induction n using Nat.strongRecOn generalizing cs with
  | _ n ih =>
    by_cases hn : n < 10
    · rw [Nat.toDigits_of_lt_base hn] at h
      exact (List.cons.inj h).2.symm
    · have hfront : n / 10 < n := by omega
      rw [Nat.toDigits_of_base_le (by decide) (by omega)] at h
      rcases List.append_eq_cons_iff.mp h with ⟨hnil, _⟩ | ⟨front, hd, rfl⟩
      · exact absurd hnil Nat.toDigits_ne_nil
      · have hzero : Nat.toDigits 10 (n / 10) = ['0'] := by rw [hd, ih (n / 10) hfront hd]
        have hvalue : Nat.ofDigitChars 10 ['0'] 0 = n / 10 := hzero ▸ Nat.ofDigitChars_ten_toDigits
        have hpositive : 0 < n / 10 := by omega
        exact absurd hvalue (Nat.ne_of_lt hpositive)

theorem wholeDigits_toDigits (n : Nat) :
    wholeDigits (Nat.toDigits 10 n) =
      some ((Nat.toDigits 10 n).map fun c => c.toNat - 48) := by
  have hdigits := isDigit_of_mem_toDigits n
  have hread := spacedDigits_of_isDigit Nat.toDigits_ne_nil hdigits
  unfold wholeDigits
  rw [hread]
  split
  · next second rest heq =>
    -- A second digit after a zero is not written.
    obtain ⟨first, cs, hcs, hfirst, hmap⟩ := List.map_eq_cons_iff.mp (Option.some.inj heq)
    have hle : 48 ≤ first.toNat := (range_of_isDigit (hdigits first (hcs ▸ List.mem_cons_self))).1
    have hzero : first = '0' := Char.toNat_inj.mp (by rw [show '0'.toNat = 48 from rfl]; omega)
    have hnil := eq_nil_of_toDigits (hzero ▸ hcs)
    rw [hnil] at hmap
    cases hmap
  · rfl

theorem cutSign_of_isDigit {cs : List Char} (h : ∀ c ∈ cs, c.isDigit = true) :
    cutSign cs = (false, cs) := by
  unfold cutSign
  split
  · exact absurd (h '-' List.mem_cons_self) (by decide)
  · exact absurd (h '+' List.mem_cons_self) (by decide)
  · rfl

theorem wholeNumber?_toDigits (n : Nat) : wholeNumber? (Nat.toDigits 10 n) = some (n : Int) := by
  have hdigits := isDigit_of_mem_toDigits n
  have hsecond {c : Char} (hc : c.isDigit = false) (rest : List Char) :
      Nat.toDigits 10 n = '0' :: c :: rest → False := by
    intro heq
    have hd := hdigits c (by simp [heq])
    rw [hc] at hd
    cases hd
  rw [wholeNumber?, cutSign_of_isDigit hdigits]
  · simp only [wholeDigits_toDigits, Option.map_some, digitValue_map, Nat.ofDigitChars_ten_toDigits]
    rfl
  · exact hsecond (by decide)
  · exact hsecond (by decide)
  · exact hsecond (by decide)

theorem plainValue?_toDigits {n : Nat} (h : isWord 128 n = true) :
    plainValue? (Nat.toDigits 10 n) = some (.integer n) := by
  have hdigits := isDigit_of_mem_toDigits n
  have htrue : Nat.toDigits 10 n ≠ ['t', 'r', 'u', 'e'] := by
    intro heq
    exact absurd (hdigits 't' (by simp [heq])) (by decide)
  have hfalse : Nat.toDigits 10 n ≠ ['f', 'a', 'l', 's', 'e'] := by
    intro heq
    exact absurd (hdigits 'f' (by simp [heq])) (by decide)
  rw [plainValue?, if_neg htrue, if_neg hfalse, wholeNumber?_toDigits]
  simp only [h, if_true]

end Digits

section Values

/-- A text is read as a value where a line ends after it. -/
def Written (text : List Char) (v : Value) : Prop :=
  ∀ rest, value maxDepth (skipBlanks (text ++ '\n' :: rest)) = some (v, '\n' :: rest)

theorem value_maxDepth : value maxDepth = valueWith (some (value 79)) :=
  rfl

theorem skipBlanks_cons {c : Char} (hspace : c ≠ ' ') (htab : c ≠ '\t') (cs : List Char) :
    skipBlanks (c :: cs) = c :: cs := by
  rw [skipBlanks, List.dropWhile_cons_of_neg]
  simp [hspace, htab]

/-- A value that begins with a quote is a string. -/
theorem value_of_string? {quote : Char} (hq : quote = '"' ∨ quote = '\'') {cs rest : List Char}
    {s : String} (h : string? (quote :: cs) = some (s, rest)) :
    value maxDepth (skipBlanks (quote :: cs)) = some (.string s, rest) := by
  rcases hq with rfl | rfl
  · rw [skipBlanks_cons (by decide) (by decide), value_maxDepth, valueWith, h]
    rfl
  · rw [skipBlanks_cons (by decide) (by decide), value_maxDepth, valueWith, h]
    rfl

theorem head_of_stringChars (cs : List Char) :
    ∃ quote more, stringChars cs = quote :: more ∧ (quote = '"' ∨ quote = '\'') := by
  unfold stringChars
  simp only
  split_ifs
  · exact ⟨_, _, rfl, .inl rfl⟩
  · exact ⟨_, _, rfl, .inr rfl⟩
  · exact ⟨_, _, rfl, .inl rfl⟩
  · exact ⟨_, _, rfl, .inr rfl⟩
  · exact ⟨_, _, rfl, .inl rfl⟩
  · exact ⟨_, _, rfl, .inl rfl⟩

theorem written_stringText (s : String) : Written (stringText s).toList (.string s) := by
  intro rest
  have hread := string?_stringChars s.toList rest
  obtain ⟨quote, more, hmore, hq⟩ := head_of_stringChars s.toList
  rw [String.ofList_toList, hmore] at hread
  rw [stringText, String.toList_ofList, hmore]
  exact value_of_string? hq hread

theorem written_word {word : List Char} {v : Value} (hplain : word.all isPlain = true)
    (h : plainValue? word = some v) : Written word v := by
  intro rest
  have hword : ∀ c ∈ word, isPlain c = true := List.all_eq_true.mp hplain
  have hfeed : isPlain '\n' = false := by decide
  obtain ⟨htake, hdrop⟩ := Text.run_append hplain hfeed rest
  have hread : plain (word ++ '\n' :: rest) = some (v, '\n' :: rest) := by
    unfold plain
    simp only [htake, hdrop, h]
    split
    · next heq => cases heq
    · rfl
  cases word with
  | nil => cases h
  | cons c word =>
    rw [List.forall_mem_cons] at hword
    have hother (d : Char) (hd : isPlain d = false) : c ≠ d := by
      rintro rfl
      rw [hword.1] at hd
      cases hd
    rw [List.cons_append, skipBlanks_cons (hother ' ' (by decide)) (hother '\t' (by decide)),
      value_maxDepth, valueWith]
    · exact hread
    · exact fun _ heq => hother '"' (by decide) (List.cons.inj heq).1
    · exact fun _ heq => hother '\'' (by decide) (List.cons.inj heq).1
    · exact fun _ heq => hother '[' (by decide) (List.cons.inj heq).1
    · exact fun _ heq => hother '\x7b' (by decide) (List.cons.inj heq).1

theorem written_toString_uint32 (n : UInt32) : Written (toString n).toList (.integer n.toNat) := by
  have hlt := n.toNat_lt
  have hword : isWord 128 n.toNat = true := by
    simp [isWord, fitsSigned, fitsUnsigned]
    omega
  have hdigits : (toString n).toList = Nat.toDigits 10 n.toNat := by
    change (toString n.toNat).toList = _
    rw [Nat.toString_eq_ofList_toDigits, String.toList_ofList]
  rw [hdigits]
  refine written_word (List.all_eq_true.mpr fun c hc => ?_) (plainValue?_toDigits hword)
  have hd := isDigit_of_mem_toDigits n.toNat c hc
  simp [isPlain, Char.isAlphanum, hd]

theorem written_toString_bool (b : Bool) : Written (toString b).toList (.boolean b) := by
  cases b with
  | true => exact written_word (by decide) rfl
  | false => exact written_word (by decide) rfl

end Values

section Lines

/-- A name that stands without quotes. -/
abbrev BareName (s : String) : Prop :=
  s.toList ≠ [] ∧ s.toList.all isBare = true

/-- What a bare name begins with is neither a blank nor anything that begins a line of another kind.
-/
theorem head_of_bareName {s : String} (h : BareName s) (rest : List Char) :
    ∃ c more, s.toList ++ rest = c :: more ∧ ∀ d, isBare d = false → c ≠ d := by
  obtain ⟨hne, hbare⟩ := h
  obtain ⟨c, cs, hcs⟩ := List.exists_cons_of_ne_nil hne
  refine ⟨c, cs ++ rest, by rw [hcs, List.cons_append], fun d hd hcd => ?_⟩
  have hc := List.all_eq_true.mp hbare c (hcs ▸ List.mem_cons_self)
  rw [hcd, hd] at hc
  cases hc

theorem skipBlanks_bareName {s : String} (h : BareName s) (rest : List Char) :
    skipBlanks (s.toList ++ rest) = s.toList ++ rest := by
  obtain ⟨c, more, hcs, hc⟩ := head_of_bareName h rest
  rw [hcs, skipBlanks_cons (hc ' ' (by decide)) (hc '\t' (by decide))]

theorem name_bareName {s : String} (h : BareName s) {c : Char} (hc : isBare c = false)
    (rest : List Char) : name (s.toList ++ c :: rest) = some (s, c :: rest) := by
  obtain ⟨first, more, hcs, hfirst⟩ := head_of_bareName h (c :: rest)
  obtain ⟨htake, hdrop⟩ := Text.run_append h.2 hc rest
  rw [name]
  · rw [htake, hdrop]
    split
    · next hnil => exact absurd hnil h.1
    · rw [String.ofList_toList]
  · intro _ heq
    exact hfirst '"' (by decide) (List.cons.inj (hcs.symm.trans heq)).1
  · intro _ heq
    exact hfirst '\'' (by decide) (List.cons.inj (hcs.symm.trans heq)).1

theorem key_bareName {s : String} (h : BareName s) {c : Char} (hc : isBare c = false)
    {rest : List Char} (hdot : ∀ more, skipBlanks (c :: rest) ≠ '.' :: more) :
    key (s.toList ++ c :: rest) = some (⟨[], s⟩, skipBlanks (c :: rest)) := by
  have hname := name_bareName h hc rest
  change namesAfter [] (79 + 1) (skipBlanks (s.toList ++ c :: rest)) = _
  rw [skipBlanks_bareName h, namesAfter, hname]
  -- By `hdot` the name is the last one of the key.
  simp only [Option.bind_eq_bind, Option.bind_some]

/-- A line, without its end, is read as statements, whatever comes after it. -/
def ReadsAs (line : List Char) (found : List Statement) : Prop :=
  ∀ steps rest, statements (steps + 1) (line ++ '\n' :: rest) =
    (statements steps rest).map (found ++ ·)

theorem readsAs_nil : ReadsAs [] [] := by
  intro steps rest
  change statements steps rest = _
  cases statements steps rest <;> rfl

/-- A line that begins like a statement and is one as a whole is read as this statement. -/
theorem readsAs_of_statement {line : List Char} {s : Statement}
    (hhead : ∃ c more, line = c :: more ∧ c ∉ [' ', '\t', '#', '\n', '\r'])
    (h : ∀ rest, statement (line ++ '\n' :: rest) = some (s, rest)) : ReadsAs line [s] := by
  intro steps rest
  obtain ⟨c, more, rfl, hc⟩ := hhead
  simp only [List.mem_cons, List.not_mem_nil, or_false, not_or] at hc
  obtain ⟨hspace, htab, hhash, hfeed, hreturn⟩ := hc
  have hblank : skipBlanks (c :: more ++ '\n' :: rest) = c :: more ++ '\n' :: rest :=
    skipBlanks_cons hspace htab _
  have hnewline : afterNewline? (c :: more ++ '\n' :: rest) = none := by
    rw [List.cons_append, afterNewline?]
    · exact fun _ heq => hfeed (List.cons.inj heq).1
    · exact fun _ heq => hreturn (List.cons.inj heq).1
  rw [statements, hblank]
  split
  · next heq => cases heq
  · next heq => exact absurd (List.cons.inj heq).1 hhash
  · rw [hnewline, h]
    rfl

theorem readsAs_header {s : String} (h : BareName s) :
    ReadsAs ('[' :: (s.toList ++ [']'])) [.table ⟨[], s⟩] := by
  refine readsAs_of_statement ⟨_, _, rfl, by decide⟩ fun rest => ?_
  have hkey : key (s.toList ++ ']' :: '\n' :: rest) = some (⟨[], s⟩, ']' :: '\n' :: rest) :=
    key_bareName h (by decide) fun _ heq => absurd (List.cons.inj heq).1 (by decide)
  obtain ⟨first, more, hcs, hfirst⟩ := head_of_bareName h (']' :: '\n' :: rest)
  have htext : '[' :: (s.toList ++ [']']) ++ '\n' :: rest =
      '[' :: (s.toList ++ ']' :: '\n' :: rest) := by simp
  rw [htext, statement, hkey]
  · rfl
  · intro _ heq
    exact hfirst '[' (by decide) (List.cons.inj (hcs.symm.trans heq)).1

theorem readsAs_setting {s : String} (h : BareName s) {text : List Char} {v : Value}
    (hv : Written text v) :
    ReadsAs (s.toList ++ ' ' :: '=' :: ' ' :: text) [.assign ⟨[], s⟩ v] := by
  have hhead : ∃ c more, s.toList ++ ' ' :: '=' :: ' ' :: text = c :: more ∧
      c ∉ [' ', '\t', '#', '\n', '\r'] := by
    obtain ⟨first, more, hcs, hfirst⟩ := head_of_bareName h (' ' :: '=' :: ' ' :: text)
    refine ⟨first, more, hcs, fun hmem => ?_⟩
    have hnot : [' ', '\t', '#', '\n', '\r'].all (fun d => !isBare d) = true := by decide
    exact hfirst first (by simpa using List.all_eq_true.mp hnot first hmem) rfl
  refine readsAs_of_statement hhead fun rest => ?_
  have hkey : key (s.toList ++ ' ' :: '=' :: ' ' :: (text ++ '\n' :: rest)) =
      some (⟨[], s⟩, '=' :: ' ' :: (text ++ '\n' :: rest)) :=
    key_bareName h (by decide) fun _ heq => absurd (List.cons.inj heq).1 (by decide)
  have hvalue : value maxDepth (skipBlanks (' ' :: (text ++ '\n' :: rest))) =
      some (v, '\n' :: rest) := hv rest
  have hbracket (more : List Char) :
      s.toList ++ ' ' :: '=' :: ' ' :: (text ++ '\n' :: rest) ≠ '[' :: more := by
    obtain ⟨first, _, hcs, hfirst⟩ := head_of_bareName h (' ' :: '=' :: ' ' :: (text ++ '\n' :: rest))
    exact fun heq => hfirst '[' (by decide) (List.cons.inj (hcs.symm.trans heq)).1
  have htext : s.toList ++ ' ' :: '=' :: ' ' :: text ++ '\n' :: rest =
      s.toList ++ ' ' :: '=' :: ' ' :: (text ++ '\n' :: rest) := by simp
  rw [htext, statement]
  · rw [assignment, hkey]
    simp only [Option.bind_eq_bind, Option.bind_some, hvalue]
    rfl
  · exact fun _ heq => hbracket _ heq
  · exact fun _ heq => hbracket _ heq

/-- Lines are read one after another. -/
theorem statements_lines {lines : List (List Char × List Statement)}
    (h : ∀ line ∈ lines, ReadsAs line.1 line.2) {steps : Nat} (hs : lines.length < steps) :
    statements steps (lines.flatMap fun line => line.1 ++ ['\n']) =
      some (lines.flatMap Prod.snd) := by
  induction lines generalizing steps with
  | nil =>
    obtain ⟨steps, rfl⟩ := Nat.exists_eq_add_one_of_ne_zero (Nat.ne_of_gt hs)
    rfl
  | cons line lines ih =>
    rw [List.forall_mem_cons] at h
    rw [List.length_cons] at hs
    obtain ⟨steps, rfl⟩ : ∃ n, steps = n + 1 := ⟨steps - 1, by omega⟩
    rw [List.flatMap_cons, List.append_assoc, List.singleton_append, h.1, ih h.2 (by omega)]
    rfl

/-- A document is what the statements on its lines build. -/
theorem parse?_of_lines {text : String} {lines : List (List Char × List Statement)}
    (htext : text.toList = lines.flatMap fun line => line.1 ++ ['\n'])
    (hmark : dropByteOrderMark text.toList = text.toList)
    (h : ∀ line ∈ lines, ReadsAs line.1 line.2) :
    parse? text = build (lines.flatMap Prod.snd) := by
  have hlength : lines.length ≤ (lines.flatMap fun line => line.1 ++ ['\n']).length := by
    clear htext h
    induction lines with
    | nil => exact Nat.zero_le _
    | cons line lines ih =>
      rw [List.flatMap_cons, List.length_append, List.length_append, List.length_cons,
        List.length_singleton]
      omega
  have hread := statements_lines h (Nat.lt_succ_of_le hlength)
  change (statements ((dropByteOrderMark text.toList).length + 1)
    (dropByteOrderMark text.toList)).bind build = _
  rw [hmark, htext, hread]
  rfl

end Lines

end SearchCompiler.Toml
