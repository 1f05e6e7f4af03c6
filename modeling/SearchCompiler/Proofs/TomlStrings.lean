import Mathlib.Tactic.SplitIfs
import SearchCompiler.Toml.Printer
import SearchCompiler.Toml.Reader

/-!
Strings read back from what they are written as, in each of the four forms. Between double quotes a
character stands for itself or has an escape, and the reader takes one step for it. Between three
quotes there is one thing more to keep apart: quotes of the string from those that close it.
-/

namespace SearchCompiler.Toml

/-- A text that stands for a character between double quotes: the character, or an escape that is
not the break of a line. -/
inductive StandsFor (c : Char) : List Char → Prop
  | plain : isControl c = false → c ≠ '"' → c ≠ '\\' → StandsFor c [c]
  | escape {text : List Char} : (∀ rest, escape (text ++ rest) = some (c, rest)) →
    (∀ rest, afterBreak? (text ++ rest) = none) → StandsFor c ('\\' :: text)

section Escapes

variable {c : Char}

theorem lt_of_isControl (h : isControl c = true) : c.toNat < 128 := by
  unfold isControl at h
  rcases Bool.or_eq_true_iff.mp h with h | h
  · have hlt : c.toNat < 32 := by simpa using (Bool.and_eq_true_iff.mp h).1
    omega
  · rw [eq_of_beq h]
    decide

theorem ne_of_not_isControl (h : isControl c = false) : c ≠ '\n' ∧ c ≠ '\r' := by
  constructor <;> rintro rfl <;> revert h <;> decide

/-- Four digits of base 16 give back the character whose code they are. -/
theorem scalarOf?_code (h : c.toNat < 256) :
    scalarOf? ['0', '0', Text.upperHex (c.toNat / 16), Text.upperHex (c.toNat % 16)] = some c := by
  have hzero : Text.hexValue? '0' = some 0 := by decide
  have hhigh := Text.hexValue?_upperHex (c.toNat / 16) (by omega)
  have hlow := Text.hexValue?_upperHex (c.toNat % 16) (by omega)
  have hdigits : ['0', '0', Text.upperHex (c.toNat / 16), Text.upperHex (c.toNat % 16)].mapM
      Text.hexValue? = some [0, 0, c.toNat / 16, c.toNat % 16] := by
    simp only [List.mapM_cons, List.mapM_nil, hzero, hhigh, hlow]
    rfl
  have hvalue : digitValue 16 [0, 0, c.toNat / 16, c.toNat % 16] = c.toNat := by
    simp only [digitValue, List.foldl_cons, List.foldl_nil]
    omega
  have hscalar : c.toNat < 0xD800 ∨ (0xDFFF < c.toNat ∧ c.toNat < 0x110000) := by omega
  simp only [scalarOf?, hdigits, Option.bind_eq_bind, Option.bind_some, hvalue, if_pos hscalar,
    Char.ofNat_toNat]

theorem standsFor_codeEscape (h : c.toNat < 256) : StandsFor c (codeEscape c) := by
  refine .escape (fun rest => ?_) fun rest => rfl
  have hcode := scalarOf?_code h
  simp only [List.cons_append, List.nil_append, escape, numericEscape, List.take_succ_cons,
    List.take_zero, List.drop_succ_cons, List.drop_zero, List.length_cons, List.length_nil, hcode]
  rfl

theorem standsFor_escaped (h : c ≠ '"') : StandsFor c (escaped c) := by
  unfold escaped
  split_ifs with hb ht hf hr hs hc
  · subst hb
    exact .escape (fun _ => rfl) fun _ => rfl
  · subst ht
    exact .escape (fun _ => rfl) fun _ => rfl
  · subst hf
    exact .escape (fun _ => rfl) fun _ => rfl
  · subst hr
    exact .escape (fun _ => rfl) fun _ => rfl
  · subst hs
    exact .escape (fun _ => rfl) fun _ => rfl
  · have hlt := lt_of_isControl hc
    exact standsFor_codeEscape (by omega)
  · exact .plain (by simpa using hc) h hs

/-- A text that stands for a character begins with no quote and ends no line. -/
theorem head_of_standsFor {text : List Char} (h : StandsFor c text) :
    ∃ first rest, text = first :: rest ∧ first ≠ '"' ∧ first ≠ '\n' ∧ first ≠ '\r' := by
  cases h with
  | plain hcontrol hquote _ =>
    obtain ⟨hfeed, hreturn⟩ := ne_of_not_isControl hcontrol
    exact ⟨c, [], rfl, hquote, hfeed, hreturn⟩
  | escape _ _ => exact ⟨_, _, rfl, by decide, by decide, by decide⟩

end Escapes

section OneLine

/-- How a character stands in a string on one line. -/
def basicPiece (c : Char) : List Char :=
  if c = '"' then ['\\', '"'] else if c = '\n' then ['\\', 'n'] else escaped c

theorem basicText_cons (c : Char) (cs : List Char) :
    basicText (c :: cs) = basicPiece c ++ basicText cs :=
  List.flatMap_cons

theorem standsFor_basicPiece (c : Char) : StandsFor c (basicPiece c) := by
  unfold basicPiece
  split_ifs with hquote hfeed
  · subst hquote
    exact .escape (fun _ => rfl) fun _ => rfl
  · subst hfeed
    exact .escape (fun _ => rfl) fun _ => rfl
  · exact standsFor_escaped hquote

theorem basicBody_standsFor {c : Char} {text : List Char} (h : StandsFor c text) (steps : Nat)
    (rest : List Char) :
    basicBody (steps + 1) (text ++ rest) = (basicBody steps rest).map (prepend c) := by
  cases h with
  | plain hcontrol hquote hslash =>
    rw [List.singleton_append, basicBody, hcontrol]
    · rfl
    · exact hquote
    · exact hslash
  | escape hread _ =>
    rw [List.cons_append, basicBody, hread]
    rfl

theorem basicBody_basicText (cs rest : List Char) {steps : Nat} (h : cs.length < steps) :
    basicBody steps (basicText cs ++ '"' :: rest) = some (cs, rest) := by
  induction cs generalizing steps with
  | nil =>
    obtain ⟨steps, rfl⟩ := Nat.exists_eq_add_one_of_ne_zero (Nat.ne_of_gt h)
    rfl
  | cons c cs ih =>
    rw [List.length_cons] at h
    obtain ⟨steps, rfl⟩ : ∃ n, steps = n + 1 := ⟨steps - 1, by omega⟩
    rw [basicText_cons, List.append_assoc, basicBody_standsFor (standsFor_basicPiece c),
      ih (by omega)]
    rfl

theorem literalBody_append {cs : List Char} (h : fitsLiteral cs = true) (rest : List Char) :
    literalBody (cs ++ '\'' :: rest) = some (cs, rest) := by
  induction cs with
  | nil => rfl
  | cons c cs ih =>
    rw [fitsLiteral, List.all_cons, Bool.and_eq_true, Bool.and_eq_true] at h
    obtain ⟨⟨hcontrol, hquote⟩, hcs⟩ := h
    have hcontrol' : isControl c = false := by simpa using hcontrol
    rw [List.cons_append, literalBody, hcontrol', ih hcs]
    · rfl
    · simpa using hquote

end OneLine

section Lines

/-- Up to two quotes before the three that close a string belong to the string. -/
theorem closing_append (quote : Char) (hq : quote ≠ '\n') (rest : List Char) :
    ∀ quotes ∈ [[], [quote], [quote, quote]],
      closing quote (quotes ++ '\n' :: rest) = (quotes, '\n' :: rest) := by
  have hq' : ¬ '\n' = quote := fun h => hq h.symm
  rw [List.forall_mem_cons, List.forall_mem_cons, List.forall_mem_singleton]
  refine ⟨?_, ?_, ?_⟩
  · cases rest with
    | nil => simp [closing, hq']
    | cons c rest => simp [closing, hq']
  · simp [closing, hq']
  · simp [closing]

/-- Three quotes in a row before the closing of a string without such quotes begin with one of its
last two characters, and these are quotes. -/
theorem quotes_at_end {quote c : Char} {cs rest more : List Char}
    (h : hasTriple quote (c :: cs) = false) (hc : c = quote)
    (hn : cs ++ quote :: quote :: quote :: rest = quote :: quote :: more) :
    cs = [] ∨ cs = [quote] := by
  rcases cs with - | ⟨d, - | ⟨e, cs⟩⟩
  · exact .inl rfl
  · rw [List.singleton_append] at hn
    exact .inr (by rw [(List.cons.inj hn).1])
  · rw [List.cons_append, List.cons_append] at hn
    obtain ⟨rfl, hn⟩ := List.cons.inj hn
    obtain ⟨rfl, _⟩ := List.cons.inj hn
    subst hc
    simp [hasTriple] at h

theorem hasTriple_tail {quote c : Char} {cs : List Char} (h : hasTriple quote (c :: cs) = false) :
    hasTriple quote cs = false := by
  rcases cs with - | ⟨d, - | ⟨e, cs⟩⟩
  · rfl
  · rfl
  · rw [hasTriple, Bool.or_eq_false_iff] at h
    exact h.2

/-- A string without three quotes in a row is read back from between three quotes. -/
theorem literalLines_append {cs : List Char}
    (hfit : (cs.all fun c => c == '\n' || !isControl c) = true)
    (htriple : hasTriple '\'' cs = false) (rest : List Char) :
    literalLines (cs ++ '\'' :: '\'' :: '\'' :: '\n' :: rest) = some (cs, '\n' :: rest) := by
  have hclosing := closing_append '\'' (by decide) rest
  induction cs with
  | nil =>
    rw [List.nil_append, literalLines, ← List.nil_append ('\n' :: rest), hclosing [] (by simp)]
    rfl
  | cons c cs ih =>
    rw [List.all_cons, Bool.and_eq_true] at hfit
    obtain ⟨hc, hcs⟩ := hfit
    by_cases hend : c = '\'' ∧ (cs = [] ∨ cs = ['\''])
    · obtain ⟨rfl, rfl | rfl⟩ := hend
      · exact congrArg some (hclosing ['\''] (by simp))
      · exact congrArg some (hclosing ['\'', '\''] (by simp))
    · have hallowed : ¬ (c ≠ '\n' ∧ isControl c = true) := by
        rintro ⟨hne, hcontrol⟩
        simp [hne, hcontrol] at hc
      rw [List.cons_append, literalLines, if_neg hallowed, ih hcs (hasTriple_tail htriple)]
      · rfl
      · intro more hquote hn
        exact hend ⟨hquote, quotes_at_end htriple hquote hn⟩
      · rintro _ rfl _
        exact hallowed (by decide)

variable {steps quotes : Nat} {rest : List Char}

theorem basicLines_standsFor {c : Char} {text : List Char} (h : StandsFor c text) :
    basicLines (steps + 1) (text ++ rest) = (basicLines steps rest).map (prepend c) := by
  cases h with
  | plain hcontrol hquote hslash =>
    have hallowed : ¬ (c ≠ '\n' ∧ isControl c = true) := by simp [hcontrol]
    rw [List.singleton_append, basicLines, if_neg hallowed]
    · exact fun _ hc _ => hquote hc
    · exact hslash
    · exact fun _ hc _ => (ne_of_not_isControl hcontrol).2 hc
  | escape hread hbreak =>
    rw [List.cons_append, basicLines, hbreak, hread]
    rfl

theorem basicLines_feed :
    basicLines (steps + 1) ('\n' :: rest) = (basicLines steps rest).map (prepend '\n') := by
  rw [basicLines, if_neg (by simp)] <;> simp

theorem basicLines_quote (h : ∀ more, rest ≠ '"' :: '"' :: more) :
    basicLines (steps + 1) ('"' :: rest) = (basicLines steps rest).map (prepend '"') := by
  rw [basicLines, if_neg (by decide)]
  · exact fun more _ hn => h more hn
  · decide
  · exact fun _ hc _ => absurd hc (by decide)

theorem basicLinesText_other {c : Char} {cs : List Char} (hquote : c ≠ '"') (hfeed : c ≠ '\n') :
    basicLinesText quotes (c :: cs) = escaped c ++ basicLinesText 0 cs := by
  rw [basicLinesText]
  · exact hquote
  · exact hfeed

/-- A text begins with a quote only if the string does and two quotes do not stand before it, or if
the string is empty. -/
theorem quote_of_basicLinesText {cs more : List Char}
    (h : basicLinesText quotes cs ++ rest = '"' :: more) :
    cs = [] ∨ quotes ≠ 2 ∧ ∃ cs', cs = '"' :: cs' ∧
      basicLinesText (quotes + 1) cs' ++ rest = more := by
  rcases cs with - | ⟨c, cs⟩
  · exact .inl rfl
  · right
    by_cases hquote : c = '"'
    · subst hquote
      rw [basicLinesText] at h
      split at h
      · exact absurd (List.cons.inj h).1 (by decide)
      · next hne => exact ⟨hne, cs, rfl, (List.cons.inj h).2⟩
    · by_cases hfeed : c = '\n'
      · subst hfeed
        exact absurd (List.cons.inj h).1 (by decide)
      · obtain ⟨first, text, htext, hfirst, _⟩ := head_of_standsFor (standsFor_escaped hquote)
        rw [basicLinesText_other hquote hfeed, htext] at h
        exact absurd (List.cons.inj h).1 hfirst

/-- A string is read back from between three double quotes, whatever quotes it has: of three in a row
the last one is escaped. -/
theorem basicLines_basicLinesText (cs rest : List Char) (hq : quotes ≤ 2)
    (h : cs.length < steps) :
    basicLines steps (basicLinesText quotes cs ++ '"' :: '"' :: '"' :: '\n' :: rest) =
      some (cs, '\n' :: rest) := by
  have hclosing := closing_append '"' (by decide) rest
  induction cs generalizing quotes steps with
  | nil =>
    obtain ⟨steps, rfl⟩ := Nat.exists_eq_add_one_of_ne_zero (Nat.ne_of_gt h)
    exact congrArg some (hclosing [] (by simp))
  | cons c cs ih =>
    rw [List.length_cons] at h
    obtain ⟨steps, rfl⟩ : ∃ n, steps = n + 1 := ⟨steps - 1, by omega⟩
    by_cases hquote : c = '"'
    · subst hquote
      by_cases htwo : quotes = 2
      · have hescape : StandsFor '"' ['\\', '"'] := .escape (fun _ => rfl) fun _ => rfl
        rw [basicLinesText, if_pos htwo]
        change basicLines (steps + 1) (['\\', '"'] ++ (basicLinesText 0 cs ++ _)) = _
        rw [basicLines_standsFor hescape, ih (by omega) (by omega)]
        rfl
      · rw [basicLinesText, if_neg htwo, List.cons_append]
        by_cases hend : ∃ more, basicLinesText (quotes + 1) cs ++ '"' :: '"' :: '"' :: '\n' :: rest =
            '"' :: '"' :: more
        · -- The quotes are at the end, one or two before the three that close the string.
          obtain ⟨more, hmore⟩ := hend
          rcases quote_of_basicLinesText hmore with rfl | ⟨hne, cs', rfl, hlast⟩
          · exact congrArg some (hclosing ['"'] (by simp))
          · rcases quote_of_basicLinesText hlast with rfl | ⟨hne', _⟩
            · rw [basicLinesText, if_neg hne]
              exact congrArg some (hclosing ['"', '"'] (by simp))
            · omega
        · rw [basicLines_quote fun more hmore => hend ⟨more, hmore⟩, ih (by omega) (by omega)]
          rfl
    · by_cases hfeed : c = '\n'
      · subst hfeed
        rw [basicLinesText, List.cons_append, basicLines_feed, ih (by omega) (by omega)]
        rfl
      · rw [basicLinesText_other hquote hfeed, List.append_assoc,
          basicLines_standsFor (standsFor_escaped hquote), ih (by omega) (by omega)]
        rfl

end Lines

section Strings

theorem length_le_basicText (cs : List Char) : cs.length ≤ (basicText cs).length := by
  induction cs with
  | nil => exact Nat.zero_le _
  | cons c cs ih =>
    obtain ⟨first, text, htext, _⟩ := head_of_standsFor (standsFor_basicPiece c)
    rw [basicText_cons, htext, List.length_append, List.length_cons, List.length_cons]
    omega

theorem length_le_basicLinesText (quotes : Nat) (cs : List Char) :
    cs.length ≤ (basicLinesText quotes cs).length := by
  fun_induction basicLinesText quotes cs with
  | case1 => exact Nat.zero_le _
  | case2 rest ih =>
    simp only [List.length_cons]
    omega
  | case3 quotes rest _ ih =>
    simp only [List.length_cons]
    omega
  | case4 _ rest ih =>
    simp only [List.length_cons]
    omega
  | case5 _ c rest hquote _ ih =>
    obtain ⟨first, text, htext, _⟩ := head_of_standsFor (standsFor_escaped hquote)
    rw [htext, List.length_append, List.length_cons, List.length_cons]
    omega

theorem string?_basicText (cs rest : List Char) :
    string? ('"' :: (basicText cs ++ '"' :: '\n' :: rest)) =
      some (String.ofList cs, '\n' :: rest) := by
  have hlength := length_le_basicText cs
  have hsteps : cs.length < (basicText cs ++ '"' :: '\n' :: rest).length + 1 := by
    rw [List.length_append]
    omega
  rw [string?, basicBody_basicText cs ('\n' :: rest) hsteps]
  · rfl
  · intro more hmore
    cases cs with
    | nil => exact absurd (List.cons.inj (List.cons.inj hmore).2).1 (by decide)
    | cons c cs =>
      obtain ⟨first, text, htext, hfirst, _⟩ := head_of_standsFor (standsFor_basicPiece c)
      rw [basicText_cons, htext] at hmore
      exact hfirst (List.cons.inj hmore).1

theorem string?_literal {cs : List Char} (hne : cs ≠ []) (h : fitsLiteral cs = true)
    (rest : List Char) :
    string? ('\'' :: (cs ++ '\'' :: rest)) = some (String.ofList cs, rest) := by
  rw [string?, literalBody_append h]
  · rfl
  · intro more hmore
    cases cs with
    | nil => exact hne rfl
    | cons c cs =>
      rw [fitsLiteral, List.all_cons] at h
      rw [(List.cons.inj hmore).1] at h
      exact absurd h (by simp)

/-- What the opening of a string over several lines takes with it is the line feed that the printer
adds, and nothing of the string. -/
theorem afterOpening_feeds {feeds : Bool} {body : List Char}
    (h : feeds = false → ∃ first rest, body = first :: rest ∧ first ≠ '\n' ∧ first ≠ '\r') :
    afterOpening ((if feeds then ['\n'] else []) ++ body) = body := by
  cases feeds with
  | true => rfl
  | false =>
    obtain ⟨first, rest, rfl, hfeed, hreturn⟩ := h rfl
    have hnone : afterNewline? (first :: rest) = none := by
      unfold afterNewline?
      split
      · next heq => exact absurd (List.cons.inj heq).1 hfeed
      · next heq => exact absurd (List.cons.inj heq).1 hreturn
      · rfl
    change (afterNewline? (first :: rest)).getD _ = _
    rw [hnone]
    rfl

theorem overLines_append (quote : Char) (feeds : Bool) (body rest : List Char) :
    overLines quote feeds body ++ rest = quote :: quote :: quote ::
      ((if feeds then ['\n'] else []) ++ (body ++ quote :: quote :: quote :: rest)) := by
  simp [overLines]

theorem head_of_basicLinesText (cs rest : List Char) (h : cs.contains '\n' = false) :
    ∃ first more, basicLinesText 0 cs ++ '"' :: rest = first :: more ∧
      first ≠ '\n' ∧ first ≠ '\r' := by
  cases cs with
  | nil => exact ⟨_, _, rfl, by decide, by decide⟩
  | cons c cs =>
    by_cases hquote : c = '"'
    · subst hquote
      exact ⟨_, _, rfl, by decide, by decide⟩
    · have hfeed : c ≠ '\n' := by
        rintro rfl
        simp at h
      obtain ⟨first, text, htext, _, hends⟩ := head_of_standsFor (standsFor_escaped hquote)
      rw [basicLinesText_other hquote hfeed, htext]
      exact ⟨first, _, rfl, hends⟩

theorem head_of_literalLines {cs : List Char}
    (hfit : (cs.all fun c => c == '\n' || !isControl c) = true) (rest : List Char)
    (h : cs.contains '\n' = false) :
    ∃ first more, cs ++ '\'' :: rest = first :: more ∧ first ≠ '\n' ∧ first ≠ '\r' := by
  cases cs with
  | nil => exact ⟨_, _, rfl, by decide, by decide⟩
  | cons c cs =>
    have hfeed : c ≠ '\n' := by
      rintro rfl
      simp at h
    have hcontrol : isControl c = false := by
      rw [List.all_cons, Bool.and_eq_true] at hfit
      simpa [hfeed] using hfit.1
    exact ⟨c, _, rfl, ne_of_not_isControl hcontrol⟩

theorem string?_basicLinesText (cs rest : List Char) :
    string? (overLines '"' (cs.contains '\n') (basicLinesText 0 cs) ++ '\n' :: rest) =
      some (String.ofList cs, '\n' :: rest) := by
  have hopening := afterOpening_feeds (head_of_basicLinesText cs ('"' :: '"' :: '\n' :: rest))
  have hlength := length_le_basicLinesText 0 cs
  rw [overLines_append, string?, hopening, basicLines_basicLinesText cs rest (Nat.zero_le 2)]
  · rfl
  · simp only [List.length_append]
    omega

theorem string?_literalLines {cs : List Char} (h : fitsLiteralLines cs = true) (rest : List Char) :
    string? (overLines '\'' (cs.contains '\n') cs ++ '\n' :: rest) =
      some (String.ofList cs, '\n' :: rest) := by
  obtain ⟨hfit, htriple⟩ := Bool.and_eq_true_iff.mp h
  rw [Bool.not_eq_true'] at htriple
  have hopening := afterOpening_feeds (head_of_literalLines hfit ('\'' :: '\'' :: '\n' :: rest))
  rw [overLines_append, string?, hopening, literalLines_append hfit htriple]
  rfl

/-- Every string is read back from what it is written as. -/
theorem string?_stringChars (cs rest : List Char) :
    string? (stringChars cs ++ '\n' :: rest) = some (String.ofList cs, '\n' :: rest) := by
  have hbasic : string? (['"'] ++ basicText cs ++ ['"'] ++ '\n' :: rest) =
      some (String.ofList cs, '\n' :: rest) := by
    rw [← string?_basicText]
    simp
  unfold stringChars
  simp only
  split_ifs with hfits hliteral _ hlines _
  · exact hbasic
  · have hne : cs ≠ [] := by
      rintro rfl
      exact hfits rfl
    rw [← string?_literal hne hliteral]
    simp
  · exact string?_basicLinesText cs rest
  · exact string?_literalLines hlines rest
  · exact string?_basicLinesText cs rest
  · exact hbasic

end Strings

end SearchCompiler.Toml
