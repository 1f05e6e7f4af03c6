import SearchCompiler.Proofs.OneLineTexts
import SearchCompiler.Text.Lines

/-!
Texts whose end can be told from what comes after them. Two quoted texts that are continued to the
same text are the same and so are their continuations, and likewise the compact texts of JSON values
whose numbers are integers, where a number ends at the first character that is no digit.
-/

namespace SearchCompiler

namespace Text

/-- The number that digits of base 16 stand for. -/
def hexNumber (digits : List Char) : Nat :=
  digits.foldl (fun n c => 16 * n + (hexValue? c).getD 0) 0

/-- The character that an escaped text begins with, and what comes after it. A quote that is not
escaped ends the text. -/
def readEscaped : List Char → Option (Char × List Char)
  | '\\' :: 'u' :: '\x7b' :: rest =>
    let digits := rest.takeWhile (· ≠ '\x7d')
    some (Char.ofNat (hexNumber digits), (rest.dropWhile (· ≠ '\x7d')).tail)
  | '\\' :: 'u' :: '0' :: '0' :: high :: low :: rest =>
    some (Char.ofNat (hexNumber [high, low]), rest)
  | '\\' :: '0' :: rest => some ('\x00', rest)
  | '\\' :: 'b' :: rest => some ('\x08', rest)
  | '\\' :: 't' :: rest => some ('\t', rest)
  | '\\' :: 'n' :: rest => some ('\n', rest)
  | '\\' :: 'f' :: rest => some ('\x0c', rest)
  | '\\' :: 'r' :: rest => some ('\r', rest)
  | '\\' :: c :: rest => some (c, rest)
  | '"' :: _ => none
  | c :: rest => some (c, rest)
  | [] => none

section Escapes

theorem hexNumber_hexDigits (n : Nat) : hexNumber (hexDigits n) = n := by
  -- The last digit stands for the remainder, those before it are the digits of the quotient.
  induction n using Nat.strongRecOn with
  | _ n ih =>
    unfold hexDigits hexNumber at *
    by_cases hn : n < 16
    · rw [Nat.toDigits_of_lt_base hn]
      simp [hexValue?_digitChar n hn]
    · rw [Nat.toDigits_of_base_le (by decide) (by omega), List.foldl_append,
        ih (n / 16) (by omega)]
      simp only [List.foldl_cons, List.foldl_nil, hexValue?_digitChar _ (Nat.mod_lt n (by decide)),
        Option.getD_some]
      omega

theorem readEscaped_of_ne {c : Char} (hslash : c ≠ '\\') (hquote : c ≠ '"') (rest : List Char) :
    readEscaped (c :: rest) = some (c, rest) := by
  unfold readEscaped
  split <;> simp_all

theorem readEscaped_quotedChar (c : Char) (rest : List Char) :
    readEscaped (quotedChar c ++ rest) = some (c, rest) := by
  unfold quotedChar
  split
  · next h => subst h; rfl
  split
  · next h => subst h; rfl
  split
  · next h => subst h; rfl
  split
  · next h => subst h; rfl
  split
  · next h => subst h; rfl
  split
  · next h => subst h; rfl
  split
  · have hdigits : (hexDigits c.toNat).all (· ≠ '\x7d') = true := by
      apply List.all_eq_true.mpr
      intro d hd
      exact decide_eq_true (ne_of_mem_of_not_mem hd (not_mem_hexDigits (by decide) _))
    have hclose : decide ('\x7d' ≠ '\x7d') = false := by decide
    obtain ⟨htake, hdrop⟩ := run_append hdigits hclose rest
    have hread : readEscaped ('\\' :: 'u' :: '\x7b' :: (hexDigits c.toNat ++ '\x7d' :: rest)) =
        some (Char.ofNat (hexNumber (hexDigits c.toNat)), rest) := by
      rw [readEscaped, htake, hdrop, List.tail_cons]
    rw [hexNumber_hexDigits, Char.ofNat_toNat] at hread
    simpa using hread
  · next hquote hslash _ => exact readEscaped_of_ne hslash hquote rest

theorem readEscaped_escapedChar (c : Char) (rest : List Char) :
    readEscaped (Json.escapedChar c ++ rest) = some (c, rest) := by
  unfold Json.escapedChar
  split
  · next h => subst h; rfl
  split
  · next h => subst h; rfl
  split
  · next h => subst h; rfl
  split
  · next h => subst h; rfl
  split
  · next h => subst h; rfl
  split
  · next h => subst h; rfl
  split
  · next h => subst h; rfl
  split
  · next hlt =>
    have hhigh := hexValue?_lowerHex (c.toNat / 16) (by omega)
    have hlow := hexValue?_lowerHex (c.toNat % 16) (by omega)
    have hnumber : hexNumber [lowerHex (c.toNat / 16), lowerHex (c.toNat % 16)] = c.toNat := by
      simp only [hexNumber, List.foldl_cons, List.foldl_nil, hhigh, hlow, Option.getD_some]
      omega
    rw [List.cons_append, List.cons_append, List.cons_append, List.cons_append, List.cons_append,
      List.cons_append, List.nil_append, readEscaped, hnumber, Char.ofNat_toNat]
  · next hquote hslash _ _ _ _ _ _ => exact readEscaped_of_ne hslash hquote rest

end Escapes

section Quotes

theorem eq_of_readEscaped {code : Char → List Char}
    (hread : ∀ c rest, readEscaped (code c ++ rest) = some (c, rest)) {cs ds r s : List Char}
    (h : cs.flatMap code ++ '"' :: r = ds.flatMap code ++ '"' :: s) : cs = ds ∧ r = s := by
  have hquote (rest : List Char) : readEscaped ('"' :: rest) = none := rfl
  induction cs generalizing ds with
  | nil =>
    cases ds with
    | nil => simpa using h
    | cons d ds =>
      have hnone := congrArg readEscaped h
      rw [List.flatMap_cons, List.append_assoc, hread, List.flatMap_nil, List.nil_append,
        hquote] at hnone
      cases hnone
  | cons c cs ih =>
    have hchar := congrArg readEscaped h
    rw [List.flatMap_cons, List.append_assoc, hread] at hchar
    cases ds with
    | nil =>
      rw [List.flatMap_nil, List.nil_append, hquote] at hchar
      cases hchar
    | cons d ds =>
      rw [List.flatMap_cons, List.append_assoc, hread] at hchar
      obtain ⟨rfl, hrest⟩ := Prod.mk.inj (Option.some.inj hchar)
      obtain ⟨rfl, rfl⟩ := ih hrest
      exact ⟨rfl, rfl⟩

theorem eq_of_quotes {code : Char → List Char}
    (hread : ∀ c rest, readEscaped (code c ++ rest) = some (c, rest)) {s t : String}
    {r r' : List Char}
    (h : ("\"" ++ String.ofList (s.toList.flatMap code) ++ "\"").toList ++ r =
      ("\"" ++ String.ofList (t.toList.flatMap code) ++ "\"").toList ++ r') : s = t ∧ r = r' := by
  simp only [String.toList_append, String.toList_ofList, List.append_assoc] at h
  obtain ⟨hchars, hrest⟩ := eq_of_readEscaped hread (List.append_cancel_left h)
  exact ⟨String.toList_inj.mp hchars, hrest⟩

theorem eq_of_quoted {s t : String} {r r' : List Char}
    (h : (quoted s).toList ++ r = (quoted t).toList ++ r') : s = t ∧ r = r' :=
  eq_of_quotes readEscaped_quotedChar h

theorem eq_of_stringText {s t : String} {r r' : List Char}
    (h : (Json.stringText s).toList ++ r = (Json.stringText t).toList ++ r') : s = t ∧ r = r' :=
  eq_of_quotes readEscaped_escapedChar h

end Quotes

/-- The texts of two things tell where they end: where they are continued to the same text, by
something that can stand after such a text, the things are the same and so are the continuations. -/
def Delimited {α : Type} (stop : List Char → Prop) (text : α → String) (x y : α) : Prop :=
  ∀ ⦃r s : List Char⦄, stop r → stop s →
    (text x).toList ++ r = (text y).toList ++ s → x = y ∧ r = s

variable {stop : List Char → Prop}

section Digits

/-- A text does not begin with a digit. -/
def NoDigit (rest : List Char) : Prop :=
  ∀ c ∈ rest.head?, c.isDigit = false

theorem noDigit_cons {c : Char} (h : c.isDigit = false) (rest : List Char) :
    NoDigit (c :: rest) := by
  intro d hd
  cases hd
  exact h

theorem takeWhile_isDigit (n : Nat) {rest : List Char} (h : NoDigit rest) :
    ((toString n).toList ++ rest).takeWhile Char.isDigit = Nat.toDigits 10 n := by
  have hdigits : ∀ c ∈ Nat.toDigits 10 n, c.isDigit = true :=
    fun c hc => Nat.isDigit_of_mem_toDigits (by decide) (by decide) hc
  have hrest : rest.takeWhile Char.isDigit = [] := by
    cases rest with
    | nil => rfl
    | cons c rest =>
      have hc := h c rfl
      rw [List.takeWhile_cons_of_neg (by simp [hc])]
  rw [Nat.toString_eq_ofList_toDigits, String.toList_ofList,
    List.takeWhile_append_of_pos hdigits, hrest, List.append_nil]

theorem delimited_toString_nat (m n : Nat) :
    Delimited NoDigit (fun n : Nat => toString n) m n := by
  intro r s hr hs h
  have hdigits := congrArg (List.takeWhile Char.isDigit) h
  rw [takeWhile_isDigit m hr, takeWhile_isDigit n hs] at hdigits
  have hmn := congrArg (fun digits => Nat.ofDigitChars 10 digits 0) hdigits
  simp only [Nat.ofDigitChars_ten_toDigits] at hmn
  subst hmn
  exact ⟨rfl, List.append_cancel_left h⟩

theorem exists_head_toString_nat (n : Nat) :
    ∃ c rest, (toString n).toList = c :: rest ∧ c.isDigit = true := by
  obtain ⟨c, rest, hn⟩ := List.exists_cons_of_ne_nil (Nat.toDigits_ne_nil (n := n) (b := 10))
  refine ⟨c, rest, by rw [Nat.toString_eq_ofList_toDigits, String.toList_ofList, hn], ?_⟩
  exact Nat.isDigit_of_mem_toDigits (b := 10) (n := n) (by decide) (by decide) (by simp [hn])

theorem toList_toString_negSucc (n : Nat) :
    (toString (Int.negSucc n)).toList = '-' :: (toString (n + 1)).toList := by
  have hminus : toString (Int.negSucc n) = "-" ++ toString (n + 1) := rfl
  rw [hminus, String.toList_append]
  rfl

theorem toString_append_ne_minus {n : Nat} {r s : List Char} :
    (toString n).toList ++ r ≠ '-' :: s := by
  obtain ⟨c, rest, hn, hc⟩ := exists_head_toString_nat n
  intro h
  rw [hn, List.cons_append] at h
  rw [(List.cons.inj h).1] at hc
  exact absurd hc (by decide)

theorem delimited_toString_int (m n : Int) :
    Delimited NoDigit (fun n : Int => toString n) m n := by
  intro r s hr hs h
  cases m with
  | ofNat m =>
    cases n with
    | ofNat n =>
      obtain ⟨rfl, hrest⟩ := delimited_toString_nat m n hr hs h
      exact ⟨rfl, hrest⟩
    | negSucc n =>
      simp only [toList_toString_negSucc, List.cons_append] at h
      exact absurd h (toString_append_ne_minus (n := m))
  | negSucc m =>
    simp only [toList_toString_negSucc, List.cons_append] at h
    cases n with
    | ofNat n => exact absurd h.symm (toString_append_ne_minus (n := n))
    | negSucc n =>
      simp only [toList_toString_negSucc, List.cons_append] at h
      obtain ⟨hmn, hrest⟩ := delimited_toString_nat (m + 1) (n + 1) hr hs (List.cons.inj h).2
      cases hmn
      exact ⟨rfl, hrest⟩

end Digits

section Rows

/-- The marks of a row of items: what stands between two items, by its first character and those
after it, and what closes the row. The text of an item can end before either. -/
structure Marks (stop : List Char → Prop) where
  first : Char
  more : List Char
  close : Char
  first_ne_close : first ≠ close
  stop_first : ∀ rest, stop (first :: rest)
  stop_close : ∀ rest, stop (close :: rest)

variable {α : Type} {text : α → String} (marks : Marks stop)

/-- The text of a row after its first item, the closing mark included, and what comes after it. -/
def Marks.tail (text : α → String) (xs : List α) (rest : List Char) : List Char :=
  xs.flatMap (fun x => marks.first :: (marks.more ++ (text x).toList)) ++ marks.close :: rest

theorem Marks.tail_cons (x : α) (xs : List α) (rest : List Char) :
    marks.tail text (x :: xs) rest =
      marks.first :: (marks.more ++ ((text x).toList ++ marks.tail text xs rest)) := by
  simp [Marks.tail]

theorem Marks.stop_tail (xs : List α) (rest : List Char) : stop (marks.tail text xs rest) := by
  cases xs with
  | nil => exact marks.stop_close rest
  | cons x xs =>
    rw [Marks.tail_cons]
    exact marks.stop_first _

theorem Marks.eq_of_tail {xs ys : List α}
    (hitems : ∀ x ∈ xs, ∀ y ∈ ys, Delimited stop text x y) {r s : List Char}
    (h : marks.tail text xs r = marks.tail text ys s) : xs = ys ∧ r = s := by
  -- What comes after an item is the tail of the row again, which no item runs into, so the items
  -- are told one after another.
  induction xs generalizing ys with
  | nil =>
    cases ys with
    | nil => exact ⟨rfl, (List.cons.inj h).2⟩
    | cons y ys => exact absurd (List.cons.inj h).1.symm marks.first_ne_close
  | cons x xs ih =>
    cases ys with
    | nil => exact absurd (List.cons.inj h).1 marks.first_ne_close
    | cons y ys =>
      rw [marks.tail_cons, marks.tail_cons] at h
      obtain ⟨rfl, htail⟩ := hitems x List.mem_cons_self y List.mem_cons_self
        (marks.stop_tail xs r) (marks.stop_tail ys s)
        (List.append_cancel_left (List.cons.inj h).2)
      obtain ⟨rfl, hrest⟩ := ih
        (fun x hx y hy => hitems x (List.mem_cons_of_mem _ hx) y (List.mem_cons_of_mem _ hy)) htail
      exact ⟨rfl, hrest⟩

theorem Marks.toList_intercalate {separator : String}
    (hsep : separator.toList = marks.first :: marks.more) (x : α) (xs : List α)
    (rest : List Char) :
    (separator.intercalate ((x :: xs).map text)).toList ++ marks.close :: rest =
      (text x).toList ++ marks.tail text xs rest := by
  induction xs generalizing x with
  | nil => simp [Marks.tail]
  | cons y ys ih =>
    rw [List.map_cons, List.map_cons, String.intercalate_cons_cons, ← List.map_cons,
      String.toList_append, String.toList_append, List.append_assoc, List.append_assoc, ih, hsep,
      marks.tail_cons, List.cons_append]

/-- A row of items tells where it ends, since no item begins with the mark that closes it. -/
theorem Marks.eq_of_intercalate {separator : String}
    (hsep : separator.toList = marks.first :: marks.more) {xs ys : List α}
    (hitems : ∀ x ∈ xs, ∀ y ∈ ys, Delimited stop text x y)
    (hxs : ∀ x ∈ xs, ∃ c rest, (text x).toList = c :: rest ∧ c ≠ marks.close)
    (hys : ∀ y ∈ ys, ∃ c rest, (text y).toList = c :: rest ∧ c ≠ marks.close) {r s : List Char}
    (h : (separator.intercalate (xs.map text)).toList ++ marks.close :: r =
      (separator.intercalate (ys.map text)).toList ++ marks.close :: s) : xs = ys ∧ r = s := by
  cases xs with
  | nil =>
    cases ys with
    | nil => simpa using h
    | cons y ys =>
      obtain ⟨c, rest, hy, hc⟩ := hys y List.mem_cons_self
      rw [marks.toList_intercalate hsep, hy] at h
      exact absurd (List.cons.inj h).1.symm hc
  | cons x xs =>
    cases ys with
    | nil =>
      obtain ⟨c, rest, hx, hc⟩ := hxs x List.mem_cons_self
      rw [marks.toList_intercalate hsep, hx] at h
      exact absurd (List.cons.inj h).1 hc
    | cons y ys =>
      rw [marks.toList_intercalate hsep, marks.toList_intercalate hsep] at h
      obtain ⟨rfl, htail⟩ := hitems x List.mem_cons_self y List.mem_cons_self
        (marks.stop_tail xs r) (marks.stop_tail ys s) h
      obtain ⟨rfl, hrest⟩ := marks.eq_of_tail
        (fun x hx y hy => hitems x (List.mem_cons_of_mem _ hx) y (List.mem_cons_of_mem _ hy)) htail
      exact ⟨rfl, hrest⟩

/-- The marks of a list of quoted texts. -/
def quotedMarks : Marks fun _ => True where
  first := ','
  more := [' ']
  close := ']'
  first_ne_close := by decide
  stop_first _ := trivial
  stop_close _ := trivial

theorem eq_of_quotedList {items items' : List String} {r s : List Char}
    (h : (quotedList items).toList ++ r = (quotedList items').toList ++ s) :
    items = items' ∧ r = s := by
  have hhead (s : String) : ∃ c rest, (quoted s).toList = c :: rest ∧ c ≠ ']' :=
    ⟨'"', s.toList.flatMap quotedChar ++ ['"'], by simp [quoted], by decide⟩
  simp only [quotedList, String.toList_append, List.append_assoc] at h
  exact quotedMarks.eq_of_intercalate rfl (fun x _ y _ r s _ _ h => eq_of_quoted h)
    (fun x _ => hhead x) (fun y _ => hhead y) (List.append_cancel_left h)

end Rows

end Text

namespace Json

open Text

/-- All numbers in a value, at any depth, are integers. -/
inductive Value.Integral : Value → Prop
  | null : Integral .null
  | bool (b : Bool) : Integral (.bool b)
  | number (n : Int) : Integral (.number (.integer n))
  | string (s : String) : Integral (.string s)
  | array {items : List Value} (h : ∀ item ∈ items, Integral item) : Integral (.array items)
  | object {members : List (String × Value)} (h : ∀ m ∈ members, Integral m.2) :
    Integral (.object members)

/-- The marks of the items of an array. -/
def itemMarks : Marks NoDigit where
  first := ','
  more := []
  close := ']'
  first_ne_close := by decide
  stop_first := noDigit_cons (by decide)
  stop_close := noDigit_cons (by decide)

/-- The marks of the members of an object. -/
def memberMarks : Marks NoDigit where
  first := ','
  more := []
  close := '\x7d'
  first_ne_close := by decide
  stop_first := noDigit_cons (by decide)
  stop_close := noDigit_cons (by decide)

def memberText (m : String × Value) : String :=
  stringText m.1 ++ ":" ++ m.2.compact

theorem compactItems_eq_map (items : List Value) :
    compactItems items = items.map Value.compact := by
  induction items with
  | nil => rw [compactItems, List.map_nil]
  | cons item rest ih => rw [compactItems, ih, List.map_cons]

theorem compactMembers_eq_map (members : List (String × Value)) :
    compactMembers members = members.map memberText := by
  induction members with
  | nil => rw [compactMembers, List.map_nil]
  | cons m rest ih => rw [compactMembers, ih, List.map_cons, memberText]

/-- The kind of the value that a text begins, by its first character. -/
def kindOf? (c : Char) : Option Kind :=
  if c.isDigit ∨ c = '-' then some .number
  else if c = 'n' then some .null
  else if c = 't' ∨ c = 'f' then some .boolean
  else if c = '"' then some .string
  else if c = '[' then some .array
  else if c = '\x7b' then some .object
  else none

theorem exists_head_compact {v : Value} (h : v.Integral) :
    ∃ c rest, v.compact.toList = c :: rest ∧ kindOf? c = some v.kind := by
  cases h with
  | null => exact ⟨_, _, rfl, by decide⟩
  | bool b => cases b <;> exact ⟨_, _, rfl, by decide⟩
  | number n =>
    cases n with
    | ofNat n =>
      obtain ⟨c, rest, hn, hc⟩ := exists_head_toString_nat n
      exact ⟨c, rest, hn, if_pos (.inl hc)⟩
    | negSucc n => exact ⟨'-', _, toList_toString_negSucc n, rfl⟩
  | string s =>
    exact ⟨'"', s.toList.flatMap escapedChar ++ ['"'], by simp [stringText, Value.compact], rfl⟩
  | @array items h =>
    exact ⟨'[', (",".intercalate (compactItems items)).toList ++ [']'], by simp [Value.compact],
      rfl⟩
  | @object members h =>
    exact ⟨'\x7b', (",".intercalate (compactMembers members)).toList ++ ['\x7d'],
      by simp [Value.compact], rfl⟩

theorem kind_eq_of_compact {v w : Value} (hv : v.Integral) (hw : w.Integral) {r s : List Char}
    (h : v.compact.toList ++ r = w.compact.toList ++ s) : v.kind = w.kind := by
  obtain ⟨c, rest, hc, hk⟩ := exists_head_compact hv
  obtain ⟨d, rest', hd, hl⟩ := exists_head_compact hw
  rw [hc, hd] at h
  rw [(List.cons.inj h).1, hl] at hk
  exact (Option.some.inj hk).symm

theorem delimited_memberText {m m' : String × Value}
    (hvalue : Delimited NoDigit Value.compact m.2 m'.2) : Delimited NoDigit memberText m m' := by
  intro r s hr hs h
  simp only [memberText, String.toList_append, List.append_assoc] at h
  obtain ⟨hkey, hrest⟩ := eq_of_stringText h
  obtain ⟨hval, hrest⟩ := hvalue hr hs (List.append_cancel_left hrest)
  exact ⟨Prod.ext hkey hval, hrest⟩

theorem ne_of_kindOf? {c d : Char} {k : Kind} (hc : kindOf? c = some k) (hd : kindOf? d = none) :
    c ≠ d := by
  rintro rfl
  rw [hd] at hc
  cases hc

/-- Rows of values tell where they end if their values do. -/
theorem delimited_array {items items' : List Value} (h : ∀ item ∈ items, item.Integral)
    (h' : ∀ item ∈ items', item.Integral)
    (hd : ∀ item ∈ items, ∀ item' ∈ items', Delimited NoDigit Value.compact item item') :
    Delimited NoDigit Value.compact (.array items) (.array items') := by
  intro r s _ _ htext
  have hhead {v : Value} (hv : v.Integral) :
      ∃ c rest, v.compact.toList = c :: rest ∧ c ≠ ']' := by
    obtain ⟨c, rest, hc, hk⟩ := exists_head_compact hv
    exact ⟨c, rest, hc, ne_of_kindOf? hk (by decide)⟩
  simp only [Value.compact, compactItems_eq_map, String.toList_append, List.append_assoc] at htext
  obtain ⟨rfl, hrest⟩ := itemMarks.eq_of_intercalate rfl hd (fun x hx => hhead (h x hx))
    (fun y hy => hhead (h' y hy)) (List.append_cancel_left htext)
  exact ⟨rfl, hrest⟩

theorem delimited_object {members members' : List (String × Value)}
    (hd : ∀ m ∈ members, ∀ m' ∈ members', Delimited NoDigit Value.compact m.2 m'.2) :
    Delimited NoDigit Value.compact (.object members) (.object members') := by
  intro r s _ _ htext
  have hhead (m : String × Value) : ∃ c rest, (memberText m).toList = c :: rest ∧ c ≠ '\x7d' := by
    refine ⟨'"', m.1.toList.flatMap escapedChar ++ ['"', ':'] ++ m.2.compact.toList, ?_, by decide⟩
    simp [memberText, stringText]
  simp only [Value.compact, compactMembers_eq_map, String.toList_append, List.append_assoc] at htext
  obtain ⟨rfl, hrest⟩ := memberMarks.eq_of_intercalate rfl
    (fun x hx y hy => delimited_memberText (hd x hx y hy)) (fun x _ => hhead x)
    (fun y _ => hhead y) (List.append_cancel_left htext)
  exact ⟨rfl, hrest⟩

/-- The compact text of a value whose numbers are integers tells where it ends. -/
theorem delimited_compact {v w : Value} (hv : v.Integral) (hw : w.Integral) :
    Delimited NoDigit Value.compact v w := by
  -- The first characters agree, so the values are of one kind; what an array or an object holds is
  -- a row of texts that tell where they end by induction.
  induction hv generalizing w with
  | null =>
    intro r s _ _ h
    have hkind := kind_eq_of_compact .null hw h
    cases hw with
    | null => exact ⟨rfl, List.append_cancel_left h⟩
    | _ => cases hkind
  | bool b =>
    intro r s _ _ h
    have hkind := kind_eq_of_compact (.bool b) hw h
    cases hw with
    | bool b' =>
      cases b <;> cases b'
      · exact ⟨rfl, List.append_cancel_left h⟩
      · exact absurd (List.cons.inj h).1 (by decide)
      · exact absurd (List.cons.inj h).1 (by decide)
      · exact ⟨rfl, List.append_cancel_left h⟩
    | _ => cases hkind
  | number n =>
    intro r s hr hs h
    have hkind := kind_eq_of_compact (.number n) hw h
    cases hw with
    | number n' =>
      obtain ⟨rfl, hrest⟩ := delimited_toString_int n n' hr hs h
      exact ⟨rfl, hrest⟩
    | _ => cases hkind
  | string t =>
    intro r s _ _ h
    have hkind := kind_eq_of_compact (.string t) hw h
    cases hw with
    | string t' =>
      rw [Value.compact, Value.compact] at h
      obtain ⟨rfl, hrest⟩ := eq_of_stringText h
      exact ⟨rfl, hrest⟩
    | _ => cases hkind
  | array hitems ih =>
    intro r s hr hs h
    have hkind := kind_eq_of_compact (.array hitems) hw h
    cases hw with
    | array hitems' =>
      exact delimited_array hitems hitems' (fun x hx y hy => ih x hx (hitems' y hy)) hr hs h
    | _ => cases hkind
  | object hmembers ih =>
    intro r s hr hs h
    have hkind := kind_eq_of_compact (.object hmembers) hw h
    cases hw with
    | object hmembers' =>
      exact delimited_object (fun x hx y hy => ih x hx (hmembers' y hy)) hr hs h
    | _ => cases hkind

end Json

end SearchCompiler
