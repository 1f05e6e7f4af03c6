import SearchCompiler.Query.Outline

/-!
Texts that stay on one line. Quoted text, the compact text of a JSON value and numbers hold no line
feed, whatever they are the texts of: a line feed in a string is escaped, and digits are none.
-/

namespace SearchCompiler

namespace Text

/-- A text without a line feed. -/
def OneLine (s : String) : Prop :=
  '\n' ∉ s.toList

instance (s : String) : Decidable (OneLine s) :=
  inferInstanceAs (Decidable (_ ∉ _))

@[simp] theorem oneLine_append {s t : String} : OneLine (s ++ t) ↔ OneLine s ∧ OneLine t := by
  simp [OneLine]

theorem count_feed_of_oneLine {s : String} (h : OneLine s) : s.toList.count '\n' = 0 :=
  List.count_eq_zero.mpr h

theorem oneLine_ofList {cs : List Char} : OneLine (String.ofList cs) ↔ '\n' ∉ cs := by
  rw [OneLine, String.toList_ofList]

theorem oneLine_intercalate {separator : String} (hs : OneLine separator) {texts : List String}
    (ht : ∀ text ∈ texts, OneLine text) : OneLine (separator.intercalate texts) := by
  induction texts with
  | nil => simp [OneLine]
  | cons text rest ih =>
    rw [List.forall_mem_cons] at ht
    cases rest with
    | nil => simpa using ht.1
    | cons next rest =>
      rw [String.intercalate_cons_cons, oneLine_append, oneLine_append]
      exact ⟨⟨ht.1, hs⟩, ih ht.2⟩

theorem hexValue?_digitChar : ∀ n < 16, hexValue? n.digitChar = some n := by
  decide

theorem isSome_hexValue?_of_mem (n : Nat) : ∀ c ∈ hexDigits n, (hexValue? c).isSome := by
  -- The last digit stands for the remainder, those before it are the digits of the quotient.
  induction n using Nat.strongRecOn with
  | _ n ih =>
    unfold hexDigits at *
    by_cases hn : n < 16
    · rw [Nat.toDigits_of_lt_base hn, List.forall_mem_singleton, hexValue?_digitChar n hn]
      rfl
    · rw [Nat.toDigits_of_base_le (by decide) (by omega), List.forall_mem_append,
        List.forall_mem_singleton, hexValue?_digitChar _ (by omega)]
      exact ⟨ih (n / 16) (by omega), rfl⟩

theorem not_mem_hexDigits {c : Char} (h : hexValue? c = none) (n : Nat) : c ∉ hexDigits n := by
  intro hc
  have hs := isSome_hexValue?_of_mem n c hc
  rw [h] at hs
  cases hs

theorem feed_not_mem_quotedChar (c : Char) : '\n' ∉ quotedChar c := by
  have hfeed : '\n' ∉ hexDigits c.toNat := not_mem_hexDigits (by decide) _
  unfold quotedChar
  split
  · decide
  split
  · decide
  split
  · decide
  split
  · decide
  · next hc =>
    split
    · decide
    split
    · decide
    split
    · simpa using hfeed
    · simpa using Ne.symm hc

@[simp] theorem oneLine_quoted (s : String) : OneLine (quoted s) := by
  have hbody : '\n' ∉ s.toList.flatMap quotedChar := by
    intro h
    obtain ⟨c, _, hc⟩ := List.mem_flatMap.mp h
    exact feed_not_mem_quotedChar c hc
  rw [quoted, oneLine_append, oneLine_append]
  exact ⟨⟨by decide, oneLine_ofList.mpr hbody⟩, by decide⟩

@[simp] theorem oneLine_quotedList (items : List String) : OneLine (quotedList items) := by
  have hitems : OneLine (", ".intercalate (items.map quoted)) :=
    oneLine_intercalate (by decide) (List.forall_mem_map.mpr fun item _ => oneLine_quoted item)
  rw [quotedList, oneLine_append, oneLine_append]
  exact ⟨⟨by decide, hitems⟩, by decide⟩

end Text

namespace Decimal

/-- A character of a number: a digit, a sign, the point or the mark of the exponent. -/
def IsNumeral (c : Char) : Prop :=
  c.isDigit = true ∨ c ∈ ['-', '+', '.', 'e']

theorem isNumeral_of_mem_toDigits (n : Nat) : ∀ c ∈ Nat.toDigits 10 n, IsNumeral c :=
  fun _ hc => .inl (Nat.isDigit_of_mem_toDigits (by decide) (by decide) hc)

theorem isNumeral_replicate_zero (n : Nat) : ∀ c ∈ List.replicate n '0', IsNumeral c := by
  intro c hc
  rw [List.eq_of_mem_replicate hc]
  exact .inl (by decide)

theorem isNumeral_inPlaces {digits : List Char} (h : ∀ c ∈ digits, IsNumeral c) (e : Int) :
    ∀ c ∈ inPlaces digits e, IsNumeral c := by
  have hpoint : IsNumeral '.' := .inr (by decide)
  have hzero : IsNumeral '0' := .inl (by decide)
  unfold inPlaces
  split
  · simp only [List.forall_mem_append, List.forall_mem_cons]
    exact ⟨⟨⟨hzero, hpoint, List.forall_mem_nil _⟩, isNumeral_replicate_zero _⟩, h⟩
  · dsimp only
    split
    · simp only [List.forall_mem_append, List.forall_mem_cons]
      exact ⟨⟨h, isNumeral_replicate_zero _⟩, hpoint, hzero, List.forall_mem_nil _⟩
    · simp only [List.forall_mem_append, List.forall_mem_singleton]
      exact ⟨⟨fun c hc => h c (List.mem_of_mem_take hc), hpoint⟩,
        fun c hc => h c (List.mem_of_mem_drop hc)⟩

theorem isNumeral_withExponent {digits : List Char} (h : ∀ c ∈ digits, IsNumeral c) (e : Int) :
    ∀ c ∈ withExponent digits e, IsNumeral c := by
  have hsign : IsNumeral (if e < 0 then '-' else '+') := by split <;> exact .inr (by decide)
  simp only [withExponent, List.forall_mem_append, List.forall_mem_cons]
  refine ⟨⟨?_, .inr (by decide), hsign, List.forall_mem_nil _⟩, isNumeral_of_mem_toDigits _⟩
  split
  · exact List.forall_mem_nil _
  · exact h
  · rw [List.forall_mem_cons, List.forall_mem_cons]
    rw [List.forall_mem_cons] at h
    exact ⟨h.1, .inr (by decide), h.2⟩

theorem isNumeral_write (layout : Layout) (bits : UInt64) :
    ∀ c ∈ (layout.write bits).toList, IsNumeral c := by
  have hdigits (n : Nat) :
      ∀ c ∈ (if n = 0 then ['0'] else trimZeros (Nat.toDigits 10 n)), IsNumeral c := by
    split
    · exact List.forall_mem_singleton.mpr (.inl (by decide))
    · intro c hc
      have hc' := List.mem_reverse.mp ((List.dropWhile_sublist _).subset (List.mem_reverse.mp hc))
      exact isNumeral_of_mem_toDigits n c hc'
  have hbody {body : List Char} (h : ∀ c ∈ body, IsNumeral c) :
      ∀ c ∈ (if isNegative bits then '-' :: body else body), IsNumeral c := by
    split
    · exact List.forall_mem_cons.mpr ⟨.inr (by decide), h⟩
    · exact h
  have hplaced {digits : List Char} (h : ∀ c ∈ digits, IsNumeral c) (e : Int) :
      ∀ c ∈ (if layout.positional e then inPlaces digits e else withExponent digits e),
        IsNumeral c := by
    split
    · exact isNumeral_inPlaces h e
    · exact isNumeral_withExponent h e
  rw [Layout.write, String.toList_ofList]
  exact hbody (hplaced (hdigits _) _)

end Decimal

namespace Json

open Text

theorem lowerHex_ne_feed : ∀ n < 16, lowerHex n ≠ '\n' := by
  decide

theorem feed_not_mem_escapedChar (c : Char) : '\n' ∉ escapedChar c := by
  unfold escapedChar
  split
  · decide
  split
  · decide
  split
  · decide
  split
  · decide
  split
  · decide
  · next hc =>
    split
    · decide
    split
    · decide
    split
    · next hlt =>
      have hhigh := lowerHex_ne_feed (c.toNat / 16) (by omega)
      have hlow := lowerHex_ne_feed (c.toNat % 16) (by omega)
      simpa using ⟨hhigh.symm, hlow.symm⟩
    · simpa using Ne.symm hc

@[simp] theorem oneLine_stringText (s : String) : OneLine (stringText s) := by
  have hbody : '\n' ∉ s.toList.flatMap escapedChar := by
    intro h
    obtain ⟨c, _, hc⟩ := List.mem_flatMap.mp h
    exact feed_not_mem_escapedChar c hc
  rw [stringText, oneLine_append, oneLine_append]
  exact ⟨⟨by decide, oneLine_ofList.mpr hbody⟩, by decide⟩

theorem oneLine_of_isNumeral {s : String} (h : ∀ c ∈ s.toList, Decimal.IsNumeral c) :
    OneLine s := by
  intro hm
  rcases h '\n' hm with hd | hd
  · cases hd
  · revert hd
    decide

@[simp] theorem oneLine_toString_nat (n : Nat) : OneLine (toString n) := by
  apply oneLine_of_isNumeral
  rw [Nat.toString_eq_ofList_toDigits, String.toList_ofList]
  exact Decimal.isNumeral_of_mem_toDigits n

@[simp] theorem oneLine_number (n : Number) : OneLine n.text := by
  cases n with
  | integer value =>
    cases value with
    | ofNat n => exact oneLine_toString_nat n
    | negSucc n => exact oneLine_append.mpr ⟨by decide, oneLine_toString_nat (n + 1)⟩
  | double bits => exact oneLine_of_isNumeral (Decimal.isNumeral_write doubleLayout bits)

mutual

@[simp] theorem oneLine_compact (v : Value) : OneLine v.compact := by
  match v with
  | .null => rw [Value.compact]; decide
  | .bool true => rw [Value.compact]; decide
  | .bool false => rw [Value.compact]; decide
  | .number n => rw [Value.compact]; exact oneLine_number n
  | .string s => rw [Value.compact]; exact oneLine_stringText s
  | .array items =>
    rw [Value.compact, oneLine_append, oneLine_append]
    exact ⟨⟨by decide, oneLine_intercalate (by decide) (oneLine_compactItems items)⟩, by decide⟩
  | .object members =>
    rw [Value.compact, oneLine_append, oneLine_append]
    exact ⟨⟨by decide, oneLine_intercalate (by decide) (oneLine_compactMembers members)⟩, by decide⟩

theorem oneLine_compactItems (items : List Value) : ∀ text ∈ compactItems items, OneLine text := by
  match items with
  | [] => rw [compactItems]; exact List.forall_mem_nil _
  | item :: rest =>
    rw [compactItems, List.forall_mem_cons]
    exact ⟨oneLine_compact item, oneLine_compactItems rest⟩

theorem oneLine_compactMembers (members : List (String × Value)) :
    ∀ text ∈ compactMembers members, OneLine text := by
  match members with
  | [] => rw [compactMembers]; exact List.forall_mem_nil _
  | (key, value) :: rest =>
    rw [compactMembers, List.forall_mem_cons, oneLine_append, oneLine_append]
    exact ⟨⟨⟨oneLine_stringText key, by decide⟩, oneLine_compact value⟩,
      oneLine_compactMembers rest⟩

end

end Json

end SearchCompiler
