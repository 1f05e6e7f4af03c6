/-!
Named values in a chosen order, the form of every object and table of the library.

Inserting under a name that is already there keeps the name's place and takes the new value, so a
run that is built by `insert` alone never holds a name twice.
-/

namespace SearchCompiler

/-- Names with their values, in order. -/
abbrev Entries (α : Type) := List (String × α)

namespace Entries

variable {α : Type}

/-- The names, in order. -/
def keys (entries : Entries α) : List String :=
  entries.map Prod.fst

/-- Puts a value under a name: in place if the name is there, else at the end. -/
def insert (key : String) (value : α) : Entries α → Entries α
  | [] => [(key, value)]
  | entry :: rest => if entry.1 = key then (key, value) :: rest else entry :: insert key value rest

def insertAll (entries added : Entries α) : Entries α :=
  added.foldl (fun acc entry => insert entry.1 entry.2 acc) entries

/-- Takes a name out by moving the last entry into its place. -/
def swapErase (key : String) (entries : Entries α) : Entries α :=
  match entries.getLast? with
  | none => []
  | some last =>
    if last.1 = key then entries.dropLast
    else if key ∈ entries.keys then
      entries.dropLast.map fun entry => if entry.1 = key then last else entry
    else entries

@[simp] theorem keys_nil : keys ([] : Entries α) = [] := rfl

@[simp] theorem keys_cons (entry : String × α) (rest : Entries α) :
    keys (entry :: rest) = entry.1 :: keys rest := rfl

theorem mem_keys_of_mem {entries : Entries α} {entry : String × α} (h : entry ∈ entries) :
    entry.1 ∈ keys entries :=
  List.mem_map_of_mem h

/-- Inserting adds the name at the end exactly when it was not there. -/
theorem keys_insert (key : String) (value : α) (entries : Entries α) :
    keys (insert key value entries) =
      if key ∈ keys entries then keys entries else keys entries ++ [key] := by
  induction entries with
  | nil => simp [insert]
  | cons entry rest ih =>
    by_cases h : entry.1 = key
    · simp [insert, h]
    · have hne : ¬ key = entry.1 := fun he => h he.symm
      by_cases hm : key ∈ keys rest <;> simp [insert, h, ih, hm, hne]

/-- A name reads the value of its first entry. -/
theorem lookup_cons (key : String) (entry : String × α) (rest : Entries α) :
    List.lookup key (entry :: rest) =
      if key = entry.1 then some entry.2 else List.lookup key rest := by
  obtain ⟨name, value⟩ := entry
  by_cases h : key = name
  · simp [h]
  · have hne : (key == name) = false := by simpa using h
    simp [List.lookup_cons, hne, h]

/-- A name that was inserted reads back the value it was given last. -/
theorem lookup_insert_self (key : String) (value : α) (entries : Entries α) :
    (insert key value entries).lookup key = some value := by
  induction entries with
  | nil => simp [insert]
  | cons entry rest ih =>
    by_cases h : entry.1 = key
    · simp [insert, h]
    · have hne : ¬ key = entry.1 := fun he => h he.symm
      simp only [insert, h, if_false, lookup_cons, hne, ih]

/-- Inserting under one name leaves the value of every other name alone. -/
theorem lookup_insert_of_ne {key other : String} (h : other ≠ key) (value : α)
    (entries : Entries α) : (insert key value entries).lookup other = entries.lookup other := by
  induction entries with
  | nil => simp [insert, lookup_cons, h]
  | cons entry rest ih =>
    by_cases hk : entry.1 = key
    · simp [insert, hk, lookup_cons, h]
    · simp only [insert, hk, if_false, lookup_cons, ih]

/-- Inserting keeps names distinct. -/
theorem nodup_keys_insert {entries : Entries α} (h : (keys entries).Nodup) (key : String)
    (value : α) : (keys (insert key value entries)).Nodup := by
  rw [keys_insert]
  split
  · exact h
  · rename_i hm
    rw [List.nodup_append]
    exact ⟨h, by simp, by
      intro a ha b hb
      have hb' : b = key := by simpa using hb
      exact fun hab => hm (hb' ▸ hab ▸ ha)⟩

/-- A name that is new comes last. -/
theorem insert_of_not_mem {key : String} {entries : Entries α} (h : key ∉ keys entries)
    (value : α) : insert key value entries = entries ++ [(key, value)] := by
  induction entries with
  | nil => rfl
  | cons entry rest ih =>
    rw [keys_cons, List.mem_cons, not_or] at h
    rw [insert, if_neg fun he => h.1 he.symm, ih h.2, List.cons_append]

theorem mem_of_mem_insert {key : String} {value : α} {entries : Entries α} {entry : String × α}
    (h : entry ∈ insert key value entries) : entry = (key, value) ∨ entry ∈ entries := by
  induction entries with
  | nil => exact .inl (List.mem_singleton.mp h)
  | cons first rest ih =>
    unfold insert at h
    split at h
    · exact (List.mem_cons.mp h).imp_right (List.mem_cons_of_mem _)
    · rcases List.mem_cons.mp h with rfl | h
      · exact .inr List.mem_cons_self
      · exact (ih h).imp_right (List.mem_cons_of_mem _)

theorem insertAll_cons (entries : Entries α) (entry : String × α) (rest : Entries α) :
    insertAll entries (entry :: rest) = insertAll (insert entry.1 entry.2 entries) rest :=
  rfl

/-- Entries whose names are new and distinct are all put at the end. -/
theorem insertAll_of_nodup {entries added : Entries α} (h : (keys (entries ++ added)).Nodup) :
    insertAll entries added = entries ++ added := by
  induction added generalizing entries with
  | nil => rw [List.append_nil]; rfl
  | cons entry rest ih =>
    have hnew : entry.1 ∉ keys entries := by
      intro hm
      rw [keys, List.map_append, List.nodup_append] at h
      exact h.2.2 _ hm _ List.mem_cons_self rfl
    have hrest : (keys (entries ++ [entry] ++ rest)).Nodup := by
      rwa [List.append_assoc, List.singleton_append]
    rw [insertAll_cons, insert_of_not_mem hnew, ih hrest, List.append_assoc, List.singleton_append]

theorem nodup_keys_insertAll {entries : Entries α} (h : (keys entries).Nodup) (added : Entries α) :
    (keys (insertAll entries added)).Nodup := by
  induction added generalizing entries with
  | nil => exact h
  | cons entry rest ih => exact ih (nodup_keys_insert h entry.1 entry.2)

theorem mem_of_mem_insertAll {entries added : Entries α} {entry : String × α}
    (h : entry ∈ insertAll entries added) : entry ∈ entries ∨ entry ∈ added := by
  induction added generalizing entries with
  | nil => exact .inl h
  | cons first rest ih =>
    rcases ih h with h | h
    · rcases mem_of_mem_insert h with rfl | h
      · exact .inr List.mem_cons_self
      · exact .inl h
    · exact .inr (List.mem_cons_of_mem _ h)

theorem lookup_eq_none_of_not_mem {key : String} {entries : Entries α} (h : key ∉ keys entries) :
    entries.lookup key = none :=
  List.lookup_eq_none_iff.mpr fun _ he =>
    bne_iff_ne.mpr fun hk => h (hk ▸ mem_keys_of_mem he)

/-- Where no name stands twice, a name reads the value of the entry under it. -/
theorem lookup_eq_some_iff {entries : Entries α} (h : (keys entries).Nodup) {key : String}
    {value : α} : entries.lookup key = some value ↔ (key, value) ∈ entries := by
  induction entries with
  | nil => simp
  | cons entry rest ih =>
    obtain ⟨hn, hr⟩ : entry.1 ∉ keys rest ∧ (keys rest).Nodup := List.nodup_cons.mp h
    rw [lookup_cons, List.mem_cons]
    by_cases hk : key = entry.1
    · have hrest : (key, value) ∉ rest := fun hm =>
        hn (hk ▸ mem_keys_of_mem hm)
      rw [if_pos hk, or_iff_left hrest, Option.some.injEq, Prod.ext_iff]
      exact ⟨fun he => ⟨hk, he.symm⟩, fun he => he.2.symm⟩
    · rw [if_neg hk, ih hr, or_iff_right fun he => hk (congrArg Prod.fst he)]

/-- A name reads the value that was added under it last, if there is one, else the value it had. -/
theorem lookup_insertAll (key : String) (entries added : Entries α) :
    (insertAll entries added).lookup key =
      (added.reverse.lookup key).or (entries.lookup key) := by
  induction added generalizing entries with
  | nil => rfl
  | cons entry rest ih =>
    rw [insertAll_cons, ih, List.reverse_cons, List.lookup_append, Option.or_assoc]
    congr 1
    by_cases hk : key = entry.1
    · rw [hk, lookup_insert_self, lookup_cons, if_pos rfl]
      rfl
    · rw [lookup_insert_of_ne hk, lookup_cons, if_neg hk]
      rfl

/-- Where no name stands twice, the order of the entries does not matter. -/
theorem lookup_reverse {entries : Entries α} (h : (keys entries).Nodup) (key : String) :
    entries.reverse.lookup key = entries.lookup key := by
  have hr : (keys entries.reverse).Nodup :=
    ((List.reverse_perm entries).map Prod.fst).nodup_iff.mpr h
  ext value
  rw [lookup_eq_some_iff hr, lookup_eq_some_iff h, List.mem_reverse]

theorem filter_ne_of_not_mem {key : String} {entries : Entries α} (h : key ∉ keys entries) :
    entries.filter (fun entry => entry.1 ≠ key) = entries :=
  List.filter_eq_self.mpr fun _ he =>
    decide_eq_true fun hk => h (hk ▸ mem_keys_of_mem he)

theorem replace_of_not_mem {key : String} {entries : Entries α} (h : key ∉ keys entries)
    (other : String × α) :
    (entries.map fun entry => if entry.1 = key then other else entry) = entries := by
  induction entries with
  | nil => rfl
  | cons entry rest ih =>
    rw [keys_cons, List.mem_cons, not_or] at h
    rw [List.map_cons, if_neg fun he => h.1 he.symm, ih h.2]

theorem swapErase_concat (key : String) (front : Entries α) (last : String × α) :
    swapErase key (front ++ [last]) =
      if last.1 = key then front
      else if key ∈ keys (front ++ [last]) then
        front.map fun entry => if entry.1 = key then last else entry
      else front ++ [last] := by
  simp only [swapErase, List.getLast?_concat, List.dropLast_concat]

/-- Taking out a name leaves, up to order, the entries under the other names. -/
theorem swapErase_perm {key : String} {entries : Entries α} (h : (keys entries).Nodup) :
    (swapErase key entries).Perm (entries.filter fun entry => entry.1 ≠ key) := by
  rcases List.eq_nil_or_concat entries with rfl | ⟨front, last, rfl⟩
  · exact .nil
  rw [List.concat_eq_append] at h ⊢
  rw [keys, List.map_append, List.nodup_append] at h
  obtain ⟨hfront, -, hlast⟩ := h
  rw [swapErase_concat, List.filter_append]
  by_cases hl : last.1 = key
  · have hkey : key ∉ keys front := fun hm => hlast _ hm _ List.mem_cons_self hl.symm
    rw [if_pos hl, filter_ne_of_not_mem hkey, List.filter_cons_of_neg (by simpa using hl)]
    simp
  have hkeep : [last].filter (fun entry => entry.1 ≠ key) = [last] :=
    List.filter_cons_of_pos (by simpa using hl)
  rw [if_neg hl, hkeep]
  by_cases hm : key ∈ keys front
  · obtain ⟨entry, he, rfl⟩ := List.mem_map.mp hm
    obtain ⟨before, after, rfl⟩ := List.append_of_mem he
    -- The name stands once, so nothing before or after its entry is changed or taken out.
    rw [List.map_append, List.map_cons, List.nodup_append, List.nodup_cons] at hfront
    have hbefore : entry.1 ∉ keys before := fun hb => hfront.2.2 _ hb _ List.mem_cons_self rfl
    have hafter : entry.1 ∉ keys after := hfront.2.1.1
    rw [if_pos (by simp [keys]), List.map_append, List.map_cons, if_pos rfl,
      replace_of_not_mem hbefore, replace_of_not_mem hafter, List.filter_append,
      List.filter_cons_of_neg (by simp), filter_ne_of_not_mem hbefore,
      filter_ne_of_not_mem hafter, List.append_assoc]
    exact (List.perm_append_singleton last after).symm.append_left before
  · have hmem : key ∉ keys (front ++ [last]) := by
      rw [keys, List.map_append, List.mem_append, not_or]
      exact ⟨hm, by simpa using Ne.symm hl⟩
    rw [if_neg hmem, filter_ne_of_not_mem hm]

theorem nodup_keys_swapErase {entries : Entries α} (h : (keys entries).Nodup) (key : String) :
    (keys (swapErase key entries)).Nodup :=
  ((swapErase_perm h).map Prod.fst).nodup_iff.mpr (h.sublist (List.filter_sublist.map Prod.fst))

theorem mem_swapErase_iff {entries : Entries α} (h : (keys entries).Nodup) {key : String}
    {entry : String × α} : entry ∈ swapErase key entries ↔ entry ∈ entries ∧ entry.1 ≠ key := by
  rw [(swapErase_perm h).mem_iff, List.mem_filter, decide_eq_true_iff]

/-- Entries under one name, which stands once at most, are none or one. -/
theorem eq_nil_or_singleton {entries : Entries α} (h : (keys entries).Nodup) {key : String}
    (hk : ∀ entry ∈ entries, entry.1 = key) :
    entries = [] ∨ ∃ value, entries = [(key, value)] := by
  match entries with
  | [] => exact .inl rfl
  | [entry] => exact .inr ⟨entry.2, by rw [← hk entry List.mem_cons_self]⟩
  | first :: second :: rest =>
    have hne : first.1 ≠ second.1 := fun he => (List.nodup_cons.mp h).1 (he ▸ List.mem_cons_self)
    exact absurd ((hk first (by simp)).trans (hk second (by simp)).symm) hne

end Entries

end SearchCompiler
