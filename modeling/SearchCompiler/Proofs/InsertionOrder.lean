import Mathlib.Data.List.Basic
import SearchCompiler.Entries

/-!
Laws of repeated insertion. A name stands where it was inserted first and holds what it was given
last. Entries without a repeated name are fixed by their names in order and by what these hold, so
that two runs of insertions are compared name by name.
-/

namespace SearchCompiler.Entries

variable {α : Type}

section Order

theorem removeAll_append_singleton (names seen : List String) (key : String) :
    names.removeAll (seen ++ [key]) = (names.removeAll seen).filter fun name => !name == key := by
  rw [List.removeAll, List.removeAll, List.filter_filter]
  apply List.filter_congr
  intro name _
  simp only [List.elem_eq_contains, List.contains_append, Bool.not_or, Bool.and_comm,
    List.contains_cons, List.contains_nil, Bool.or_false]

/-- Names that are new are added at the end, each where it comes first. -/
theorem keys_insertAll (entries added : Entries α) :
    keys (insertAll entries added) =
      keys entries ++ ((keys added).removeAll (keys entries)).eraseDups := by
  induction added generalizing entries with
  | nil => exact (List.append_nil _).symm
  | cons entry rest ih =>
    rw [insertAll_cons, ih, keys_insert, keys_cons, List.cons_removeAll]
    by_cases hm : entry.1 ∈ keys entries
    · rw [if_pos hm, if_neg (by simpa using hm)]
    · rw [if_neg hm, if_pos (by simpa using hm), List.eraseDups_cons, removeAll_append_singleton,
        List.append_assoc, List.singleton_append]

theorem keys_insertAll_nil (added : Entries α) :
    keys (insertAll [] added) = (keys added).eraseDups := by
  rw [keys_insertAll, keys_nil, List.nil_append, List.removeAll_nil]

theorem nodup_keys_insertAll_nil (added : Entries α) : (keys (insertAll [] added)).Nodup :=
  nodup_keys_insertAll (by exact List.nodup_nil) added

theorem mem_keys_insertAll {entries added : Entries α} {key : String} :
    key ∈ keys (insertAll entries added) ↔ key ∈ keys entries ∨ key ∈ keys added := by
  rw [keys_insertAll, List.mem_append, List.mem_eraseDups, List.removeAll, List.mem_filter]
  by_cases hm : key ∈ keys entries
  · simp [hm]
  · simp [hm]

end Order

section Values

/-- Entries without a repeated name are their names in order, each with what it holds. -/
theorem eq_filterMap_lookup {entries : Entries α} (h : (keys entries).Nodup) :
    entries = (keys entries).filterMap fun key => (entries.lookup key).map fun v => (key, v) := by
  induction entries with
  | nil => rfl
  | cons entry rest ih =>
    obtain ⟨hn, hr⟩ : entry.1 ∉ keys rest ∧ (keys rest).Nodup := List.nodup_cons.mp h
    have hrest : ∀ key ∈ keys rest,
        ((entry :: rest).lookup key).map (fun v => (key, v)) =
          (rest.lookup key).map fun v => (key, v) := by
      intro key hk
      have hne : key ≠ entry.1 := fun he => hn (he ▸ hk)
      rw [lookup_cons, if_neg hne]
    have hfirst : ((entry :: rest).lookup entry.1).map (fun v => (entry.1, v)) = some entry := by
      rw [lookup_cons, if_pos rfl]
      rfl
    rw [keys_cons, List.filterMap_cons, hfirst, List.filterMap_congr hrest, ← ih hr]

/-- Entries without a repeated name are equal if their names are, in order, and all that these
hold. -/
theorem ext_lookup {entries others : Entries α} (h : (keys entries).Nodup)
    (hk : keys entries = keys others) (hl : ∀ key, entries.lookup key = others.lookup key) :
    entries = others := by
  have ho : (keys others).Nodup := hk ▸ h
  calc entries
      = (keys entries).filterMap fun key => (entries.lookup key).map fun v => (key, v) :=
        eq_filterMap_lookup h
    _ = (keys others).filterMap fun key => (others.lookup key).map fun v => (key, v) := by
        simp only [hk, hl]
    _ = others := (eq_filterMap_lookup ho).symm

theorem lookup_insertAll_nil (added : Entries α) (key : String) :
    (insertAll [] added).lookup key = added.reverse.lookup key := by
  rw [lookup_insertAll, List.lookup_nil, Option.or_none]

theorem lookup_filter {entries : Entries α} (h : (keys entries).Nodup) (P : α → Bool)
    (key : String) :
    (entries.filter fun entry => P entry.2).lookup key = (entries.lookup key).filter P := by
  have hf : (keys (entries.filter fun entry => P entry.2)).Nodup :=
    h.sublist (List.filter_sublist.map Prod.fst)
  ext value
  rw [lookup_eq_some_iff hf, List.mem_filter, Option.filter_eq_some_iff, lookup_eq_some_iff h]

variable {entries added : Entries α}

/-- One insertion may be made before or after the run of insertions that it belongs to. -/
theorem insertAll_insert (he : (keys entries).Nodup) (ha : (keys added).Nodup) (key : String)
    (value : α) :
    insertAll entries (insert key value added) = insert key value (insertAll entries added) := by
  by_cases hm : key ∈ keys added
  · have hn := nodup_keys_insert ha key value
    apply ext_lookup (nodup_keys_insertAll he _)
    · rw [keys_insert, if_pos (mem_keys_insertAll.mpr (.inr hm)), keys_insertAll, keys_insertAll,
        keys_insert, if_pos hm]
    · intro other
      rw [lookup_insertAll, lookup_reverse hn]
      by_cases ho : other = key
      · rw [ho, lookup_insert_self, lookup_insert_self]
        rfl
      · rw [lookup_insert_of_ne ho, lookup_insert_of_ne ho, lookup_insertAll, lookup_reverse ha]
  · rw [insert_of_not_mem hm, insertAll, List.foldl_append]
    rfl

/-- Inserting what a run of insertions has made is the same as going on with that run. -/
theorem insertAll_insertAll (he : (keys entries).Nodup) (ha : (keys added).Nodup)
    (further : Entries α) :
    insertAll entries (insertAll added further) = insertAll (insertAll entries added) further := by
  induction further generalizing added with
  | nil => rfl
  | cons entry rest ih =>
    rw [insertAll_cons, insertAll_cons, ih (nodup_keys_insert ha entry.1 entry.2),
      insertAll_insert he ha]

/-- A first entry stays first and takes the value that its name is given last; the other names are
inserted behind it. -/
theorem insertAll_first (key : String) (value : α) (entries added : Entries α) :
    insertAll ((key, value) :: entries) added =
      (key, (added.reverse.lookup key).getD value) ::
        insertAll entries (added.filter fun entry => entry.1 ≠ key) := by
  induction added generalizing value entries with
  | nil => rfl
  | cons entry rest ih =>
    rw [insertAll_cons, insert, List.reverse_cons, List.lookup_append, lookup_cons]
    by_cases hk : key = entry.1
    · rw [if_pos hk, ← hk, if_pos rfl, ih, List.filter_cons_of_neg (by simpa using hk.symm)]
      cases rest.reverse.lookup key <;> rfl
    · rw [if_neg hk, if_neg hk, ih, List.filter_cons_of_pos (by simpa using Ne.symm hk),
        insertAll_cons, List.lookup_nil, Option.or_none]

end Values

end SearchCompiler.Entries
