import Mathlib.Data.List.Nodup
import SearchCompiler.Proofs.Leaves
import SearchCompiler.Proofs.Respelling
import SearchCompiler.Proofs.WrittenOptions

/-!
Trees that can be told from their leaves. A field name gives back the names on the way to its leaf
if none of these holds a dot. Leaves that share their first name then come from one entry, so the
leaves fix the tree entry by entry and level by level.
-/

namespace SearchCompiler

/-- A condition in which no name holds a dot and nothing nested is empty, at any depth. -/
inductive Condition.Plain : Condition → Prop
  | scalar (value : Scalar) : Plain (.scalar value)
  | list (values : List Scalar) : Plain (.list values)
  | tree {entries : ConditionTree} :
    entries ≠ [] → (∀ key ∈ entries.keys, '.' ∉ key.toList) → (∀ entry ∈ entries, entry.2.Plain) →
      Plain (.tree entries)

/-- Conditions whose names are distinct and free of dots at every level, with no empty tree nested
in them. -/
structure ConditionTree.Legible (tree : ConditionTree) : Prop where
  distinct : (Condition.tree tree).Distinct
  undotted : ∀ key ∈ tree.keys, '.' ∉ key.toList
  plain : ∀ entry ∈ tree, entry.2.Plain

/-- The leaves of a condition, each with the names that lead to it inside the condition. -/
def Condition.leafPaths : Condition → List (List String × Leaf)
  | .scalar value => [([], .scalar value)]
  | .list values => [([], .list values)]
  | .tree entries => SearchCompiler.leafPaths entries

/-- A leaf with one more name on the way to it. -/
def inside (key : String) (leaf : List String × Leaf) : List String × Leaf :=
  (key :: leaf.1, leaf.2)

/-- The names that a field name is made of. -/
def namesOf (field : String) : List String :=
  (field.toList.splitOn '.').map String.ofList

section Names

theorem namesOf_dotted (path : List String) (hne : path ≠ [])
    (hd : ∀ key ∈ path, '.' ∉ key.toList) : namesOf (dotted path) = path := by
  have hdots : ∀ cs ∈ path.map String.toList, '.' ∉ cs := by
    intro cs hcs
    obtain ⟨key, hk, rfl⟩ := List.mem_map.mp hcs
    exact hd key hk
  have hmap : path.map String.toList ≠ [] := by
    intro hnil
    exact hne (List.map_eq_nil_iff.mp hnil)
  have htext : (dotted path).toList = ['.'].intercalate (path.map String.toList) :=
    String.toList_intercalate
  have hback : String.ofList ∘ String.toList = id := by
    funext key
    exact String.ofList_toList
  rw [namesOf, htext, List.splitOn_intercalate '.' hdots hmap, List.map_map, hback, List.map_id]

end Names

section Paths

variable {key : String} {condition : Condition} {rest tree : ConditionTree}

theorem leafPaths_entry (key : String) (condition : Condition) (rest : ConditionTree) :
    leafPaths ((key, condition) :: rest) =
      condition.leafPaths.map (inside key) ++ leafPaths rest := by
  cases condition with
  | scalar value => rw [leafPaths, Condition.leafPaths]; rfl
  | list values => rw [leafPaths, Condition.leafPaths]; rfl
  | tree entries => rw [leafPaths, Condition.leafPaths]; rfl

/-- Every leaf of a tree comes from one of its entries. -/
theorem exists_entry_of_mem_leafPaths {leaf : List String × Leaf} (h : leaf ∈ leafPaths tree) :
    ∃ entry ∈ tree, ∃ inner ∈ entry.2.leafPaths, leaf = inside entry.1 inner := by
  induction tree with
  | nil =>
    rw [leafPaths] at h
    cases h
  | cons entry rest ih =>
    obtain ⟨key, condition⟩ := entry
    rw [leafPaths_entry] at h
    rcases List.mem_append.mp h with h | h
    · obtain ⟨inner, hi, rfl⟩ := List.mem_map.mp h
      exact ⟨(key, condition), List.mem_cons_self, inner, hi, rfl⟩
    · obtain ⟨later, hl, hi⟩ := ih h
      exact ⟨later, List.mem_cons_of_mem _ hl, hi⟩

theorem ConditionTree.Legible.of_cons (h : ConditionTree.Legible ((key, condition) :: rest)) :
    key ∉ rest.keys ∧ rest.Legible := by
  cases h.distinct with
  | tree hn hd =>
    obtain ⟨hk, hr⟩ := List.nodup_cons.mp hn
    refine ⟨hk, .tree hr ?_, ?_, ?_⟩
    · intro entry he
      exact hd entry (List.mem_cons_of_mem _ he)
    · intro name hm
      exact h.undotted name (List.mem_cons_of_mem _ hm)
    · intro entry he
      exact h.plain entry (List.mem_cons_of_mem _ he)

theorem ConditionTree.Legible.of_nested {entries : ConditionTree}
    (h : ConditionTree.Legible tree) (hm : (key, .tree entries) ∈ tree) : entries.Legible := by
  cases h.distinct with
  | tree _ hd =>
    cases h.plain _ hm with
    | tree _ hu hp => exact ⟨hd _ hm, hu, hp⟩

theorem Condition.Plain.leafPaths_ne_nil (h : condition.Plain) : condition.leafPaths ≠ [] := by
  induction h with
  | scalar value => exact List.cons_ne_nil _ _
  | list values => exact List.cons_ne_nil _ _
  | tree hne _ _ ih =>
    obtain ⟨⟨key, first⟩, rest, rfl⟩ := List.exists_cons_of_ne_nil hne
    have hf : first.leafPaths ≠ [] := ih (key, first) List.mem_cons_self
    rw [Condition.leafPaths, leafPaths_entry]
    intro hnil
    exact hf (List.map_eq_nil_iff.mp (List.append_eq_nil_iff.mp hnil).1)

/-- The leaves under the first name of a tree are those of its first entry, the others are those of
the other entries. -/
theorem leafPaths_split (condition : Condition) (hk : key ∉ rest.keys) :
    (leafPaths ((key, condition) :: rest)).filter (fun leaf => leaf.1.head? = some key) =
        condition.leafPaths.map (inside key) ∧
      (leafPaths ((key, condition) :: rest)).filter (fun leaf => leaf.1.head? ≠ some key) =
        leafPaths rest := by
  have hfirst : ∀ leaf ∈ condition.leafPaths.map (inside key), leaf.1.head? = some key := by
    intro leaf hl
    obtain ⟨inner, _, rfl⟩ := List.mem_map.mp hl
    rfl
  have hrest : ∀ leaf ∈ leafPaths rest, leaf.1.head? ≠ some key := by
    intro leaf hl he
    obtain ⟨entry, hm, inner, _, rfl⟩ := exists_entry_of_mem_leafPaths hl
    have hname : entry.1 = key := Option.some.inj he
    rw [← hname] at hk
    exact hk (Entries.mem_keys_of_mem hm)
  rw [leafPaths_entry, List.filter_append, List.filter_append]
  constructor
  · rw [List.filter_eq_self.mpr (by simpa using hfirst),
      List.filter_eq_nil_iff.mpr (by simpa using hrest), List.append_nil]
  · rw [List.filter_eq_nil_iff.mpr (by simpa using hfirst),
      List.filter_eq_self.mpr (by simpa using hrest), List.nil_append]

theorem inside_injective (key : String) : Function.Injective (inside key) := by
  intro leaf leaf' h
  obtain ⟨hp, hl⟩ := Prod.ext_iff.mp h
  exact Prod.ext (List.cons.inj hp).2 hl

/-- A condition whose only leaf is reached without a name is that leaf. -/
theorem Condition.eq_toCondition {leaf : Leaf} (h : condition.leafPaths = [([], leaf)]) :
    condition = leaf.toCondition := by
  cases condition with
  | scalar value =>
    cases h
    rfl
  | list values =>
    cases h
    rfl
  | tree entries =>
    have hm : ([], leaf) ∈ SearchCompiler.leafPaths entries := by
      rw [Condition.leafPaths] at h
      rw [h]
      exact List.mem_singleton_self _
    exact absurd rfl (path_ne_nil hm)

theorem nodup_leafPaths (hn : tree.keys.Nodup)
    (h : ∀ entry ∈ tree, (entry.2.leafPaths.map Prod.fst).Nodup) :
    ((leafPaths tree).map Prod.fst).Nodup := by
  induction tree with
  | nil =>
    rw [leafPaths]
    exact List.nodup_nil
  | cons entry rest ih =>
    obtain ⟨key, condition⟩ := entry
    obtain ⟨hk, hr⟩ : key ∉ Entries.keys rest ∧ (Entries.keys rest).Nodup :=
      List.nodup_cons.mp hn
    rw [List.forall_mem_cons] at h
    have hfirst : (condition.leafPaths.map (inside key)).map Prod.fst =
        (condition.leafPaths.map Prod.fst).map (List.cons key) := by
      rw [List.map_map, List.map_map]
      rfl
    rw [leafPaths_entry, List.map_append, hfirst, List.nodup_append]
    refine ⟨h.1.map List.cons_injective, ih hr h.2, ?_⟩
    -- The paths of the first entry begin with its name, and no other path does.
    intro path hp path' hp' he
    obtain ⟨inner, _, rfl⟩ := List.mem_map.mp hp
    obtain ⟨leaf, hl, rfl⟩ := List.mem_map.mp hp'
    obtain ⟨later, hm, further, _, rfl⟩ := exists_entry_of_mem_leafPaths hl
    have hname : key = later.1 := (List.cons.inj he).1
    rw [hname] at hk
    exact hk (Entries.mem_keys_of_mem hm)

/-- No two leaves of a condition are on one path if its names are distinct at every level. -/
theorem Condition.Distinct.nodup_paths (h : condition.Distinct) :
    (condition.leafPaths.map Prod.fst).Nodup := by
  induction h with
  | scalar value => exact List.nodup_singleton _
  | list values => exact List.nodup_singleton _
  | tree hn _ ih => exact nodup_leafPaths hn ih

theorem ConditionTree.Legible.exists_first_leaf
    (h : ConditionTree.Legible ((key, condition) :: rest)) :
    ∃ first later, condition.leafPaths = first :: later :=
  List.exists_cons_of_ne_nil (h.plain (key, condition) List.mem_cons_self).leafPaths_ne_nil

/-- The leaves of a tree fix the name of its first entry and tell the leaves of that entry from
those of the others. -/
theorem exists_of_leafPaths_cons (hx : ConditionTree.Legible ((key, condition) :: rest))
    (hy : tree.Legible) (h : leafPaths ((key, condition) :: rest) = leafPaths tree) :
    ∃ condition' rest', tree = (key, condition') :: rest' ∧
      condition.leafPaths = condition'.leafPaths ∧ leafPaths rest = leafPaths rest' := by
  obtain ⟨first, _, hf⟩ := hx.exists_first_leaf
  cases tree with
  | nil =>
    rw [leafPaths_entry, hf, leafPaths] at h
    cases h
  | cons entry' rest' =>
    obtain ⟨key', condition'⟩ := entry'
    have hkey : key = key' := by
      obtain ⟨first', _, hf'⟩ := hy.exists_first_leaf
      rw [leafPaths_entry, leafPaths_entry, hf, hf'] at h
      have hhead : inside key first = inside key' first' := (List.cons.inj h).1
      exact (List.cons.inj (congrArg Prod.fst hhead)).1
    subst hkey
    obtain ⟨hc, hr⟩ := leafPaths_split condition hx.of_cons.1
    obtain ⟨hc', hr'⟩ := leafPaths_split condition' hy.of_cons.1
    rw [h] at hc hr
    have hmap : condition.leafPaths.map (inside key) = condition'.leafPaths.map (inside key) :=
      hc.symm.trans hc'
    exact ⟨condition', rest', rfl, (inside_injective key).list_map hmap, hr.symm.trans hr'⟩

/-- Trees with the same leaves on the same paths are equal. -/
theorem ConditionTree.Legible.eq_of_leafPaths {xs ys : ConditionTree} (hx : xs.Legible)
    (hy : ys.Legible) (h : leafPaths xs = leafPaths ys) : xs = ys := by
  -- On the tree entry by entry: each first entry is split off both sides by its name.
  induction xs using leafPaths.induct generalizing ys with
  | case1 =>
    cases ys with
    | nil => rfl
    | cons entry rest =>
      obtain ⟨key, condition⟩ := entry
      obtain ⟨first, _, hf⟩ := hy.exists_first_leaf
      rw [leafPaths_entry, hf, leafPaths] at h
      cases h
  | case2 key value rest ih =>
    obtain ⟨condition', rest', rfl, hc, hr⟩ := exists_of_leafPaths_cons hx hy h
    have he : condition' = (Leaf.scalar value).toCondition := Condition.eq_toCondition hc.symm
    rw [he, ih hx.of_cons.2 hy.of_cons.2 hr]
    rfl
  | case3 key values rest ih =>
    obtain ⟨condition', rest', rfl, hc, hr⟩ := exists_of_leafPaths_cons hx hy h
    have he : condition' = (Leaf.list values).toCondition := Condition.eq_toCondition hc.symm
    rw [he, ih hx.of_cons.2 hy.of_cons.2 hr]
    rfl
  | case4 key entries rest hin ih =>
    obtain ⟨condition', rest', rfl, hc, hr⟩ := exists_of_leafPaths_cons hx hy h
    rw [ih hx.of_cons.2 hy.of_cons.2 hr]
    -- Were the other condition a leaf, so would this one be.
    cases condition' with
    | scalar value => cases Condition.eq_toCondition hc
    | list values => cases Condition.eq_toCondition hc
    | tree entries' =>
      rw [hin (hx.of_nested List.mem_cons_self) (hy.of_nested List.mem_cons_self) hc]

/-- Dots are in no name on the way to a leaf if they are in none of an entry and in none inside it. -/
theorem undotted_leafPaths (hu : ∀ key ∈ tree.keys, '.' ∉ key.toList)
    (h : ∀ entry ∈ tree, ∀ inner ∈ entry.2.leafPaths, ∀ name ∈ inner.1, '.' ∉ name.toList) :
    ∀ leaf ∈ leafPaths tree, ∀ name ∈ leaf.1, '.' ∉ name.toList := by
  intro leaf hl name hn
  obtain ⟨entry, hm, inner, hi, rfl⟩ := exists_entry_of_mem_leafPaths hl
  rcases List.mem_cons.mp hn with rfl | hn
  · exact hu entry.1 (Entries.mem_keys_of_mem hm)
  · exact h entry hm inner hi name hn

theorem Condition.Plain.undotted_paths (h : condition.Plain) :
    ∀ leaf ∈ condition.leafPaths, ∀ name ∈ leaf.1, '.' ∉ name.toList := by
  induction h with
  | scalar value => simp [Condition.leafPaths]
  | list values => simp [Condition.leafPaths]
  | tree _ hu _ ih => exact undotted_leafPaths hu ih

end Paths

/-- The paths of the leaves are read back off the field names that they are flattened to. -/
theorem ConditionTree.Legible.namesOf_leaves {tree : ConditionTree} (h : tree.Legible) :
    (leaves tree).map (fun leaf => (namesOf leaf.1, leaf.2)) = leafPaths tree := by
  have hpath : ∀ leaf ∈ leafPaths tree, (namesOf (dotted leaf.1), leaf.2) = leaf := by
    intro leaf hl
    have hd : ∀ name ∈ leaf.1, '.' ∉ name.toList :=
      undotted_leafPaths h.undotted (fun entry hm => (h.plain entry hm).undotted_paths) leaf hl
    rw [namesOf_dotted leaf.1 (path_ne_nil hl) hd]
  rw [leaves_eq_map, List.map_map]
  exact (List.map_congr_left hpath).trans (List.map_id _)

/-- Flattening tells apart any two trees whose names are distinct and free of dots at every level
and which nest no empty tree, and it gives no field name twice. -/
theorem leaves_determine_tree {xs ys : ConditionTree} (hx : xs.Legible) (hy : ys.Legible) :
    (leaves xs = leaves ys ↔ xs = ys) ∧ (Entries.keys (leaves xs)).Nodup := by
  constructor
  · constructor
    · intro h
      apply hx.eq_of_leafPaths hy
      rw [← hx.namesOf_leaves, ← hy.namesOf_leaves, h]
    · exact congrArg leaves
  · have hn : ((leafPaths xs).map Prod.fst).Nodup := hx.distinct.nodup_paths
    rw [← hx.namesOf_leaves, List.map_map] at hn
    apply List.Nodup.of_map namesOf
    rwa [Entries.keys, List.map_map]

theorem leaves_determine_tree_shelf :
    let one : Condition := .scalar (.string "1")
    let inner : Condition := .tree [("", one), ("row", .list [])]
    let xs : ConditionTree := [("shelf", inner), ("", one)]
    let ys : ConditionTree := [("shelf", one), ("", inner)]
    xs.Legible ∧ ys.Legible ∧ leaves xs ≠ leaves ys ∧ (Entries.keys (leaves xs)).Nodup := by
  intro one inner xs ys
  have hd : one.Distinct ∧ inner.Distinct :=
    ⟨.scalar _, .tree (by decide)
      (by simp [one, Condition.Distinct.scalar, Condition.Distinct.list])⟩
  have hp : one.Plain ∧ inner.Plain :=
    ⟨.scalar _, .tree (by simp) (by simp)
      (by simp [one, Condition.Plain.scalar, Condition.Plain.list])⟩
  have hx : xs.Legible := ⟨.tree (by decide) (by simp [xs, hd]), by simp [xs], by simp [xs, hp]⟩
  have hy : ys.Legible := ⟨.tree (by decide) (by simp [ys, hd]), by simp [ys], by simp [ys, hp]⟩
  have h := leaves_determine_tree hx hy
  exact ⟨hx, hy, fun he => by simpa [xs, ys, one, inner] using h.1.mp he, h.2⟩

end SearchCompiler
