import SearchCompiler.Proofs.Respelling
import SearchCompiler.Proofs.UnambiguousLeaves

/-!
Where the leaves of a tree stand. A leaf is reached from the root by one entry of each tree on the
way, and the numbers of these entries are its place. Places tell leaves apart that have the same
names, and in their lexicographic order the leaves come depth first, entry by entry. Flattening
lists each leaf that can be reached once, in the order of the places, whatever the names are.
-/

namespace SearchCompiler

/-- A leaf with its place, the numbers of the entries on the way to it, and with their names. -/
structure LeafSite where
  place : List Nat
  names : List String
  leaf : Leaf

namespace LeafSite

/-- A leaf seen from one tree further up, in which it is below the entry of a number and a name. -/
def below (index : Nat) (key : String) (site : LeafSite) : LeafSite :=
  ⟨index :: site.place, key :: site.names, site.leaf⟩

/-- A leaf stands before another in depth-first order. -/
def Before (site other : LeafSite) : Prop :=
  site.place < other.place

def path (site : LeafSite) : List String × Leaf :=
  (site.names, site.leaf)

/-- The dotted name of the field that a leaf is about, with the leaf. -/
def dottedField (site : LeafSite) : String × Leaf :=
  (dotted site.names, site.leaf)

theorem Before.below {site other : LeafSite} (h : site.Before other) (index : Nat) (key : String) :
    (site.below index key).Before (other.below index key) :=
  List.cons_lt_cons_iff.mpr (.inr ⟨rfl, h⟩)

theorem before_of_lt {index index' : Nat} (h : index < index') (key key' : String)
    (site other : LeafSite) : (site.below index key).Before (other.below index' key') :=
  List.cons_lt_cons_iff.mpr (.inl h)

end LeafSite

/-- A leaf is reached from a condition: it is the condition itself, or it is reached from what an
entry of the tree holds, and the entry comes first on the way to it. -/
inductive Condition.Reaches : Condition → LeafSite → Prop
  | scalar (value : Scalar) : Reaches (.scalar value) ⟨[], [], .scalar value⟩
  | list (values : List Scalar) : Reaches (.list values) ⟨[], [], .list values⟩
  | entry {entries : ConditionTree} {index : Nat} {key : String} {condition : Condition}
      {site : LeafSite} :
    entries[index]? = some (key, condition) → Reaches condition site →
      Reaches (.tree entries) (site.below index key)

mutual

/-- The leaves of a condition, each with its place, in depth-first order. -/
def Condition.sites : Condition → List LeafSite
  | .scalar value => [⟨[], [], .scalar value⟩]
  | .list values => [⟨[], [], .list values⟩]
  | .tree entries => sitesFrom 0 entries

/-- The leaves of entries that are numbered from a number on. -/
def sitesFrom (index : Nat) : List (String × Condition) → List LeafSite
  | [] => []
  | (key, condition) :: rest =>
    condition.sites.map (LeafSite.below index key) ++ sitesFrom (index + 1) rest

end

section Sites

mutual

/-- The leaves that are listed are those that are reached. -/
theorem Condition.mem_sites_iff {site : LeafSite} :
    ∀ condition : Condition, site ∈ condition.sites ↔ condition.Reaches site
  | .scalar value => by
    rw [Condition.sites, List.mem_singleton]
    constructor
    · rintro rfl
      exact .scalar value
    · intro h
      cases h
      rfl
  | .list values => by
    rw [Condition.sites, List.mem_singleton]
    constructor
    · rintro rfl
      exact .list values
    · intro h
      cases h
      rfl
  | .tree entries => by
    rw [Condition.sites, mem_sitesFrom_iff 0 entries]
    constructor
    · rintro ⟨offset, key, condition, inner, hentry, hreach, rfl⟩
      rw [Nat.zero_add]
      exact .entry hentry hreach
    · intro h
      cases h with
      | entry hentry hreach =>
        exact ⟨_, _, _, _, hentry, hreach, by rw [Nat.zero_add]⟩

theorem mem_sitesFrom_iff {site : LeafSite} (index : Nat) :
    ∀ entries : List (String × Condition), site ∈ sitesFrom index entries ↔
      ∃ (offset : Nat) (key : String) (condition : Condition) (inner : LeafSite),
        entries[offset]? = some (key, condition) ∧ condition.Reaches inner ∧
          site = inner.below (index + offset) key
  | [] => by simp [sitesFrom]
  | (key, condition) :: rest => by
    rw [sitesFrom, List.mem_append, List.mem_map, mem_sitesFrom_iff (index + 1) rest]
    -- The first entry is at the offset zero, any other at one more than in the rest.
    constructor
    · rintro (⟨inner, hinner, rfl⟩ | ⟨offset, key', condition', inner, hentry, hreach, rfl⟩)
      · exact ⟨0, key, condition, inner, rfl, (condition.mem_sites_iff).mp hinner, rfl⟩
      · refine ⟨offset + 1, key', condition', inner, hentry, hreach, ?_⟩
        rw [Nat.add_right_comm, Nat.add_assoc]
    · rintro ⟨offset, key', condition', inner, hentry, hreach, rfl⟩
      cases offset with
      | zero =>
        cases hentry
        exact .inl ⟨inner, (condition.mem_sites_iff).mpr hreach, rfl⟩
      | succ offset =>
        refine .inr ⟨offset, key', condition', inner, hentry, hreach, ?_⟩
        rw [Nat.add_right_comm, Nat.add_assoc]

end

mutual

/-- The leaves are listed in depth-first order, so none is listed twice. -/
theorem Condition.sites_pairwise :
    ∀ condition : Condition, condition.sites.Pairwise LeafSite.Before
  | .scalar value => by
    rw [Condition.sites]
    exact List.pairwise_singleton _ _
  | .list values => by
    rw [Condition.sites]
    exact List.pairwise_singleton _ _
  | .tree entries => by
    rw [Condition.sites]
    exact sitesFrom_pairwise 0 entries

theorem sitesFrom_pairwise (index : Nat) :
    ∀ entries : List (String × Condition), (sitesFrom index entries).Pairwise LeafSite.Before
  | [] => by
    rw [sitesFrom]
    exact List.Pairwise.nil
  | (key, condition) :: rest => by
    rw [sitesFrom, List.pairwise_append, List.pairwise_map]
    refine ⟨?_, sitesFrom_pairwise (index + 1) rest, ?_⟩
    · exact condition.sites_pairwise.imp fun h => h.below index key
    · -- The places in the other entries begin with a larger number.
      intro site hsite other hother
      obtain ⟨inner, _, rfl⟩ := List.mem_map.mp hsite
      obtain ⟨offset, key', _, inner', _, _, rfl⟩ := (mem_sitesFrom_iff (index + 1) rest).mp hother
      have hlt : index < index + 1 + offset := by omega
      exact LeafSite.before_of_lt hlt key key' inner inner'

end

mutual

theorem Condition.map_path_sites :
    ∀ condition : Condition, condition.sites.map LeafSite.path = condition.leafPaths
  | .scalar value => by
    rw [Condition.sites, Condition.leafPaths]
    rfl
  | .list values => by
    rw [Condition.sites, Condition.leafPaths]
    rfl
  | .tree entries => by
    rw [Condition.sites, Condition.leafPaths]
    exact map_path_sitesFrom 0 entries

theorem map_path_sitesFrom (index : Nat) :
    ∀ entries : List (String × Condition),
      (sitesFrom index entries).map LeafSite.path = leafPaths entries
  | [] => by
    rw [sitesFrom, leafPaths]
    rfl
  | (key, condition) :: rest => by
    have hfirst : (condition.sites.map (LeafSite.below index key)).map LeafSite.path =
        condition.leafPaths.map (inside key) := by
      rw [← condition.map_path_sites, List.map_map, List.map_map]
      rfl
    rw [sitesFrom, List.map_append, hfirst, map_path_sitesFrom (index + 1) rest, leafPaths_entry]

end

end Sites

section Flattening

theorem leaves_eq_map_sites (tree : ConditionTree) :
    leaves tree = (Condition.tree tree).sites.map LeafSite.dottedField := by
  have hpath : (Condition.tree tree).sites.map LeafSite.path = leafPaths tree :=
    (Condition.tree tree).map_path_sites
  rw [leaves_eq_map, ← hpath, List.map_map]
  rfl

theorem leaves_append (xs ys : ConditionTree) : leaves (xs ++ ys) = leaves xs ++ leaves ys :=
  leavesUnder_append "" xs ys

theorem leaves_toCondition (field : String) (leaf : Leaf) :
    leaves [(field, leaf.toCondition)] = [(field, leaf)] := by
  cases leaf with
  | scalar value => simp only [leaves, Leaf.toCondition, leavesUnder, String.empty_append]
  | list values => simp only [leaves, Leaf.toCondition, leavesUnder, String.empty_append]

/-- A tree without nesting has the leaves that it is made of. -/
theorem leaves_flatTree (found : List (String × Leaf)) : leaves (flatTree found) = found := by
  induction found with
  | nil => rw [flatTree, List.map_nil, leaves, leavesUnder]
  | cons first rest ih =>
    have hfirst : flatTree (first :: rest) = [(first.1, first.2.toCondition)] ++ flatTree rest := rfl
    rw [hfirst, leaves_append, leaves_toCondition, ih]
    rfl

end Flattening

/-- Flattening lists exactly the leaves that are reached from the root, each once and in depth-first
order, under the names on the way to it joined by dots. So entries one after another are flattened
one after another, and what is flattened already stays as it is. -/
theorem leaves_in_depth_first_order (tree : ConditionTree) :
    (∃ sites : List LeafSite, (∀ site, site ∈ sites ↔ (Condition.tree tree).Reaches site) ∧
        sites.Pairwise LeafSite.Before ∧ leaves tree = sites.map LeafSite.dottedField) ∧
      (∀ more : ConditionTree, leaves (tree ++ more) = leaves tree ++ leaves more) ∧
      leaves (flatTree (leaves tree)) = leaves tree := by
  refine ⟨⟨(Condition.tree tree).sites, ?_, ?_, ?_⟩, leaves_append tree, leaves_flatTree _⟩
  · intro site
    exact (Condition.tree tree).mem_sites_iff
  · exact (Condition.tree tree).sites_pairwise
  · exact leaves_eq_map_sites tree

-- Leaves of one field are told apart by their places alone.
example :
    let one : Condition := .scalar (.string "1")
    leaves [("a", .tree [("b", one), ("", .list [])]), ("", .tree []), ("a.b", one), ("a.b", one)] =
      [("a.b", .scalar (.string "1")), ("a.", .list []), ("a.b", .scalar (.string "1")),
        ("a.b", .scalar (.string "1"))] := by
  cbv

end SearchCompiler
