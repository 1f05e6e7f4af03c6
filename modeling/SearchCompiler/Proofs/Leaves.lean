import SearchCompiler.Options.Leaf

/-!
The leaves of a condition tree read off the tree: every leaf with the names on the way down to it.
Flattening gives the same leaves in the same order, each under its names joined by dots.
-/

namespace SearchCompiler

/-- The leaves of a tree, depth first, each with the names that lead to it. -/
def leafPaths : ConditionTree → List (List String × Leaf)
  | [] => []
  | (key, .scalar value) :: rest => ([key], .scalar value) :: leafPaths rest
  | (key, .list values) :: rest => ([key], .list values) :: leafPaths rest
  | (key, .tree entries) :: rest =>
    (leafPaths entries).map (fun leaf => (key :: leaf.1, leaf.2)) ++ leafPaths rest

/-- The names on the way to a leaf as one field name. -/
def dotted (path : List String) : String :=
  ".".intercalate path

@[simp] theorem dotted_singleton (key : String) : dotted [key] = key :=
  String.intercalate_singleton

theorem dotted_cons {path : List String} (h : path ≠ []) (key : String) :
    dotted (key :: path) = key ++ "." ++ dotted path := by
  obtain ⟨next, rest, rfl⟩ := List.exists_cons_of_ne_nil h
  exact String.intercalate_cons_cons

theorem path_ne_nil {tree : ConditionTree} {leaf : List String × Leaf}
    (h : leaf ∈ leafPaths tree) : leaf.1 ≠ [] := by
  induction tree using leafPaths.induct with
  | case1 => simp [leafPaths] at h
  | case2 key value rest ih =>
    rw [leafPaths] at h
    rcases List.mem_cons.mp h with rfl | h
    · exact List.cons_ne_nil _ _
    · exact ih h
  | case3 key values rest ih =>
    rw [leafPaths] at h
    rcases List.mem_cons.mp h with rfl | h
    · exact List.cons_ne_nil _ _
    · exact ih h
  | case4 key entries rest _ ih =>
    rw [leafPaths] at h
    rcases List.mem_append.mp h with h | h
    · obtain ⟨inner, _, rfl⟩ := List.mem_map.mp h
      exact List.cons_ne_nil _ _
    · exact ih h

theorem leavesUnder_eq_map (stem : String) (tree : ConditionTree) :
    leavesUnder stem tree =
      (leafPaths tree).map fun leaf => (stem ++ dotted leaf.1, leaf.2) := by
  induction tree using leafPaths.induct generalizing stem with
  | case1 => simp [leavesUnder, leafPaths]
  | case2 key value rest ih => simp [leavesUnder, leafPaths, ih]
  | case3 key values rest ih => simp [leavesUnder, leafPaths, ih]
  | case4 key entries rest hin ih =>
    -- A nested tree is flattened under a longer stem; its paths are longer by the same name.
    have hpath : ∀ leaf ∈ leafPaths entries,
        (stem ++ key ++ "." ++ dotted leaf.1, leaf.2) =
          (stem ++ dotted (key :: leaf.1), leaf.2) := by
      intro leaf hl
      rw [dotted_cons (path_ne_nil hl)]
      simp only [String.append_assoc]
    rw [leavesUnder, leafPaths, hin, ih, List.map_append, List.map_map]
    exact congrArg (· ++ _) (List.map_congr_left hpath)

/-- The leaves of a tree are those read off it, in the same order, under their dotted paths. -/
theorem leaves_eq_map (tree : ConditionTree) :
    leaves tree = (leafPaths tree).map fun leaf => (dotted leaf.1, leaf.2) := by
  rw [leaves, leavesUnder_eq_map]
  simp only [String.empty_append]

end SearchCompiler
