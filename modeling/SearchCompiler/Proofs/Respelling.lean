import SearchCompiler.Proofs.Agreement

/-!
Compiling sees conditions through their leaves only. Trees have the same leaves exactly if one is a
respelling of the other: a nested tree is written out under dotted names, or dotted names are
nested, at any depth, and a tree without leaves is left out or put in. Options with the same leaves
at every level compile alike.
-/

namespace SearchCompiler

/-- The entries of a tree with a stem before every name. -/
def withStem (stem : String) (tree : ConditionTree) : ConditionTree :=
  tree.map fun entry => (stem ++ entry.1, entry.2)

/-- Trees that differ in how nested conditions are written: under the name they belong to, or each
under a dotted name. With nothing nested, the name stands for nothing. -/
inductive Respelled : ConditionTree → ConditionTree → Prop
  | dotted (key : String) (entries : ConditionTree) :
    Respelled [(key, .tree entries)] (withStem (key ++ ".") entries)
  | nested (key : String) {xs ys : ConditionTree} :
    Respelled xs ys → Respelled [(key, .tree xs)] [(key, .tree ys)]
  | append {xs xs' ys ys' : ConditionTree} :
    Respelled xs xs' → Respelled ys ys' → Respelled (xs ++ ys) (xs' ++ ys')
  | refl (xs : ConditionTree) : Respelled xs xs
  | symm {xs ys : ConditionTree} : Respelled xs ys → Respelled ys xs
  | trans {xs ys zs : ConditionTree} : Respelled xs ys → Respelled ys zs → Respelled xs zs

/-- A tree of nothing but trees without leaves. -/
inductive Leafless : ConditionTree → Prop
  | nil : Leafless []
  | cons (key : String) {entries rest : ConditionTree} :
    Leafless entries → Leafless rest → Leafless ((key, .tree entries) :: rest)

def Leaf.toCondition : Leaf → Condition
  | .scalar value => .scalar value
  | .list values => .list values

/-- The tree without nesting that has given leaves. -/
def flatTree (found : List (String × Leaf)) : ConditionTree :=
  found.map fun leaf => (leaf.1, leaf.2.toCondition)

/-- Levels of options with equal clauses, but for trees that have the same leaves. -/
structure Clauses.SameLeaves (c c' : Clauses) : Prop where
  on : c.on = c'.on
  only : leaves? c.only = leaves? c'.only
  except : leaves? c.except = leaves? c'.except
  boostBy : c.boostBy = c'.boostBy
  boostFunction : c.boostFunction = c'.boostFunction
  boostWhere : leaves? c.boostWhere = leaves? c'.boostWhere
  matchOptions : c.matchOptions = c'.matchOptions

/-- Options whose levels have the same leaves one by one, with equal included texts. -/
def SearchOptions.SameLeaves : SearchOptions → SearchOptions → Prop
  | .plain c, .plain c' => c.SameLeaves c'
  | .including c text inner, .including c' text' inner' =>
    c.SameLeaves c' ∧ text = text' ∧ inner.SameLeaves inner'
  | _, _ => False

section Trees

theorem leavesUnder_withStem (stem key : String) (tree : ConditionTree) :
    leavesUnder stem (withStem key tree) = leavesUnder (stem ++ key) tree := by
  induction tree with
  | nil => simp only [withStem, List.map_nil, leavesUnder]
  | cons entry rest ih =>
    obtain ⟨name, condition⟩ := entry
    rw [withStem, List.map_cons, ← withStem]
    cases condition <;> simp only [leavesUnder, ih, String.append_assoc]

/-- A respelling keeps the leaves, under whatever name the tree stands. -/
theorem leavesUnder_eq_of_respelled {xs ys : ConditionTree} (h : Respelled xs ys) (stem : String) :
    leavesUnder stem xs = leavesUnder stem ys := by
  induction h generalizing stem with
  | dotted key entries =>
    rw [leavesUnder_withStem, leavesUnder, leavesUnder, List.append_nil, String.append_assoc]
  | nested key _ ih => simp only [leavesUnder, ih]
  | append _ _ ihx ihy => rw [leavesUnder_append, leavesUnder_append, ihx, ihy]
  | refl => rfl
  | symm _ ih => exact (ih stem).symm
  | trans _ _ ihx ihy => exact (ihx stem).trans (ihy stem)

theorem Respelled.cons (entry : String × Condition) {xs ys : ConditionTree} (h : Respelled xs ys) :
    Respelled (entry :: xs) (entry :: ys) :=
  .append (.refl [entry]) h

/-- Every tree is a respelling of the one without nesting that has its leaves. -/
theorem respelled_flatTree (stem : String) (tree : ConditionTree) :
    Respelled (withStem stem tree) (flatTree (leavesUnder stem tree)) := by
  induction stem, tree using leavesUnder.induct with
  | case1 stem =>
    rw [leavesUnder]
    exact .refl []
  | case2 stem key value rest ih =>
    rw [leavesUnder]
    exact ih.cons (stem ++ key, .scalar value)
  | case3 stem key values rest ih =>
    rw [leavesUnder]
    exact ih.cons (stem ++ key, .list values)
  | case4 stem key entries rest hin ih =>
    rw [leavesUnder, flatTree, List.map_append]
    exact .append ((Respelled.dotted (stem ++ key) entries).trans hin) ih

theorem withStem_empty (tree : ConditionTree) : withStem "" tree = tree := by
  simp only [withStem, String.empty_append, List.map_id']

/-- Trees have the same leaves exactly if they are respellings of each other. -/
theorem leaves_eq_iff {xs ys : ConditionTree} : leaves xs = leaves ys ↔ Respelled xs ys := by
  constructor
  · intro h
    have hx := respelled_flatTree "" xs
    have hy := respelled_flatTree "" ys
    rw [withStem_empty] at hx hy
    rw [leaves, leaves] at h
    rw [h] at hx
    exact hx.trans hy.symm
  · exact fun h => leavesUnder_eq_of_respelled h ""

theorem leavesUnder_eq_nil_iff {stem : String} {tree : ConditionTree} :
    leavesUnder stem tree = [] ↔ Leafless tree := by
  constructor
  · intro h
    induction stem, tree using leavesUnder.induct with
    | case1 stem => exact .nil
    | case2 stem key value rest _ => rw [leavesUnder] at h; cases h
    | case3 stem key values rest _ => rw [leavesUnder] at h; cases h
    | case4 stem key entries rest hin ih =>
      rw [leavesUnder] at h
      obtain ⟨hentries, hrest⟩ := List.append_eq_nil_iff.mp h
      exact .cons key (hin hentries) (ih hrest)
  · intro h
    induction h generalizing stem with
    | nil => rw [leavesUnder]
    | cons key _ _ hin ih => rw [leavesUnder, hin, ih, List.append_nil]

end Trees

section Levels

variable {c c' : Clauses}

theorem conditionFilters_eq_of_leaves {tree tree' : Option ConditionTree}
    (h : leaves? tree = leaves? tree') : conditionFilters tree = conditionFilters tree' := by
  rw [conditionFilters, conditionFilters, h]

theorem agrees_of_sameLeaves (h : c.SameLeaves c') (settings : Settings) (text : String) :
    Level.Agrees settings settings (text, c) (text, c') where
  base := by
    change c.base settings text = c'.base settings text
    rw [Clauses.base, Clauses.base, h.on, h.matchOptions]
  filters := by
    change c.filters = c'.filters
    rw [Clauses.filters, Clauses.filters, conditionFilters_eq_of_leaves h.only,
      conditionFilters_eq_of_leaves h.except]
  boosts := by
    change c.boosts = c'.boosts
    rw [Clauses.boosts, Clauses.boosts, h.boostBy, h.boostFunction, h.boostWhere]
  score := by
    change c.scoreFunction? settings = c'.scoreFunction? settings
    rw [Clauses.scoreFunction?, Clauses.scoreFunction?, h.boostBy, h.boostFunction,
      conditionFilters_eq_of_leaves h.boostWhere]

theorem levels_agree_of_sameLeaves {o o' : SearchOptions} (h : o.SameLeaves o')
    (settings : Settings) (text : String) :
    List.Forall₂ (Level.Agrees settings settings) (o.levels text) (o'.levels text) := by
  induction o generalizing text o' with
  | plain c =>
    cases o' with
    | plain c' => exact .cons (agrees_of_sameLeaves h settings text) .nil
    | including c' included' inner' => cases h
  | including c included inner ih =>
    cases o' with
    | plain c' => cases h
    | including c' included' inner' =>
      obtain ⟨hlevel, rfl, hinner⟩ := h
      exact .cons (agrees_of_sameLeaves hlevel settings text) (ih hinner included)

end Levels

/-- Options with the same leaves at every level compile a text to the same query or the same error,
under any settings. Trees have the same leaves exactly if they are respellings of each other, and
they have those of an absent tree exactly if they hold nothing but trees without leaves. -/
theorem compile_eq_of_sameLeaves :
    (∀ (settings : Settings) (text : String) (o o' : SearchOptions), o.SameLeaves o' →
      o.compile settings text = o'.compile settings text) ∧
    (∀ tree tree' : Option ConditionTree,
      leaves? tree = leaves? tree' ↔ Respelled (tree.getD []) (tree'.getD [])) ∧
    ∀ tree : ConditionTree, leaves? (some tree) = leaves? none ↔ Leafless tree := by
  refine ⟨fun settings text o o' h => ?_, fun _ _ => leaves_eq_iff, fun tree => ?_⟩
  · exact compile_eq_of_agrees rfl (levels_agree_of_sameLeaves h settings text)
  · have hnone : leaves? none = [] := leavesUnder_eq_nil_iff.mpr .nil
    rw [hnone]
    exact leavesUnder_eq_nil_iff

theorem compile_eq_of_sameLeaves_tea :
    let one : Condition := .scalar (.string "1")
    let o : SearchOptions :=
      .including { only := some [("company", .tree [("id", one), ("unit", .tree [])])] } "green"
        (.plain { boostBy := some "sales", boostWhere := some [("none", .tree [])] })
    let o' : SearchOptions :=
      .including { only := some [("company.id", one)], except := some [] } "green"
        (.plain { boostBy := some "sales" })
    let q : QueryNode :=
      .filtered (.single "_all" "tea" [])
        (.and [.term "company.id" (.string "1"),
          .query (.functionScore (.single "_all" "green" []) (.fieldValue "sales" "ln2p"))])
    let p : SearchOptions :=
      .plain { boostBy := some "sales", boostWhere := some [("company", .tree [("id", one)])] }
    let p' : SearchOptions :=
      .plain { boostBy := some "sales", boostWhere := some [("company.id", one)] }
    o.SameLeaves o' ∧ o.compile {} "tea" = .ok q ∧ o'.compile {} "tea" = .ok q ∧
      o.compile { boostPolicy := .reject } "tea" = o'.compile { boostPolicy := .reject } "tea" ∧
      p.SameLeaves p' ∧
      p.compile { boostPolicy := .reject } "tea" =
        .error (.ambiguousBoost [.boostBy, .boostWhere]) ∧
      p'.compile { boostPolicy := .reject } "tea" =
        .error (.ambiguousBoost [.boostBy, .boostWhere]) := by
  intro one o o' q p p'
  have h : o.SameLeaves o' :=
    ⟨⟨rfl, by cbv, by cbv, rfl, rfl, rfl, rfl⟩, rfl, ⟨rfl, rfl, rfl, rfl, rfl, by cbv, rfl⟩⟩
  have hq : o.compile {} "tea" = .ok q := by cbv
  have hsame := compile_eq_of_sameLeaves.1 {} "tea" o o' h
  have h' : p.SameLeaves p' := ⟨rfl, rfl, rfl, rfl, rfl, by cbv, rfl⟩
  have hrefused : p.compile { boostPolicy := .reject } "tea" =
      .error (.ambiguousBoost [.boostBy, .boostWhere]) := by cbv
  have hsame' := compile_eq_of_sameLeaves.1 { boostPolicy := .reject } "tea" p p' h'
  exact ⟨h, hq, hsame.symm.trans hq, compile_eq_of_sameLeaves.1 _ _ _ _ h, h', hrefused,
    hsame'.symm.trans hrefused⟩

end SearchCompiler
