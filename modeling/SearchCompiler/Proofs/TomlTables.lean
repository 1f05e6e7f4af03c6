import SearchCompiler.Toml.Reader

/-!
No table of a document holds a name twice. Statements reach the table that they add to by changes
along a path of names; each change adds a name that is not there or puts a table back under its own
name. So the names of every table stay distinct while a document is built, and the tables that are
written between braces are built in the same way.
-/

namespace SearchCompiler.Toml

/-- A value in which no table, at any depth, holds a name twice. -/
inductive Value.Distinct : Value → Prop
  | string (s : String) : Distinct (.string s)
  | integer (n : Int) : Distinct (.integer n)
  | float (bits : UInt64) : Distinct (.float bits)
  | huge : Distinct .huge
  | boolean (b : Bool) : Distinct (.boolean b)
  | datetime : Distinct .datetime
  | array {items : List Value} : (∀ item ∈ items, item.Distinct) → Distinct (.array items)
  | table {entries : Entries Value} : entries.keys.Nodup →
    (∀ entry ∈ entries, entry.2.Distinct) → Distinct (.table entries)

theorem Value.Distinct.nodup_keys {entries : Entries Value} (h : (Value.table entries).Distinct) :
    entries.keys.Nodup := by
  cases h with
  | table hkeys _ => exact hkeys

theorem Value.Distinct.of_mem {entries : Entries Value} (h : (Value.table entries).Distinct)
    {entry : String × Value} (he : entry ∈ entries) : entry.2.Distinct := by
  cases h with
  | table _ heach => exact heach entry he

/-- A node whose tables, and those of the values in it, hold no name twice. -/
inductive Node.Distinct : Node → Prop
  | closed {v : Value} : v.Distinct → Distinct (.closed v)
  | table {origin : Origin} {nodes : Nodes} : (Entries.keys nodes).Nodup →
    (∀ node ∈ nodes, node.2.Distinct) → Distinct (.table origin nodes)
  | tables {done : List Nodes} {latest : Nodes} : (∀ nodes ∈ done, (Entries.keys nodes).Nodup) →
    (∀ nodes ∈ done, ∀ node ∈ nodes, node.2.Distinct) → (Entries.keys latest).Nodup →
    (∀ node ∈ latest, node.2.Distinct) → Distinct (.tables done latest)

/-- The nodes of a table hold no name twice, nor do the tables inside them. -/
structure DistinctNodes (nodes : Nodes) : Prop where
  keys : (Entries.keys nodes).Nodup
  each : ∀ node ∈ nodes, node.2.Distinct

section Nodes

variable {nodes nodes' : Nodes} {name : String} {node : Node}

theorem distinctNodes_nil : DistinctNodes [] :=
  ⟨List.nodup_nil, List.forall_mem_nil _⟩

theorem DistinctNodes.of_lookup (h : DistinctNodes nodes) (hn : nodes.lookup name = some node) :
    node.Distinct :=
  h.each _ ((Entries.lookup_eq_some_iff h.keys).mp hn)

theorem DistinctNodes.insert (h : DistinctNodes nodes) (hnode : node.Distinct) :
    DistinctNodes (Entries.insert name node nodes) := by
  refine ⟨Entries.nodup_keys_insert h.keys name node, fun entry he => ?_⟩
  rcases Entries.mem_of_mem_insert he with rfl | he
  · exact hnode
  · exact h.each entry he

theorem DistinctNodes.append (h : DistinctNodes nodes) (hn : nodes.lookup name = none)
    (hnode : node.Distinct) : DistinctNodes (nodes ++ [(name, node)]) := by
  have hnew : name ∉ Entries.keys nodes := by
    intro hm
    obtain ⟨entry, he, rfl⟩ := List.mem_map.mp hm
    rw [(Entries.lookup_eq_some_iff h.keys).mpr he] at hn
    cases hn
  rw [← Entries.insert_of_not_mem hnew node]
  exact h.insert hnode

theorem DistinctNodes.table (h : DistinctNodes nodes) (origin : Origin) :
    (Node.table origin nodes).Distinct :=
  .table h.keys h.each

/-- A change that keeps names distinct in the table it applies to does so along every path to it. -/
theorem distinctNodes_descend {made : Origin} {change : Origin → Nodes → Option Nodes}
    (hchange : ∀ origin nodes nodes', DistinctNodes nodes → change origin nodes = some nodes' →
      DistinctNodes nodes') {names : List String} {origin : Origin} (h : DistinctNodes nodes)
    (hd : descend made change names origin nodes = some nodes') : DistinctNodes nodes' := by
  induction names generalizing origin nodes nodes' with
  | nil => exact hchange origin nodes nodes' h hd
  | cons name names ih =>
    unfold descend at hd
    -- The name is new, is that of a table, or is that of an array, whose latest table is changed.
    split at hd
    · next hn =>
      obtain ⟨inner, hinner, rfl⟩ := Option.map_eq_some_iff.mp hd
      exact h.append hn ((ih distinctNodes_nil hinner).table made)
    · next origin' inner hn =>
      split at hd
      · cases hd
      · obtain ⟨inner', hinner, rfl⟩ := Option.map_eq_some_iff.mp hd
        cases h.of_lookup hn with
        | table hkeys heach => exact h.insert ((ih ⟨hkeys, heach⟩ hinner).table origin')
    · next done inner hn =>
      obtain ⟨inner', hinner, rfl⟩ := Option.map_eq_some_iff.mp hd
      cases h.of_lookup hn with
      | tables hdone hdone' hkeys heach =>
        have hlatest := ih ⟨hkeys, heach⟩ hinner
        exact h.insert (.tables hdone hdone' hlatest.keys hlatest.each)
    · cases hd

theorem distinctNodes_openTable {key : Key} (h : DistinctNodes nodes)
    (ho : openTable key nodes = some nodes') : DistinctNodes nodes' := by
  refine distinctNodes_descend (fun origin nodes nodes' h hc => ?_) h ho
  split at hc
  · next hn =>
    cases hc
    exact h.append hn (distinctNodes_nil.table .header)
  · next inner hn =>
    cases hc
    cases h.of_lookup hn with
    | table hkeys heach => exact h.insert (.table hkeys heach)
  · cases hc

theorem distinctNodes_openArrayTable {key : Key} (h : DistinctNodes nodes)
    (ho : openArrayTable key nodes = some nodes') : DistinctNodes nodes' := by
  refine distinctNodes_descend (fun origin nodes nodes' h hc => ?_) h ho
  split at hc
  · next hn =>
    cases hc
    exact h.append hn (.tables (List.forall_mem_nil _) (List.forall_mem_nil _) List.nodup_nil
      (List.forall_mem_nil _))
  · next done inner hn =>
    cases hc
    cases h.of_lookup hn with
    | tables hdone hdone' hkeys heach =>
      refine h.insert (.tables ?_ ?_ List.nodup_nil (List.forall_mem_nil _))
      · exact List.forall_mem_append.mpr ⟨hdone, List.forall_mem_singleton.mpr hkeys⟩
      · exact List.forall_mem_append.mpr ⟨hdone', List.forall_mem_singleton.mpr heach⟩
  · cases hc

theorem distinctNodes_assign {key : Key} {v : Value} (hv : v.Distinct) (h : DistinctNodes nodes)
    (ha : assign key v nodes = some nodes') : DistinctNodes nodes' := by
  refine distinctNodes_descend (fun origin nodes nodes' h hc => ?_) h ha
  split at hc
  · cases hc
  · split at hc
    · cases hc
    · next hn =>
      cases hc
      exact h.append (Option.not_isSome_iff_eq_none.mp hn) (.closed hv)

end Nodes

section Values

theorem entryValues_eq_map (nodes : Nodes) :
    entryValues nodes = nodes.map fun node => (node.1, node.2.value) := by
  induction nodes with
  | nil => rfl
  | cons node rest ih => rw [entryValues, ih, List.map_cons]

theorem tableValues_eq_map (done : List Nodes) :
    tableValues done = done.map fun nodes => .table (sortByName (entryValues nodes)) := by
  induction done with
  | nil => rfl
  | cons nodes rest ih => rw [tableValues, ih, List.map_cons]

theorem keys_entryValues (nodes : Nodes) :
    Entries.keys (entryValues nodes) = Entries.keys nodes := by
  rw [entryValues_eq_map, Entries.keys, List.map_map]
  rfl

/-- A table of distinct values under distinct names, sorted. -/
theorem distinct_sorted {nodes : Nodes} (hkeys : (Entries.keys nodes).Nodup)
    (heach : ∀ node ∈ nodes, node.2.value.Distinct) :
    Value.Distinct (.table (sortByName (entryValues nodes))) := by
  have hperm := sortByName_perm (entryValues nodes)
  refine .table ?_ fun entry he => ?_
  · rw [Entries.keys, (hperm.map Prod.fst).nodup_iff]
    change (Entries.keys (entryValues nodes)).Nodup
    rwa [keys_entryValues]
  · rw [hperm.mem_iff, entryValues_eq_map] at he
    obtain ⟨node, hn, rfl⟩ := List.mem_map.mp he
    exact heach node hn

theorem Node.Distinct.value {node : Node} (h : node.Distinct) : node.value.Distinct := by
  induction h with
  | closed hv => exact hv
  | table hkeys _ ih => exact distinct_sorted hkeys ih
  | tables hdone _ hkeys _ ihdone ih =>
    rw [Node.value, tableValues_eq_map]
    refine .array (List.forall_mem_append.mpr ⟨fun item hi => ?_,
      List.forall_mem_singleton.mpr (distinct_sorted hkeys ih)⟩)
    obtain ⟨nodes, hn, rfl⟩ := List.mem_map.mp hi
    exact distinct_sorted (hdone nodes hn) (ihdone nodes hn)

theorem DistinctNodes.value {nodes : Nodes} (h : DistinctNodes nodes) :
    Value.Distinct (.table (sortByName (entryValues nodes))) :=
  distinct_sorted h.keys fun node hn => (h.each node hn).value

end Values

section Documents

/-- The value that a statement assigns, if it assigns one, has distinct names. -/
def Statement.Distinct : Statement → Prop
  | .assign _ v => v.Distinct
  | _ => True

theorem distinctNodes_add {b b' : Building} {s : Statement} (hs : s.Distinct)
    (h : DistinctNodes b.nodes) (ha : b.add s = some b') : DistinctNodes b'.nodes := by
  cases s with
  | table key =>
    obtain ⟨nodes, hn, rfl⟩ := Option.map_eq_some_iff.mp ha
    exact distinctNodes_openTable h hn
  | arrayTable key =>
    obtain ⟨nodes, hn, rfl⟩ := Option.map_eq_some_iff.mp ha
    exact distinctNodes_openArrayTable h hn
  | assign key v =>
    obtain ⟨nodes, hn, rfl⟩ := Option.map_eq_some_iff.mp ha
    exact distinctNodes_descend (fun _ _ _ h hc => distinctNodes_assign hs h hc) h hn

/-- What is kept by every step is kept by a run that succeeds. -/
theorem foldlM_keeps {α β : Type} {P : β → Prop} {Q : α → Prop} {step : β → α → Option β}
    (hstep : ∀ b a b', Q a → P b → step b a = some b' → P b') {xs : List α} (hxs : ∀ a ∈ xs, Q a)
    {b b' : β} (hb : P b) (h : xs.foldlM step b = some b') : P b' := by
  induction xs generalizing b with
  | nil =>
    cases h
    exact hb
  | cons a rest ih =>
    rw [List.forall_mem_cons] at hxs
    rw [List.foldlM_cons] at h
    obtain ⟨mid, hm, h⟩ := Option.bind_eq_some_iff.mp h
    exact ih hxs.2 (hstep b a mid hxs.1 hb hm) h

theorem distinct_build {statements : List Statement} {entries : Entries Value}
    (hs : ∀ s ∈ statements, s.Distinct) (h : build statements = some entries) :
    Value.Distinct (.table entries) := by
  obtain ⟨b, hb, rfl⟩ := Option.map_eq_some_iff.mp h
  have hnodes := foldlM_keeps (P := fun b : Building => DistinctNodes b.nodes)
    (fun _ _ _ hs h ha => distinctNodes_add hs h ha) hs distinctNodes_nil hb
  exact hnodes.value

theorem distinct_buildInline {assignments : List (Key × Value)} {entries : Entries Value}
    (ha : ∀ a ∈ assignments, a.2.Distinct) (h : buildInline assignments = some entries) :
    Value.Distinct (.table entries) := by
  obtain ⟨nodes, hn, rfl⟩ := Option.map_eq_some_iff.mp h
  have hnodes := foldlM_keeps (fun _ _ _ hv h hc => distinctNodes_assign hv h hc) ha
    distinctNodes_nil hn
  exact hnodes.value

end Documents

section Readers

/-- All that a reader gives has a property. -/
def Yields {α : Type} (P : α → Prop) (read : Reader α) : Prop :=
  ∀ ⦃cs x rest⦄, read cs = some (x, rest) → P x

theorem distinct_of_float? {cs : List Char} {v : Value} (h : float? cs = some v) : v.Distinct := by
  unfold float? at h
  split at h
  next negative body hsign =>
  split at h
  · cases h
    exact .float _
  · split at h
    · cases h
      exact .float _
    · obtain ⟨f, _, rfl⟩ := Option.map_eq_some_iff.mp h
      split
      · exact .huge
      · exact .float _

theorem distinct_of_plainValue? {cs : List Char} {v : Value} (h : plainValue? cs = some v) :
    v.Distinct := by
  unfold plainValue? at h
  split at h
  · cases h
    exact .boolean true
  · split at h
    · cases h
      exact .boolean false
    · split at h
      · next n _ =>
        cases h
        split
        · exact .integer n
        · exact .huge
      · split at h
        · next v' hv =>
          cases h
          exact distinct_of_float? hv
        · split at h
          · cases h
            exact .datetime
          · cases h

theorem yields_plain : Yields Value.Distinct plain := by
  intro cs v rest h
  unfold plain at h
  dsimp only at h
  split at h
  · split at h
    · obtain ⟨v', hv, he⟩ := Option.map_eq_some_iff.mp h
      cases he
      exact distinct_of_plainValue? hv
    · cases h
      exact .datetime
  · obtain ⟨v', hv, he⟩ := Option.map_eq_some_iff.mp h
    cases he
    exact distinct_of_plainValue? hv

theorem yields_sequence {α : Type} {P : α → Prop} {item : Reader α} (hi : Yields P item)
    (close : Char) (steps : Nat) :
    Yields (fun xs => ∀ x ∈ xs, P x) (sequence item close steps) := by
  induction steps with
  | zero => intro cs xs rest h; cases h
  | succ steps ih =>
    intro cs xs rest h
    unfold sequence at h
    obtain ⟨next, _, h⟩ := Option.bind_eq_some_iff.mp h
    split at h
    · cases h
    · split at h
      · cases h
        exact List.forall_mem_nil _
      · obtain ⟨⟨a, after⟩, ha, h⟩ := Option.bind_eq_some_iff.mp h
        obtain ⟨next', _, h⟩ := Option.bind_eq_some_iff.mp h
        split at h
        · obtain ⟨⟨more, after'⟩, hmore, he⟩ := Option.map_eq_some_iff.mp h
          cases he
          exact List.forall_mem_cons.mpr ⟨hi ha, ih hmore⟩
        · split at h
          · cases h
            exact List.forall_mem_singleton.mpr (hi ha)
          · cases h
        · cases h

theorem yields_assignment {item : Reader Value} (hi : Yields Value.Distinct item) :
    Yields (fun a : Key × Value => a.2.Distinct) (assignment item) := by
  intro cs a rest h
  unfold assignment at h
  obtain ⟨⟨k, after⟩, _, h⟩ := Option.bind_eq_some_iff.mp h
  dsimp only at h
  split at h
  · obtain ⟨⟨v, after'⟩, hv, h⟩ := Option.bind_eq_some_iff.mp h
    cases h
    exact hi hv
  · cases h

theorem yields_valueWith {item : Option (Reader Value)}
    (hi : ∀ read ∈ item, Yields Value.Distinct read) : Yields Value.Distinct (valueWith item) := by
  intro cs v rest h
  unfold valueWith at h
  split at h
  · obtain ⟨⟨s, after⟩, _, he⟩ := Option.map_eq_some_iff.mp h
    cases he
    exact .string s
  · obtain ⟨⟨s, after⟩, _, he⟩ := Option.map_eq_some_iff.mp h
    cases he
    exact .string s
  · obtain ⟨read, hread, h⟩ := Option.bind_eq_some_iff.mp h
    obtain ⟨⟨items, after⟩, hitems, h⟩ := Option.bind_eq_some_iff.mp h
    cases h
    exact .array (yields_sequence (hi read hread) _ _ hitems)
  · obtain ⟨read, hread, h⟩ := Option.bind_eq_some_iff.mp h
    obtain ⟨⟨assignments, after⟩, hassignments, h⟩ := Option.bind_eq_some_iff.mp h
    obtain ⟨entries, hentries, h⟩ := Option.bind_eq_some_iff.mp h
    cases h
    have ha := yields_sequence (yields_assignment (hi read hread)) _ _ hassignments
    exact distinct_buildInline ha hentries
  · exact yields_plain h

theorem yields_value (depth : Nat) : Yields Value.Distinct (value depth) := by
  induction depth with
  | zero => exact yields_valueWith nofun
  | succ depth ih =>
    refine yields_valueWith fun read hr => ?_
    cases hr
    exact ih

theorem yields_statement : Yields Statement.Distinct statement := by
  intro cs s rest h
  unfold statement at h
  split at h
  · obtain ⟨⟨k, after⟩, _, h⟩ := Option.bind_eq_some_iff.mp h
    dsimp only at h
    split at h
    · obtain ⟨after', _, h⟩ := Option.bind_eq_some_iff.mp h
      cases h
      trivial
    · cases h
  · obtain ⟨⟨k, after⟩, _, h⟩ := Option.bind_eq_some_iff.mp h
    dsimp only at h
    split at h
    · obtain ⟨after', _, h⟩ := Option.bind_eq_some_iff.mp h
      cases h
      trivial
    · cases h
  · obtain ⟨⟨⟨k, v⟩, after⟩, hv, h⟩ := Option.bind_eq_some_iff.mp h
    obtain ⟨after', _, h⟩ := Option.bind_eq_some_iff.mp h
    cases h
    exact yields_assignment (yields_value maxDepth) hv

theorem distinct_of_statements {steps : Nat} {cs : List Char} {found : List Statement}
    (h : statements steps cs = some found) : ∀ s ∈ found, s.Distinct := by
  induction steps generalizing cs found with
  | zero => cases h
  | succ steps ih =>
    unfold statements at h
    split at h
    · cases h
      exact List.forall_mem_nil _
    · obtain ⟨rest, _, h⟩ := Option.bind_eq_some_iff.mp h
      exact ih h
    · split at h
      · exact ih h
      · obtain ⟨⟨s, rest⟩, hs, h⟩ := Option.bind_eq_some_iff.mp h
        obtain ⟨more, hmore, rfl⟩ := Option.map_eq_some_iff.mp h
        exact List.forall_mem_cons.mpr ⟨yields_statement hs, ih hmore⟩

/-- No table of a document holds a name twice. -/
theorem distinct_of_parse? {text : String} {document : Entries Value}
    (h : parse? text = some document) : Value.Distinct (.table document) := by
  obtain ⟨found, hfound, h⟩ := Option.bind_eq_some_iff.mp h
  exact distinct_build (distinct_of_statements hfound) h

end Readers

end SearchCompiler.Toml
