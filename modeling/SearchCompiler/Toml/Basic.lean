import SearchCompiler.Entries

/-!
TOML values and the tables that statements build.

A document is a list of statements: headers that open a table, headers that open the next table of
an array, and assignments under dotted keys. `Node` keeps for every table how it came to be, since
that decides whether a later statement may add to it; `Node.value` forgets it.
-/

namespace SearchCompiler.Toml

/-- Control characters other than the tab. They stand nowhere in a document; line endings, which
count among them, stand only where a line may end. -/
def isControl (c : Char) : Bool :=
  (c.toNat < 32 && c != '\t') || c == '\x7f'

/-- A TOML value. Doubles are held by their bits; of dates and times only their presence is kept. -/
inductive Value where
  | string (value : String)
  | integer (value : Int)
  | float (bits : UInt64)
  -- A number beyond 128 bits or beyond the doubles. It may stand in a document, but nobody can
  -- read it.
  | huge
  | boolean (value : Bool)
  | datetime
  | array (items : List Value)
  | table (entries : List (String × Value))
deriving Inhabited

/-- A dotted key: the names before the last one, and the last one. -/
structure Key where
  above : List String
  last : String
deriving Inhabited

def Key.names (k : Key) : List String :=
  k.above ++ [k.last]

inductive Statement where
  | table (key : Key)
  | arrayTable (key : Key)
  | assign (key : Key) (value : Value)
deriving Inhabited

inductive Origin where
  -- By the header of a table below it.
  | implied
  -- By a dotted key.
  | dotted
  -- By its own header, or as the document itself.
  | header
deriving DecidableEq, Inhabited

inductive Node where
  -- A value that nothing can be added to.
  | closed (value : Value)
  | table (origin : Origin) (entries : List (String × Node))
  -- An array of tables, each opened by a header of its own; the last one is still open.
  | tables (done : List (List (String × Node))) (latest : List (String × Node))

abbrev Nodes := List (String × Node)

/-- Puts an entry before the first one whose name comes after its own. -/
def placeByName {α : Type} (entry : String × α) : Entries α → Entries α
  | [] => [entry]
  | next :: rest =>
    if entry.1 < next.1 then entry :: next :: rest else next :: placeByName entry rest

def sortByName {α : Type} (entries : Entries α) : Entries α :=
  entries.foldr placeByName []

theorem placeByName_perm {α : Type} (entry : String × α) (entries : Entries α) :
    (placeByName entry entries).Perm (entry :: entries) := by
  induction entries with
  | nil => exact List.Perm.refl _
  | cons next rest ih =>
    unfold placeByName
    split
    · exact List.Perm.refl _
    · exact (ih.cons next).trans (List.Perm.swap entry next rest)

/-- Sorting neither adds nor loses an entry. -/
theorem sortByName_perm {α : Type} (entries : Entries α) :
    (sortByName entries).Perm entries := by
  induction entries with
  | nil => exact List.Perm.refl _
  | cons entry rest ih => exact (placeByName_perm entry (sortByName rest)).trans (ih.cons entry)

mutual

def Node.value : Node → Value
  | .closed v => v
  | .table _ entries => .table (sortByName (entryValues entries))
  | .tables done latest => .array (tableValues done ++ [.table (sortByName (entryValues latest))])

def entryValues : List (String × Node) → List (String × Value)
  | [] => []
  | (key, node) :: rest => (key, node.value) :: entryValues rest

def tableValues : List (List (String × Node)) → List Value
  | [] => []
  | entries :: rest => .table (sortByName (entryValues entries)) :: tableValues rest

end

/-- Changes the table that names lead to. Tables on the way that are not there yet are made, with
the origin that is given. A dotted key must not pass through a table that has a header of its own.
The change is told the origin of the table it applies to. -/
def descend (made : Origin) (change : Origin → Nodes → Option Nodes) :
    List String → Origin → Nodes → Option Nodes
  | [], origin, nodes => change origin nodes
  | name :: names, _, nodes =>
    match nodes.lookup name with
    | none => (descend made change names made []).map fun inner =>
        nodes ++ [(name, .table made inner)]
    | some (.table origin inner) =>
      -- A table with a header of its own is complete, so dotted keys cannot reach into it.
      if made = .dotted ∧ origin = .header then none
      else (descend made change names origin inner).map fun inner =>
        Entries.insert name (.table origin inner) nodes
    | some (.tables done inner) =>
      (descend made change names .header inner).map fun inner =>
        Entries.insert name (.tables done inner) nodes
    | some (.closed _) => none

/-- Opens a table by its header. It must be new or merely implied. -/
def openTable (key : Key) (nodes : Nodes) : Option Nodes :=
  descend .implied (fun _ nodes =>
    match nodes.lookup key.last with
    | none => some (nodes ++ [(key.last, .table .header [])])
    | some (.table .implied inner) => some (Entries.insert key.last (.table .header inner) nodes)
    | some _ => none) key.above .header nodes

def openArrayTable (key : Key) (nodes : Nodes) : Option Nodes :=
  descend .implied (fun _ nodes =>
    match nodes.lookup key.last with
    | none => some (nodes ++ [(key.last, .tables [] [])])
    | some (.tables done inner) =>
      some (Entries.insert key.last (.tables (done ++ [inner]) []) nodes)
    | some _ => none) key.above .header nodes

/-- Assigns a value inside a table. The key must be new, and the table that its dots lead to must
have been made by dotted keys. -/
def assign (key : Key) (value : Value) (nodes : Nodes) : Option Nodes :=
  descend .dotted (fun origin nodes =>
    if key.above ≠ [] ∧ origin ≠ .dotted then none
    else if (nodes.lookup key.last).isSome then none
    else some (nodes ++ [(key.last, .closed value)])) key.above .header nodes

/-- The state between statements: the names of the open table, and all tables so far. -/
structure Building where
  current : List String := []
  nodes : Nodes := []

/-- Takes in a statement, if the document may hold it here. -/
def Building.add (b : Building) : Statement → Option Building
  | .table key => (openTable key b.nodes).map fun nodes => ⟨key.names, nodes⟩
  | .arrayTable key => (openArrayTable key b.nodes).map fun nodes => ⟨key.names, nodes⟩
  | .assign key value =>
    (descend .implied (fun _ nodes => assign key value nodes) b.current .header b.nodes).map
      fun nodes => { b with nodes }

/-- The table that the statements of a document define, if they agree. -/
def build (statements : List Statement) : Option (Entries Value) :=
  (statements.foldlM Building.add {}).map fun b => sortByName (entryValues b.nodes)

/-- The table that the assignments between two braces define, if they agree. -/
def buildInline (assignments : List (Key × Value)) : Option (Entries Value) :=
  (assignments.foldlM (fun nodes a => assign a.1 a.2 nodes) []).map fun nodes =>
    sortByName (entryValues nodes)

end SearchCompiler.Toml
