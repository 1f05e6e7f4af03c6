import SearchCompiler.Options.Basic

/-!
Leaves of condition trees. A nested tree stands for conditions on the fields below its name, so a
tree amounts to the list of its leaves, each with the dotted path of names that leads to it. Trees
without leaves amount to nothing.
-/

namespace SearchCompiler

/-- What a field is compared with: one value, or any of several. -/
inductive Leaf where
  | scalar (value : Scalar)
  | list (values : List Scalar)
deriving DecidableEq, Inhabited

def Leaf.toJson : Leaf → Json.Value
  | .scalar value => value.toJson
  | .list values => .array (values.map Scalar.toJson)

/-- The leaves of a tree whose field names all begin with `stem`, in the order of the entries. -/
def leavesUnder (stem : String) : ConditionTree → List (String × Leaf)
  | [] => []
  | (key, .scalar value) :: rest => (stem ++ key, .scalar value) :: leavesUnder stem rest
  | (key, .list values) :: rest => (stem ++ key, .list values) :: leavesUnder stem rest
  | (key, .tree entries) :: rest =>
    leavesUnder (stem ++ key ++ ".") entries ++ leavesUnder stem rest

/-- The leaves of a tree with their dotted field names. -/
def leaves (tree : ConditionTree) : List (String × Leaf) :=
  leavesUnder "" tree

def leaves? (tree : Option ConditionTree) : List (String × Leaf) :=
  leaves (tree.getD [])

@[simp] theorem leavesUnder_append (stem : String) (xs ys : ConditionTree) :
    leavesUnder stem (xs ++ ys) = leavesUnder stem xs ++ leavesUnder stem ys := by
  induction xs with
  | nil => simp [leavesUnder]
  | cons entry rest ih =>
    obtain ⟨key, value⟩ := entry
    cases value <;> simp [leavesUnder, ih]

/-- Options that adjust the score, in order of precedence. -/
inductive BoostOption where
  | boostBy
  | boostFunction
  | boostWhere
deriving DecidableEq, Inhabited

def BoostOption.name : BoostOption → String
  | .boostBy => "boost_by"
  | .boostFunction => "boost_function"
  | .boostWhere => "boost_where"

/-- The boosting options present, in order of precedence. Conditions without a leaf do not count. -/
def Clauses.boosts (c : Clauses) : List BoostOption :=
  (if c.boostBy.isSome then [.boostBy] else []) ++
    (if c.boostFunction.isSome then [.boostFunction] else []) ++
    (if (leaves? c.boostWhere).isEmpty then [] else [.boostWhere])

/-- A boosting option is present: a field or a script is given, or conditions with a leaf. -/
def BoostOption.Present (c : Clauses) : BoostOption → Prop
  | .boostBy => c.boostBy.isSome
  | .boostFunction => c.boostFunction.isSome
  | .boostWhere => leaves? c.boostWhere ≠ []

/-- The options listed are those present. -/
theorem Clauses.mem_boosts {c : Clauses} {option : BoostOption} :
    option ∈ c.boosts ↔ option.Present c := by
  unfold Clauses.boosts
  cases option with
  | boostBy => simp [BoostOption.Present]
  | boostFunction => simp [BoostOption.Present]
  | boostWhere => simp [BoostOption.Present]

/-- They are listed in order of precedence, each once. -/
theorem Clauses.boosts_sublist (c : Clauses) :
    c.boosts.Sublist [.boostBy, .boostFunction, .boostWhere] := by
  unfold Clauses.boosts
  split <;> split <;> split <;> decide

end SearchCompiler
