import SearchCompiler.Json.Basic

/-!
Search options: what a caller asks for besides the text.

One level of options is a record of clauses. Options hold their own level and, when they demand that
results also match a further text (`includes`), that text with options of its own. Options are thus
a chain of levels, and what is said about all levels is said by induction on the chain.
-/

namespace SearchCompiler

inductive Scalar where
  | string (value : String)
  | number (value : Json.Number)
  | bool (value : Bool)
deriving DecidableEq, Inhabited

def Scalar.toJson : Scalar → Json.Value
  | .string s => .string s
  | .number n => .number n
  | .bool b => .bool b

/-- The scalar that a JSON value is, if it is one. -/
def Scalar.ofJson? : Json.Value → Option Scalar
  | .string s => some (.string s)
  | .number n => some (.number n)
  | .bool b => some (.bool b)
  | _ => none

theorem Scalar.ofJson?_toJson (s : Scalar) : ofJson? s.toJson = some s := by
  cases s <;> rfl

theorem Scalar.toJson_of_ofJson? {v : Json.Value} {s : Scalar} (h : ofJson? v = some s) :
    s.toJson = v := by
  cases v <;> simp [ofJson?] at h <;> subst h <;> rfl

/-- A condition on a field, or conditions on the fields below it. -/
inductive Condition where
  | scalar (value : Scalar)
  | list (values : List Scalar)
  | tree (entries : List (String × Condition))
deriving Inhabited

/-- Conditions by field name, in the order given; a name may stand more than once. -/
abbrev ConditionTree := Entries Condition

inductive FieldScope where
  | single (field : String)
  | multi (fields : List String)
deriving DecidableEq, Inhabited

/-- A script that computes the score, with its parameters if there are any. -/
structure ScoreScript where
  script : String
  params : Option (Entries Json.Value) := none
deriving Inhabited

structure Clauses where
  -- The fields to match.
  on : Option FieldScope := none
  -- Conditions that results satisfy.
  only : Option ConditionTree := none
  -- Conditions that results do not satisfy.
  except : Option ConditionTree := none
  -- A numeric field whose value scales the score.
  boostBy : Option String := none
  -- A script that computes the score.
  boostFunction : Option ScoreScript := none
  -- Conditions under which the score is boosted.
  boostWhere : Option ConditionTree := none
  -- Further options of a match on a single field.
  matchOptions : Entries Json.Value := []
deriving Inhabited

/-- Search options: a level, and maybe a further text that results match under its own options. -/
inductive SearchOptions where
  | plain (clauses : Clauses)
  | including (clauses : Clauses) (text : String) (inner : SearchOptions)
deriving Inhabited

namespace SearchOptions

def empty : SearchOptions :=
  .plain {}

def clauses : SearchOptions → Clauses
  | .plain c => c
  | .including c _ _ => c

/-- The included text and its options, if any. -/
def includes : SearchOptions → Option (String × SearchOptions)
  | .plain _ => .none
  | .including _ text inner => some (text, inner)

/-- Options with an outer level and maybe an included text. -/
def ofParts (c : Clauses) : Option (String × SearchOptions) → SearchOptions
  | .none => .plain c
  | some (text, inner) => .including c text inner

@[simp] theorem clauses_ofParts (c : Clauses) (i : Option (String × SearchOptions)) :
    (ofParts c i).clauses = c := by
  cases i <;> rfl

@[simp] theorem includes_ofParts (c : Clauses) (i : Option (String × SearchOptions)) :
    (ofParts c i).includes = i := by
  cases i <;> rfl

@[simp] theorem ofParts_parts (o : SearchOptions) : ofParts o.clauses o.includes = o := by
  cases o <;> rfl

def modify (f : Clauses → Clauses) (o : SearchOptions) : SearchOptions :=
  ofParts (f o.clauses) o.includes

/-- Demands that results also match a text under options of its own. -/
def withIncludes (o : SearchOptions) (text : String) (inner : SearchOptions) : SearchOptions :=
  .including o.clauses text inner

/-- Sets an option of a match on a single field; one that is set already keeps its place. -/
def withMatchOption (key : String) (value : Json.Value) (o : SearchOptions) : SearchOptions :=
  o.modify fun c => { c with matchOptions := c.matchOptions.insert key value }

end SearchOptions

end SearchCompiler
