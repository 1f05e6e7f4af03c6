/-!
Settings of the compiler: the names and numbers that it writes into documents where the options
leave them open, and what it does with several boosts at once.
-/

namespace SearchCompiler

/-- What to do when several boosting options are given at once. -/
inductive BoostPolicy where
  -- Apply the first one present, in the order `boost_by`, `boost_function`, `boost_where`.
  | firstMatch
  -- Refuse to compile.
  | reject
deriving DecidableEq, Inhabited

def BoostPolicy.name : BoostPolicy → String
  | .firstMatch => "first-match"
  | .reject => "reject"

/-- The policies, in the order they are listed to the user. -/
def BoostPolicy.all : List BoostPolicy :=
  [.firstMatch, .reject]

def BoostPolicy.ofName? (name : String) : Option BoostPolicy :=
  BoostPolicy.all.find? fun policy => policy.name = name

theorem BoostPolicy.ofName?_name (policy : BoostPolicy) : ofName? policy.name = some policy := by
  cases policy <;> decide

structure Settings where
  -- The field that a text without a field of its own is matched against.
  catchAllField : String := "_all"
  -- The modifier of a boost by a field.
  boostModifier : String := "ln2p"
  -- The factor of a boost by conditions.
  boostFactor : UInt32 := 1000
  -- The policy for several boosts at once.
  boostPolicy : BoostPolicy := .firstMatch
deriving DecidableEq, Inhabited

def boostModifiers : List String :=
  ["none", "log", "log1p", "log2p", "ln", "ln1p", "ln2p", "square", "sqrt", "reciprocal"]

end SearchCompiler
