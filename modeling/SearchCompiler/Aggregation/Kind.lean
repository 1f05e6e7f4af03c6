/-!
Kinds of aggregations over one field.
-/

namespace SearchCompiler

inductive AggregationKind where
  | max
  | min
  | avg
  | sum
  | valueCount
  | cardinality
  | terms
deriving DecidableEq, Inhabited

namespace AggregationKind

/-- All kinds, in the order they are listed to the user. -/
def all : List AggregationKind :=
  [.max, .min, .avg, .sum, .valueCount, .cardinality, .terms]

/-- The name of a kind in documents and descriptions. -/
def name : AggregationKind → String
  | .max => "max"
  | .min => "min"
  | .avg => "avg"
  | .sum => "sum"
  | .valueCount => "value_count"
  | .cardinality => "cardinality"
  | .terms => "terms"

def ofName? (name : String) : Option AggregationKind :=
  all.find? fun kind => kind.name = name

theorem ofName?_name (kind : AggregationKind) : ofName? kind.name = some kind := by
  cases kind <;> decide

def unknownMessage (name : String) : String :=
  "unknown kind '" ++ name ++ "' (expected one of: "
    ++ ", ".intercalate (all.map AggregationKind.name) ++ ")"

end AggregationKind

end SearchCompiler
