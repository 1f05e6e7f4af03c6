import SearchCompiler.Aggregation.Kind
import SearchCompiler.Options.Leaf

/-!
Errors of decoding and compiling. An error is a cause; its wording and the hint that goes with it
are functions of the cause.
-/

namespace SearchCompiler

inductive ShapeFault where
  | notOptions (found : Json.Kind)
  | notScalar (found : Json.Kind)
  | notFieldName (found : Json.Kind)
  | notFields (found : Json.Kind)
  | noFields
  | notConditions (found : Json.Kind)
  | notIncludes (found : Json.Kind)
  | includesArity
  | notBoostField (found : Json.Kind)
  | notScript (found : Json.Kind)
  | scriptArity
  | noScript
  | unexpectedKey (key : String)
  | notParams (found : Json.Kind)
deriving DecidableEq, Inhabited

def ShapeFault.message : ShapeFault → String
  | .notOptions k => "expected an object, found " ++ k.phrase
  | .notScalar k => "expected a string, number or boolean, found " ++ k.phrase
  | .notFieldName k => "field names must be strings, found " ++ k.phrase
  | .notFields k => "expected a string or an array of strings, found " ++ k.phrase
  | .noFields => "at least one field is required"
  | .notConditions k => "expected an object of field conditions, found " ++ k.phrase
  | .notIncludes k => "expected a string or an array, found " ++ k.phrase
  | .includesArity => "expected [text] or [text, options]"
  | .notBoostField k => "expected a field name, found " ++ k.phrase
  | .notScript k => "expected a script string, found " ++ k.phrase
  | .scriptArity => "expected [script] or [script, \x7b\"params\": \x7b...\x7d\x7d]"
  | .noScript => "object form needs a string `script`"
  | .unexpectedKey key => "unexpected key `" ++ key ++ "`"
  | .notParams k => "`params` must be an object, found " ++ k.phrase

/-- What is wrong with the description of an aggregation. -/
inductive AggregationFault where
  | notThreeParts
  | emptyPart
  | unknownKind (name : String)
deriving DecidableEq, Inhabited

def AggregationFault.message : AggregationFault → String
  | .notThreeParts => "expected kind:name:field"
  | .emptyPart => "name and field must not be empty"
  | .unknownKind name => AggregationKind.unknownMessage name

/-- An error that keeps options from becoming a document. -/
inductive CompileError where
  -- The value of an option, or of a dotted path inside one, has the wrong shape.
  | invalidShape (option : String) (fault : ShapeFault)
  -- Several boosting options were given although the policy is to reject that.
  | ambiguousBoost (options : List BoostOption)
  -- The description of an aggregation cannot be read.
  | invalidAggregation (input : String) (fault : AggregationFault)
deriving DecidableEq, Inhabited

def CompileError.message : CompileError → String
  | .invalidShape option fault => "invalid `" ++ option ++ "` option: " ++ fault.message
  | .ambiguousBoost options =>
    "conflicting boost options: " ++ ", ".intercalate (options.map BoostOption.name)
  | .invalidAggregation input fault =>
    "invalid aggregation '" ++ input ++ "': " ++ fault.message

/-- The hint for the value of an option, for the options that have one. -/
def shapeHint? (option : String) : Option String :=
  if option = "on" then
    some "`on` takes a field name or a list of field names, e.g. [\"name\", \"description\"]"
  else if option = "boost_function" then
    some "`boost_function` takes a script, or [script, \x7b\"params\": \x7b...\x7d\x7d]"
  else if option = "includes" then
    some "`includes` takes a text, or [text, \x7boptions\x7d]"
  else none

def CompileError.hint? : CompileError → Option String
  | .invalidShape option _ => shapeHint? option
  | .ambiguousBoost _ =>
    some "Pass a single boost option, or set boost_precedence = \"first-match\""
  | .invalidAggregation _ _ =>
    some "Aggregations are written kind:name:field, e.g. max:top_price:price"

end SearchCompiler
