import SearchCompiler.Error
import SearchCompiler.Text.Blank

/-!
Decoding options from JSON.

An object of options is decoded member by member, and the first member that cannot be decoded gives
the error. Each member becomes one `Setting`; options are what the settings make of empty options
when they are applied in order. Members with a reserved name set a clause, all others are options of
a match on a single field.
-/

namespace SearchCompiler

def reservedKeys : List String :=
  ["on", "only", "except", "includes", "boost_by", "boost_function", "boost_where"]

/-- What one member of an object of options asks for. -/
inductive Setting where
  -- Nothing: a reserved name with a null.
  | nothing
  | on (scope : FieldScope)
  | only (tree : Option ConditionTree)
  | except (tree : Option ConditionTree)
  | boostWhere (tree : Option ConditionTree)
  | includes (nested : Option (String × SearchOptions))
  | boostBy (field : String)
  | boostFunction (script : ScoreScript)
  | matchOption (key : String) (value : Json.Value)
deriving Inhabited

def SearchOptions.apply (o : SearchOptions) : Setting → SearchOptions
  | .nothing => o
  | .on scope => o.modify fun c => { c with on := some scope }
  | .only tree => o.modify fun c => { c with only := tree }
  | .except tree => o.modify fun c => { c with except := tree }
  | .boostWhere tree => o.modify fun c => { c with boostWhere := tree }
  | .includes nested => .ofParts o.clauses nested
  | .boostBy field => o.modify fun c => { c with boostBy := some field }
  | .boostFunction script => o.modify fun c => { c with boostFunction := some script }
  | .matchOption key value => o.withMatchOption key value

def SearchOptions.ofSettings (settings : List Setting) : SearchOptions :=
  settings.foldl SearchOptions.apply .empty

/-- A field scope from a list of fields: one field is a single field, none is an error. -/
def FieldScope.ofFields : List String → Except CompileError FieldScope
  | [] => .error (.invalidShape "on" .noFields)
  | [field] => .ok (.single field)
  | fields => .ok (.multi fields)

def decodeFieldName : Json.Value → Except CompileError String
  | .string s => .ok s
  | v => .error (.invalidShape "on" (.notFieldName v.kind))

/-- The fields to match: a string, or an array of strings that is not empty. -/
def decodeFieldScope : Json.Value → Except CompileError FieldScope
  | .string s => .ok (.single s)
  | .array items => do FieldScope.ofFields (← items.mapM decodeFieldName)
  | v => .error (.invalidShape "on" (.notFields v.kind))

def decodeScalar (path : String) (v : Json.Value) : Except CompileError Scalar :=
  match Scalar.ofJson? v with
  | some s => .ok s
  | none => .error (.invalidShape path (.notScalar v.kind))

mutual

/-- A condition found at a dotted path: an object nests, an array lists scalars. -/
def decodeCondition (path : String) : Json.Value → Except CompileError Condition
  | .object members => do return .tree (← decodeTree path members)
  | .array items => do return .list (← items.mapM (decodeScalar path))
  | v => do return .scalar (← decodeScalar path v)

/-- Conditions by field name; the path of a member extends the path of its object. -/
def decodeTree (path : String) : List (String × Json.Value) → Except CompileError ConditionTree
  | [] => .ok []
  | (key, v) :: rest => do
    let condition ← decodeCondition (path ++ "." ++ key) v
    let conditions ← decodeTree path rest
    return (key, condition) :: conditions

end

/-- An option that takes conditions; an object without members counts as absent. -/
def decodeConditions (option : String) : Json.Value → Except CompileError (Option ConditionTree)
  | .object [] => .ok none
  | .object members => do return some (← decodeTree option members)
  | v => .error (.invalidShape option (.notConditions v.kind))

def decodeBoostField : Json.Value → Except CompileError String
  | .string field => .ok field
  | v => .error (.invalidShape "boost_by" (.notBoostField v.kind))

/-- A script with the members beside it, of which `params` is the only one there may be. -/
def decodeScriptWith (script : String) (extra : Entries Json.Value) :
    Except CompileError ScoreScript :=
  match extra.keys.find? (· ≠ "params") with
  | some key => .error (.invalidShape "boost_function" (.unexpectedKey key))
  | none =>
    match extra.lookup "params" with
    | none => .ok ⟨script, none⟩
    | some .null => .ok ⟨script, none⟩
    | some (.object params) => .ok ⟨script, some params⟩
    | some v => .error (.invalidShape "boost_function" (.notParams v.kind))

/-- A script: by itself, in an array with or without an object of further members, or as an object
with a member `script`. -/
def decodeScript : Json.Value → Except CompileError ScoreScript
  | .string script => .ok ⟨script, none⟩
  | .array [.string script] => .ok ⟨script, none⟩
  | .array [.string script, .object extra] => decodeScriptWith script extra
  | .array _ => .error (.invalidShape "boost_function" .scriptArity)
  | .object members =>
    match members.lookup "script" with
    | some (.string script) => decodeScriptWith script (Entries.swapErase "script" members)
    | _ => .error (.invalidShape "boost_function" .noScript)
  | v => .error (.invalidShape "boost_function" (.notScript v.kind))

def decodeSimple (key : String) (v : Json.Value) : Except CompileError Setting :=
  if key = "on" then do return .on (← decodeFieldScope v)
  else if key = "only" then do return .only (← decodeConditions "only" v)
  else if key = "except" then do return .except (← decodeConditions "except" v)
  else if key = "boost_where" then do return .boostWhere (← decodeConditions "boost_where" v)
  else if key = "boost_by" then do return .boostBy (← decodeBoostField v)
  else if key = "boost_function" then do return .boostFunction (← decodeScript v)
  else .ok (.matchOption key v)

mutual

/-- An included text: a string, or an array of a string and maybe options. Blank text by itself and
an empty array count as absent. -/
def decodeIncludes : Json.Value → Except CompileError (Option (String × SearchOptions))
  | .string text => .ok (if Text.isBlank text then none else some (text, .empty))
  | .array [] => .ok none
  | .array [.string text] => .ok (some (text, .empty))
  | .array [.string text, options] => do return some (text, ← SearchOptions.decode options)
  | .array _ => .error (.invalidShape "includes" .includesArity)
  | v => .error (.invalidShape "includes" (.notIncludes v.kind))

/-- The settings that the members of an object ask for. -/
def decodeSettings : List (String × Json.Value) → Except CompileError (List Setting)
  | [] => .ok []
  | (key, v) :: rest => do
    -- A reserved name with a null is checked first, so `includes` may hold one too.
    let setting ←
      if v.kind = .null ∧ key ∈ reservedKeys then pure .nothing
      else if key = "includes" then .includes <$> decodeIncludes v
      else decodeSimple key v
    let settings ← decodeSettings rest
    return setting :: settings

/-- Options from JSON: an object, or null for options that ask for nothing. -/
def SearchOptions.decode : Json.Value → Except CompileError SearchOptions
  | .null => .ok .empty
  | .object members => do return .ofSettings (← decodeSettings members)
  | v => .error (.invalidShape "options" (.notOptions v.kind))

end

end SearchCompiler
