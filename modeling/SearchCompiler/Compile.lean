import SearchCompiler.Error
import SearchCompiler.Query.Basic
import SearchCompiler.Settings
import SearchCompiler.Text.Blank

/-!
Compiling a text and options to a query.

The text gives the base query. The conditions of a level, and the query of the included text under
its own options, become one filter around the base. One boosting option becomes a score function
around that. Every level of the options is compiled by the same rules.
-/

namespace SearchCompiler

/-- A text matched under a field scope. Blank text matches everything. Without a scope the text is
matched against the catch-all field, and then options of a match on a single field do not apply. -/
def matchText (settings : Settings) (text : String) (on : Option FieldScope)
    (options : Entries Json.Value) : Except CompileError QueryNode :=
  if Text.isBlank text then .ok .matchAll
  else
    match on with
    | none => .ok (.single settings.catchAllField text [])
    | some (.single field) => .ok (.single field text options)
    | some (.multi []) => .error (.invalidShape "on" .noFields)
    | some (.multi [field]) => .ok (.single field text options)
    | some (.multi fields) => .ok (.multi fields text)

def Clauses.base (settings : Settings) (text : String) (c : Clauses) :
    Except CompileError QueryNode :=
  matchText settings text c.on c.matchOptions

/-- The filters of conditions, one for each leaf in order. -/
def conditionFilters (tree : Option ConditionTree) : List FilterNode :=
  (leaves? tree).map FilterNode.ofLeaf

/-- The filters of a level's own conditions: what results satisfy, then what they do not. -/
def Clauses.filters (c : Clauses) : List FilterNode :=
  conditionFilters c.only ++ (conditionFilters c.except).map FilterNode.not

/-- The score function of the boosting option that takes precedence. -/
def Clauses.scoreFunction? (settings : Settings) (c : Clauses) : Option ScoreFunction :=
  match c.boostBy, c.boostFunction with
  | some field, _ => some (.fieldValue field settings.boostModifier)
  | none, some script => some (.script script.script script.params)
  | none, none =>
    (FilterNode.join (conditionFilters c.boostWhere)).map fun filter =>
      .boost filter settings.boostFactor

/-- Puts the score function of a level around a query, unless several boosting options are present
and the policy is to reject that. -/
def Clauses.boost (settings : Settings) (c : Clauses) (query : QueryNode) :
    Except CompileError QueryNode :=
  if 1 < c.boosts.length ∧ settings.boostPolicy = .reject then .error (.ambiguousBoost c.boosts)
  else
    match c.scoreFunction? settings with
    | none => .ok query
    | some function => .ok (.functionScore query function)

/-- Compiles a text under options: base first, then the included text, then the boost. -/
def SearchOptions.compile (settings : Settings) (text : String) :
    SearchOptions → Except CompileError QueryNode
  | .plain c => do
    let base ← c.base settings text
    c.boost settings (base.restrict (FilterNode.join c.filters))
  | .including c included inner => do
    let base ← c.base settings text
    let nested ← inner.compile settings included
    c.boost settings (base.restrict (FilterNode.join (c.filters ++ [.query nested])))

/-- The candidate filters of the outer level, the included query last. -/
def SearchOptions.candidates (settings : Settings) :
    SearchOptions → Except CompileError (List FilterNode)
  | .plain c => .ok c.filters
  | .including c included inner => do
    let nested ← inner.compile settings included
    return c.filters ++ [.query nested]

/-- Compiling is the base, the joined candidates around it and the boost around both. -/
theorem SearchOptions.compile_eq (settings : Settings) (text : String) (o : SearchOptions) :
    o.compile settings text = (do
      let base ← o.clauses.base settings text
      let candidates ← o.candidates settings
      o.clauses.boost settings (base.restrict (FilterNode.join candidates))) := by
  cases o with
  | plain c => rfl
  | including c included inner =>
    simp only [compile, candidates, clauses]
    cases c.base settings text with
    | error e => rfl
    | ok base =>
      cases inner.compile settings included with
      | error e => rfl
      | ok nested => rfl

end SearchCompiler
