import SearchCompiler.Options.Leaf
import SearchCompiler.Json.Printer
import SearchCompiler.Query.Outline
import SearchCompiler.Report.Paint
import SearchCompiler.Report.Table

/-!
The explanation of a compiled query: its outline, and a table of the conditions in the options, one
row for each leaf.
-/

namespace SearchCompiler

def Leaf.filterName : Leaf → String
  | .scalar _ => "term"
  | .list _ => "terms"

/-- The rows of the conditions of one option: its name, the field, the filter and the value. -/
def leafRows (option : String) (tree : Option ConditionTree) : List (List String) :=
  (leaves? tree).map fun l => [option, l.1, l.2.filterName, l.2.toJson.compact]

def Clauses.conditionRows (c : Clauses) : List (List String) :=
  leafRows "only" c.only ++ leafRows "except" c.except ++ leafRows "boost_where" c.boostWhere

/-- The table of conditions, or that there are none. -/
def conditionsText (rows : List (List String)) : String :=
  if rows.isEmpty then "  " ++ Paint.apply .faint "(none)"
  else Table.text { header := ["Option", "Field", "Kind", "Value"], rows }

/-- Explains what options were compiled to. The text ends in an empty line. -/
def explanation (o : SearchOptions) (query : QueryNode) : String :=
  Paint.apply .heading "Query tree" ++ "\n"
    ++ String.join ((Text.lines query.display).map fun line => "  " ++ line ++ "\n")
    ++ "\n" ++ Paint.apply .subheading "Conditions:" ++ "\n"
    ++ conditionsText o.clauses.conditionRows ++ "\n\n"

end SearchCompiler
