import SearchCompiler.Error

/-!
Aggregations: what is computed beside the results of a query, and how they join it in one request.
-/

namespace SearchCompiler

/-- A named aggregation, over a field or driven by its options alone. -/
structure Aggregation where
  -- The name its result is reported under.
  name : String
  kind : AggregationKind
  field : Option String
  -- Further options, written after the field.
  options : Entries Json.Value := []
deriving Inhabited

namespace Aggregation

def ofField (kind : AggregationKind) (name field : String) : Aggregation :=
  { name, kind, field := some field }

def withoutField (kind : AggregationKind) (name : String) : Aggregation :=
  { name, kind, field := none }

def withOption (key : String) (value : Json.Value) (a : Aggregation) : Aggregation :=
  { a with options := a.options.insert key value }

/-- The options that are written: those that are not null. -/
def writtenOptions (a : Aggregation) : Entries Json.Value :=
  a.options.filter fun entry => entry.2.kind ≠ .null

/-- What is written under the kind: the field and then the options, an option `field` in the place
of the field. -/
def content (a : Aggregation) : Entries Json.Value :=
  Entries.insertAll ((a.field.map fun f => ("field", Json.Value.string f)).toList) a.writtenOptions

def body (a : Aggregation) : Json.Value :=
  .single a.kind.name (.object a.content)

def toJson (a : Aggregation) : Json.Value :=
  .single a.name a.body

/-- The text before the first colon and the text after it. -/
def cutAtColon (cs : List Char) : Option (List Char × List Char) :=
  match cs.dropWhile (· ≠ ':') with
  | [] => none
  | _ :: rest => some (cs.takeWhile (· ≠ ':'), rest)

/-- Reads a description `kind:name:field`; only the field may hold colons. -/
def parse (text : String) : Except CompileError Aggregation :=
  let fault (f : AggregationFault) : Except CompileError Aggregation :=
    .error (.invalidAggregation text f)
  match cutAtColon text.toList with
  | none => fault .notThreeParts
  | some (kind, rest) =>
    match cutAtColon rest with
    | none => fault .notThreeParts
    | some (name, field) =>
      if name.isEmpty ∨ field.isEmpty then fault .emptyPart
      else
        match AggregationKind.ofName? (String.ofList kind) with
        | none => fault (.unknownKind (String.ofList kind))
        | some k => .ok (ofField k (String.ofList name) (String.ofList field))

/-- Aggregations by name, in order. A later one of the same name replaces an earlier one. -/
def entries (aggregations : List Aggregation) : Entries Json.Value :=
  Entries.insertAll [] (aggregations.map fun a => (a.name, a.body))

def document (aggregations : List Aggregation) : Json.Value :=
  .object (entries aggregations)

end Aggregation

/-- A request: a query, with the aggregations beside it if there are any. -/
def searchBody (query : Json.Value) (aggregations : List Aggregation) : Json.Value :=
  if aggregations.isEmpty then .object [("query", query)]
  else .object [("query", query), ("aggs", Aggregation.document aggregations)]

end SearchCompiler
