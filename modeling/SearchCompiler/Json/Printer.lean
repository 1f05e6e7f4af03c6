import SearchCompiler.Json.Basic
import SearchCompiler.Decimal.Shortest
import SearchCompiler.Text.Digits

/-!
The text of JSON values, compact or indented. Members stand in their order. A string escapes the
quote, the backslash and the control characters below U+0020 and nothing else.
-/

namespace SearchCompiler.Json

/-- Doubles are written in places while their leading digit stands for `10 ^ -5` to `10 ^ 15`. -/
def doubleLayout : Decimal.Layout where
  positional e := -5 ≤ e && e ≤ 15

def Number.text : Number → String
  | .integer value => toString value
  | .double bits => doubleLayout.write bits

def escapedChar (c : Char) : List Char :=
  if c = '"' then ['\\', '"']
  else if c = '\\' then ['\\', '\\']
  else if c = '\x08' then ['\\', 'b']
  else if c = '\x0c' then ['\\', 'f']
  else if c = '\n' then ['\\', 'n']
  else if c = '\r' then ['\\', 'r']
  else if c = '\t' then ['\\', 't']
  else if c.toNat < 32 then
    ['\\', 'u', '0', '0', Text.lowerHex (c.toNat / 16), Text.lowerHex (c.toNat % 16)]
  else [c]

def stringText (s : String) : String :=
  "\"" ++ String.ofList (s.toList.flatMap escapedChar) ++ "\""

mutual

def Value.compact : Value → String
  | .null => "null"
  | .bool true => "true"
  | .bool false => "false"
  | .number n => n.text
  | .string s => stringText s
  | .array items => "[" ++ ",".intercalate (compactItems items) ++ "]"
  | .object members => "\x7b" ++ ",".intercalate (compactMembers members) ++ "\x7d"

def compactItems : List Value → List String
  | [] => []
  | item :: rest => item.compact :: compactItems rest

def compactMembers : List (String × Value) → List String
  | [] => []
  | (key, value) :: rest => (stringText key ++ ":" ++ value.compact) :: compactMembers rest

end

def indentation (depth : Nat) : String :=
  String.ofList (List.replicate (2 * depth) ' ')

/-- Parts of a container on lines of their own, one level further in than the container. An empty
container stays on its line. -/
def block (opening closing : String) (depth : Nat) (parts : List String) : String :=
  if parts.isEmpty then opening ++ closing
  else
    let lines := parts.map fun part => "\n" ++ indentation (depth + 1) ++ part
    opening ++ ",".intercalate lines ++ "\n" ++ indentation depth ++ closing

mutual

/-- A value with every item and member on a line of its own, from a level of indentation on. -/
def Value.prettyAt (depth : Nat) : Value → String
  | .null => "null"
  | .bool true => "true"
  | .bool false => "false"
  | .number n => n.text
  | .string s => stringText s
  | .array items => block "[" "]" depth (prettyItems (depth + 1) items)
  | .object members => block "\x7b" "\x7d" depth (prettyMembers (depth + 1) members)

/-- The texts of the items of an array at a level of indentation. -/
def prettyItems (depth : Nat) : List Value → List String
  | [] => []
  | item :: rest => item.prettyAt depth :: prettyItems depth rest

/-- The texts of the members of an object at a level of indentation. -/
def prettyMembers (depth : Nat) : List (String × Value) → List String
  | [] => []
  | (key, value) :: rest =>
    (stringText key ++ ": " ++ value.prettyAt depth) :: prettyMembers depth rest

end

/-- A value with every item and member on a line of its own. -/
def Value.pretty (v : Value) : String :=
  v.prettyAt 0

end SearchCompiler.Json
