import SearchCompiler.Entries

/-!
JSON values. Objects keep their members in order; numbers are integers of any size or doubles, the
latter held by their 64 bits so that equal numbers are equal values.
-/

namespace SearchCompiler.Json

/-- A number: an integer, or a finite double given by its bits. -/
inductive Number where
  | integer (value : Int)
  | double (bits : UInt64)
deriving DecidableEq, Inhabited

inductive Value where
  | null
  | bool (value : Bool)
  | number (value : Number)
  | string (value : String)
  | array (items : List Value)
  | object (members : List (String × Value))
deriving Inhabited

inductive Kind where
  | null
  | boolean
  | number
  | string
  | array
  | object
deriving DecidableEq, Inhabited

def Value.kind : Value → Kind
  | .null => .null
  | .bool _ => .boolean
  | .number _ => .number
  | .string _ => .string
  | .array _ => .array
  | .object _ => .object

/-- A sort as reports name it, with its article. -/
def Kind.phrase : Kind → String
  | .null => "null"
  | .boolean => "a boolean"
  | .number => "a number"
  | .string => "a string"
  | .array => "an array"
  | .object => "an object"

def Value.single (key : String) (value : Value) : Value :=
  .object [(key, value)]

def Value.strings (items : List String) : Value :=
  .array (items.map .string)

def Value.empty : Value :=
  .object []

end SearchCompiler.Json
