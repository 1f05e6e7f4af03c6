import SearchCompiler.Json.Literal
import SearchCompiler.Text.Digits

/-!
Reading JSON text. Blanks are space, tab, line feed and carriage return; at most 127 containers are
nested; a name that stands twice in an object keeps its first place and its last value.

A fault is a cause and the place where reading stopped. The place is kept as the number of bytes
left unread, and turned into a line and a column of the text when it is reported.
-/

namespace SearchCompiler.Json

inductive Cause where
  | endInValue
  | endInObject
  | endInList
  | endInString
  | noValue
  | noWord
  | nameNotString
  | trailingComma
  | noColon
  | noCommaInObject
  | noCommaInList
  | trailingText
  | badNumber
  | numberRange
  | controlCharacter
  | badEscape
  | loneSurrogate
  | endOfSurrogate
  | tooDeep
deriving DecidableEq, Inhabited

def Cause.phrase : Cause → String
  | .endInValue => "EOF while parsing a value"
  | .endInObject => "EOF while parsing an object"
  | .endInList => "EOF while parsing a list"
  | .endInString => "EOF while parsing a string"
  | .noValue => "expected value"
  | .noWord => "expected ident"
  | .nameNotString => "key must be a string"
  | .trailingComma => "trailing comma"
  | .noColon => "expected `:`"
  | .noCommaInObject => "expected `,` or `\x7d`"
  | .noCommaInList => "expected `,` or `]`"
  | .trailingText => "trailing characters"
  | .badNumber => "invalid number"
  | .numberRange => "number out of range"
  | .controlCharacter => "control character (\\u0000-\\u001F) found while parsing a string"
  | .badEscape => "invalid escape"
  | .loneSurrogate => "lone leading surrogate in hex escape"
  | .endOfSurrogate => "unexpected end of hex escape"
  | .tooDeep => "recursion limit exceeded"

/-- A cause and the number of bytes that were not read when it was found. -/
structure Fault where
  cause : Cause
  unread : Nat
deriving DecidableEq, Inhabited

def byteCount (cs : List Char) : Nat :=
  cs.foldr (fun c n => c.utf8Size + n) 0

/-- The line and the column that the first `n` bytes of a text end in, lines counted from one and
columns in bytes from the last line feed. -/
def place (n : Nat) (line column : Nat) : List Char → Nat × Nat
  | [] => (line, column)
  | c :: rest =>
    if n < c.utf8Size then (line, column + n)
    else if c = '\n' then place (n - c.utf8Size) (line + 1) 0 rest
    else place (n - c.utf8Size) line (column + c.utf8Size) rest

def Fault.message (f : Fault) (text : String) : String :=
  let cs := text.toList
  let (line, column) := place (byteCount cs - f.unread) 1 0 cs
  f.cause.phrase ++ " at line " ++ toString line ++ " column " ++ toString column

/-- A result and the text after the piece it was read from. -/
abbrev Parsed (α : Type) := α × List Char

/-- Reads a piece of text and gives its meaning and the text after it, or a fault. -/
abbrev Reader (α : Type) := List Char → Except Fault (Parsed α)

def atEnd {α : Type} (cause : Cause) : Except Fault α :=
  .error ⟨cause, 0⟩

/-- The next byte was the wrong one; it counts as read. -/
def atNext {α : Type} (cause : Cause) (cs : List Char) : Except Fault α :=
  .error ⟨cause, byteCount cs - 1⟩

def before {α : Type} (cause : Cause) (cs : List Char) : Except Fault α :=
  .error ⟨cause, byteCount cs⟩

def skipBlanks (cs : List Char) : List Char :=
  cs.dropWhile fun c => c == ' ' || c == '\n' || c == '\t' || c == '\r'

/-- The digits at the start of a text and the text after them. -/
def digits : List Char → List Nat × List Char
  | [] => ([], [])
  | c :: rest =>
    match Text.digit? c with
    | some d => let (ds, after) := digits rest; (d :: ds, after)
    | none => ([], c :: rest)

def word : List Char → List Char → Except Fault (List Char)
  | [], cs => .ok cs
  | _ :: _, [] => atEnd .endInValue
  | e :: expected, c :: cs => if c = e then word expected cs else atNext .noWord (c :: cs)

/-- The whole part of a number: a zero or digits that do not start with one. -/
def wholePart : Reader (List Nat)
  | [] => atEnd .endInValue
  | '0' :: rest =>
    match rest with
    | c :: _ => if c.isDigit then atNext .badNumber rest else .ok ([0], rest)
    | [] => .ok ([0], [])
  | c :: rest =>
    match digits (c :: rest) with
    | ([], _) => atNext .badNumber (c :: rest)
    | (ds, after) => .ok (ds, after)

/-- The fraction of a number, if a point comes next. -/
def fractionPart : Reader (Option (List Nat))
  | '.' :: rest =>
    match digits rest with
    | ([], []) => atEnd .endInValue
    | ([], after) => atNext .badNumber after
    | (ds, after) => .ok (some ds, after)
  | cs => .ok (none, cs)

def exponentDigits (down : Bool) (cs : List Char) :
    Except Fault (Parsed (Option (Bool × List Nat))) :=
  match digits cs with
  | ([], []) => atEnd .endInValue
  | ([], after) => atNext .badNumber after
  | (ds, after) => .ok (some (down, ds), after)

/-- The exponent of a number, if its letter comes next. -/
def exponentPart : Reader (Option (Bool × List Nat))
  | c :: rest =>
    if c = 'e' ∨ c = 'E' then
      match rest with
      | '+' :: after => exponentDigits false after
      | '-' :: after => exponentDigits true after
      | _ => exponentDigits false rest
    else .ok (none, c :: rest)
  | [] => .ok (none, [])

/-- A number from its first digit on. One beyond the doubles is refused where its exponent gets too
large to be read, or at its end. -/
def number (negative : Bool) (cs : List Char) : Except Fault (Parsed Value) := do
  let (whole, cs) ← wholePart cs
  let (fraction, cs) ← fractionPart cs
  let (exponent, cs) ← exponentPart cs
  match (Literal.mk negative whole fraction exponent).number? with
  | some n => .ok (.number n, cs)
  | none =>
    let skipped := (exponent.bind fun e => afterOverflow? 0 e.2).getD []
    .error ⟨.numberRange, byteCount cs + skipped.length⟩

/-- The code unit that four digits of base 16 give. Fewer than four bytes end the text. -/
def codeUnit (cs : List Char) : Except Fault (Parsed Nat) :=
  if byteCount cs < 4 then atEnd .endInString
  else
    match cs with
    | a :: b :: c :: d :: rest =>
      match Text.hexValue? a, Text.hexValue? b, Text.hexValue? c, Text.hexValue? d with
      | some a, some b, some c, some d => .ok (((a * 16 + b) * 16 + c) * 16 + d, rest)
      | _, _, _, _ => .error ⟨.badEscape, byteCount cs - 4⟩
    | _ => .error ⟨.badEscape, byteCount cs - 4⟩

/-- The character of an escape by code units: one unit, or a leading and a trailing surrogate. -/
def unicodeEscape (cs : List Char) : Except Fault (Parsed Char) := do
  let (first, cs) ← codeUnit cs
  if 0xDC00 ≤ first ∧ first ≤ 0xDFFF then before .loneSurrogate cs
  else if first < 0xD800 ∨ 0xDBFF < first then .ok (Char.ofNat first, cs)
  else
    match cs with
    | [] => atEnd .endInString
    | '\\' :: [] => atEnd .endInString
    | '\\' :: 'u' :: rest =>
      let (second, cs) ← codeUnit rest
      if second < 0xDC00 ∨ 0xDFFF < second then before .loneSurrogate cs
      else .ok (Char.ofNat ((first - 0xD800) * 1024 + (second - 0xDC00) + 0x10000), cs)
    | '\\' :: rest => atNext .endOfSurrogate rest
    | cs => atNext .endOfSurrogate cs

/-- The character of an escape, from the one after the backslash on. -/
def escape : Reader Char
  | [] => atEnd .endInString
  | '"' :: rest => .ok ('"', rest)
  | '\\' :: rest => .ok ('\\', rest)
  | '/' :: rest => .ok ('/', rest)
  | 'b' :: rest => .ok ('\x08', rest)
  | 'f' :: rest => .ok ('\x0c', rest)
  | 'n' :: rest => .ok ('\n', rest)
  | 'r' :: rest => .ok ('\r', rest)
  | 't' :: rest => .ok ('\t', rest)
  | 'u' :: rest => unicodeEscape rest
  | cs => atNext .badEscape cs

/-- The characters of a string up to its closing quote. Each one takes at least one character of
text, so as many steps as there are characters suffice. -/
def stringBody : Nat → Reader (List Char)
  | 0, _ => atEnd .endInString
  | _ + 1, [] => atEnd .endInString
  | _ + 1, '"' :: rest => .ok ([], rest)
  | steps + 1, '\\' :: rest => do
    let (c, rest) ← escape rest
    let (s, rest) ← stringBody steps rest
    return (c :: s, rest)
  | steps + 1, c :: rest =>
    if c.toNat < 32 then atNext .controlCharacter (c :: rest)
    else do
      let (s, rest) ← stringBody steps rest
      return (c :: s, rest)

/-- A string from the character after its opening quote on. -/
def string (cs : List Char) : Except Fault (Parsed String) := do
  let (s, rest) ← stringBody (cs.length + 1) cs
  return (String.ofList s, rest)

/-- The items of an array after the first one, up to the closing bracket. -/
def moreItems (item : Reader Value) : Nat → Reader (List Value)
  | 0, _ => atEnd .endInList
  | steps + 1, cs =>
    match skipBlanks cs with
    | [] => atEnd .endInList
    | ']' :: rest => .ok ([], rest)
    | ',' :: rest =>
      match skipBlanks rest with
      | [] => atEnd .endInValue
      | ']' :: after => atNext .trailingComma (']' :: after)
      | next => do
        let (v, rest) ← item next
        let (vs, rest) ← moreItems item steps rest
        return (v :: vs, rest)
    | next => atNext .noCommaInList next

/-- An array from the character after its bracket on. -/
def items (item : Reader Value) (cs : List Char) : Except Fault (Parsed (List Value)) :=
  match skipBlanks cs with
  | [] => atEnd .endInList
  | ']' :: rest => .ok ([], rest)
  | next => do
    let (v, rest) ← item next
    let (vs, rest) ← moreItems item (rest.length + 1) rest
    return (v :: vs, rest)

def member (item : Reader Value) (cs : List Char) : Except Fault (Parsed (String × Value)) := do
  let (name, rest) ← string (cs.drop 1)
  match skipBlanks rest with
  | [] => atEnd .endInObject
  | ':' :: rest => do
    let (v, rest) ← item rest
    return ((name, v), rest)
  | next => atNext .noColon next

/-- The members of an object after the first one, up to the closing brace. -/
def moreMembers (item : Reader Value) : Nat → Reader (Entries Value)
  | 0, _ => atEnd .endInObject
  | steps + 1, cs =>
    match skipBlanks cs with
    | [] => atEnd .endInObject
    | '\x7d' :: rest => .ok ([], rest)
    | ',' :: rest =>
      match skipBlanks rest with
      | [] => atEnd .endInValue
      | '"' :: after => do
        let (m, rest) ← member item ('"' :: after)
        let (ms, rest) ← moreMembers item steps rest
        return (m :: ms, rest)
      | '\x7d' :: after => atNext .trailingComma ('\x7d' :: after)
      | next => atNext .nameNotString next
    | next => atNext .noCommaInObject next

def members (item : Reader Value) (cs : List Char) : Except Fault (Parsed (Entries Value)) :=
  match skipBlanks cs with
  | [] => atEnd .endInObject
  | '\x7d' :: rest => .ok ([], rest)
  | '"' :: after => do
    let (m, rest) ← member item ('"' :: after)
    let (ms, rest) ← moreMembers item (rest.length + 1) rest
    return (m :: ms, rest)
  | next => atNext .nameNotString next

/-- A value, given the reader for the values inside it; without one no container may open. -/
def valueWith (item : Option (Reader Value)) (cs : List Char) :
    Except Fault (Parsed Value) :=
  match skipBlanks cs with
  | [] => atEnd .endInValue
  | 'n' :: rest => do return (.null, ← word "ull".toList rest)
  | 't' :: rest => do return (.bool true, ← word "rue".toList rest)
  | 'f' :: rest => do return (.bool false, ← word "alse".toList rest)
  | '-' :: rest => number true rest
  | '"' :: rest => do
    let (s, rest) ← string rest
    return (.string s, rest)
  | '[' :: rest =>
    match item with
    | none => atNext .tooDeep ('[' :: rest)
    | some item => do
      let (vs, rest) ← items item rest
      return (.array vs, rest)
  | '\x7b' :: rest =>
    match item with
    | none => atNext .tooDeep ('\x7b' :: rest)
    | some item => do
      let (ms, rest) ← members item rest
      return (.object (Entries.insertAll [] ms), rest)
  | c :: rest => if c.isDigit then number false (c :: rest) else atNext .noValue (c :: rest)

/-- A value with at most so many containers inside one another. -/
def value : Nat → Reader Value
  | 0 => valueWith none
  | depth + 1 => valueWith (some (value depth))

def maxDepth : Nat := 127

/-- Reads a text that holds one value and blanks around it. -/
def parse (text : String) : Except Fault Value := do
  let (v, rest) ← value maxDepth text.toList
  match skipBlanks rest with
  | [] => .ok v
  | next => atNext .trailingText next

end SearchCompiler.Json
