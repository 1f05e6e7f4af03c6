import SearchCompiler.Toml.Number

/-!
Reading TOML. Lines end at a line feed, alone or after a carriage return; control characters other
than the tab stand nowhere; tables between braces may be spread over lines and end in a comma; at
most 80 arrays and tables between braces are nested, and a dotted key has at most 80 names.

A reader gives the meaning of a piece of text and the text after it, or nothing when the text is not
TOML. Where a reader repeats itself it takes at least one character a time, so as many steps as
there are characters suffice.
-/

namespace SearchCompiler.Toml

abbrev Reader (α : Type) := List Char → Option (α × List Char)

def skipBlanks (cs : List Char) : List Char :=
  cs.dropWhile fun c => c == ' ' || c == '\t'

def afterNewline? : List Char → Option (List Char)
  | '\n' :: rest => some rest
  | '\r' :: '\n' :: rest => some rest
  | _ => none

/-- The text after a comment and the end of its line. -/
def afterComment? : List Char → Option (List Char)
  | [] => some []
  | '\n' :: rest => some rest
  | '\r' :: '\n' :: rest => some rest
  | c :: rest => if isControl c then none else afterComment? rest

/-- The text after the end of a line on which only a comment may follow. -/
def lineEnd? (cs : List Char) : Option (List Char) :=
  match skipBlanks cs with
  | [] => some []
  | '#' :: rest => afterComment? rest
  | next => afterNewline? next

/-- The text after blanks, line endings and comments. -/
def skipGap : Nat → List Char → Option (List Char)
  | 0, _ => none
  | steps + 1, cs =>
    match skipBlanks cs with
    | '#' :: rest => (afterComment? rest).bind (skipGap steps)
    | next =>
      match afterNewline? next with
      | some rest => skipGap steps rest
      | none => some next

def gap (cs : List Char) : Option (List Char) :=
  skipGap (cs.length + 1) cs

/-- The character that digits of base 16 give; surrogates are none. -/
def scalarOf? (digits : List Char) : Option Char := do
  let ds ← digits.mapM Text.hexValue?
  let n := digitValue 16 ds
  if n < 0xD800 ∨ (0xDFFF < n ∧ n < 0x110000) then some (Char.ofNat n) else none

def numericEscape (count : Nat) : Reader Char := fun cs =>
  let digits := cs.take count
  if digits.length = count then (scalarOf? digits).map fun c => (c, cs.drop count) else none

/-- An escape, from the character after the backslash on. -/
def escape : Reader Char
  | 'b' :: rest => some ('\x08', rest)
  | 't' :: rest => some ('\t', rest)
  | 'n' :: rest => some ('\n', rest)
  | 'f' :: rest => some ('\x0c', rest)
  | 'r' :: rest => some ('\r', rest)
  | 'e' :: rest => some ('\x1b', rest)
  | '"' :: rest => some ('"', rest)
  | '\\' :: rest => some ('\\', rest)
  | 'x' :: rest => numericEscape 2 rest
  | 'u' :: rest => numericEscape 4 rest
  | 'U' :: rest => numericEscape 8 rest
  | _ => none

def prepend (c : Char) (r : List Char × List Char) : List Char × List Char :=
  (c :: r.1, r.2)

/-- The characters of a string between single quotes, up to the closing one. -/
def literalBody : Reader (List Char)
  | [] => none
  | '\'' :: rest => some ([], rest)
  | c :: rest => if isControl c then none else (literalBody rest).map (prepend c)

/-- The characters of a string between double quotes, up to the closing one. -/
def basicBody : Nat → Reader (List Char)
  | 0, _ => none
  | _ + 1, [] => none
  | _ + 1, '"' :: rest => some ([], rest)
  | steps + 1, '\\' :: rest => do
    let (c, rest) ← escape rest
    (basicBody steps rest).map (prepend c)
  | steps + 1, c :: rest =>
    if isControl c then none else (basicBody steps rest).map (prepend c)

/-- The closing of a string over several lines after its three quotes: up to two more quotes belong
to the string. -/
def closing (quote : Char) : List Char → List Char × List Char
  | a :: b :: rest =>
    if a = quote ∧ b = quote then ([quote, quote], rest)
    else if a = quote then ([quote], b :: rest)
    else ([], a :: b :: rest)
  | [a] => if a = quote then ([quote], []) else ([], [a])
  | [] => ([], [])

/-- The characters of a string between three single quotes. -/
def literalLines : Reader (List Char)
  | [] => none
  | '\'' :: '\'' :: '\'' :: rest => some (closing '\'' rest)
  | '\r' :: '\n' :: rest => (literalLines rest).map fun r => prepend '\r' (prepend '\n' r)
  | c :: rest => if c ≠ '\n' ∧ isControl c then none else (literalLines rest).map (prepend c)

def skipLines : List Char → List Char
  | ' ' :: rest => skipLines rest
  | '\t' :: rest => skipLines rest
  | '\n' :: rest => skipLines rest
  | '\r' :: '\n' :: rest => skipLines rest
  | cs => cs

/-- The text after what a backslash at the end of a line removes. -/
def afterBreak? (cs : List Char) : Option (List Char) :=
  (afterNewline? (skipBlanks cs)).map skipLines

/-- The characters of a string between three double quotes. -/
def basicLines : Nat → Reader (List Char)
  | 0, _ => none
  | _ + 1, [] => none
  | _ + 1, '"' :: '"' :: '"' :: rest => some (closing '"' rest)
  | steps + 1, '\\' :: rest =>
    match afterBreak? rest with
    | some rest => basicLines steps rest
    | none => do
      let (c, rest) ← escape rest
      (basicLines steps rest).map (prepend c)
  | steps + 1, '\r' :: '\n' :: rest =>
    (basicLines steps rest).map fun r => prepend '\r' (prepend '\n' r)
  | steps + 1, c :: rest =>
    if c ≠ '\n' ∧ isControl c then none else (basicLines steps rest).map (prepend c)

/-- The text after the line ending that may follow the opening of a string over several lines. -/
def afterOpening (cs : List Char) : List Char :=
  (afterNewline? cs).getD cs

def string? : Reader String := fun cs =>
  let named (r : Option (List Char × List Char)) : Option (String × List Char) :=
    r.map fun r => (String.ofList r.1, r.2)
  match cs with
  | '"' :: '"' :: '"' :: rest => named (basicLines (rest.length + 1) (afterOpening rest))
  | '\'' :: '\'' :: '\'' :: rest => named (literalLines (afterOpening rest))
  | '"' :: rest => named (basicBody (rest.length + 1) rest)
  | '\'' :: rest => named (literalBody rest)
  | _ => none

def isBare (c : Char) : Bool :=
  c.isAlphanum || c == '-' || c == '_'

def name : Reader String := fun cs =>
  match cs with
  | '"' :: rest => (basicBody (rest.length + 1) rest).map fun r => (String.ofList r.1, r.2)
  | '\'' :: rest => (literalBody rest).map fun r => (String.ofList r.1, r.2)
  | _ =>
    match cs.takeWhile isBare with
    | [] => none
    | bare => some (String.ofList bare, cs.dropWhile isBare)

/-- The names of a key after those that stand above, with dots between them; there are at most so
many. -/
def namesAfter (above : List String) : Nat → Reader Key
  | 0, _ => none
  | count + 1, cs => do
    let (last, rest) ← name cs
    match skipBlanks rest with
    | '.' :: next => namesAfter (above ++ [last]) count (skipBlanks next)
    | next => some (⟨above, last⟩, next)

def maxNames : Nat := 80

def key : Reader Key := fun cs =>
  namesAfter [] maxNames (skipBlanks cs)

/-- A key with its value, given the reader for values. -/
def assignment (item : Reader Value) : Reader (Key × Value) := fun cs => do
  let (k, rest) ← key cs
  match rest with
  | '=' :: rest => do
    let (v, rest) ← item (skipBlanks rest)
    return ((k, v), rest)
  | _ => none

/-- Items up to a closing character, with commas between them and gaps around them. -/
def sequence {α : Type} (item : Reader α) (close : Char) : Nat → Reader (List α)
  | 0, _ => none
  | steps + 1, cs => do
    match ← gap cs with
    | [] => none
    | c :: rest =>
      if c = close then some ([], rest)
      else do
        let (a, rest) ← item (c :: rest)
        match ← gap rest with
        | ',' :: rest => (sequence item close steps rest).map fun r => (a :: r.1, r.2)
        | d :: rest => if d = close then some ([a], rest) else none
        | [] => none

def isPlain (c : Char) : Bool :=
  c.isAlphanum || c == '+' || c == '-' || c == '_' || c == '.' || c == ':'

/-- A value without quotes or brackets. A date may be set apart from a time by a single space. -/
def plain : Reader Value := fun cs =>
  let word := cs.takeWhile isPlain
  let rest := cs.dropWhile isPlain
  match afterDate? word, rest with
  | some [], ' ' :: c :: more =>
    if c.isDigit then
      let time := (c :: more).takeWhile isPlain
      (plainValue? (word ++ 'T' :: time)).map fun v => (v, (c :: more).dropWhile isPlain)
    else some (.datetime, rest)
  | _, _ => (plainValue? word).map fun v => (v, rest)

/-- A value, given the reader for the values inside it; without one no bracket may open. -/
def valueWith (item : Option (Reader Value)) : Reader Value := fun cs =>
  match cs with
  | '"' :: _ => (string? cs).map fun r => (.string r.1, r.2)
  | '\'' :: _ => (string? cs).map fun r => (.string r.1, r.2)
  | '[' :: rest => do
    let (items, rest) ← sequence (← item) ']' (rest.length + 1) rest
    return (.array items, rest)
  | '\x7b' :: rest => do
    let (assignments, rest) ← sequence (assignment (← item)) '\x7d' (rest.length + 1) rest
    return (.table (← buildInline assignments), rest)
  | _ => plain cs

/-- A value with at most so many brackets inside one another. -/
def value : Nat → Reader Value
  | 0 => valueWith none
  | depth + 1 => valueWith (some (value depth))

def maxDepth : Nat := 80

def statement : Reader Statement := fun cs =>
  match cs with
  | '[' :: '[' :: rest => do
    let (k, rest) ← key rest
    match rest with
    | ']' :: ']' :: rest => return (.arrayTable k, ← lineEnd? rest)
    | _ => none
  | '[' :: rest => do
    let (k, rest) ← key rest
    match rest with
    | ']' :: rest => return (.table k, ← lineEnd? rest)
    | _ => none
  | _ => do
    let ((k, v), rest) ← assignment (value maxDepth) cs
    return (.assign k v, ← lineEnd? rest)

def statements : Nat → List Char → Option (List Statement)
  | 0, _ => none
  | steps + 1, cs =>
    match skipBlanks cs with
    | [] => some []
    | '#' :: rest => (afterComment? rest).bind (statements steps)
    | next =>
      match afterNewline? next with
      | some rest => statements steps rest
      | none => do
        let (s, rest) ← statement next
        (statements steps rest).map (s :: ·)

def dropByteOrderMark : List Char → List Char
  | '\ufeff' :: rest => rest
  | cs => cs

/-- Reads a document; none when it is not TOML. -/
def parse? (text : String) : Option (Entries Value) :=
  let cs := dropByteOrderMark text.toList
  (statements (cs.length + 1) cs).bind build

end SearchCompiler.Toml
