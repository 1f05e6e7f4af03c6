import SearchCompiler.Text.Digits
import SearchCompiler.Toml.Basic

/-!
Strings as TOML writes them. Of the four forms the first one that fits is taken: double quotes,
single quotes, three double quotes, three single quotes. A string that fits none is escaped, over
several lines when it has line feeds. A form over several lines starts on a new line when the string
has line feeds, since the line ending after the opening quotes does not belong to the string.
-/

namespace SearchCompiler.Toml

def hasTriple (quote : Char) : List Char → Bool
  | a :: b :: c :: rest =>
    (a == quote && b == quote && c == quote) || hasTriple quote (b :: c :: rest)
  | _ => false

/-- Whether a string fits between double quotes without escapes other than that of the tab. -/
def fitsBasic (cs : List Char) : Bool :=
  cs.all fun c => !isControl c && c != '"' && c != '\\'

def fitsLiteral (cs : List Char) : Bool :=
  cs.all fun c => !isControl c && c != '\''

/-- Whether a string fits between three double quotes without escapes other than that of the tab. -/
def fitsBasicLines (cs : List Char) : Bool :=
  (cs.all fun c => (c == '\n' || !isControl c) && c != '\\') && !hasTriple '"' cs

/-- Whether a string fits between three single quotes. -/
def fitsLiteralLines (cs : List Char) : Bool :=
  (cs.all fun c => c == '\n' || !isControl c) && !hasTriple '\'' cs

/-- A character by its code, for those that have no letter. -/
def codeEscape (c : Char) : List Char :=
  ['\\', 'u', '0', '0', Text.upperHex (c.toNat / 16), Text.upperHex (c.toNat % 16)]

/-- How a character other than the quote and the line feed stands between double quotes. -/
def escaped (c : Char) : List Char :=
  if c = '\x08' then ['\\', 'b']
  else if c = '\t' then ['\\', 't']
  else if c = '\x0c' then ['\\', 'f']
  else if c = '\r' then ['\\', 'r']
  else if c = '\\' then ['\\', '\\']
  else if isControl c then codeEscape c
  else [c]

def basicText (cs : List Char) : List Char :=
  cs.flatMap fun c =>
    if c = '"' then ['\\', '"'] else if c = '\n' then ['\\', 'n'] else escaped c

/-- The text of a string between three double quotes after a number of quotes in a row: line feeds
stand as they are, and every third quote in a row is escaped. -/
def basicLinesText : Nat → List Char → List Char
  | _, [] => []
  | quotes, '"' :: rest =>
    if quotes = 2 then '\\' :: '"' :: basicLinesText 0 rest
    else '"' :: basicLinesText (quotes + 1) rest
  | _, '\n' :: rest => '\n' :: basicLinesText 0 rest
  | _, c :: rest => escaped c ++ basicLinesText 0 rest

/-- A text between three quotes, from a new line on when it has line feeds. -/
def overLines (quote : Char) (feeds : Bool) (body : List Char) : List Char :=
  let quotes := [quote, quote, quote]
  quotes ++ (if feeds then ['\n'] else []) ++ body ++ quotes

def stringChars (cs : List Char) : List Char :=
  let feeds := cs.contains '\n'
  if fitsBasic cs then ['"'] ++ basicText cs ++ ['"']
  else if fitsLiteral cs then ['\''] ++ cs ++ ['\'']
  else if fitsBasicLines cs then overLines '"' feeds (basicLinesText 0 cs)
  else if fitsLiteralLines cs then overLines '\'' feeds cs
  else if feeds then overLines '"' feeds (basicLinesText 0 cs)
  else ['"'] ++ basicText cs ++ ['"']

def stringText (s : String) : String :=
  String.ofList (stringChars s.toList)

end SearchCompiler.Toml
