import SearchCompiler.Text.Lines

/-!
Text for terminals: colours and indentation. Painting puts the codes of a colour before a text and
the code that ends all colours after it, whatever the text holds.
-/

namespace SearchCompiler

inductive Paint where
  | heading
  | subheading
  | faint
  | success
  | warning
  | failure
deriving DecidableEq, Inhabited

def endOfPaint : String := "\x1b[0m"

namespace Paint

/-- The codes before a text: a heading is bold and cyan, a subheading bold, and the outcomes are
green, yellow and red. -/
def codes : Paint → String
  | .heading => "\x1b[1m\x1b[36m"
  | .subheading => "\x1b[1m"
  | .faint => "\x1b[2m"
  | .success => "\x1b[32m"
  | .warning => "\x1b[33m"
  | .failure => "\x1b[31m"

def apply (paint : Paint) (text : String) : String :=
  paint.codes ++ text ++ endOfPaint

end Paint

/-- Two spaces before a line, unless it is empty. -/
def indentLine (line : String) : String :=
  if line.isEmpty then "" else "  " ++ line

/-- The lines of a text indented; the last one has no ending. -/
def indented (text : String) : String :=
  "\n".intercalate ((Text.lines text).map indentLine)

/-- The code of the colour that source text is shown in. -/
def sourceCode : String := "\x1b[38;2;98;114;164m"

/-- Pieces between line feeds with the colour of source text at the start of each; nothing is a
piece after a final line feed. -/
def paintPieces : List String → List String
  | [] => []
  | [last] => if last.isEmpty then [last] else [sourceCode ++ last]
  | piece :: rest => (sourceCode ++ piece) :: paintPieces rest

/-- Source text in colour. Every line, an empty one too, sets the colour anew. -/
def highlighted (text : String) : String :=
  "\n".intercalate (paintPieces ((Text.splitAtFeeds text.toList).map String.ofList)) ++ endOfPaint

end SearchCompiler
