import SearchCompiler.Text.Ranges

/-!
Blank text: text made of white space only.

The class is the Unicode property `White_Space`, which is larger than the ASCII blanks and leaves
out the information separators U+001C to U+001F and the zero-width space U+200B.
-/

namespace SearchCompiler.Text

def whiteSpaceRanges : Ranges :=
  [(0x09, 0x0D), (0x20, 0x20), (0x85, 0x85), (0xA0, 0xA0), (0x1680, 0x1680), (0x2000, 0x200A),
    (0x2028, 0x2029), (0x202F, 0x202F), (0x205F, 0x205F), (0x3000, 0x3000)]

def isWhiteSpace (c : Char) : Bool :=
  whiteSpaceRanges.mem c.toNat

/-- A text is blank when every character of it is white space; the empty text is blank. -/
def isBlank (s : String) : Bool :=
  s.toList.all isWhiteSpace

end SearchCompiler.Text
