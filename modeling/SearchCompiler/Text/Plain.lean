/-!
Plain text: what is left of a text where no terminal carries out its control sequences. Sequences
begin with an escape character; they and all control characters but line breaks, form feeds and
tabs are left out.
-/

namespace SearchCompiler.Text

inductive Sequence where
  -- No sequence is open.
  | outside
  -- After the escape character.
  | escape
  -- After the escape character and marks.
  | marks
  -- In a sequence that ends with its first letter.
  | control
  -- At the beginning of a message to the device.
  | device
  -- In the numbers of a message to the device.
  | deviceNumbers
  -- In the marks of a message to the device.
  | deviceMarks
  -- In a text for the device.
  | body
  -- In a text for the system, which a bell ends.
  | system
deriving DecidableEq, Inhabited

/-- Whether a character is white space that stands among the control characters. -/
def isBreak (c : Char) : Bool :=
  c == '\t' || c == '\n' || c == '\x0c' || c == '\r'

/-- Whether a character is shown where no sequence is open. -/
def isShown (c : Char) : Bool :=
  isBreak c || (32 ≤ c.toNat && c != '\x7f')

/-- Whether one of the bytes of a character is the one that ends a text for the device. -/
def holdsTerminator (c : Char) : Bool :=
  (String.singleton c).toUTF8.toList.contains 0x9C

namespace Sequence

def shows : Sequence → Char → Bool
  | outside, c => isShown c
  | escape, c => isBreak c
  | marks, c => isBreak c
  | control, c => isBreak c
  | _, _ => false

/-- The sequence that a character after the escape character opens; most are complete with it. -/
def opened (c : Char) : Sequence :=
  if c = '[' then control
  else if c = ']' then system
  else if c = 'P' then device
  else if c = 'X' ∨ c = '^' ∨ c = '_' then body
  else if ' ' ≤ c ∧ c ≤ '/' then marks
  else outside

/-- A step through the beginning of a message to the device. -/
def advanceDevice (s : Sequence) (c : Char) : Sequence :=
  if ' ' ≤ c ∧ c ≤ '/' then deviceMarks
  else if '@' ≤ c ∧ c ≤ '~' then body
  else if '0' ≤ c ∧ c ≤ ';' then (if s = deviceMarks then body else deviceNumbers)
  else if '<' ≤ c ∧ c ≤ '?' then (if s = device then deviceNumbers else body)
  else s

/-- A step through a sequence. The escape character always begins a new one, and two control
characters always break it off. -/
def advance (s : Sequence) (c : Char) : Sequence :=
  if c = '\x1b' then escape
  else if c = '\x18' ∨ c = '\x1a' then outside
  else
    match s with
    | outside => outside
    | escape => if ' ' ≤ c ∧ c ≤ '~' then opened c else escape
    | marks => if '0' ≤ c ∧ c ≤ '~' then outside else marks
    | control => if '@' ≤ c ∧ c ≤ '~' then outside else control
    | body => if holdsTerminator c then outside else body
    | system => if c = '\x07' then outside else system
    | start => start.advanceDevice c

end Sequence

/-- The characters that are left, given the open sequence and whether the character before was
shown. Once a line break inside a sequence is shown, so is all that can be shown after it; the
sequence goes on at the next character that cannot. -/
def plainFrom (s : Sequence) (showing : Bool) : List Char → List Char
  | [] => []
  | c :: rest =>
    if (if showing then Sequence.outside else s).shows c then
      -- Characters beyond the first 128 are several bytes, and the last of them closes everything.
      c :: plainFrom (if c.toNat < 128 then s else .outside) true rest
    else plainFrom (s.advance c) false rest

def plain (s : String) : String :=
  String.ofList (plainFrom .outside false s.toList)

end SearchCompiler.Text
