import SearchCompiler.Text.Emoji
import SearchCompiler.Text.Ligature

/-!
Columns that a line of text takes in a terminal with fixed cells. Most characters take theirs
whatever stands around them. Emoji that are joined, coloured or chosen by a selector and the
ligatures of some scripts take the columns of a single picture or letter.

A line is read from its end: what a character takes depends only on what stands after it.
-/

namespace SearchCompiler.Text

/-- What stands after a character, as far as it can change the columns that the character takes. -/
inductive Following where
  | plain
  | lineFeed
  -- The last part of a ligature, and whether a joiner stands in it.
  | ligature (last : LigatureEnd) (joined : Bool)
  | arabicAlef
  | skinColor
  -- One letter of a flag.
  | flagLetter
  | flagLetters
  | picture
  -- A joiner with a picture after it.
  | joinedPicture
  -- A key around the character before it, and then a picture joined to that.
  | joinedKey
  -- A number of letters of flags, and then a picture joined to them.
  | joinedFlag (letters : Nat)
  -- The end of the tag of a flag with its last letters and the digits before them, and then a
  -- picture joined to that.
  | joinedTag (letters digits : Nat)
  -- The two Kirat Rai vowel signs that signs before them can join.
  | kiratRaiE
  | kiratRaiAi
deriving DecidableEq, Inhabited

/-- A choice between the two forms of the character before it. -/
inductive Selector where
  | text
  | picture
deriving DecidableEq, Inhabited

/-- What stands after a character: a selector directly after it, if any, and what follows. -/
structure Right where
  following : Following := .plain
  selector : Option Selector := none
deriving DecidableEq, Inhabited

namespace Following

def ofChar (c : Char) : Following :=
  if isFlagLetter c then flagLetter
  else if isSkinColor c then skinColor
  else if isPicture c then picture
  else if isArabicAlef c then arabicAlef
  else if c.toNat = 0x16D67 then kiratRaiE
  else if c.toNat = 0x16D68 then kiratRaiAi
  else
    match LigatureEnd.ofChar? c with
    | some last => ligature last false
    | none => plain

/-- What is left when a selector stands in between. Ligatures go on across it. -/
def acrossSelector : Following → Following
  | ligature last joined => ligature last joined
  | arabicAlef => arabicAlef
  | _ => plain

/-- What is left when the selector of a picture stands in between. -/
def acrossPictureSelector : Following → Following
  | joinedPicture => joinedPicture
  | joinedKey => joinedKey
  | following => following.acrossSelector

/-- The columns that a letter of a flag adds in front of others that a picture is joined to. Two and
two make a flag from the left, so with an odd number only the last one belongs to the picture. -/
def joinedFlagColumns (letters : Nat) : Int :=
  if letters % 2 = 1 then -1 else 3

/-- Whether what was read of the tag of a flag can be all of it. -/
def isWholeTag (letters digits : Nat) : Bool :=
  (digits == 0 && 3 ≤ letters && letters ≤ 6) || digits == 3

def extendTag? (letters digits : Nat) (c : Char) : Option Following :=
  if isTagLetter c then
    if digits = 0 ∧ letters < 6 then some (joinedTag (letters + 1) 0) else none
  else if isTagDigit c then
    if (digits = 0 ∧ letters ≤ 4) ∨ (digits = 1 ∨ digits = 2) then
      some (joinedTag letters (digits + 1))
    else none
  else if c.toNat = 0x1F3F4 ∧ isWholeTag letters digits then some picture
  else none

/-- What a character in front adds to a picture with a joiner before it, and what it is then. -/
def extendJoined? (c : Char) : Option (Int × Following) :=
  if c = '\u20e3' then some (0, joinedKey)
  else if isFlagLetter c then some (1, joinedFlag 1)
  else if isSkinColor c then some (0, skinColor)
  else if c.toNat = 0xE007F then some (0, joinedTag 0 0)
  else if isPicture c then some (0, picture)
  else none

/-- What a character in front of a ligature adds to it, if it belongs to the ligature. -/
def extendLigature? (last : LigatureEnd) (joined : Bool) (c : Char) : Option (Int × Following) :=
  if c = joiner then some (0, ligature last true)
  else if isIgnoredMark c then some (0, ligature last joined)
  else
    (last.extend? joined c).map fun r =>
      match r.2 with
      | some before => (r.1, ligature before false)
      | none => (r.1, plain)

/-- What a character adds to the columns of what stands after it, if it belongs to that, and what it
is to the character before it. -/
def extend? (following : Following) (c : Char) : Option (Int × Following) :=
  match following with
  | ligature last joined => extendLigature? last joined c
  | arabicAlef =>
    if isArabicLam c then some (0, plain)
    else if isTransparent c then some (0, arabicAlef)
    else none
  | skinColor =>
    if takesSkinColor c then some (0, picture)
    else if c = joiner then some (0, joinedPicture)
    else none
  | flagLetter => if isFlagLetter c then some (1, flagLetters) else none
  | flagLetters =>
    if isFlagLetter c then some (1, flagLetters)
    else if c = joiner then some (0, joinedPicture)
    else none
  | picture => if c = joiner then some (0, joinedPicture) else none
  | joinedPicture => extendJoined? c
  | joinedFlag letters =>
    if isFlagLetter c then some (joinedFlagColumns letters, joinedFlag (letters + 1))
    else if c = joiner ∧ 2 ≤ letters then some (0, joinedPicture)
    else none
  | joinedTag letters digits => (extendTag? letters digits c).map fun next => (0, next)
  | kiratRaiE =>
    if c.toNat = 0x16D63 ∨ c.toNat = 0x16D69 then some (0, plain)
    else if c.toNat = 0x16D67 then some (0, kiratRaiAi)
    else if c.toNat = 0x16D68 then some (1, kiratRaiE)
    else none
  | kiratRaiAi => if c.toNat = 0x16D63 then some (0, plain) else none
  | _ => none

end Following

namespace Right

/-- The step of a character that no selector chooses a form of. -/
def stepBare (following : Following) (c : Char) : Int × Following :=
  match following.extend? c with
  | some r => r
  | none => (columnsOf c, .ofChar c)

/-- The columns that a character adds to those of what stands after it, and what stands after the
character before it. -/
def step (r : Right) (c : Char) : Int × Right :=
  if r.selector = some .picture ∧ hasPictureForm c then
    (if r.following = .joinedPicture ∨ r.following = .joinedKey then 0 else 2, ⟨.picture, none⟩)
  else
    let following :=
      if r.selector = some .picture then r.following.acrossSelector else r.following
    if c = '\n' then (1, ⟨.lineFeed, none⟩)
    else if c = '\r' ∧ following = .lineFeed then (0, {})
    -- The plain space and all before it stand by themselves.
    else if c ≤ '\u00a0' then (1, {})
    else if c = '\ufe0f' then (0, ⟨following.acrossPictureSelector, some .picture⟩)
    else if c = '\ufe0e' then (0, ⟨following.acrossSelector, some .text⟩)
    else if r.selector = some .text ∧ hasNarrowForm c then (1, {})
    else
      let (n, before) := stepBare following c
      (n, ⟨before, none⟩)

end Right

/-- The columns of characters, and what they are to a character before them. -/
def measure (cs : List Char) : Int × Right :=
  cs.foldr
    (fun c r =>
      let (n, right) := r.2.step c
      (n + r.1, right))
    (0, {})

def columns (s : String) : Nat :=
  (measure s.toList).1.toNat

/-- A line filled up with spaces to a number of columns. -/
def padTo (width : Nat) (s : String) : String :=
  s ++ String.ofList (List.replicate (width - columns s) ' ')

end SearchCompiler.Text
