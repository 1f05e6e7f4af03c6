import SearchCompiler.Text.Width

/-!
Ligatures of single scripts: characters that together take fewer columns than each by itself. A text
is read from its end, so a ligature is met at its last character. The joiner and marks that are
ignored by default may stand anywhere inside one.
-/

namespace SearchCompiler.Text

/-- The last characters of ligatures, and what may stand before them. -/
inductive LigatureEnd where
  | hebrewLamed
  | bugineseYa
  -- The Buginese letter with the vowel sign before it.
  | bugineseVowelYa
  | tifinagh
  -- The Tifinagh consonant with the sign before it that joins consonants.
  | tifinaghJoined
  | lisuTone
  | turkicI
  | khmerLetter
deriving DecidableEq, Inhabited

def joiner : Char := '\u200d'

def isTifinagh (c : Char) : Bool :=
  Ranges.mem [(0x2D31, 0x2D65), (0x2D6F, 0x2D6F)] c.toNat

/-- Whether a Khmer letter is written below the letter before it after the sign for that, and takes
no column there. -/
def isKhmerSubscript (c : Char) : Bool :=
  Ranges.mem [(0x1780, 0x1782), (0x1784, 0x1787), (0x1789, 0x178C), (0x178E, 0x1793),
    (0x1795, 0x1798), (0x179B, 0x179D), (0x17A0, 0x17A0), (0x17A2, 0x17A2), (0x17A7, 0x17A7),
    (0x17AB, 0x17AC), (0x17AF, 0x17AF)] c.toNat

/-- Whether a character is one of the Arabic letters that end a ligature with lam. -/
def isArabicAlef (c : Char) : Bool :=
  Ranges.mem [(0x622, 0x623), (0x625, 0x625), (0x627, 0x627), (0x671, 0x673), (0x675, 0x675),
    (0x773, 0x774), (0x870, 0x882)] c.toNat

/-- Whether a character is one of the Arabic letters that begin a ligature with alef. -/
def isArabicLam (c : Char) : Bool :=
  Ranges.mem [(0x644, 0x644), (0x6B5, 0x6B8), (0x76A, 0x76A), (0x8A6, 0x8A6), (0x8C7, 0x8C7)]
    c.toNat

namespace LigatureEnd

def ofChar? (c : Char) : Option LigatureEnd :=
  if c = '\u05dc' then some hebrewLamed
  else if c = '\u1a10' then some bugineseYa
  else if isTifinagh c then some tifinagh
  else if c = '\ua4fc' ∨ c = '\ua4fd' then some lisuTone
  else if c.toNat = 0x10C03 then some turkicI
  else if isKhmerSubscript c then some khmerLetter
  else none

/-- What a character in front adds to the columns of a ligature, and what more may stand before it,
if it belongs to the ligature. It takes columns away again where the characters after it were
counted for more than the whole takes. -/
def extend? (e : LigatureEnd) (joined : Bool) (c : Char) : Option (Int × Option LigatureEnd) :=
  match e with
  | hebrewLamed => if joined && c == '\u05d0' then some (0, none) else none
  | bugineseYa => if joined && c == '\u1a17' then some (0, some bugineseVowelYa) else none
  | bugineseVowelYa => if c = '\u1a15' then some (0, none) else none
  | tifinagh =>
    if c = '\u2d7f' then some (1, some tifinaghJoined)
    else if joined && isTifinagh c then some (0, none)
    else none
  | tifinaghJoined => if isTifinagh c then some (-1, none) else none
  | lisuTone => if '\ua4f8' ≤ c ∧ c ≤ '\ua4fb' then some (0, none) else none
  | turkicI => if joined && c.toNat == 0x10C32 then some (0, none) else none
  | khmerLetter => if c = '\u17d2' then some (-1, none) else none

end LigatureEnd

end SearchCompiler.Text
