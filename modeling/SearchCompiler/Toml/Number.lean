import SearchCompiler.Text.Digits
import SearchCompiler.Toml.Basic

/-!
Numbers, dates and the other values of TOML that are written as one run of letters and digits.

Digits may be set apart by single underscores. Whole numbers have no leading zero; hexadecimal,
octal and binary ones have no sign. Seconds may be left out of a time.
-/

namespace SearchCompiler.Toml

def digitBelow? (base : Nat) (c : Char) : Option Nat :=
  (Text.hexValue? c).bind fun d => if d < base then some d else none

/-- Digits, single underscores between them left out. -/
def spacedDigits (base : Nat) : List Char → Option (List Nat)
  | [] => none
  | [c] => (digitBelow? base c).map fun d => [d]
  | c :: '_' :: rest => do return (← digitBelow? base c) :: (← spacedDigits base rest)
  | c :: rest => do return (← digitBelow? base c) :: (← spacedDigits base rest)

def digitValue (base : Nat) (digits : List Nat) : Nat :=
  digits.foldl (fun acc d => acc * base + d) 0

/-- The sign in front of a number (`true` for minus) and the text after it. -/
def cutSign : List Char → Bool × List Char
  | '-' :: rest => (true, rest)
  | '+' :: rest => (false, rest)
  | cs => (false, cs)

def wholeDigits (cs : List Char) : Option (List Nat) :=
  match spacedDigits 10 cs with
  | some (0 :: _ :: _) => none
  | ds => ds

/-- Whether an integer fits into a number of bits when there is no sign. -/
def fitsUnsigned (bits : Nat) (n : Int) : Bool :=
  0 ≤ n && n < (Nat.pow 2 bits : Nat)

/-- Whether an integer fits into a number of bits with a sign among them. -/
def fitsSigned (bits : Nat) (n : Int) : Bool :=
  if 0 ≤ n then fitsUnsigned (bits - 1) n else fitsUnsigned (bits - 1) (-n - 1)

/-- Whether an integer fits into a number of bits, with a sign or without. -/
def isWord (bits : Nat) (n : Int) : Bool :=
  fitsSigned bits n || fitsUnsigned bits n

def wholeNumber? : List Char → Option Int
  | '0' :: 'x' :: rest => (spacedDigits 16 rest).map fun ds => digitValue 16 ds
  | '0' :: 'o' :: rest => (spacedDigits 8 rest).map fun ds => digitValue 8 ds
  | '0' :: 'b' :: rest => (spacedDigits 2 rest).map fun ds => digitValue 2 ds
  | cs =>
    let (negative, body) := cutSign cs
    (wholeDigits body).map fun ds =>
      if negative then -(digitValue 10 ds : Int) else (digitValue 10 ds : Int)

/-- The text before the first character of a class, and the text after it if there is one. -/
def cutAt (p : Char → Bool) (cs : List Char) : List Char × Option (List Char) :=
  match cs.dropWhile (!p ·) with
  | [] => (cs, none)
  | _ :: rest => (cs.takeWhile (!p ·), some rest)

/-- The exponent of a number; none written is zero. -/
def exponent? : Option (List Char) → Option Int
  | none => some 0
  | some cs =>
    let (negative, body) := cutSign cs
    (spacedDigits 10 body).map fun ds =>
      if negative then -(digitValue 10 ds : Int) else (digitValue 10 ds : Int)

/-- The double nearest to `m * 10 ^ e`. Exponents far beyond the doubles are cut short. -/
def nearestDouble (m : Nat) (e : Int) : Float :=
  if e < 0 then Float.ofScientific m true (min (-e).toNat 20000)
  else Float.ofScientific m false (min e.toNat 20000)

/-- A number with a fraction, an exponent or both. -/
def decimal? (cs : List Char) : Option Float :=
  let (mantissa, exponent) := cutAt (fun c => c == 'e' || c == 'E') cs
  let (whole, fraction) := cutAt (· == '.') mantissa
  if exponent.isNone ∧ fraction.isNone then none
  else do
    let ds ← wholeDigits whole
    let fs ← (fraction.map (spacedDigits 10)).getD (some [])
    let e ← exponent? exponent
    return nearestDouble (digitValue 10 (ds ++ fs)) (e - fs.length)

def signedBits (negative : Bool) (f : Float) : UInt64 :=
  (if negative then -f else f).toBits

/-- A number that is not whole, by name or by digits. Only by name it is infinite. -/
def float? (cs : List Char) : Option Value :=
  let (negative, body) := cutSign cs
  if body = ['i', 'n', 'f'] then some (.float (signedBits negative (1 / 0)))
  else if body = ['n', 'a', 'n'] then some (.float (signedBits negative (0 / 0)))
  else (decimal? body).map fun f => if f.isInf then .huge else .float (signedBits negative f)

def twoDigits? (a b : Char) : Option Nat := do
  return (← digitBelow? 10 a) * 10 + (← digitBelow? 10 b)

def daysIn (year month : Nat) : Nat :=
  if month = 2 then
    if year % 4 = 0 ∧ (year % 100 ≠ 0 ∨ year % 400 = 0) then 29 else 28
  else if month = 4 ∨ month = 6 ∨ month = 9 ∨ month = 11 then 30
  else 31

/-- Whether a date starts a text; gives the text after it. -/
def afterDate? : List Char → Option (List Char)
  | a :: b :: c :: d :: '-' :: e :: f :: '-' :: g :: h :: rest => do
    let year := (← twoDigits? a b) * 100 + (← twoDigits? c d)
    let month ← twoDigits? e f
    let day ← twoDigits? g h
    if 1 ≤ month ∧ month ≤ 12 ∧ 1 ≤ day ∧ day ≤ daysIn year month then some rest else none
  | _ => none

/-- The text after a point and the digits of a fraction of a second, if they come next. -/
def afterFraction? : List Char → Option (List Char)
  | '.' :: rest =>
    if rest.head?.any Char.isDigit then some (rest.dropWhile Char.isDigit) else none
  | cs => some cs

/-- Whether a time of day starts a text; gives the text after it. -/
def afterTime? : List Char → Option (List Char)
  | a :: b :: ':' :: c :: d :: rest => do
    let hour ← twoDigits? a b
    let minute ← twoDigits? c d
    if hour ≤ 23 ∧ minute ≤ 59 then
      match rest with
      | ':' :: e :: f :: rest => do
        let second ← twoDigits? e f
        if second ≤ 60 then afterFraction? rest else none
      | _ => some rest
    else none
  | _ => none

/-- Whether a text is an offset from universal time, or empty. -/
def isOffset : List Char → Bool
  | [] => true
  | ['Z'] => true
  | ['z'] => true
  | [sign, a, b, ':', c, d] =>
    (sign == '+' || sign == '-') &&
      ((twoDigits? a b).any (· ≤ 23)) && ((twoDigits? c d).any (· ≤ 59))
  | _ => false

/-- Whether a text is a date, a time, or both with or without an offset. -/
def isDateTime (cs : List Char) : Bool :=
  match afterDate? cs with
  | some [] => true
  | some (sep :: rest) => (sep == 'T' || sep == 't') && (afterTime? rest).any isOffset
  | none => afterTime? cs == some []

/-- The value of a run of letters, digits, signs, points and colons. -/
def plainValue? (cs : List Char) : Option Value :=
  if cs = ['t', 'r', 'u', 'e'] then some (.boolean true)
  else if cs = ['f', 'a', 'l', 's', 'e'] then some (.boolean false)
  else
    match wholeNumber? cs with
    | some n => some (if isWord 128 n then .integer n else .huge)
    | none =>
      match float? cs with
      | some v => some v
      | none => if isDateTime cs then some .datetime else none

end SearchCompiler.Toml
