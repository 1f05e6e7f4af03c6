/-!
Shortest decimal text of a double-precision number.

A finite double is `m * 2 ^ q`. The reals that round to it form an interval around it, ends included
when `m` is even. Among the powers of ten, largest first, the first one that has a multiple in the
interval gives the fewest digits; the multiple nearest to the double is the answer, and of two that
are equally near the even one. All of this is exact arithmetic on natural numbers.
-/

namespace SearchCompiler.Decimal

def twoTo (n : Nat) : Nat := Nat.pow 2 n

def tenTo (n : Nat) : Nat := Nat.pow 10 n

/-- A finite double without its sign: the value is `mantissa * 2 ^ exponent`. `atEdge` holds when
the next smaller double is only half as far away as the next larger one. -/
structure Binary where
  mantissa : Nat
  exponent : Int
  atEdge : Bool

/-- The fields of a double, read off its 64 bits. -/
def Binary.ofBits (bits : UInt64) : Binary :=
  let hidden := twoTo 52
  let field := bits.toNat / hidden % twoTo 11
  let fraction := bits.toNat % hidden
  if field = 0 then ⟨fraction, -1074, false⟩
  else ⟨hidden + fraction, (field : Int) - 1075, fraction == 0 && 1 < field⟩

def isNegative (bits : UInt64) : Bool :=
  twoTo 63 ≤ bits.toNat

structure Scaled where
  coefficient : Nat
  exponent : Int
deriving DecidableEq

/-- The multiple of `10 ^ k` nearest to the number among those that round to it, if there is one.
The number and the ends of its interval are compared in quarters of the last binary place. -/
def Binary.nearestOnGrid? (b : Binary) (k : Int) : Option Nat :=
  let twos := b.exponent - 2
  let scale := twoTo twos.toNat * tenTo (-k).toNat
  let unit := twoTo (-twos).toNat * tenTo k.toNat
  let middle := 4 * b.mantissa * scale
  let high := (4 * b.mantissa + 2) * scale
  let low := (4 * b.mantissa - if b.atEdge then 1 else 2) * scale
  let closed := b.mantissa % 2 == 0
  let fits (c : Nat) : Bool :=
    c ≠ 0 && if closed then low ≤ c * unit && c * unit ≤ high else low < c * unit && c * unit < high
  let below := middle / unit
  let above := below + 1
  match fits below, fits above with
  | true, false => some below
  | false, true => some above
  | false, false => none
  | true, true =>
    -- Both neighbours round to the number: the nearer one, or the even one of two.
    let down := middle - below * unit
    let up := above * unit - middle
    some (if down < up then below else if up < down then above
      else if below % 2 = 0 then below else above)

/-- Tries the grid of `10 ^ k` and then finer ones, `steps` of them in all. -/
def Binary.searchGrids (b : Binary) : Nat → Int → Scaled
  | 0, _ => ⟨0, 0⟩
  | steps + 1, k =>
    match b.nearestOnGrid? k with
    | some c => ⟨c, k⟩
    | none => b.searchGrids steps (k - 1)

/-- The decimal of fewest digits that rounds to the number, nearest to it among those. The search
starts on a grid that is coarser than the number itself, and seventeen digits always suffice. -/
def Binary.shortest (b : Binary) : Scaled :=
  if b.mantissa = 0 then ⟨0, 0⟩
  else
    let size := (b.mantissa.log2 : Int) + b.exponent
    b.searchGrids 24 (size * 30103 / 100000 + 2)

/-- Where a number is written out in places and where with an exponent. -/
structure Layout where
  -- Whether a number whose leading digit stands for `10 ^ e` is written out in places.
  positional : Int → Bool

/-- Moves trailing zeros of the digits into the exponent. -/
def trimZeros (digits : List Char) : List Char :=
  (digits.reverse.dropWhile (· == '0')).reverse

/-- The digits of a decimal whose first digit stands for `10 ^ e`, in places. A number without a
fraction ends in `.0`. -/
def inPlaces (digits : List Char) (e : Int) : List Char :=
  if e < 0 then ['0', '.'] ++ List.replicate (-e - 1).toNat '0' ++ digits
  else
    let whole := e.toNat + 1
    if digits.length ≤ whole then
      digits ++ List.replicate (whole - digits.length) '0' ++ ['.', '0']
    else digits.take whole ++ ['.'] ++ digits.drop whole

/-- The digits with one place before the point and an exponent that always has its sign. -/
def withExponent (digits : List Char) (e : Int) : List Char :=
  let mantissa :=
    match digits with
    | [] => []
    | [d] => [d]
    | d :: rest => d :: '.' :: rest
  mantissa ++ ['e', if e < 0 then '-' else '+'] ++ Nat.toDigits 10 e.natAbs

/-- The text of a finite double in a layout, from its bits. -/
def Layout.write (layout : Layout) (bits : UInt64) : String :=
  let number := (Binary.ofBits bits).shortest
  let all := Nat.toDigits 10 number.coefficient
  let e : Int := if number.coefficient = 0 then 0 else (all.length : Int) - 1 + number.exponent
  let digits := if number.coefficient = 0 then ['0'] else trimZeros all
  let body := if layout.positional e then inPlaces digits e else withExponent digits e
  String.ofList (if isNegative bits then '-' :: body else body)

end SearchCompiler.Decimal
