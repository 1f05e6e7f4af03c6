import SearchCompiler.Json.Basic

/-!
The number that a literal stands for.

An integer literal that fits into 64 bits, signed or unsigned, is kept exactly. Every other literal
is a double: its leading digits are taken as long as they fit into an unsigned 64-bit significand,
and the significand is scaled by one multiplication or division with a power of ten, in steps of
`10 ^ 308` when the exponent is beyond that. A result beyond the largest double is refused, one
below the smallest is zero.
-/

namespace SearchCompiler.Json

/-- The parts of a number literal. The fraction and the exponent are empty when not written. -/
structure Literal where
  negative : Bool
  whole : List Nat
  fraction : Option (List Nat)
  -- The sign of the exponent (`true` for minus) and its digits.
  exponent : Option (Bool × List Nat)

/-- The largest exponent that is read digit by digit. -/
def maxExponent : Nat := 0x7FFFFFFF

/-- Appends digits to a significand while it fits into 64 bits; also counts the digits left out. -/
def absorb (significand : Nat) : List Nat → Nat × Nat
  | [] => (significand, 0)
  | d :: rest =>
    if significand * 10 + d < UInt64.size then absorb (significand * 10 + d) rest
    else (significand, rest.length + 1)

/-- The digits after the one at which an exponent exceeds its largest value, if it does. -/
def afterOverflow? (value : Nat) : List Nat → Option (List Nat)
  | [] => none
  | d :: rest =>
    if maxExponent < value * 10 + d then some rest else afterOverflow? (value * 10 + d) rest

def powerOfTen (n : Nat) : Float :=
  Float.ofScientific 1 false n

/-- A significand divided by a power of ten. A 64-bit significand divided by `10 ^ 308` twice is
zero, so nothing is left to divide after that. -/
def scaleDown (f : Float) (n : Nat) : Float :=
  if n ≤ 308 then f / powerOfTen n
  else if n ≤ 616 then f / powerOfTen 308 / powerOfTen (n - 308)
  else 0

/-- A significand times a power of ten, unless that is beyond the doubles. -/
def scale? (significand : Nat) (e : Int) : Option Float :=
  let f := Float.ofNat significand
  if e < 0 then some (scaleDown f (-e).toNat)
  else if significand = 0 then some f
  else if 308 < e then none
  else
    let r := f * powerOfTen e.toNat
    if r.isInf then none else some r

def signed (negative : Bool) (f : Float) : Number :=
  .double (if negative then -f else f).toBits

/-- The number a literal stands for; none when it is beyond the doubles. -/
def Literal.number? (l : Literal) : Option Number :=
  let (whole, wholeLeft) := absorb 0 l.whole
  match l.fraction, l.exponent with
  | none, none =>
    -- Minus zero is no integer, and neither is a number with digits left out.
    if wholeLeft = 0 ∧ ¬ l.negative then some (.integer whole)
    else if wholeLeft = 0 ∧ 0 < whole ∧ whole ≤ UInt64.size / 2 then some (.integer (-whole))
    else (scale? whole wholeLeft).map (signed l.negative)
  | fraction, exponent =>
    let (significand, fractionLeft) := absorb whole (fraction.getD [])
    let shift : Int := (wholeLeft : Int) - (((fraction.getD []).length : Int) - fractionLeft)
    match exponent with
    | none => (scale? significand shift).map (signed l.negative)
    | some (down, digits) =>
      let e := digits.foldl (fun acc d => acc * 10 + d) 0
      -- Such an exponent decides alone, unless there is nothing to scale.
      if maxExponent < e then
        if significand = 0 ∨ down then some (signed l.negative 0) else none
      else (scale? significand (if down then shift - e else shift + e)).map (signed l.negative)

end SearchCompiler.Json
