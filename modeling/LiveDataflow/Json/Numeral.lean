import LiveDataflow.Json
import LiveDataflow.Text.Digit

/-!
# Numerals

A numeral is a JSON number as it is written.  One without fraction and exponent is an integer if it
fits sixty-four bits, unsigned, or signed below zero.  All others become doubles: the digits that
fit sixty-four bits unsigned are the significand, later digits are dropped, and the significand is
scaled by a power of ten in one step of floating-point arithmetic.
-/

set_option autoImplicit false

namespace LiveDataflow.Json

structure Numeral where
  negative : Bool
  whole : List Nat
  fraction : List Nat
  /-- Whether the exponent is negative, and its digits. -/
  exponent : Option (Bool × List Nat)
  deriving DecidableEq, Repr

/-- The largest unsigned number of sixty-four bits. -/
def maxWord : Nat := UInt64.size - 1

/-- The least signed number of sixty-four bits. -/
def minSigned : Int := Int64.minValue.toInt

/-- The largest exponent that is taken into account digit by digit. -/
def maxExponent : Nat := Nat.pow 2 31 - 1

/-- Appends digits to a number while it stays within `limit`; also the digits left over. -/
def accumulate (limit : Nat) (n : Nat) : List Nat → Nat × List Nat
  | [] => (n, [])
  | d :: ds => if limit < n * 10 + d then (n, d :: ds) else accumulate limit (n * 10 + d) ds

/-- The double nearest to a power of ten. -/
def tenTo (n : Nat) : Float := Float.ofScientific 1 false n

/-- The largest power of ten that a double can hold. -/
def maxTenTo : Nat := 308

/-- Divides by a power of ten, in steps that a double can hold. -/
def scaleDown (f : Float) (n : Nat) : Float :=
  if n ≤ maxTenTo then f / tenTo n
  else if f == 0.0 then f
  else scaleDown (f / tenTo maxTenTo) (n - maxTenTo)
termination_by n
decreasing_by simp only [maxTenTo] at *; omega

/-- The double for `significand * 10 ^ exponent`; none if it is too large. -/
def scale (significand : Nat) (exponent : Int) : Option Float :=
  let f := significand.toUInt64.toFloat
  if exponent < 0 then some (scaleDown f exponent.natAbs)
  else if exponent ≤ maxTenTo then
    let g := f * tenTo exponent.toNat
    if g.isInf then none else some g
  else if f == 0.0 then some f else none

namespace Numeral

/-- The double of a numeral; none if it is too large. -/
def double? (n : Numeral) : Option Float :=
  let (significand, dropped) := accumulate maxWord 0 n.whole
  let (significand, ignored) := accumulate maxWord significand n.fraction
  let shift : Int := dropped.length - (n.fraction.length - ignored.length : Nat)
  let magnitude :=
    match n.exponent with
    | none => scale significand shift
    | some (down, digits) =>
      match accumulate maxExponent 0 digits with
      | (e, []) => scale significand (if down then shift - e else shift + e)
      | (_, _ :: _) => if significand ≠ 0 ∧ ¬ down then none else some 0.0
  magnitude.map fun f => if n.negative then -f else f

/-- The number of a numeral; none if it is too large for a double.  Minus zero is a double. -/
def number? (n : Numeral) : Option Number :=
  let asDouble := n.double?.map fun f => Number.double f.toBits
  match n.fraction, n.exponent, accumulate maxWord 0 n.whole with
  | [], none, (m, []) =>
    if n.negative then
      if m ≠ 0 ∧ minSigned ≤ -(m : Int) then some (.integer (-(m : Int))) else asDouble
    else some (.integer m)
  | _, _, _ => asDouble

/-- The digits at the beginning of a text, and what follows them. -/
def readDigits (cs : List Char) : List Nat × List Char :=
  ((cs.takeWhile Char.isDigit).filterMap (Text.digit? 10), cs.dropWhile Char.isDigit)

/-- Digits, of which there is at least one. -/
def readSomeDigits? (cs : List Char) : Option (List Nat × List Char) :=
  match readDigits cs with
  | ([], _) => none
  | found => some found

/-- The digits before the point, without a leading zero. -/
def readWhole? (cs : List Char) : Option (List Nat × List Char) :=
  match readDigits cs with
  | ([], _) => none
  | (0 :: _ :: _, _) => none
  | found => some found

def readFraction? : List Char → Option (List Nat × List Char)
  | '.' :: cs => readSomeDigits? cs
  | cs => some ([], cs)

def readExponent? : List Char → Option (Option (Bool × List Nat) × List Char)
  | 'e' :: cs | 'E' :: cs =>
    let (down, cs) :=
      match cs with
      | '+' :: cs => (false, cs)
      | '-' :: cs => (true, cs)
      | cs => (false, cs)
    (readSomeDigits? cs).map fun (digits, cs) => (some (down, digits), cs)
  | cs => some (none, cs)

/-- Reads the numeral at the beginning of a text. -/
def read? (cs : List Char) : Option (Numeral × List Char) := do
  let (negative, cs) :=
    match cs with
    | '-' :: cs => (true, cs)
    | cs => (false, cs)
  let (whole, cs) ← readWhole? cs
  let (fraction, cs) ← readFraction? cs
  let (exponent, cs) ← readExponent? cs
  return (⟨negative, whole, fraction, exponent⟩, cs)

end Numeral

end LiveDataflow.Json
