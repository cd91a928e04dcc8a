/-!
# Shortest decimals

A finite double stands for every real number that rounds to it.  `shortest` finds the decimal with
the fewest digits among these, and of those with as few digits the nearest; a tie goes to the even
last digit.

A double is taken apart into `significand * 2 ^ exponent`, and everything after that is exact
arithmetic on natural numbers.
-/

set_option autoImplicit false

namespace LiveDataflow.Decimal

/-- A positive double: `significand * 2 ^ exponent`, where `lowest` tells that the double below it
is only half as far away as the one above. -/
structure Binary where
  significand : Nat
  exponent : Int
  lowest : Bool
  deriving DecidableEq, Repr

/-- Takes apart the bits of a double, its sign left out. -/
def Binary.ofBits (bits : UInt64) : Binary :=
  let fraction : Nat := bits.toNat % Nat.pow 2 52
  let field : Nat := bits.toNat / Nat.pow 2 52 % Nat.pow 2 11
  if field = 0 then ⟨fraction, -1074, false⟩
  else ⟨Nat.pow 2 52 + fraction, Int.ofNat field - 1075, fraction == 0 && decide (1 < field)⟩

/-- Natural powers: `base ^ exponent` for exponents of at least zero, and one below that. -/
def power (base : Nat) (exponent : Int) : Nat := base.pow exponent.toNat

/-- The multiple of `10 ^ place` nearest to the double, among the two beside it, that rounds to the
double; none if neither does.  All lengths are counted in quarters of the last binary place. -/
def Binary.nearestOn (b : Binary) (place : Int) : Option Nat :=
  let exponent := b.exponent - 2
  let scale := power 2 exponent * power 10 (-place)
  let unit := power 2 (-exponent) * power 10 place
  let value := 4 * b.significand * scale
  let low := (4 * b.significand - if b.lowest then 1 else 2) * scale
  let high := (4 * b.significand + 2) * scale
  let isInside (n : Nat) : Bool :=
    if b.significand % 2 = 0 then low ≤ n * unit ∧ n * unit ≤ high
    else low < n * unit ∧ n * unit < high
  let below := value / unit
  let above := below + 1
  let down := value - below * unit
  let up := above * unit - value
  match isInside below && below != 0, isInside above with
  | false, false => none
  | true, false => some below
  | false, true => some above
  | true, true =>
    if down < up then some below
    else if up < down then some above
    else if below % 2 = 0 then some below else some above

/-- Tries ever finer powers of ten. -/
def Binary.search (b : Binary) : Nat → Int → Nat × Int
  | 0, place => (0, place)
  | n + 1, place =>
    match b.nearestOn place with
    | some digits => (digits, place)
    | none => b.search n (place - 1)

/-- The shortest decimal `digits * 10 ^ place` of a positive finite double.  The search begins above
the leading digit and needs at most seventeen digits, so the steps suffice. -/
def shortest (bits : UInt64) : Nat × Int :=
  let b := Binary.ofBits bits
  let bound := (b.exponent + (Nat.log2 b.significand : Int) + 1) * 30103 / 100000 + 2
  b.search 32 bound

end LiveDataflow.Decimal
