import LiveDataflow.Json
import LiveDataflow.Decimal.Shortest

/-!
# Compact JSON text

The text of a JSON value without any blanks.  Strings escape quotes, backslashes and controls and
nothing else; doubles have the fewest digits that read back.
-/

set_option autoImplicit false

namespace LiveDataflow.Json

/-! ## Numbers -/

/-- How the digits of a double are laid out: positionally for decimal exponents within the bounds. -/
structure DoubleFormat where
  leastPositional : Int
  greatestPositional : Int

/-- Doubles are written positionally from `0.00001` up to sixteen digits before the point. -/
def doubleFormat : DoubleFormat := ⟨-5, 15⟩

def zeros (n : Nat) : List Char := List.replicate n '0'

/-- The text of `digits * 10 ^ place`, always with a point or an exponent. -/
def layOut (format : DoubleFormat) (digits : Nat) (place : Int) : List Char :=
  let ds := Nat.toDigits 10 digits
  let exponent := place + ds.length - 1
  if format.leastPositional ≤ exponent ∧ exponent ≤ format.greatestPositional then
    if exponent < 0 then ['0', '.'] ++ zeros (exponent.natAbs - 1) ++ ds
    else if 0 ≤ place then ds ++ zeros place.toNat ++ ['.', '0']
    else ds.take (exponent.toNat + 1) ++ ['.'] ++ ds.drop (exponent.toNat + 1)
  else
    let sign := if exponent < 0 then '-' else '+'
    let tail := ds.drop 1
    ds.take 1 ++ (if tail = [] then [] else '.' :: tail) ++
      ['e', sign] ++ Nat.toDigits 10 exponent.natAbs

/-- The text of a finite double. -/
def doubleText (bits : UInt64) : List Char :=
  let magnitude := bits.toNat % Nat.pow 2 63
  let text :=
    if magnitude = 0 then ['0', '.', '0']
    else
      let (digits, place) := Decimal.shortest (UInt64.ofNat magnitude)
      layOut doubleFormat digits place
  if bits.toNat < Nat.pow 2 63 then text else '-' :: text

def Number.text : Number → String
  | .integer i => toString i
  | .double bits => String.ofList (doubleText bits)

/-! ## Strings -/

def hexDigit (n : Nat) : Char := (Nat.digitChar n)

/-- One character as it stands between quotes. -/
def escapeChar (c : Char) : List Char :=
  if c = '"' then ['\\', '"']
  else if c = '\\' then ['\\', '\\']
  else if c.toNat = 8 then ['\\', 'b']
  else if c.toNat = 12 then ['\\', 'f']
  else if c = '\n' then ['\\', 'n']
  else if c = '\r' then ['\\', 'r']
  else if c = '\t' then ['\\', 't']
  else if c.toNat < 32 then
    ['\\', 'u', '0', '0', hexDigit (c.toNat / 16), hexDigit (c.toNat % 16)]
  else [c]

def stringText (s : String) : String :=
  String.ofList ('"' :: s.toList.flatMap escapeChar ++ ['"'])

/-! ## Values -/

mutual

def text : Json → String
  | .null => "null"
  | .bool b => if b then "true" else "false"
  | .number n => n.text
  | .string s => stringText s
  | .array items => "[" ++ ",".intercalate (itemTexts items) ++ "]"
  | .object fields => "\x7b" ++ ",".intercalate (fieldTexts fields) ++ "\x7d"
termination_by structural value => value

def itemTexts : List Json → List String
  | [] => []
  | item :: rest => item.text :: itemTexts rest
termination_by structural items => items

def fieldTexts : List (String × Json) → List String
  | [] => []
  | field :: rest => fieldText field :: fieldTexts rest
termination_by structural fields => fields

def fieldText : String × Json → String
  | (key, value) => stringText key ++ ":" ++ value.text
termination_by structural field => field

end

end LiveDataflow.Json
