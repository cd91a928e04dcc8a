import LiveDataflow.Json.Numeral

/-!
# JSON as it is written

A spelling is a JSON text taken apart by the grammar and no further: its numerals are digits, its
strings may hold escaped halves of characters, its objects may repeat a key.  `Spelling.value?`
gives the value of a spelling, if it has one.  The two are kept apart because a part of a text that
nobody asks for has to be well written but need not have a value.
-/

set_option autoImplicit false

namespace LiveDataflow.Json

/-- A piece of a written string: a character, or an escaped unit of sixteen bits. -/
inductive Piece where
  | char (c : Char)
  | unit (n : Nat)
  deriving DecidableEq, Repr

inductive Token where
  | openArray
  | closeArray
  | openObject
  | closeObject
  | comma
  | colon
  | null
  | bool (b : Bool)
  | number (n : Numeral)
  | string (s : List Piece)
  deriving DecidableEq, Repr

inductive Spelling where
  | null
  | bool (b : Bool)
  | number (n : Numeral)
  | string (s : List Piece)
  | array (items : List Spelling)
  | object (fields : List (List Piece × Spelling))
  deriving Repr, Inhabited

/-! ## Tokens -/

namespace Token

/-- The character that a backslash and a letter stand for. -/
def simpleEscape? : Char → Option Char
  | '"' => some '"'
  | '\\' => some '\\'
  | '/' => some '/'
  | 'b' => some (Char.ofNat 8)
  | 'f' => some (Char.ofNat 12)
  | 'n' => some '\n'
  | 'r' => some '\r'
  | 't' => some '\t'
  | _ => none

/-- The pieces of a string up to its closing quote, and what follows it. -/
def readString? : List Char → Option (List Piece × List Char)
  | [] => none
  | '"' :: rest => some ([], rest)
  | '\\' :: 'u' :: a :: b :: c :: d :: rest => do
    let n ← Text.number? 16 [a, b, c, d]
    let (pieces, rest) ← readString? rest
    return (.unit n :: pieces, rest)
  | '\\' :: c :: rest => do
    let e ← simpleEscape? c
    let (pieces, rest) ← readString? rest
    return (.char e :: pieces, rest)
  | c :: rest =>
    if c.toNat < 32 then none
    else (readString? rest).map fun (pieces, rest) => (.char c :: pieces, rest)

/-- The token that begins with the given character, and what follows it. -/
def read? (c : Char) (rest : List Char) : Option (Token × List Char) :=
  match c, rest with
  | '[', _ => some (.openArray, rest)
  | ']', _ => some (.closeArray, rest)
  | '\x7b', _ => some (.openObject, rest)
  | '\x7d', _ => some (.closeObject, rest)
  | ',', _ => some (.comma, rest)
  | ':', _ => some (.colon, rest)
  | '"', _ => (readString? rest).map fun (pieces, rest) => (.string pieces, rest)
  | 'n', 'u' :: 'l' :: 'l' :: rest => some (.null, rest)
  | 't', 'r' :: 'u' :: 'e' :: rest => some (.bool true, rest)
  | 'f', 'a' :: 'l' :: 's' :: 'e' :: rest => some (.bool false, rest)
  | c, _ => (Numeral.read? (c :: rest)).map fun (n, rest) => (.number n, rest)

def isBlank (c : Char) : Bool := c = ' ' || c = '\t' || c = '\n' || c = '\r'

/-- The tokens of a text that has at most `fuel` characters. -/
def scanWithin : Nat → List Char → Option (List Token)
  | _, [] => some []
  | 0, _ :: _ => none
  | fuel + 1, c :: rest =>
    if isBlank c then scanWithin fuel rest
    else do
      let (token, rest) ← read? c rest
      return token :: (← scanWithin fuel rest)

def scan? (cs : List Char) : Option (List Token) := scanWithin cs.length cs

end Token

/-! ## Grammar -/

namespace Spelling

mutual

/-- Reads one value from the front of the tokens. -/
def readValue : Nat → List Token → Option (Spelling × List Token)
  | 0, _ => none
  | _ + 1, [] => none
  | fuel + 1, token :: rest =>
    match token with
    | .null => some (.null, rest)
    | .bool b => some (.bool b, rest)
    | .number n => some (.number n, rest)
    | .string s => some (.string s, rest)
    | .openArray =>
      match rest with
      | .closeArray :: rest => some (.array [], rest)
      | _ => (readItems fuel rest).map fun (items, rest) => (.array items, rest)
    | .openObject =>
      match rest with
      | .closeObject :: rest => some (.object [], rest)
      | _ => (readFields fuel rest).map fun (fields, rest) => (.object fields, rest)
    | .closeArray | .closeObject | .comma | .colon => none

/-- Reads the items of an array up to its closing bracket. -/
def readItems : Nat → List Token → Option (List Spelling × List Token)
  | 0, _ => none
  | fuel + 1, tokens => do
    let (item, rest) ← readValue fuel tokens
    match rest with
    | .comma :: rest =>
      let (items, rest) ← readItems fuel rest
      return (item :: items, rest)
    | .closeArray :: rest => return ([item], rest)
    | _ => none

/-- Reads the fields of an object up to its closing brace. -/
def readFields : Nat → List Token → Option (List (List Piece × Spelling) × List Token)
  | 0, _ => none
  | fuel + 1, tokens => do
    let .string key :: .colon :: rest := tokens | none
    let (value, rest) ← readValue fuel rest
    match rest with
    | .comma :: rest =>
      let (fields, rest) ← readFields fuel rest
      return ((key, value) :: fields, rest)
    | .closeObject :: rest => return ([(key, value)], rest)
    | _ => none

end

/-- Reads a text that is one value and nothing else.  Every step of the reading takes a token or goes
one level down to one, so twice the number of tokens is enough. -/
def read? (text : String) : Option Spelling := do
  let tokens ← Token.scan? text.toList
  let (value, rest) ← readValue (2 * tokens.length + 1) tokens
  if rest = [] then some value else none

/-! ## Values -/

/-- Joins the two halves of a character beyond the first plane. -/
def joinHalves (high low : Nat) : Char :=
  Char.ofNat (0x10000 + (high - 0xd800) * 0x400 + (low - 0xdc00))

/-- The characters of a written string; none if it has half a character without the other. -/
def characters? : List Piece → Option (List Char)
  | [] => some []
  | .char c :: rest => (characters? rest).map (c :: ·)
  | .unit n :: rest =>
    if 0xd800 ≤ n ∧ n < 0xdc00 then
      match rest with
      | .unit m :: rest =>
        if 0xdc00 ≤ m ∧ m < 0xe000 then (characters? rest).map (joinHalves n m :: ·) else none
      | _ => none
    else if 0xdc00 ≤ n ∧ n < 0xe000 then none
    else (characters? rest).map (Char.ofNat n :: ·)

def string? (s : List Piece) : Option String := (characters? s).map String.ofList

/-- How many arrays and objects may stand inside each other. -/
def maxDepth : Nat := 127

mutual

/-- The value of a spelling with at most `depth` levels of arrays and objects.  A repeated key keeps
its first place and its last value. -/
def valueWithin : Spelling → Nat → Option Json
  | .null, _ => some .null
  | .bool b, _ => some (.bool b)
  | .number n, _ => n.number?.map .number
  | .string s, _ => (string? s).map .string
  | .array items, depth =>
    match depth with
    | 0 => none
    | depth + 1 => (itemsWithin items depth).map .array
  | .object fields, depth =>
    match depth with
    | 0 => none
    | depth + 1 =>
      (fieldsWithin fields depth).map fun fields =>
        .object (fields.foldl (fun acc (key, value) => Fields.put key value acc) [])
termination_by structural spelling => spelling

def itemsWithin : List Spelling → Nat → Option (List Json)
  | [], _ => some []
  | item :: rest, depth => do
    let value ← valueWithin item depth
    return value :: (← itemsWithin rest depth)
termination_by structural items => items

def fieldsWithin : List (List Piece × Spelling) → Nat → Option (List (String × Json))
  | [], _ => some []
  | field :: rest, depth => do
    let entry ← fieldWithin field depth
    return entry :: (← fieldsWithin rest depth)
termination_by structural fields => fields

def fieldWithin : List Piece × Spelling → Nat → Option (String × Json)
  | (key, value), depth => do return (← string? key, ← valueWithin value depth)
termination_by structural field => field

end

def value? (spelling : Spelling) : Option Json := spelling.valueWithin maxDepth

end Spelling

/-- The value of a JSON text. -/
def read? (text : String) : Option Json := (Spelling.read? text).bind Spelling.value?

end LiveDataflow.Json
