import LiveDataflow.Yaml.Scalar

/-!
# Tokens of a YAML text

The tokens show what indentation and the order of signs tell: where blocks begin and end, and which
node is a key.  That a node is a key is seen only at the colon behind it, so the place of a node that
could be one is kept, and the key token, with the beginning of a mapping if need be, is put in there
when the colon comes.
-/

set_option autoImplicit false

namespace LiveDataflow.Yaml

inductive Token where
  | version (major minor : Nat)
  | shorthand (handle meaning : String)
  | documentStart
  | documentEnd
  | blockSequence
  | blockMapping
  | blockEnd
  | openSequence
  | closeSequence
  | openMapping
  | closeMapping
  | blockEntry
  | flowEntry
  | key
  | value
  | alias (name : String)
  | anchor (name : String)
  | tag (handle suffix : String)
  | scalar (style : Style) (text : String)
  deriving DecidableEq, Repr

namespace Token

/-! ## Directives, anchors and tags -/

/-- A number of at most nine digits. -/
def readVersionNumber (c : Cursor) : Option (Nat × Cursor) :=
  let (digits, c) := c.takeWhile Char.isDigit
  if digits = [] ∨ 9 < digits.length then none
  else (Text.number? 10 digits).map (·, c)

/-- A handle between exclamation marks, or a single mark.  In a directive nothing else is a handle. -/
def readHandle (inDirective : Bool) (c : Cursor) : Option (List Char × Cursor) :=
  if !c.starts '!' then none
  else
    let (word, c) := (c.skip 1).takeWhile isWord
    if c.starts '!' then some ('!' :: word ++ ['!'], c.skip 1)
    else if inDirective && word != [] then none
    else some ('!' :: word, c)

/-- How many bytes a character has whose first byte is given. -/
def encodedWidth? (first : Nat) : Option Nat :=
  if first < 0x80 then some 1
  else if 0xc0 ≤ first ∧ first < 0xe0 then some 2
  else if 0xe0 ≤ first ∧ first < 0xf0 then some 3
  else if 0xf0 ≤ first ∧ first < 0xf8 then some 4
  else none

/-- A byte written as a percent sign and two digits. -/
def readEscapedByte (c : Cursor) : Option (Nat × Cursor) :=
  match c.rest with
  | '%' :: a :: b :: _ => (Text.number? 16 [a, b]).map (·, c.skip 3)
  | _ => none

/-- The further bytes of a character. -/
def readEscapedTail : Nat → Nat → Cursor → Option (Nat × Cursor)
  | 0, n, c => some (n, c)
  | more + 1, n, c => do
    let (byte, c) ← readEscapedByte c
    if byte / 64 = 2 then readEscapedTail more (n * 64 + byte % 64) c else none

/-- A character written as its bytes. -/
def readEscapedChar (c : Cursor) : Option (Char × Cursor) := do
  let (first, c) ← readEscapedByte c
  let width ← encodedWidth? first
  let lead := if width = 1 then first else first % Nat.pow 2 (7 - width)
  let (n, c) ← readEscapedTail (width - 1) lead c
  return (← charOfCode? n, c)

/-- Characters of the name of a tag. -/
def isTagChar (isFull : Bool) (c : Char) : Bool :=
  isWord c || [';', '/', '?', ':', '@', '&', '=', '+', '$', '.', '!', '~', '*', '\'', '(', ')'].contains c ||
    (isFull && (c = ',' || c = '[' || c = ']'))

/-- The name of a tag, of which `isFull` tells whether it stands by itself. -/
def readTagName (isFull : Bool) : Nat → List Char → Cursor → Option (List Char × Cursor)
  | 0, text, c => some (text, c)
  | fuel + 1, text, c =>
    if c.starts '%' then do
      let (x, c) ← readEscapedChar c
      readTagName isFull fuel (text ++ [x]) c
    else
      match c.peek? with
      | some x =>
        if isTagChar isFull x then readTagName isFull fuel (text ++ [x]) (c.skip 1)
        else some (text, c)
      | none => some (text, c)

def readSomeTagName (isFull : Bool) (c : Cursor) : Option (List Char × Cursor) :=
  match readTagName isFull (c.rest.length + 1) [] c with
  | some ([], _) => none
  | found => found

/-- Whether a handle is written between two marks. -/
def isNamedHandle (handle : List Char) : Bool :=
  1 < handle.length && handle.getLast? = some '!'

/-- A tag from its exclamation mark on: in angle brackets as it is, behind a handle, or local. -/
def readTag (inFlow : Bool) (c : Cursor) : Option (Token × Cursor) := do
  let (handle, suffix, c) ←
    if c.test 1 (· = '<') then do
      let (name, c) ← readSomeTagName true (c.skip 2)
      if c.starts '>' then some ([], name, c.skip 1) else none
    else do
      let (handle, c) ← readHandle false c
      if isNamedHandle handle then
        let (name, c) ← readSomeTagName false c
        pure (handle, name, c)
      else
        let (name, c) ← readTagName false (c.rest.length + 1) (handle.drop 1) c
        if name = [] then pure ([], ['!'], c) else pure (['!'], name, c)
  if c.endsWord 0 || (inFlow && c.starts ',') then
    some (.tag (String.ofList handle) (String.ofList suffix), c)
  else none

/-- A directive from its percent sign to the end of the line. -/
def readDirective (c : Cursor) : Option (Token × Cursor) := do
  let (name, c) := (c.skip 1).takeWhile isWord
  if name = [] || !c.endsWord 0 then none
  else
    let (token, c) ←
      if name = "YAML".toList then do
        let (major, c) ← readVersionNumber (c.skipWhile isBlank)
        if !c.starts '.' then none
        else
          let (minor, c) ← readVersionNumber (c.skip 1)
          pure (.version major minor, c)
      else if name = "TAG".toList then do
        let (handle, c) ← readHandle true (c.skipWhile isBlank)
        if !c.test 0 isBlank then none
        else
          let (meaning, c) ← readSomeTagName true (c.skipWhile isBlank)
          if !c.endsWord 0 then none
          else pure (.shorthand (String.ofList handle) (String.ofList meaning), c)
      else none
    let c := (c.skipWhile isBlank).skipComment
    if c.endsLine then some (token, c.skipBreak) else none

/-- Whether the name of an anchor or an alias may end here. -/
def endsAnchor (c : Cursor) : Bool :=
  c.endsWord 0 || c.test 0 fun x => ['?', ':', ',', ']', '\x7d', '%', '@', '\x60'].contains x

/-- The name behind the sign of an anchor or an alias. -/
def readAnchorName (c : Cursor) : Option (String × Cursor) :=
  let (name, c) := (c.skip 1).takeWhile isWord
  if name = [] || !endsAnchor c then none else some (String.ofList name, c)

end Token

end LiveDataflow.Yaml
