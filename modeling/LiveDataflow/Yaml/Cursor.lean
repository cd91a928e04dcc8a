/-!
# A place in a YAML text

A cursor holds the text from some place on, and where that place is: how many characters come before
it, on which line it is and in which column.  Indentation and the reach of a key are told from these.
-/

set_option autoImplicit false

namespace LiveDataflow.Yaml

/-! ## Classes of characters -/

/-- Space and tab. -/
def isBlank (c : Char) : Bool := c = ' ' || c = '\t'

/-- The characters that end a line. -/
def isBreak (c : Char) : Bool :=
  c = '\n' || c = '\r' || c.toNat = 0x85 || c.toNat = 0x2028 || c.toNat = 0x2029

/-- Characters of anchors, handles and directive names. -/
def isWord (c : Char) : Bool := c.isAlphanum || c = '_' || c = '-'

/-- Characters that a text may hold. -/
def isAllowed (c : Char) : Bool :=
  let n := c.toNat
  n = 9 || n = 10 || n = 13 || (0x20 ≤ n && n ≤ 0x7e) || n = 0x85 || (0xa0 ≤ n && n ≤ 0xd7ff) ||
    (0xe000 ≤ n && n ≤ 0xfffd) || 0x10000 ≤ n

/-- The mark that may stand before the first character of a text. -/
def byteOrderMark : Char := '\ufeff'

structure Cursor where
  rest : List Char
  index : Nat
  line : Nat
  column : Nat

namespace Cursor

def start (text : List Char) : Cursor := ⟨text, 0, 0, 0⟩

def peek? (c : Cursor) : Option Char := c.rest.head?

/-- Whether the character `n` places ahead passes the test; the end of the text does not. -/
def test (c : Cursor) (n : Nat) (p : Char → Bool) : Bool := (c.rest[n]?).any p

def starts (c : Cursor) (char : Char) : Bool := c.test 0 (· = char)

/-- Whether a blank, a line break or the end of the text is `n` places ahead. -/
def endsWord (c : Cursor) (n : Nat) : Bool := (c.rest[n]?).all fun x => isBlank x || isBreak x

/-- Whether a line break or the end of the text is here. -/
def endsLine (c : Cursor) : Bool := c.peek?.all isBreak

/-- Goes past `n` characters of a line. -/
def skip (c : Cursor) (n : Nat) : Cursor :=
  { c with rest := c.rest.drop n, index := c.index + n, column := c.column + n }

/-- Goes past the characters of a line that pass the test; also these characters. -/
def takeWhile (c : Cursor) (p : Char → Bool) : List Char × Cursor :=
  let taken := c.rest.takeWhile p
  (taken, c.skip taken.length)

def skipWhile (c : Cursor) (p : Char → Bool) : Cursor := (c.takeWhile p).2

/-- Goes past a line break, if one is here; also the break as it counts in a scalar. -/
def takeBreak (c : Cursor) : List Char × Cursor :=
  match c.rest with
  | '\r' :: '\n' :: rest => (['\n'], ⟨rest, c.index + 2, c.line + 1, 0⟩)
  | x :: rest =>
    if isBreak x then
      let kept := if x.toNat = 0x2028 || x.toNat = 0x2029 then x else '\n'
      ([kept], ⟨rest, c.index + 1, c.line + 1, 0⟩)
    else ([], c)
  | [] => ([], c)

def skipBreak (c : Cursor) : Cursor := c.takeBreak.2

/-- Goes to the end of the line if a comment begins here. -/
def skipComment (c : Cursor) : Cursor :=
  if c.starts '#' then c.skipWhile fun x => !isBreak x else c

/-- Whether three of the character stand alone at the beginning of a line. -/
def isMarker (c : Cursor) (char : Char) : Bool :=
  c.column = 0 && c.test 0 (· = char) && c.test 1 (· = char) && c.test 2 (· = char) && c.endsWord 3

/-- Whether a document begins or ends here. -/
def isDocumentMarker (c : Cursor) : Bool := c.isMarker '-' || c.isMarker '.'

end Cursor

end LiveDataflow.Yaml
