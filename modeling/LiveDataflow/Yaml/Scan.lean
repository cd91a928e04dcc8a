import LiveDataflow.Yaml.Token

/-!
# From text to tokens

The scan keeps the columns of the blocks that are open, the depth of brackets, and for each depth the
node that might turn out to be a key.
-/

set_option autoImplicit false

namespace LiveDataflow.Yaml

/-- A node that is a key if a colon follows it.  It has to be one if it begins a line of its block. -/
structure PendingKey where
  isRequired : Bool
  /-- How many tokens come before the node. -/
  position : Nat
  index : Nat
  line : Nat
  column : Nat

structure Scanner where
  cursor : Cursor
  /-- The column of the innermost block, below zero outside all blocks. -/
  indent : Int
  /-- The columns of the blocks around it. -/
  outer : List Int
  /-- For each open bracket, innermost first, the node that might be a key. -/
  inner : List (Option PendingKey)
  /-- The same outside all brackets. -/
  pending : Option PendingKey
  /-- Whether a node that begins here might be a key. -/
  keyAllowed : Bool
  tokens : Array Token

/-- A step of the scan; none if the text is not well written. -/
abbrev Scan := StateT Scanner Option

namespace Scan

/-! ## Brackets and pending keys -/

def inFlow (s : Scanner) : Bool := !s.inner.isEmpty

/-- The node that might be a key at the current depth. -/
def currentKey (s : Scanner) : Option PendingKey :=
  match s.inner with
  | [] => s.pending
  | key :: _ => key

def setKey (key : Option PendingKey) (s : Scanner) : Scanner :=
  match s.inner with
  | [] => { s with pending := key }
  | _ :: rest => { s with inner := key :: rest }

/-- Goes past `n` characters and adds a token for them. -/
def emitPast (n : Nat) (t : Token) : Scan Unit :=
  modify fun s => { s with cursor := s.cursor.skip n, tokens := s.tokens.push t }

def allowKey (allowed : Bool) : Scan Unit := modify fun s => { s with keyAllowed := allowed }

/-- Gives up the node that might have been a key; one that had to be is an error. -/
def dropKey : Scan Unit := do
  let s ← get
  if (currentKey s).any (·.isRequired) then failure
  set (setKey none s)

/-- Keeps the node that begins here, if it might be a key. -/
def saveKey : Scan Unit := do
  if (← get).keyAllowed then
    dropKey
    let s ← get
    let c := s.cursor
    set (setKey (some ⟨!inFlow s && s.indent = c.column, s.tokens.size, c.index, c.line, c.column⟩) s)

/-- How many characters a key may have. -/
def maxKeyLength : Nat := 1024

/-- Whether a colon here may still make the node a key: on the same line and not too far. -/
def isInReach (key : PendingKey) (c : Cursor) : Bool :=
  c.line ≤ key.line && c.index ≤ key.index + maxKeyLength

/-! ## Blocks -/

/-- Puts a token in before the one with the given number. -/
def insertAt (position : Nat) (t : Token) : Scan Unit :=
  modify fun s => { s with
    tokens := (s.tokens.extract 0 position).push t ++ s.tokens.extract position s.tokens.size }

/-- Opens a block at a column that is deeper than the one that is open. -/
def openBlock (column : Nat) (position : Nat) (t : Token) : Scan Unit := do
  let s ← get
  if !inFlow s && s.indent < column then
    set { s with indent := (column : Int), outer := s.indent :: s.outer }
    insertAt position t

/-- Closes the blocks that are deeper than a column. -/
def closeDeeper (column : Int) : List Int → Int → Array Token → Int × List Int × Array Token
  | [], indent, tokens => (indent, [], tokens)
  | next :: rest, indent, tokens =>
    if column < indent then closeDeeper column rest next (tokens.push .blockEnd)
    else (indent, next :: rest, tokens)

def closeBlocks (column : Int) : Scan Unit :=
  modify fun s =>
    if inFlow s then s
    else
      let (indent, outer, tokens) := closeDeeper column s.outer s.indent s.tokens
      { s with indent := indent, outer := outer, tokens := tokens }

/-! ## Signs -/

def scanDirective : Scan Unit := do
  closeBlocks (-1)
  dropKey
  allowKey false
  let (t, c) ← Token.readDirective (← get).cursor
  modify fun s => { s with cursor := c, tokens := s.tokens.push t }

def scanDocumentMarker (t : Token) : Scan Unit := do
  closeBlocks (-1)
  dropKey
  allowKey false
  emitPast 3 t

def scanOpen (t : Token) : Scan Unit := do
  saveKey
  modify fun s => { s with inner := none :: s.inner }
  allowKey true
  emitPast 1 t

def scanClose (t : Token) : Scan Unit := do
  dropKey
  modify fun s => { s with inner := s.inner.tail }
  allowKey false
  emitPast 1 t

def scanFlowEntry : Scan Unit := do
  dropKey
  allowKey true
  emitPast 1 .flowEntry

/-- A sign that begins an entry outside brackets is possible only where a key is. -/
def startEntry (t : Token) : Scan Unit := do
  let s ← get
  if !inFlow s then
    if !s.keyAllowed then failure
    openBlock s.cursor.column s.tokens.size t

def scanBlockEntry : Scan Unit := do
  startEntry .blockSequence
  dropKey
  allowKey true
  emitPast 1 .blockEntry

def scanKey : Scan Unit := do
  startEntry .blockMapping
  dropKey
  allowKey (!inFlow (← get))
  emitPast 1 .key

/-- A colon makes the pending node a key, or begins the value of an entry without a key. -/
def scanValue : Scan Unit := do
  let s ← get
  match (currentKey s).filter (isInReach · s.cursor) with
  | some key =>
    insertAt key.position .key
    openBlock key.column key.position .blockMapping
    modify (setKey none)
    allowKey false
  | none =>
    if (currentKey s).any (·.isRequired) then failure
    startEntry .blockMapping
    allowKey (!inFlow s)
  emitPast 1 .value

/-- A sign with a name, or a tag, in front of a node. -/
def scanProperty (read : Cursor → Option (Token × Cursor)) : Scan Unit := do
  saveKey
  allowKey false
  let (t, c) ← read (← get).cursor
  modify fun s => { s with cursor := c, tokens := s.tokens.push t }

/-! ## Scalars -/

def scanBlockScalar (style : Style) : Scan Unit := do
  dropKey
  allowKey true
  let s ← get
  let (text, c) ← readBlock (style = .literal) s.indent s.cursor
  set { s with cursor := c, tokens := s.tokens.push (.scalar style (String.ofList text)) }

def scanQuoted (style : Style) : Scan Unit := do
  saveKey
  allowKey false
  let s ← get
  let c := s.cursor
  let (text, c) ← readQuoted (style = .doubleQuoted) (c.rest.length + 1) [] (c.skip 1)
  set { s with cursor := c, tokens := s.tokens.push (.scalar style (String.ofList text)) }

def scanPlain : Scan Unit := do
  saveKey
  allowKey false
  let s ← get
  let c := s.cursor
  let run ← readPlain (inFlow s) (s.indent + 1).toNat (c.rest.length + 1) ⟨[], false, c⟩ Gap.none
  set { s with
    cursor := run.cursor
    keyAllowed := s.keyAllowed || run.endsBroken
    tokens := s.tokens.push (.scalar .plain (String.ofList run.text)) }

/-! ## The whole text -/

/-- Goes past blanks, comments and line breaks.  A tab counts as a blank only where no key may begin.
After a line break outside brackets a key may begin. -/
def skipSpace : Nat → Scanner → Scanner
  | 0, s => s
  | fuel + 1, s =>
    let c := if s.cursor.index = 0 && s.cursor.starts byteOrderMark then s.cursor.skip 1 else s.cursor
    let c := c.skipWhile fun x => x = ' ' || (x = '\t' && (inFlow s || !s.keyAllowed))
    let c := c.skipComment
    if c.test 0 isBreak then
      skipSpace fuel { s with cursor := c.skipBreak, keyAllowed := s.keyAllowed || !inFlow s }
    else { s with cursor := c }

/-- Signs that cannot begin a plain scalar. -/
def isSign (c : Char) : Bool :=
  ['-', '?', ':', ',', '[', ']', '\x7b', '\x7d', '#', '&', '*', '!', '|', '>', '\'', '"', '%', '@',
    '\x60'].contains c

/-- Whether a plain scalar begins here: with no sign, or with a sign that a word follows. -/
def startsPlain (s : Scanner) : Bool :=
  let c := s.cursor
  c.test 0 (fun x => !(isBlank x || isBreak x || isSign x)) ||
    (c.starts '-' && !c.test 1 isBlank) ||
    (!inFlow s && (c.starts '?' || c.starts ':') && !c.endsWord 1)

/-- Scans the tokens that begin with the given character. -/
def scanNext (x : Char) : Scan Unit := do
  let s ← get
  let c := s.cursor
  closeBlocks c.column
  if c.column = 0 && x = '%' then scanDirective
  else if c.isMarker '-' then scanDocumentMarker .documentStart
  else if c.isMarker '.' then scanDocumentMarker .documentEnd
  else if x = '[' then scanOpen .openSequence
  else if x = '\x7b' then scanOpen .openMapping
  else if x = ']' then scanClose .closeSequence
  else if x = '\x7d' then scanClose .closeMapping
  else if x = ',' then scanFlowEntry
  else if x = '-' && c.endsWord 1 then scanBlockEntry
  else if x = '?' && (inFlow s || c.endsWord 1) then scanKey
  else if x = ':' && (inFlow s || c.endsWord 1) then scanValue
  else if x = '*' then
    scanProperty fun c => (Token.readAnchorName c).map fun (name, c) => (.alias name, c)
  else if x = '&' then
    scanProperty fun c => (Token.readAnchorName c).map fun (name, c) => (.anchor name, c)
  else if x = '!' then scanProperty (Token.readTag (inFlow s))
  else if x = '|' && !inFlow s then scanBlockScalar .literal
  else if x = '>' && !inFlow s then scanBlockScalar .folded
  else if x = '\'' then scanQuoted .singleQuoted
  else if x = '"' then scanQuoted .doubleQuoted
  else if startsPlain s then scanPlain
  else failure

/-- Scans to the end of the text, where all blocks close. -/
def scanAll : Nat → Scan Unit
  | 0 => failure
  | fuel + 1 => do
    modify fun s => skipSpace (s.cursor.rest.length + 1) s
    match (← get).cursor.peek? with
    | some x =>
      scanNext x
      scanAll fuel
    | none =>
      closeBlocks (-1)
      dropKey

end Scan

/-- The tokens of a text. -/
def Token.scan? (text : String) : Option (List Token) :=
  let chars := text.toList
  if !chars.all isAllowed then none
  else
    let start : Scanner := ⟨.start chars, -1, [], [], none, true, #[]⟩
    ((Scan.scanAll (chars.length + 1)).run start).map fun (_, s) => s.tokens.toList

end LiveDataflow.Yaml
