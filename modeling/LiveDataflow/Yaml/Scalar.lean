import LiveDataflow.Text.Digit
import LiveDataflow.Yaml.Cursor

/-!
# Scalars of a YAML text

A scalar is written plain, between single or double quotes, or as a block after a bar or an angle
bracket.  Inside all but the literal block, a line break between words counts as a blank and further
breaks count as themselves.  Each reader begins at the first character of the scalar and gives its
text and the place after it, or nothing if the scalar is not well written.
-/

set_option autoImplicit false

namespace LiveDataflow.Yaml

inductive Style where
  | plain
  | singleQuoted
  | doubleQuoted
  | literal
  | folded
  deriving DecidableEq, Repr

/-! ## The space between words -/

/-- What stands between two words of a scalar. -/
structure Gap where
  blanks : List Char
  isBroken : Bool
  firstBreak : List Char
  laterBreaks : List Char

namespace Gap

def none : Gap := ⟨[], false, [], []⟩

/-- How the gap counts: blanks as they are, one line break as a blank, more of them without the
first. -/
def text (g : Gap) : List Char :=
  if g.isBroken then
    if g.firstBreak = ['\n'] then if g.laterBreaks = [] then [' '] else g.laterBreaks
    else g.firstBreak ++ g.laterBreaks
  else g.blanks

/-- Goes past blanks and line breaks.  A tab in the indentation, which is what comes before column
`indent` on a later line, is an error. -/
def read (indent : Nat) : Nat → Gap → Cursor → Option (Gap × Cursor)
  | 0, g, c => some (g, c)
  | fuel + 1, g, c =>
    match c.peek? with
    | .none => some (g, c)
    | some x =>
      if isBlank x then
        if g.isBroken then
          if x = '\t' ∧ c.column < indent then .none else read indent fuel g (c.skip 1)
        else read indent fuel { g with blanks := g.blanks ++ [x] } (c.skip 1)
      else if isBreak x then
        let (kept, c) := c.takeBreak
        if g.isBroken then read indent fuel { g with laterBreaks := g.laterBreaks ++ kept } c
        else read indent fuel ⟨[], true, kept, g.laterBreaks⟩ c
      else some (g, c)

end Gap

/-! ## Plain scalars -/

def isFlowIndicator (c : Char) : Bool := c = ',' || c = '[' || c = ']' || c = '\x7b' || c = '\x7d'

/-- The characters of one word of a plain scalar.  Inside brackets a colon may not be followed by an
indicator. -/
def plainWord (inFlow : Bool) : List Char → Option (List Char)
  | [] => some []
  | x :: rest =>
    if isBlank x || isBreak x then some []
    else if x = ':' && inFlow && rest.head?.any (fun y => isFlowIndicator y || y = '?') then none
    else if x = ':' && rest.head?.all (fun y => isBlank y || isBreak y) then some []
    else if inFlow && isFlowIndicator x then some []
    else (plainWord inFlow rest).map (x :: ·)

/-- A plain scalar as far as it is read: its text, whether a line break came last, and the place. -/
structure PlainRun where
  text : List Char
  endsBroken : Bool
  cursor : Cursor

/-- Reads words and the gaps between them.  The scalar ends before a comment, a document marker, and
outside brackets a line that is indented by less than `indent`. -/
def readPlain (inFlow : Bool) (indent : Nat) : Nat → PlainRun → Gap → Option PlainRun
  | 0, run, _ => some run
  | fuel + 1, run, gap => do
    let c := run.cursor
    if c.isDocumentMarker || c.starts '#' then return run
    let word ← plainWord inFlow c.rest
    let run : PlainRun :=
      if word = [] then run else ⟨run.text ++ gap.text ++ word, false, c.skip word.length⟩
    if !(run.cursor.test 0 fun x => isBlank x || isBreak x) then return run
    let gap := if word = [] then gap else Gap.none
    let (gap, c) ← gap.read indent (run.cursor.rest.length + 1) run.cursor
    let run := { run with endsBroken := gap.isBroken, cursor := c }
    if !inFlow && c.column < indent then return run
    readPlain inFlow indent fuel run gap

/-! ## Quoted scalars -/

/-- The character that a backslash and a letter stand for. -/
def simpleEscape? : Char → Option Char
  | '0' => some (Char.ofNat 0)
  | 'a' => some (Char.ofNat 7)
  | 'b' => some (Char.ofNat 8)
  | 't' | '\t' => some '\t'
  | 'n' => some '\n'
  | 'v' => some (Char.ofNat 11)
  | 'f' => some (Char.ofNat 12)
  | 'r' => some '\r'
  | 'e' => some (Char.ofNat 27)
  | ' ' => some ' '
  | '"' => some '"'
  | '/' => some '/'
  | '\\' => some '\\'
  | 'N' => some (Char.ofNat 0x85)
  | '_' => some (Char.ofNat 0xa0)
  | 'L' => some (Char.ofNat 0x2028)
  | 'P' => some (Char.ofNat 0x2029)
  | _ => none

/-- How many hexadecimal digits follow a backslash and a letter. -/
def escapeWidth? : Char → Option Nat
  | 'x' => some 2
  | 'u' => some 4
  | 'U' => some 8
  | _ => none

/-- The character with a code point, unless that is half of a character or none at all. -/
def charOfCode? (n : Nat) : Option Char := if n.isValidChar then some (Char.ofNat n) else none

/-- The character that an escape stands for, and how long the escape is. -/
def escape? : List Char → Option (Char × Nat)
  | x :: rest =>
    match escapeWidth? x with
    | some width =>
      if rest.length < width then none
      else do
        let n ← Text.number? 16 (rest.take width)
        return (← charOfCode? n, width + 2)
    | none => (simpleEscape? x).map (·, 2)
  | [] => none

/-- Reads one word between quotes; also whether it ends in an escaped line break. -/
def readQuotedWord (isDouble : Bool) : Nat → List Char → Cursor → Option (List Char × Bool × Cursor)
  | 0, word, c => some (word, false, c)
  | fuel + 1, word, c =>
    match c.rest with
    | [] => some (word, false, c)
    | x :: rest =>
      if isBlank x || isBreak x then some (word, false, c)
      else if !isDouble && x = '\'' then
        if rest.head? = some '\'' then readQuotedWord isDouble fuel (word ++ ['\'']) (c.skip 2)
        else some (word, false, c)
      else if isDouble && x = '"' then some (word, false, c)
      else if isDouble && x = '\\' then
        if rest.head?.any isBreak then some (word, true, (c.skip 1).skipBreak)
        else do
          let (char, width) ← escape? rest
          readQuotedWord isDouble fuel (word ++ [char]) (c.skip width)
      else readQuotedWord isDouble fuel (word ++ [x]) (c.skip 1)

/-- Reads words and gaps up to the closing quote.  No document marker may stand inside. -/
def readQuoted (isDouble : Bool) : Nat → List Char → Cursor → Option (List Char × Cursor)
  | 0, _, _ => none
  | fuel + 1, text, c => do
    if c.isDocumentMarker || c.rest = [] then none
    else
      let (word, isBroken, c) ← readQuotedWord isDouble (c.rest.length + 1) [] c
      let text := text ++ word
      if c.starts (if isDouble then '"' else '\'') then return (text, c.skip 1)
      let gap : Gap := { Gap.none with isBroken := isBroken }
      let (gap, c) ← gap.read 0 (c.rest.length + 1) c
      readQuoted isDouble fuel (text ++ gap.text) c

/-! ## Block scalars -/

/-- What happens to the line breaks at the end of a block. -/
inductive Chomping where
  | strip
  | clip
  | keep
  deriving DecidableEq, Repr

/-- Reads the sign and the digit that may follow the indicator of a block, in any order. -/
def readBlockHeader (c : Cursor) : Option (Chomping × Option Nat × Cursor) :=
  let chomping? (c : Cursor) : Option Chomping :=
    if c.starts '+' then some .keep else if c.starts '-' then some .strip else none
  let digit? (c : Cursor) : Option Nat :=
    c.peek?.bind (Text.digit? 10)
  match chomping? c with
  | some chomping =>
    let c := c.skip 1
    match digit? c with
    | some 0 => none
    | some n => some (chomping, some n, c.skip 1)
    | none => some (chomping, none, c)
  | none =>
    match digit? c with
    | some 0 => none
    | some n =>
      let c := c.skip 1
      match chomping? c with
      | some chomping => some (chomping, some n, c.skip 1)
      | none => some (.clip, some n, c)
    | none => some (.clip, none, c)

/-- Goes past empty lines and indentation; also the line breaks and the deepest column seen.  Without
an indentation, blanks are indentation as far as they go. -/
def readBlockBreaks (indent : Option Nat) :
    Nat → List Char → Nat → Cursor → Option (List Char × Nat × Cursor)
  | 0, breaks, deepest, c => some (breaks, deepest, c)
  | fuel + 1, breaks, deepest, c =>
    let width := (c.rest.takeWhile (· = ' ')).length
    let c := c.skip (match indent with | none => width | some n => min width (n - c.column))
    let deepest := max deepest c.column
    if c.starts '\t' && indent.all (c.column < ·) then none
    else if c.test 0 isBreak then
      let (kept, c) := c.takeBreak
      readBlockBreaks indent fuel (breaks ++ kept) deepest c
    else some (breaks, deepest, c)

/-- A block as far as it is read: its text, the break after the last line and those of the empty lines
behind it, and whether the last line began with a blank. -/
structure BlockRun where
  text : List Char
  lastBreak : List Char
  emptyLines : List Char
  wasBlank : Bool
  cursor : Cursor

/-- Reads the lines of a block that are indented by `indent`. -/
def readBlockLines (isLiteral : Bool) (indent : Nat) : Nat → BlockRun → Option BlockRun
  | 0, run => some run
  | fuel + 1, run =>
    let c := run.cursor
    if c.column ≠ indent ∨ c.rest = [] then some run
    else do
      let isBlankLine := c.test 0 isBlank
      let joined :=
        if !isLiteral && run.lastBreak = ['\n'] && !run.wasBlank && !isBlankLine then
          if run.emptyLines = [] then [' '] else []
        else run.lastBreak
      let (line, c) := c.takeWhile fun x => !isBreak x
      let (lastBreak, c) := c.takeBreak
      let (emptyLines, _, c) ← readBlockBreaks (some indent) (c.rest.length + 1) [] 0 c
      readBlockLines isLiteral indent fuel
        ⟨run.text ++ joined ++ run.emptyLines ++ line, lastBreak, emptyLines, isBlankLine, c⟩

/-- Reads a block from its indicator on, inside a block that is indented by `outer`. -/
def readBlock (isLiteral : Bool) (outer : Int) (c : Cursor) : Option (List Char × Cursor) := do
  let (chomping, increment, c) ← readBlockHeader (c.skip 1)
  let c := (c.skipWhile isBlank).skipComment
  if !c.endsLine then none
  else
    let c := c.skipBreak
    let given := increment.map fun n => (max outer 0).toNat + n
    let (emptyLines, deepest, c) ← readBlockBreaks given (c.rest.length + 1) [] 0 c
    let indent := given.getD (max deepest (max (outer + 1) 1).toNat)
    let run ← readBlockLines isLiteral indent (c.rest.length + 1) ⟨[], [], emptyLines, false, c⟩
    let ending :=
      match chomping with
      | .strip => []
      | .clip => run.lastBreak
      | .keep => run.lastBreak ++ run.emptyLines
    return (run.text ++ ending, run.cursor)

end LiveDataflow.Yaml
