import LiveDataflow.Yaml.Scan

/-!
# YAML documents

A document is empty or has a root node: a scalar, a sequence, a mapping, or an alias for a node that
an anchor names.  Anchors are numbered by how many different names came before them, so an anchor
whose name is used again takes the next number, and may share it with the next new name; an alias
stands for the last node that was given its number.
-/

set_option autoImplicit false

namespace LiveDataflow.Yaml

structure Scalar where
  style : Style
  tag : Option String
  text : String
  deriving DecidableEq, Repr

/-- The scalar where nothing is written. -/
def Scalar.missing (tag : Option String) : Scalar := ⟨.plain, tag, ""⟩

inductive Node where
  | scalar (s : Scalar)
  | alias (number : Nat)
  | sequence (items : List Node)
  | mapping (entries : List (Node × Node))
  deriving Repr, Inhabited

/-- The names of anchors with their numbers, and for each number the scalars and collections that
were given it, the last one first.  A collection is only known to be one. -/
structure Anchors where
  numbers : List (String × Nat)
  nodes : List (Nat × Option Scalar)
  deriving Repr

namespace Anchors

def empty : Anchors := ⟨[], []⟩

def number? (a : Anchors) (name : String) : Option Nat := a.numbers.lookup name

/-- Gives an anchor its number. -/
def define (a : Anchors) (name : String) (node : Option Scalar) : Anchors :=
  let number := a.numbers.length
  let others := a.numbers.filter (·.1 != name)
  ⟨(name, number) :: others, (number, node) :: a.nodes⟩

/-- The scalar that a number stands for, if it is one. -/
def scalar? (a : Anchors) (number : Nat) : Option Scalar := (a.nodes.lookup number).join

end Anchors

structure Document where
  root : Option Node
  anchors : Anchors
  deriving Repr

/-- What is left of the tokens, the anchors so far, and what the handles of tags mean. -/
structure Reader where
  tokens : List Token
  anchors : Anchors
  handles : List (String × String)

/-- A step of reading a document; none if the tokens do not make one. -/
abbrev Reading := StateT Reader Option

namespace Reading

def peek : Reading (Option Token) := return (← get).tokens.head?

def next : Reading Unit := modify fun r => { r with tokens := r.tokens.tail }

/-- Whether the next token is one of those given; the end of the tokens is none of them. -/
def isNext (ts : List Token) : Reading Bool := return (← peek).any ts.contains

/-- Goes past the token if it is the next one. -/
def accept (t : Token) : Reading Bool := do
  if (← peek) = some t then
    next
    return true
  else return false

def expect (t : Token) : Reading Unit := do
  if !(← accept t) then failure

/-! ## What stands before a node -/

/-- The anchor, if one is next. -/
def readAnchor : Reading (Option String) := do
  match ← peek with
  | some (.anchor name) =>
    next
    return some name
  | _ => return none

/-- The tag, if one is next.  Its handle has to mean something. -/
def readTag : Reading (Option String) := do
  match ← peek with
  | some (.tag handle suffix) =>
    next
    if handle = "" then return some suffix
    else
      let meaning ← ((← get).handles.lookup handle : Option String)
      return some (meaning ++ suffix)
  | _ => return none

/-- Anchor and tag, in any order. -/
def readProperties : Reading (Option String × Option String) := do
  match ← readAnchor with
  | some name => return (some name, ← readTag)
  | none =>
    let tag ← readTag
    if tag.isSome then return (← readAnchor, tag) else return (none, none)

/-- Gives an anchor its number, if there is one. -/
def define (anchor : Option String) (node : Option Scalar) : Reading Unit := do
  if let some name := anchor then
    modify fun r => { r with anchors := r.anchors.define name node }

def readScalar (anchor : Option String) (s : Scalar) : Reading Node := do
  define anchor (some s)
  return .scalar s

def missing : Node := .scalar (.missing none)

/-! ## Nodes -/

mutual

/-- Reads a node.  A block collection may begin only where `inBlock` is set, and a sequence as deep as
the mapping around it only where `level` is. -/
def readNode : Nat → Bool → Bool → Reading Node
  | 0, _, _ => failure
  | fuel + 1, inBlock, level => do
    if let some (.alias name) ← peek then
      next
      let number ← ((← get).anchors.number? name : Option Nat)
      return .alias number
    let (anchor, tag) ← readProperties
    match ← peek with
    | some (.scalar style text) =>
      next
      readScalar anchor ⟨style, tag, text⟩
    | some .openSequence =>
      define anchor none
      next
      return .sequence (← readFlowItems fuel true)
    | some .openMapping =>
      define anchor none
      next
      return .mapping (← readFlowEntries fuel true)
    | some .blockEntry =>
      if level then
        define anchor none
        return .sequence (← readLevelItems fuel)
      else if anchor.isSome || tag.isSome then readScalar anchor (.missing tag)
      else failure
    | some .blockSequence =>
      if inBlock then
        define anchor none
        next
        return .sequence (← readItems fuel)
      else if anchor.isSome || tag.isSome then readScalar anchor (.missing tag)
      else failure
    | some .blockMapping =>
      if inBlock then
        define anchor none
        next
        return .mapping (← readEntries fuel)
      else if anchor.isSome || tag.isSome then readScalar anchor (.missing tag)
      else failure
    | _ => if anchor.isSome || tag.isSome then readScalar anchor (.missing tag) else failure

/-- The items of a block sequence up to its end. -/
def readItems : Nat → Reading (List Node)
  | 0 => failure
  | fuel + 1 => do
    if ← accept .blockEnd then return []
    expect .blockEntry
    let item ←
      if ← isNext [.blockEntry, .blockEnd] then pure missing else readNode fuel true false
    return item :: (← readItems fuel)

/-- The items of a sequence that is as deep as the mapping around it, whose end ends it. -/
def readLevelItems : Nat → Reading (List Node)
  | 0 => failure
  | fuel + 1 => do
    if ← accept .blockEntry then
      let item ←
        if ← isNext [.blockEntry, .key, .value, .blockEnd] then pure missing
        else readNode fuel true false
      return item :: (← readLevelItems fuel)
    else return []

/-- The entries of a block mapping up to its end. -/
def readEntries : Nat → Reading (List (Node × Node))
  | 0 => failure
  | fuel + 1 => do
    if ← accept .blockEnd then return []
    expect .key
    let key ←
      if ← isNext [.key, .value, .blockEnd] then pure missing else readNode fuel true true
    let value ←
      if ← accept .value then
        if ← isNext [.key, .value, .blockEnd] then pure missing else readNode fuel true true
      else pure missing
    return (key, value) :: (← readEntries fuel)

/-- The items of a sequence in brackets up to the closing one.  An item with a key is a mapping. -/
def readFlowItems : Nat → Bool → Reading (List Node)
  | 0, _ => failure
  | fuel + 1, isFirst => do
    if ← accept .closeSequence then return []
    if !isFirst then expect .flowEntry
    if ← accept .closeSequence then return []
    let item ←
      if ← accept .key then do
        let entry ← readFlowPair fuel
        pure (.mapping [entry])
      else readNode fuel false false
    return item :: (← readFlowItems fuel false)

/-- The one entry of a mapping that is an item between brackets.  A key that is missing takes the
token that shows so. -/
def readFlowPair : Nat → Reading (Node × Node)
  | 0 => failure
  | fuel + 1 => do
    let key ←
      if ← isNext [.value, .flowEntry, .closeSequence] then do
        next
        pure missing
      else readNode fuel false false
    let value ←
      if ← accept .value then
        if ← isNext [.flowEntry, .closeSequence] then pure missing else readNode fuel false false
      else pure missing
    return (key, value)

/-- The entries of a mapping in braces up to the closing one. -/
def readFlowEntries : Nat → Bool → Reading (List (Node × Node))
  | 0, _ => failure
  | fuel + 1, isFirst => do
    if ← accept .closeMapping then return []
    if !isFirst then expect .flowEntry
    if ← accept .closeMapping then return []
    let entry ←
      if ← accept .key then do
        let key ←
          if ← isNext [.value, .flowEntry, .closeMapping] then pure missing
          else readNode fuel false false
        let value ←
          if ← accept .value then
            if ← isNext [.flowEntry, .closeMapping] then pure missing else readNode fuel false false
          else pure missing
        pure (key, value)
      else do
        let key ← readNode fuel false false
        pure (key, missing)
    return entry :: (← readFlowEntries fuel false)

end

/-! ## Documents -/

/-- What the handles of tags mean unless a directive says otherwise. -/
def standardHandles : List (String × String) := [("!", "!"), ("!!", "tag:yaml.org,2002:")]

/-- Directives in front of a document: at most one version, which has to be a known one, and no handle
twice.  The first argument bounds their number. -/
def readDirectives : Nat → Bool → List (String × String) → Reading (List (String × String))
  | 0, _, handles => return handles
  | fuel + 1, hasVersion, handles => do
    match ← peek with
    | some (.version major minor) =>
      if hasVersion || major ≠ 1 || !(minor = 1 || minor = 2) then failure
      next
      readDirectives fuel true handles
    | some (.shorthand handle meaning) =>
      if (handles.lookup handle).isSome then failure
      next
      readDirectives fuel hasVersion (handles ++ [(handle, meaning)])
    | _ => return handles

/-- Whether a directive or a document's first or last line is next, or nothing. -/
def atBoundary : Reading Bool := do
  match ← peek with
  | none => return true
  | some (.version _ _) | some (.shorthand _ _) | some .documentStart | some .documentEnd =>
    return true
  | _ => return false

/-- The root of a document that begins with directives or its first line. -/
def readMarked (fuel : Nat) : Reading Node := do
  let own ← readDirectives fuel false []
  modify fun r => { r with handles := own ++ standardHandles }
  expect .documentStart
  if ← atBoundary then return missing else readNode fuel true false

/-- Goes past the last lines of documents, of which there are at most as many as the argument says. -/
def skipEnds : Nat → Reading Unit
  | 0 => return ()
  | fuel + 1 => do if ← accept .documentEnd then skipEnds fuel

/-- Reads the only document of a stream. -/
def readDocument (fuel : Nat) : Reading Document := do
  let root ←
    match ← peek with
    | none => pure none
    | some (.version _ _) | some (.shorthand _ _) | some .documentStart =>
      pure (some (← readMarked fuel))
    | some _ => pure (some (← readNode fuel true false))
  skipEnds fuel
  if (← peek).isSome then failure
  return ⟨root, (← get).anchors⟩

end Reading

/-- Reads a text that holds one document or none.  Each step of the reading takes a token or goes one
level down to one, so three times their number is enough. -/
def Document.read? (text : String) : Option Document := do
  let tokens ← Token.scan? text
  let fuel := 3 * tokens.length + 3
  let start : Reader := ⟨tokens, .empty, Reading.standardHandles⟩
  let (document, _) ← (Reading.readDocument fuel).run start
  return document

end LiveDataflow.Yaml
