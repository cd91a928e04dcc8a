import LiveDataflow.Config
import LiveDataflow.Yaml.Node

/-!
# Configurations in YAML documents

A configuration is written as a mapping of its three fields, each of which may be left out; other keys
are passed over.  Counts and truth values have to be written plain, or as a literal block with the tag
that says so.  The first argument of each reader holds the nodes that aliases stand for.
-/

set_option autoImplicit false

namespace LiveDataflow.Config

open Yaml

def integerTag : String := "tag:yaml.org,2002:int"

def truthTag : String := "tag:yaml.org,2002:bool"

/-- Whether a scalar may be more than a text. -/
def isTyped (tag : String) (s : Scalar) : Bool :=
  match s.style with
  | .plain => true
  | .literal => s.tag = some tag
  | _ => false

/-- A number of at least one digit that fits sixty-four bits. -/
def number? (base : Nat) (digits : List Char) : Option UInt64 := do
  if digits = [] then none
  let n ← Text.number? base digits
  if n < UInt64.size then some (UInt64.ofNat n) else none

/-- A number that says its base, which is sixteen, eight or two. -/
def based? : List Char → Option (Nat × List Char)
  | '0' :: 'x' :: rest => some (16, rest)
  | '0' :: 'o' :: rest => some (8, rest)
  | '0' :: 'b' :: rest => some (2, rest)
  | _ => none

def isSigned (cs : List Char) : Bool := cs.head?.any fun c => c = '+' || c = '-'

/-- Digits with a zero in front of them are no number. -/
def isPadded (cs : List Char) : Bool :=
  let unsigned := if isSigned cs then cs.drop 1 else cs
  unsigned.head? = some '0' && 1 < unsigned.length && unsigned.all Char.isDigit

/-- A decimal number. -/
def decimal? (all unsigned : List Char) : Option UInt64 :=
  if isSigned unsigned || isPadded all then none else number? 10 unsigned

/-- The count that a text stands for: one plus sign may stand before it. -/
def countOf? (text : String) : Option UInt64 :=
  let all := text.toList
  let unsigned := if all.head? = some '+' then all.drop 1 else all
  match based? unsigned with
  | some (base, digits) =>
    if isSigned digits then none
    else
      match number? base digits with
      | some n => some n
      | none => decimal? all unsigned
  | none => decimal? all unsigned

def truthOf? (text : String) : Option Bool :=
  if text = "true" ∨ text = "True" ∨ text = "TRUE" then some true
  else if text = "false" ∨ text = "False" ∨ text = "FALSE" then some false
  else none

/-- The scalar that a node is or stands for. -/
def scalar? (anchors : Anchors) : Node → Option Scalar
  | .scalar s => some s
  | .alias number => anchors.scalar? number
  | _ => none

def count? (anchors : Anchors) (node : Node) : Option UInt64 := do
  let s ← scalar? anchors node
  if isTyped integerTag s then countOf? s.text else none

def truth? (anchors : Anchors) (node : Node) : Option Bool := do
  let s ← scalar? anchors node
  if isTyped truthTag s then truthOf? s.text else none

/-- The fields that a mapping gives; none of them may come twice. -/
structure Partial where
  maxPerContainer : Option UInt64
  defaultPartitions : Option UInt64
  strictTypes : Option Bool

/-- Gives a field its value, once. -/
def setOnce {α : Type} (old : Option α) (new : Option α) : Option (Option α) :=
  match old, new with
  | none, some v => some (some v)
  | _, _ => none

/-- Takes up one entry of the mapping.  Its key has to be a scalar. -/
def Partial.enter (anchors : Anchors) (p : Partial) (entry : Node × Node) : Option Partial := do
  let key ← scalar? anchors entry.1
  if key.text = "max_operators_per_container" then
    return { p with maxPerContainer := ← setOnce p.maxPerContainer (count? anchors entry.2) }
  else if key.text = "default_partition_count" then
    return { p with defaultPartitions := ← setOnce p.defaultPartitions (count? anchors entry.2) }
  else if key.text = "strict_port_types" then
    return { p with strictTypes := ← setOnce p.strictTypes (truth? anchors entry.2) }
  else return p

/-- Fields that are not given have their defaults. -/
def Partial.complete (p : Partial) : Config :=
  let c := Config.default
  ⟨p.maxPerContainer.getD c.maxPerContainer, p.defaultPartitions.getD c.defaultPartitions,
    p.strictTypes.getD c.strictTypes⟩

/-- The configuration in a document; one with nothing in it has the defaults only. -/
def ofDocument? (d : Document) : Option Config :=
  match d.root with
  | none => some .default
  | some (.scalar s) => if s.style = .plain ∧ s.text = "" then some .default else none
  | some (.mapping entries) =>
    (entries.foldlM (Partial.enter d.anchors) ⟨none, none, none⟩).map Partial.complete
  | some _ => none

/-- Reads and checks a configuration. -/
def ofYaml (text : String) : Except Cause Config :=
  match (Document.read? text).bind ofDocument? with
  | none => .error .unreadable
  | some c => do
    c.validate
    return c

end LiveDataflow.Config
