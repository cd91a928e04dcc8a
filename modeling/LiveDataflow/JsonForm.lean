import LiveDataflow.Json.Spelling
import LiveDataflow.Rollout

/-!
# JSON forms of plans and rollouts

Ports, addresses, streams, configurations, numbers, checkpoints and rollouts have a JSON form each.
A record is written as an object and read from an object, with its fields in any order and others
passed over, or from an array of its fields in their order.  A field may be left out if it has a
default.  Sets are written in ascending order and read in any.
-/

set_option autoImplicit false

namespace LiveDataflow

open Json (Spelling)

/-- A type whose values are written as JSON and read from it. -/
class JsonForm (α : Type) where
  toJson : α → Json
  ofSpelling? : Spelling → Option α

export JsonForm (toJson)

namespace JsonForm

/-- Reads a JSON text as a value of a type. -/
def read? (α : Type) [JsonForm α] (text : String) : Option α :=
  (Spelling.read? text).bind ofSpelling?

/-! ## Texts, truth values and numbers -/

instance : JsonForm String where
  toJson s := .string s
  ofSpelling?
    | .string s => Spelling.string? s
    | _ => none

instance : JsonForm Bool where
  toJson b := .bool b
  ofSpelling?
    | .bool b => some b
    | _ => none

/-- Reads an integer that is written as one. -/
def integer? : Spelling → Option Int
  | .number n =>
    match n.number? with
    | some (.integer i) => some i
    | _ => none
  | _ => none

/-- Reads a natural number below `bound`. -/
def natBelow? (bound : Nat) (s : Spelling) : Option Nat := do
  let i ← integer? s
  if 0 ≤ i ∧ i < bound then some i.toNat else none

instance : JsonForm UInt64 where
  toJson n := .number (.integer n.toNat)
  ofSpelling? s := (natBelow? UInt64.size s).map UInt64.ofNat

instance : JsonForm Int64 where
  toJson n := .number (.integer n.toInt)
  ofSpelling? s := do
    let i ← integer? s
    if Int64.minValue.toInt ≤ i ∧ i ≤ Int64.maxValue.toInt then some (Int64.ofInt i) else none

/-- How many numbers there are for instances and for containers. -/
def idBound : Nat := UInt32.size

instance : JsonForm InstanceId where
  toJson id := .number (.integer id.val)
  ofSpelling? s := (natBelow? idBound s).map InstanceId.mk

instance : JsonForm ContainerId where
  toJson id := .number (.integer id.val)
  ofSpelling? s := (natBelow? idBound s).map ContainerId.mk

/-! ## What may be missing, lists, sets and maps -/

section

variable {α : Type} [JsonForm α]

instance : JsonForm (Option α) where
  toJson
    | none => .null
    | some a => toJson a
  ofSpelling?
    | .null => some none
    | s => (ofSpelling? s).map some

/-- Reads all of a list, or nothing. -/
def readAll? : List Spelling → Option (List α)
  | [] => some []
  | s :: rest => do return (← ofSpelling? s) :: (← readAll? rest)

instance : JsonForm (List α) where
  toJson l := .array (l.map toJson)
  ofSpelling?
    | .array items => readAll? items
    | _ => none

instance [LT α] [DecidableLT α] [KeyOrder α] : JsonForm (SortedSet α) where
  toJson s := toJson s.toList
  ofSpelling? s := (ofSpelling? (α := List α) s).map SortedSet.ofList

/-- Reads the entries of an object in the order in which they are written. -/
def readEntries? : List (List Json.Piece × Spelling) → Option (List (String × α))
  | [] => some []
  | (key, value) :: rest => do
    let key ← Spelling.string? key
    let value ← ofSpelling? value
    return (key, value) :: (← readEntries? rest)

/-- A repeated key counts for its last value. -/
instance : JsonForm (SortedMap String α) where
  toJson m := .object (m.entries.map fun (k, v) => (k, toJson v))
  ofSpelling?
    | .object fields => (readEntries? fields).map SortedMap.ofList
    | _ => none

end

/-! ## Records -/

/-- A field of a record as it is found: the field may be missing. -/
abbrev Slot := Option Spelling

/-- Enters a value under its field, once. -/
def enter (name : String) (value : Spelling) : List (String × Slot) → Option (List (String × Slot))
  | [] => some []
  | (n, slot) :: rest =>
    if n = name then
      match slot with
      | none => some ((n, some value) :: rest)
      | some _ => none
    else (enter name value rest).map ((n, slot) :: ·)

/-- Finds the fields of a record in an object.  Other fields are passed over; a field that is there
twice is an error. -/
def byName? (slots : List (String × Slot)) :
    List (List Json.Piece × Spelling) → Option (List (String × Slot))
  | [] => some slots
  | (key, value) :: rest => do
    let name ← Spelling.string? key
    byName? (← enter name value slots) rest

/-- Finds the fields of a record in an array, in their order; there may not be more. -/
def byPosition? : List String → List Spelling → Option (List Slot)
  | names, [] => some (names.map fun _ => none)
  | [], _ :: _ => none
  | _ :: names, item :: items => (byPosition? names items).map (some item :: ·)

/-- The fields of a record, in the order of their names. -/
def slots? (names : List String) : Spelling → Option (List Slot)
  | .object fields => (byName? (names.map fun n => (n, none)) fields).map fun l => l.map (·.2)
  | .array items => byPosition? names items
  | _ => none

/-- The value of a field that has to be there. -/
def required? {α : Type} [JsonForm α] (slot : Slot) : Option α := slot.bind ofSpelling?

/-- The value of a field that may be left out. -/
def defaulted? {α : Type} [JsonForm α] (default : α) (slot : Slot) : Option α :=
  match slot with
  | none => some default
  | some s => ofSpelling? s

instance : JsonForm Port where
  toJson p := .object [("name", toJson p.name), ("data_type", toJson p.dataType)]
  ofSpelling? s := do
    let [name, dataType] ← slots? ["name", "data_type"] s | none
    return ⟨← required? name, ← defaulted? none dataType⟩

instance : JsonForm PortTable where
  toJson t := .object [("input_ports", toJson t.inputs), ("output_ports", toJson t.outputs)]
  ofSpelling? s := do
    let [inputs, outputs] ← slots? ["input_ports", "output_ports"] s | none
    return ⟨← required? inputs, ← required? outputs⟩

instance : JsonForm PortAddress where
  toJson a := .object [("operator", toJson a.operator), ("port", toJson a.port)]
  ofSpelling? s := do
    let [operator, port] ← slots? ["operator", "port"] s | none
    return ⟨← required? operator, ← required? port⟩

instance : JsonForm Stream where
  toJson s := .object [("name", toJson s.name), ("source", toJson s.source),
    ("sinks", toJson s.sinks)]
  ofSpelling? s := do
    let [name, source, sinks] ← slots? ["name", "source", "sinks"] s | none
    return ⟨← required? name, ← required? source, ← required? sinks⟩

instance : JsonForm Config where
  toJson c := .object [("max_operators_per_container", toJson c.maxPerContainer),
    ("default_partition_count", toJson c.defaultPartitions),
    ("strict_port_types", toJson c.strictTypes)]
  ofSpelling? s := do
    let [perContainer, partitions, strict] ←
      slots? ["max_operators_per_container", "default_partition_count", "strict_port_types"] s
      | none
    let c := Config.default
    return ⟨← defaulted? c.maxPerContainer perContainer, ← defaulted? c.defaultPartitions partitions,
      ← defaulted? c.strictTypes strict⟩

instance : JsonForm Checkpoint where
  toJson c := .object [("window_id", toJson c.window)]
  ofSpelling? s := do
    let [window] ← slots? ["window_id"] s | none
    return ⟨← required? window⟩

instance : JsonForm Rollout where
  toJson r := .object [("release_containers", toJson r.released), ("undeploy", toJson r.stopped),
    ("new_containers", toJson r.created), ("deploy", toJson r.started)]
  ofSpelling? s := do
    let [released, stopped, created, started] ←
      slots? ["release_containers", "undeploy", "new_containers", "deploy"] s | none
    return ⟨← required? released, ← required? stopped, ← required? created, ← required? started⟩

end JsonForm

end LiveDataflow
