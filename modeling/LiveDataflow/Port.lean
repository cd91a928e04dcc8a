import LiveDataflow.SortedMap

/-!
# Ports and their addresses

An operator declares input and output ports by name, each with or without the type of the data it
carries.  A port of a plan is found by its address `operator.port`; the first dot divides the two,
so a port name may hold dots and an operator name in an address may not.
-/

set_option autoImplicit false

namespace LiveDataflow

/-- A declared port.  One without a data type takes anything. -/
structure Port where
  name : String
  dataType : Option String
  deriving DecidableEq, Repr

namespace Port

/-- Whether a stream may run from the first port to the second: two declared types have to agree. -/
def fits (source sink : Port) : Bool :=
  match source.dataType, sink.dataType with
  | some a, some b => a = b
  | _, _ => true

end Port

/-- The ports of an operator, by name. -/
structure PortTable where
  inputs : SortedMap String Port
  outputs : SortedMap String Port
  deriving DecidableEq

namespace PortTable

def empty : PortTable := ⟨∅, ∅⟩

instance : EmptyCollection PortTable := ⟨empty⟩

instance : Inhabited PortTable := ⟨empty⟩

/-- Declares an input port, in place of one with its name. -/
def addInput (t : PortTable) (p : Port) : PortTable := { t with inputs := t.inputs.insert p.name p }

/-- Declares an output port, in place of one with its name. -/
def addOutput (t : PortTable) (p : Port) : PortTable :=
  { t with outputs := t.outputs.insert p.name p }

def ofLists (inputs outputs : List Port) : PortTable :=
  outputs.foldl addOutput (inputs.foldl addInput empty)

end PortTable

/-- Names a port of an operator. -/
structure PortAddress where
  operator : String
  port : String
  deriving DecidableEq, Repr

namespace PortAddress

def text (a : PortAddress) : String := a.operator ++ "." ++ a.port

/-- Why a text is no address. -/
inductive Fault where
  | noDot
  | emptyName
  deriving DecidableEq, Repr

/-- Reads an address; the first dot divides it. -/
def parse (s : String) : Except Fault PortAddress :=
  let operator := s.toList.takeWhile (· != '.')
  match s.toList.dropWhile (· != '.') with
  | [] => .error .noDot
  | _ :: port =>
    if operator = [] ∨ port = [] then .error .emptyName
    else .ok ⟨String.ofList operator, String.ofList port⟩

end PortAddress

end LiveDataflow
