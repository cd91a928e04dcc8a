import LiveDataflow.Config
import LiveDataflow.Operator

/-!
# Dataflow plans

A dataflow is a set of named stages joined by named streams.  A stage is an operator with the number
of its partitions; a stream runs from one output port to any number of input ports, its sinks.  This
module holds the plan and what can be asked of it; `LiveDataflow.Dataflow.Change` changes it.
-/

set_option autoImplicit false

namespace LiveDataflow

/-- A named stream: one output port that feeds any number of input ports. -/
structure Stream where
  name : String
  source : PortAddress
  sinks : List PortAddress
  deriving DecidableEq, Repr

namespace Stream

def hasSink (s : Stream) (sink : PortAddress) : Bool := s.sinks.contains sink

/-- Whether a sink belongs to the operator. -/
def feeds (s : Stream) (operator : String) : Bool := s.sinks.any (·.operator = operator)

/-- A stream without sinks carries data nowhere. -/
def isDangling (s : Stream) : Bool := s.sinks.isEmpty

end Stream

/-- An operator in a plan. -/
structure Stage where
  /-- The name that is shown and that the operator graph goes by. -/
  label : String
  operator : Operator
  /-- The ports that were declared when the operator came into the plan. -/
  ports : PortTable
  /-- How many instances the operator has when the plan is laid out. -/
  partitions : Nat

structure Dataflow where
  stages : SortedMap String Stage
  streams : SortedMap String Stream
  config : Config

namespace Dataflow

def empty (config : Config) : Dataflow := ⟨∅, ∅, config⟩

def stage? (d : Dataflow) (name : String) : Option Stage := d.stages.get? name

def stream? (d : Dataflow) (name : String) : Option Stream := d.streams.get? name

/-- Streams with a sink on the operator, by name. -/
def inputStreams (d : Dataflow) (operator : String) : List Stream :=
  d.streams.values.filter (·.feeds operator)

/-- Streams that the operator is the source of, by name. -/
def outputStreams (d : Dataflow) (operator : String) : List Stream :=
  d.streams.values.filter (·.source.operator = operator)

/-- The first stream, by name, with the given sink. -/
def streamInto? (d : Dataflow) (sink : PortAddress) : Option Stream :=
  d.streams.values.find? (·.hasSink sink)

/-- A port of a stage, looked for in one of its two tables. -/
def findPort (d : Dataflow) (table : PortTable → SortedMap String Port) (a : PortAddress) :
    Except Cause Port :=
  match d.stage? a.operator with
  | none => .error (.unknownOperator a.operator)
  | some stage =>
    match (table stage.ports).get? a.port with
    | none => .error (.unknownPort a.port stage.label)
    | some port => .ok port

def outputPort (d : Dataflow) (a : PortAddress) : Except Cause Port := d.findPort (·.outputs) a

def inputPort (d : Dataflow) (a : PortAddress) : Except Cause Port := d.findPort (·.inputs) a

end Dataflow

end LiveDataflow
