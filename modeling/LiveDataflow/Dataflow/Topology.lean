import LiveDataflow.Dataflow
import LiveDataflow.Reachability

/-!
# The operator graph

The graph that cycle checks look at has the labels of the stages for nodes and an edge from the
source operator to the sink operator for every sink of every stream.  An edge whose ends are not both
labels is left out.
-/

set_option autoImplicit false

namespace LiveDataflow.Dataflow

open Reachability

def labels (d : Dataflow) : List String := d.stages.values.map (·.label)

/-- Source and sink operator of every sink of every stream. -/
def links (d : Dataflow) : List (String × String) :=
  d.streams.values.flatMap fun s => s.sinks.map fun sink => (s.source.operator, sink.operator)

/-- The edges of the operator graph. -/
def topology (d : Dataflow) : List (String × String) :=
  d.links.filter fun e => e.1 ∈ d.labels ∧ e.2 ∈ d.labels

/-- Whether data can already flow from the first operator to the second. -/
def leadsTo (d : Dataflow) (source target : String) : Bool :=
  source ∈ d.labels && target ∈ d.labels && target ∈ reachable d.topology [source]

def isCyclic (d : Dataflow) : Bool := hasCycle d.topology

/-- A plan is valid if every stream has a sink and the operator graph has no cycle. -/
def validate (d : Dataflow) : Except Cause Unit :=
  match d.streams.values.find? (·.isDangling) with
  | some s => .error (.noSinks s.name)
  | none => if d.isCyclic then .error .cyclic else .ok ()

end LiveDataflow.Dataflow
