import LiveDataflow.Dataflow
import LiveDataflow.SortedSet

/-!
# Layouts

A layout is a dataflow spread out for execution.  Each partition of a stage becomes an instance, each
sink of a stream a full mesh of wires between the instances of its two operators, and the instances
are hosted by containers.  Numbers of instances and of containers are given once and never again.

This module holds the layout and what can be asked of it; `LiveDataflow.Layout.Change` changes it.
-/

set_option autoImplicit false

namespace LiveDataflow

/-- The number of an instance. -/
structure InstanceId where
  val : Nat
  deriving DecidableEq, Repr

/-- The number of a container. -/
structure ContainerId where
  val : Nat
  deriving DecidableEq, Repr

namespace InstanceId

instance : LT InstanceId := ⟨fun a b => a.val < b.val⟩

instance : DecidableLT InstanceId := fun a b => inferInstanceAs (Decidable (a.val < b.val))

instance : KeyOrder InstanceId := .of_injective val (fun _ _ => congrArg mk) fun _ _ => Iff.rfl

def label (id : InstanceId) : String := s!"PTOperator[{id.val}]"

end InstanceId

namespace ContainerId

instance : LT ContainerId := ⟨fun a b => a.val < b.val⟩

instance : DecidableLT ContainerId := fun a b => inferInstanceAs (Decidable (a.val < b.val))

instance : KeyOrder ContainerId := .of_injective val (fun _ _ => congrArg mk) fun _ _ => Iff.rfl

def label (id : ContainerId) : String := s!"PTContainer[{id.val}]"

end ContainerId

/-- A point from which an instance can recover, named by a window of the data. -/
structure Checkpoint where
  window : Int64
  deriving DecidableEq, Repr

namespace Checkpoint

/-- The checkpoint before all data. -/
def initial : Checkpoint := ⟨-1⟩

def isInitial (c : Checkpoint) : Bool := c = initial

end Checkpoint

/-- One partition of an operator. -/
structure Instance where
  id : InstanceId
  operator : String
  partition : Nat
  container : Option ContainerId
  checkpoint : Option Checkpoint
  deriving DecidableEq, Repr

/-- A connection between two instances: data of `stream` for the input port `port`. -/
structure Wire where
  source : InstanceId
  target : InstanceId
  stream : String
  port : String
  deriving DecidableEq, Repr

structure Layout where
  dataflow : Dataflow
  instances : SortedMap InstanceId Instance
  /-- The instances of each operator that is laid out, in the order of their partitions. -/
  byOperator : SortedMap String (List InstanceId)
  wires : List Wire
  containers : SortedMap ContainerId (SortedSet InstanceId)
  /-- The last number given to an instance. -/
  lastInstance : Nat
  /-- The last number given to a container. -/
  lastContainer : Nat

namespace Layout

/-- Nothing is laid out yet. -/
def ofDataflow (d : Dataflow) : Layout := ⟨d, ∅, ∅, [], ∅, 0, 0⟩

def instance? (l : Layout) (id : InstanceId) : Option Instance := l.instances.get? id

/-- The instances of an operator in the order of their partitions; none if it is not laid out. -/
def instancesOf (l : Layout) (operator : String) : List InstanceId :=
  (l.byOperator.get? operator).getD []

/-- Those instances of an operator that are there. -/
def presentOf (l : Layout) (operator : String) : List InstanceId :=
  (l.instancesOf operator).filter l.instances.contains

/-- The instances that the given one sends data to. -/
def receivers (l : Layout) (id : InstanceId) : SortedSet InstanceId :=
  .ofList ((l.wires.filter (·.source = id)).map (·.target))

/-- The instances that send data to the given one. -/
def senders (l : Layout) (id : InstanceId) : SortedSet InstanceId :=
  .ofList ((l.wires.filter (·.target = id)).map (·.source))

/-- Instances without a container.  They have never been deployed. -/
def unplaced (l : Layout) : SortedSet InstanceId :=
  .ofList ((l.instances.values.filter (·.container = none)).map (·.id))

end Layout

end LiveDataflow
