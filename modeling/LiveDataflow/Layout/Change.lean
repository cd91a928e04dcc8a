import LiveDataflow.Layout
import LiveDataflow.Dataflow.Topology
import LiveDataflow.Reachability

/-!
# Changing a layout

Laying out an operator, taking it away, wiring a sink and dropping a stream follow a change of the
dataflow.  Placement hosts instances without a container and gives up containers without instances.
`Layout.materialize` makes the first layout of a dataflow.

## Results

* `Layout.mem_wires_wireSink`: wiring a sink adds the mesh of its stream and takes nothing away.
-/

set_option autoImplicit false

namespace LiveDataflow.Layout

open Reachability

/-! ## Wires -/

/-- A wire from every instance of the stream's source to every instance of the sink's operator. -/
def mesh (l : Layout) (s : Stream) (sink : PortAddress) : List Wire :=
  (l.presentOf s.source.operator).flatMap fun a =>
    (l.presentOf sink.operator).map fun b => ⟨a, b, s.name, sink.port⟩

/-- The wires of the mesh that are not there yet. -/
def missingWires (l : Layout) (s : Stream) (sink : PortAddress) : List Wire :=
  let alike := l.wires.filter fun w => w.stream = s.name ∧ w.port = sink.port
  let targets := l.presentOf sink.operator
  (l.presentOf s.source.operator).flatMap fun a =>
    let wired := (alike.filter (·.source = a)).map (·.target)
    (targets.filter (· ∉ wired)).map fun b => ⟨a, b, s.name, sink.port⟩

theorem mem_missingWires {l : Layout} {s : Stream} {sink : PortAddress} {w : Wire} :
    w ∈ l.missingWires s sink ↔ w ∈ l.mesh s sink ∧ w ∉ l.wires := by
  obtain ⟨a, b, stream, port⟩ := w
  simp only [missingWires, mesh, List.mem_flatMap, List.mem_map, List.mem_filter,
    decide_eq_true_eq, Wire.mk.injEq]
  constructor
  · rintro ⟨i, hi, j, ⟨hj, hn⟩, rfl, rfl, rfl, rfl⟩
    exact ⟨⟨i, hi, j, hj, rfl, rfl, rfl, rfl⟩, fun hw => hn ⟨_, ⟨⟨hw, rfl, rfl⟩, rfl⟩, rfl⟩⟩
  · rintro ⟨⟨i, hi, j, hj, rfl, rfl, rfl, rfl⟩, hn⟩
    refine ⟨i, hi, j, ⟨hj, ?_⟩, rfl, rfl, rfl, rfl⟩
    rintro ⟨⟨_, _, _, _⟩, ⟨⟨hw, rfl, rfl⟩, rfl⟩, rfl⟩
    exact hn hw

/-- Wires one sink of a stream. -/
def wireSink (l : Layout) (s : Stream) (sink : PortAddress) : Layout :=
  { l with wires := l.wires ++ l.missingWires s sink }

theorem mem_wires_wireSink {l : Layout} {s : Stream} {sink : PortAddress} {w : Wire} :
    w ∈ (l.wireSink s sink).wires ↔ w ∈ l.wires ∨ w ∈ l.mesh s sink := by
  rw [wireSink, List.mem_append, mem_missingWires]
  by_cases h : w ∈ l.wires <;> simp [h]

/-- Wires every sink of a stream. -/
def wireStream (l : Layout) (s : Stream) : Layout := s.sinks.foldl (·.wireSink s) l

/-! ## Operators -/

/-- New instances of an operator, not placed and without a checkpoint. -/
def freshInstances (l : Layout) (operator : String) (partitions : Nat) : List Instance :=
  (List.range partitions).map fun p => ⟨⟨l.lastInstance + 1 + p⟩, operator, p, none, none⟩

/-- Takes up new instances under the name of their operator. -/
def enter (l : Layout) (operator : String) (fresh : List Instance) : Layout :=
  { l with
    instances := fresh.foldl (fun m i => m.insert i.id i) l.instances
    byOperator := l.byOperator.insert operator (fresh.map (·.id))
    lastInstance := l.lastInstance + fresh.length }

/-- Makes the instances of an operator and wires the streams that touch it; also their numbers in the
order of the partitions. -/
def addOperator (l : Layout) (name : String) : Except Cause (List InstanceId × Layout) :=
  match l.dataflow.stage? name with
  | none => .error (.unknownOperator name)
  | some stage =>
    if l.byOperator.contains name then .error (.alreadyMaterialized name)
    else
      let fresh := l.freshInstances name stage.partitions
      let touching := l.dataflow.streams.values.filter fun s =>
        s.source.operator = name || s.feeds name
      .ok (fresh.map (·.id), touching.foldl wireStream (l.enter name fresh))

/-- Takes one instance away, with its wires and its place in a container. -/
def removeInstance (l : Layout) (id : InstanceId) : Layout :=
  match l.instance? id with
  | none => l
  | some i =>
    { l with
      instances := l.instances.erase id
      wires := l.wires.filter fun w => w.source ≠ id ∧ w.target ≠ id
      containers :=
        match i.container with
        | none => l.containers
        | some c => l.containers.adjust c (·.erase id) }

/-- Takes away the instances of an operator; also the numbers of those that were there. -/
def removeOperator (l : Layout) (name : String) : SortedSet InstanceId × Layout :=
  let ids := l.presentOf name
  (.ofList ids, ids.foldl removeInstance { l with byOperator := l.byOperator.erase name })

/-! ## Streams -/

/-- Wires a sink that the dataflow has already attached; also the instances that get new wires. -/
def connectSink (l : Layout) (stream : String) (sink : PortAddress) :
    Except Cause (SortedSet InstanceId × Layout) :=
  match l.dataflow.stream? stream with
  | none => .error (.unknownStream stream)
  | some s =>
    if s.hasSink sink then .ok (.ofList (l.instancesOf sink.operator), l.wireSink s sink)
    else .error (.unknownSink stream sink)

/-- Drops the wires of a stream that the dataflow still has; also the instances at both ends. -/
def dropStream (l : Layout) (stream : String) : Except Cause (SortedSet InstanceId × Layout) :=
  match l.dataflow.stream? stream with
  | none => .error (.unknownStream stream)
  | some s =>
    let touched := s.source.operator :: s.sinks.map (·.operator)
    .ok (.ofList (touched.flatMap l.instancesOf),
      { l with wires := l.wires.filter (·.stream ≠ stream) })

/-! ## What depends on what -/

/-- The wires as edges between instances. -/
def edges (l : Layout) : List (InstanceId × InstanceId) := l.wires.map fun w => (w.source, w.target)

/-- Those of the given instances that are there, and all that data flows to from them: a search along the
wires from one of them after the other. -/
def dependents (l : Layout) (ids : SortedSet InstanceId) : SortedSet InstanceId :=
  .ofList (traverse l.edges (ids.toList.filter l.instances.contains))

/-! ## Containers and checkpoints -/

/-- Cuts a list into groups of `size`, the last one possibly smaller.  The first argument bounds the
number of groups. -/
def groupsWithin {α : Type} (size : Nat) : Nat → List α → List (List α)
  | 0, _ => []
  | _ + 1, [] => []
  | n + 1, a :: rest => (a :: rest).take size :: groupsWithin size n ((a :: rest).drop size)

def groups {α : Type} (size : Nat) (l : List α) : List (List α) := groupsWithin size l.length l

/-- The containers that a placement asked for and those it gave up. -/
structure Placement where
  created : SortedSet ContainerId
  released : SortedSet ContainerId
  deriving DecidableEq

/-- Opens the next container for a group of instances. -/
def host (l : Layout) (group : List InstanceId) : Layout :=
  let id : ContainerId := ⟨l.lastContainer + 1⟩
  { l with
    containers := l.containers.insert id (.ofList group)
    instances := group.foldl (fun m i => m.adjust i fun x => { x with container := some id })
      l.instances
    lastContainer := l.lastContainer + 1 }

/-- Gives up the containers that host nothing, and hosts those of the given instances that are there
and have no container, in groups by ascending number. -/
def place (l : Layout) (ids : SortedSet InstanceId) : Placement × Layout :=
  let released := (l.containers.filter fun _ hosted => hosted.isEmpty).keys
  let kept := { l with containers := l.containers.filter fun _ hosted => !hosted.isEmpty }
  let waiting := ids.toList.filter fun id => (l.instance? id).any (·.container = none)
  let placed := (groups l.dataflow.config.groupSize waiting).foldl host kept
  let created := (List.range (placed.lastContainer - l.lastContainer)).map fun i =>
    (⟨l.lastContainer + 1 + i⟩ : ContainerId)
  (⟨.ofList created, .ofList released⟩, placed)

/-- Lets an instance start before all data. -/
def prime (l : Layout) (id : InstanceId) : Except Cause Layout :=
  if l.instances.contains id then
    .ok { l with instances := l.instances.adjust id fun i =>
            { i with checkpoint := some Checkpoint.initial } }
  else .error (.unknownInstance id.label)

/-- Primes instances one after the other. -/
def primeAll (l : Layout) (ids : List InstanceId) : Except Cause Layout := ids.foldlM prime l

/-! ## The first layout -/

/-- Lays out operators one after the other; also the numbers of all their instances. -/
def addOperators (l : Layout) : List String → Except Cause (List InstanceId × Layout)
  | [] => .ok ([], l)
  | name :: rest => do
    let (ids, l) ← l.addOperator name
    let (more, l) ← l.addOperators rest
    return (ids ++ more, l)

/-- The first layout of a valid dataflow: all operators laid out in the order of their names, placed
and primed. -/
def materialize (d : Dataflow) : Except Cause Layout := do
  d.validate
  let (ids, l) ← (ofDataflow d).addOperators d.labels
  let (_, l) := l.place (.ofList ids)
  l.primeAll ids

end LiveDataflow.Layout
