import LiveDataflow.Dataflow.Topology
import LiveDataflow.Property

/-!
# Changing a dataflow

Names are unique, streams attach to declared ports only, an input port carries at most one stream,
and no stream may close a cycle.  An operation that would break a rule gives the reason and no plan.
-/

set_option autoImplicit false

namespace LiveDataflow.Dataflow

/-! ## Stages -/

/-- The stage that an operator becomes: its ports as it declares them now, the partitions as the plan
is configured. -/
def newStage (d : Dataflow) (name : String) (operator : Operator) : Stage :=
  ⟨name, operator, operator.ports, d.config.defaultPartitions.toNat⟩

def addStage (d : Dataflow) (name : String) (operator : Operator) : Except Cause Dataflow :=
  if d.stages.contains name then .error (.operatorExists name)
  else .ok { d with stages := d.stages.insert name (d.newStage name operator) }

def setPartitions (d : Dataflow) (name : String) (count : Nat) : Except Cause Dataflow :=
  if count = 0 then .error (.noPartitions name)
  else if d.stages.contains name then
    .ok { d with stages := d.stages.adjust name fun stage => { stage with partitions := count } }
  else .error (.unknownOperator name)

/-- Removes a stage, the streams it is the source of, and its sinks on other streams.  Nothing happens
if it is not there. -/
def removeStage (d : Dataflow) (name : String) : Dataflow :=
  if d.stages.contains name then
    { d with
      stages := d.stages.erase name
      streams := (d.streams.filter fun _ s => s.source.operator ≠ name).mapValues fun _ s =>
        { s with sinks := s.sinks.filter (·.operator ≠ name) } }
  else d

/-- Gives the stage another label; its name in the plan stays. -/
def relabel (d : Dataflow) (name label : String) : Dataflow :=
  { d with stages := d.stages.adjust name fun stage => { stage with label := label } }

/-- Puts a changed operator in the place of the one that is there. -/
def setOperator (d : Dataflow) (name : String) (operator : Operator) : Dataflow :=
  { d with stages := d.stages.adjust name fun stage => { stage with operator := operator } }

/-- Replaces the configuration of an operator. -/
def configure (d : Dataflow) (name : String) (config : Json) : Except Cause Dataflow :=
  match d.stage? name with
  | none => .error (.unknownOperator name)
  | some stage => (stage.operator.configure config).map (d.setOperator name)

/-- Sets properties of an operator. -/
def setProperties (d : Dataflow) (name : String) (properties : SortedMap String String) :
    Except Cause Dataflow :=
  match d.stage? name with
  | none => .error (.unknownOperator name)
  | some stage => (stage.operator.setProperties properties).map (d.setOperator name)

/-! ## Streams -/

/-- Adds a stream without sinks. -/
def addStream (d : Dataflow) (name : String) (source : PortAddress) : Except Cause Dataflow :=
  if (d.stream? name).isSome then .error (.streamExists name)
  else do
    let _ ← d.outputPort source
    return { d with streams := d.streams.insert name ⟨name, source, []⟩ }

/-- Whether one sink may be attached, after the sinks in `seen`. -/
def checkSink (d : Dataflow) (source : PortAddress) (sourcePort : Port) (seen : List PortAddress)
    (sink : PortAddress) : Except Cause Unit := do
  let sinkPort ← d.inputPort sink
  if sink ∈ seen then throw (.sinkRepeated sink)
  if let some s := d.streamInto? sink then throw (.sinkTaken sink s.name)
  if d.config.strictTypes && !sourcePort.fits sinkPort then
    throw (.typesDiffer source sourcePort.dataType sink sinkPort.dataType)
  if sink.operator = source.operator || d.leadsTo sink.operator source.operator then
    throw (.closesCycle source sink)

/-- Checks sinks one after the other against the plan as it is. -/
def checkEach (d : Dataflow) (source : PortAddress) (sourcePort : Port) :
    List PortAddress → List PortAddress → Except Cause Unit
  | _, [] => .ok ()
  | seen, sink :: rest => do
    d.checkSink source sourcePort seen sink
    d.checkEach source sourcePort (sink :: seen) rest

/-- Whether the sinks may all be attached to a stream from `source`. -/
def checkSinks (d : Dataflow) (source : PortAddress) (sinks : List PortAddress) :
    Except Cause Unit := do
  let sourcePort ← d.outputPort source
  d.checkEach source sourcePort [] sinks

/-- Puts a sink at the end of a stream's sinks. -/
def attach (d : Dataflow) (stream : String) (sink : PortAddress) : Dataflow :=
  { d with streams := d.streams.adjust stream fun s => { s with sinks := s.sinks ++ [sink] } }

def addSink (d : Dataflow) (stream : String) (sink : PortAddress) : Except Cause Dataflow :=
  match d.stream? stream with
  | none => .error (.unknownStream stream)
  | some s => do
    d.checkSinks s.source [sink]
    return d.attach stream sink

/-- Removes a stream, if it is there. -/
def removeStream (d : Dataflow) (name : String) : Dataflow :=
  { d with streams := d.streams.erase name }

end LiveDataflow.Dataflow
