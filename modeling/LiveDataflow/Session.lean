import LiveDataflow.Dataflow.Change
import LiveDataflow.Layout.Change
import LiveDataflow.Session.ChangeSet

/-!
# Sessions

A session is a run of edits.  It works on a dataflow alone, to try the edits out, or on a layout,
whose dataflow and instances it changes together.  An edit checks before it changes, so one that
fails leaves the session as it was; edits before it are not taken back.

An edit is a computation that keeps the session it has reached when it fails.  That a failing edit
changes nothing is therefore a fact about the edits and not about the way they are written.  The
computations are here; `LiveDataflow.Session.Edit` names them as values and runs lists of them.
-/

set_option autoImplicit false

namespace LiveDataflow

/-- What a session works on. -/
inductive Target where
  /-- A dataflow alone. -/
  | plan (dataflow : Dataflow)
  /-- A layout with its dataflow. -/
  | live (layout : Layout)

namespace Target

def dataflow : Target → Dataflow
  | plan d => d
  | live l => l.dataflow

def withDataflow (t : Target) (d : Dataflow) : Target :=
  match t with
  | plan _ => plan d
  | live l => live { l with dataflow := d }

def isLive : Target → Bool
  | plan _ => false
  | live _ => true

end Target

structure Session where
  target : Target
  changes : ChangeSet

/-- A computation on a session that may fail; the session it has reached stays. -/
abbrev Editing := ExceptT Cause (StateM Session)

namespace Session

def onPlan (d : Dataflow) : Session := ⟨.plan d, ∅⟩

def onLayout (l : Layout) : Session := ⟨.live l, ∅⟩

def dataflow (s : Session) : Dataflow := s.target.dataflow

def isLive (s : Session) : Bool := s.target.isLive

end Session

namespace Editing

/-! ## Steps -/

def currentDataflow : Editing Dataflow := return (← get).dataflow

/-- Fails if the check does. -/
def check (test : Except Cause Unit) : Editing Unit :=
  match test with
  | .ok () => return ()
  | .error e => throw e

/-- Replaces the dataflow. -/
def putDataflow (d : Dataflow) : Editing Unit :=
  modify fun s => { s with target := s.target.withDataflow d }

/-- Changes the dataflow, or fails and leaves it. -/
def changeDataflow (f : Dataflow → Except Cause Dataflow) : Editing Unit := do
  match f (← currentDataflow) with
  | .ok d => putDataflow d
  | .error e => throw e

/-- Changes the layout of a live session and keeps account of it; does nothing without a layout. -/
def changeLayout (f : Layout → Except Cause (List InstanceId × Layout))
    (record : ChangeSet → List InstanceId → ChangeSet) : Editing Unit := do
  let s ← get
  match s.target with
  | .plan _ => return ()
  | .live l =>
    match f l with
    | .ok (ids, l) => set ({ target := .live l, changes := record s.changes ids } : Session)
    | .error e => throw e

/-! ## Streams -/

def requireStream (name : String) : Editing Stream := do
  match (← currentDataflow).stream? name with
  | some s => return s
  | none => throw (.unknownStream name)

/-- Attaches one sink, to the dataflow first and then to the layout. -/
def attachSink (stream : String) (sink : PortAddress) : Editing Unit := do
  changeDataflow (·.addSink stream sink)
  changeLayout (fun l => (l.connectSink stream sink).map fun (ids, l) => (ids.toList, l))
    ChangeSet.recordAffected

/-- Attaches sinks one after the other. -/
def attachSinks (stream : String) : List PortAddress → Editing Unit
  | [] => return ()
  | sink :: rest => do
    attachSink stream sink
    attachSinks stream rest

/-- Attaches sinks to a stream that is there. -/
def addSinks (stream : String) (sinks : List PortAddress) : Editing Stream := do
  let s ← requireStream stream
  check ((← currentDataflow).checkSinks s.source sinks)
  attachSinks stream sinks
  requireStream stream

/-- Adds a stream with its sinks.  If it is there with the same source, it gets the sinks. -/
def addStream (stream : String) (source : PortAddress) (sinks : List PortAddress) :
    Editing Stream := do
  match (← currentDataflow).stream? stream with
  | some s => if s.source ≠ source then throw (.otherSource stream s.source)
  | none =>
    check ((← currentDataflow).checkSinks source sinks)
    changeDataflow (·.addStream stream source)
  addSinks stream sinks

def requireInput (sink : PortAddress) : Editing Unit := do
  match (← currentDataflow).inputPort sink with
  | .ok _ => return ()
  | .error e => throw e

/-- Adds a stream between two ports. -/
def addStreamBetween (stream : String) (source sink : PortAddress) : Editing Unit := do
  match (← currentDataflow).stage? source.operator with
  | none => throw (.unknownSource source.operator)
  | some stage =>
    if !stage.ports.outputs.contains source.port then
      throw (.unknownPort source.port stage.label)
  requireInput sink
  let _ ← addStream stream source [sink]

/-- Attaches one sink to a stream that is there. -/
def addSink (stream : String) (sink : PortAddress) : Editing Unit := do
  requireInput sink
  let _ ← addSinks stream [sink]

/-- Removes a stream.  Nothing happens if it is not there. -/
def removeStream (stream : String) : Editing Unit := do
  if ((← currentDataflow).stream? stream).isSome then
    changeLayout (fun l => (l.dropStream stream).map fun (ids, l) => (ids.toList, l))
      ChangeSet.recordAffected
    changeDataflow fun d => .ok (d.removeStream stream)

/-! ## Operators -/

/-- Adds an operator; a live session makes its instances.  If they are there already, the operator is
taken out again. -/
def addOperator (name : String) (operator : Operator) : Editing Unit := do
  changeDataflow (·.addStage name operator)
  try changeLayout (·.addOperator name) ChangeSet.recordAdded
  catch e =>
    changeDataflow fun d => .ok (d.removeStage name)
    throw e

/-- Removes an operator that has no output streams and is nowhere the only consumer.  Nothing happens
if it is not there. -/
def removeOperator (name : String) : Editing Unit := do
  let d ← currentDataflow
  if (d.stage? name).isSome then
    let inputs := d.inputStreams name
    if inputs.any fun s => s.sinks.all (·.operator = name) then
      throw (.onlyConsumer name (inputs.map (·.name)))
    let outputs := d.outputStreams name
    if !outputs.isEmpty then throw (.hasOutputs name (outputs.map (·.name)))
    changeDataflow fun d => .ok (d.removeStage name)
    changeLayout (fun l => let (ids, l) := l.removeOperator name; .ok (ids.toList, l))
      ChangeSet.recordRemoved

/-- Whether an operator may still be configured: all its instances were made in this session. -/
def isConfigurable (s : Session) (operator : String) : Bool :=
  match s.target with
  | .plan _ => true
  | .live l => (l.instancesOf operator).all (· ∈ s.changes.added)

/-- Sets a property of an operator.  A live session configures its own operators only. -/
def setProperty (operator property value : String) : Editing Unit := do
  let s ← get
  if (s.dataflow.stage? operator).isNone then throw (.unknownOperator operator)
  if !isConfigurable s operator then throw (.notNew operator property value)
  changeDataflow (·.setProperties operator (.ofList [(property, value)]))

end Editing

end LiveDataflow
