import LiveDataflow.Session

/-!
# Edits of a session

An edit is written down as a value before it is carried out, so that the same edits can be tried on a
dataflow first and carried out on a layout then.  A run of edits goes on after a failure.
-/

set_option autoImplicit false

namespace LiveDataflow

/-- The edits of a session. -/
inductive Edit where
  | addOperator (name : String) (operator : Operator)
  | removeOperator (name : String)
  | addStream (stream : String) (source : PortAddress) (sinks : List PortAddress)
  | addSinks (stream : String) (sinks : List PortAddress)
  | addStreamBetween (stream : String) (source sink : PortAddress)
  | addSink (stream : String) (sink : PortAddress)
  | removeStream (stream : String)
  | setProperty (operator property value : String)

namespace Edit

/-- Carries out an edit; those that attach sinks to a stream answer the stream. -/
def perform : Edit → Editing (Option Stream)
  | addOperator name operator => do Editing.addOperator name operator; return none
  | removeOperator name => do Editing.removeOperator name; return none
  | addStream stream source sinks => return some (← Editing.addStream stream source sinks)
  | addSinks stream sinks => return some (← Editing.addSinks stream sinks)
  | addStreamBetween stream source sink => do
    Editing.addStreamBetween stream source sink; return none
  | addSink stream sink => do Editing.addSink stream sink; return none
  | removeStream stream => do Editing.removeStream stream; return none
  | setProperty operator property value => do
    Editing.setProperty operator property value; return none

end Edit

/-- What came of an edit, and the session after it. -/
structure Step where
  result : Except Cause (Option Stream)
  after : Session

namespace Session

def step (s : Session) (e : Edit) : Step :=
  let (result, after) := (e.perform.run).run s
  ⟨result, after⟩

/-- Carries out all edits, whatever comes of them. -/
def runAll (s : Session) : List Edit → List Step × Session
  | [] => ([], s)
  | e :: rest =>
    let step := s.step e
    let (steps, last) := step.after.runAll rest
    (step :: steps, last)

end Session

end LiveDataflow
