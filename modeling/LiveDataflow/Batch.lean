import LiveDataflow.Rollout
import LiveDataflow.Session.Edit

/-!
# Batches

A batch is a list of edits that is carried out as a whole.  It is tried on a copy of the dataflow
first; only if all of it succeeds there and leaves a valid plan is it carried out on the layout and
handed to the deployer.
-/

set_option autoImplicit false

namespace LiveDataflow

/-- Edits to be carried out in order. -/
structure Batch where
  edits : List Edit
  /-- Whether the first failure ends the batch; if not, failures are passed over. -/
  stopAtFailure : Bool := true

/-- What a batch did to a session. -/
structure Pass where
  steps : List Step
  result : Except Cause Unit
  last : Session

namespace Batch

def runEdits (stopAtFailure : Bool) : List Edit → Session → Pass
  | [], s => ⟨[], .ok (), s⟩
  | e :: rest, s =>
    let step := s.step e
    match step.result, stopAtFailure with
    | .error cause, true => ⟨[step], .error cause, step.after⟩
    | _, _ =>
      let pass := runEdits stopAtFailure rest step.after
      { pass with steps := step :: pass.steps }

def run (b : Batch) (s : Session) : Pass := runEdits b.stopAtFailure b.edits s

end Batch

/-- A trial of a batch, and the valid dataflow that it leads to. -/
structure Trial where
  pass : Pass
  result : Except Cause Dataflow

/-- Tries a batch on a copy of a dataflow. -/
def Dataflow.dryRun (d : Dataflow) (b : Batch) : Trial :=
  let pass := b.run (.onPlan d)
  let after := pass.last.dataflow
  ⟨pass, do pass.result; after.validate; return after⟩

/-- What came of modifying a layout: the passes over the batch, the layout after it, and the
deployer's world. -/
structure Modified (σ : Type) where
  passes : List Pass
  result : Except PlanError Rollout
  target : Target
  world : σ

/-- Tries a batch, then carries it out and hands it to the deployer. -/
def Layout.modify {σ : Type} (l : Layout) (b : Batch) (deployer : Deployer σ) (world : σ) :
    Modified σ :=
  let trial := l.dataflow.dryRun b
  match trial.result with
  | .error cause => ⟨[trial.pass], .error (.raised cause), .live l, world⟩
  | .ok _ =>
    let pass := b.run (.onLayout l)
    match pass.result with
    | .error cause => ⟨[trial.pass, pass], .error (.raised cause), pass.last.target, world⟩
    | .ok () =>
      let applied := pass.last.apply deployer world
      ⟨[trial.pass, pass], applied.result, applied.target, applied.world⟩

end LiveDataflow
