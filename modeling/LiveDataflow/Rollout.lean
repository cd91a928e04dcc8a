import LiveDataflow.Session

/-!
# Rollouts

At the end of a live session its changes become a rollout: containers to give up, instances to stop,
containers to ask for, and instances to start with the wires they have now.  A deployer carries a
rollout out.

Everything downstream of a new or rewired instance is stopped and started again, because it runs with
wires from before the change.  New instances are never stopped and removed ones never started.
Instances that an earlier session made and never deployed have no container yet; they count as new.
-/

set_option autoImplicit false

namespace LiveDataflow

structure Rollout where
  released : SortedSet ContainerId
  stopped : SortedSet InstanceId
  created : SortedSet ContainerId
  started : SortedSet InstanceId
  deriving DecidableEq

namespace Rollout

def isEmpty (r : Rollout) : Bool :=
  r.released.isEmpty && r.stopped.isEmpty && r.created.isEmpty && r.started.isEmpty

/-- One line about a rollout. -/
def summary (r : Rollout) : String :=
  s!"-{r.released.size} containers, undeploy {r.stopped.size}, +{r.created.size} containers, " ++
    s!"deploy {r.started.size}"

end Rollout

/-- Places and primes what is new, then says what is to be stopped and started. -/
def Layout.reconcile (l : Layout) (changes : ChangeSet) : Except Cause (Rollout × Layout) := do
  let added := changes.added ∪ l.unplaced
  let (placement, l) := l.place added
  let l ← l.primeAll added.toList
  let belowNew := l.dependents added
  let belowAffected := l.dependents changes.affected
  let stopped := ((belowNew \ added) ∪ belowAffected ∪ changes.removed) \ added
  let started := (belowNew ∪ belowAffected) \ changes.removed
  return (⟨placement.released, stopped, placement.created, started⟩, l)

/-- Carries out rollouts in a world of its own, and says whether it did. -/
abbrev Deployer (σ : Type) := Rollout → σ → Except PlanError Unit × σ

namespace Deployer

/-- Accepts every rollout and does nothing. -/
def accepting {σ : Type} : Deployer σ := fun _ world => (.ok (), world)

/-- Accepts every rollout and keeps it, the last one at the end. -/
def recording : Deployer (List Rollout) := fun r calls => (.ok (), calls ++ [r])

/-- Refuses every rollout. -/
def refusing {σ : Type} (e : PlanError) : Deployer σ := fun _ world => (.error e, world)

end Deployer

/-- The end of a session: what came of it, what it worked on, and the deployer's world. -/
structure Applied (σ : Type) where
  result : Except PlanError Rollout
  target : Target
  world : σ

/-- Ends a session by handing its rollout to a deployer.  Only a live session can do so. -/
def Session.apply {σ : Type} (s : Session) (deployer : Deployer σ) (world : σ) : Applied σ :=
  match s.target with
  | .plan _ => ⟨.error (.raised .needsLayout), s.target, world⟩
  | .live l =>
    match l.reconcile s.changes with
    | .error e => ⟨.error (.raised e), s.target, world⟩
    | .ok (r, l) =>
      let (answer, world) := deployer r world
      ⟨answer.map fun _ => r, .live l, world⟩

end LiveDataflow
