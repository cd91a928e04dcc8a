import LiveDataflow.Batch
import LiveDataflow.Proofs.Placement
import LiveDataflow.Proofs.Resolve

/-!
# Histories of sessions

Which sessions can come about.  `Session.Reachable` lets a program do all that it may with plans,
layouts and sessions; `Session.Live` are the sessions on a layout that only sessions and batches have
changed since it was made.

## Results

* `Batch.run_keeps`: what every edit keeps, a batch keeps.
* `Layout.modify_keeps`: what edits and the ends of sessions keep, modifying a layout keeps.
* `Session.Live.keeps`: the induction along all sessions on a layout that only these have changed.
* `Session.Reachable.anchored`: the streams of every plan are anchored in its stages.
* `Session.step_of_error`: an edit that fails changes nothing.
-/

set_option autoImplicit false

namespace LiveDataflow

/-! ## Runs of edits -/

/-- **What every edit keeps, a batch keeps.** -/
theorem Batch.run_keeps {P : Session → Prop} (hstep : ∀ s e, P s → P (s.step e).after) (b : Batch)
    {s : Session} (hs : P s) : P (b.run s).last := by
  unfold Batch.run
  induction b.edits generalizing s with
  | nil => exact hs
  | cons e rest ih =>
    unfold Batch.runEdits
    dsimp only
    split
    · exact hstep s e hs
    · exact ih (hstep s e hs)

/-- **What edits and the ends of sessions keep, modifying a layout keeps.** -/
theorem Layout.modify_keeps {σ : Type} {deployer : Deployer σ} {P : Session → Prop}
    (hstep : ∀ s e, P s → P (s.step e).after) (habandon : ∀ s, P s → P ⟨s.target, ∅⟩)
    (happly : ∀ s world, P s → P ⟨(s.apply deployer world).target, ∅⟩) {l : Layout} (b : Batch)
    (world : σ) (hl : P (.onLayout l)) : P ⟨(l.modify b deployer world).target, ∅⟩ := by
  unfold Layout.modify
  dsimp only
  split
  · exact hl
  · split
    · exact habandon _ (b.run_keeps hstep hl)
    · exact happly _ world (b.run_keeps hstep hl)

/-! ## Methods -/

/-- What can be called on a plan to change it. -/
inductive Dataflow.Method : Dataflow → Dataflow → Prop
  | addStage {d d' : Dataflow} (name : String) (operator : Operator) :
      d.addStage name operator = .ok d' → Method d d'
  | setPartitions {d d' : Dataflow} (name : String) (count : Nat) :
      d.setPartitions name count = .ok d' → Method d d'
  | removeStage {d : Dataflow} (name : String) : Method d (d.removeStage name)
  /-- A stage that was handed out is changed in any way, its label included. -/
  | rewrite {d : Dataflow} (name : String) (f : Stage → Stage) :
      Method d { d with stages := d.stages.adjust name f }
  | configure {d d' : Dataflow} (name : String) (config : Json) :
      d.configure name config = .ok d' → Method d d'
  | setProperties {d d' : Dataflow} (name : String) (properties : SortedMap String String) :
      d.setProperties name properties = .ok d' → Method d d'
  | addStream {d d' : Dataflow} (name : String) (source : PortAddress) :
      d.addStream name source = .ok d' → Method d d'
  | addSink {d d' : Dataflow} (stream : String) (sink : PortAddress) :
      d.addSink stream sink = .ok d' → Method d d'
  | removeStream {d : Dataflow} (name : String) : Method d (d.removeStream name)

/-- What can be called on a layout to change it. -/
inductive Layout.Method : Layout → Layout → Prop
  | addOperator {l l' : Layout} {ids : List InstanceId} (name : String) :
      l.addOperator name = .ok (ids, l') → Method l l'
  | removeOperator {l : Layout} (name : String) : Method l (l.removeOperator name).2
  | connectSink {l l' : Layout} {ids : SortedSet InstanceId} (stream : String) (sink : PortAddress) :
      l.connectSink stream sink = .ok (ids, l') → Method l l'
  | dropStream {l l' : Layout} {ids : SortedSet InstanceId} (stream : String) :
      l.dropStream stream = .ok (ids, l') → Method l l'
  | place {l : Layout} (ids : SortedSet InstanceId) : Method l (l.place ids).2
  | prime {l l' : Layout} (id : InstanceId) : l.prime id = .ok l' → Method l l'

namespace Session

/-! ## Sessions that can come about -/

/-- Sessions that can come about, on plans and on layouts, whatever is called on the plans and the
layouts between two sessions. -/
inductive Reachable : Session → Prop
  | empty (config : Config) : Reachable (.onPlan (.empty config))
  /-- A copy of a plan. -/
  | copy {s : Session} : Reachable s → Reachable (.onPlan s.dataflow)
  | materialize {s : Session} {l : Layout} :
      Reachable s → Layout.materialize s.dataflow = .ok l → Reachable (.onLayout l)
  | edit {s : Session} (e : Edit) : Reachable s → Reachable (s.step e).after
  /-- A session ends without being applied. -/
  | abandon {s : Session} : Reachable s → Reachable ⟨s.target, ∅⟩
  | apply {s : Session} {σ : Type} (deployer : Deployer σ) (world : σ) :
      Reachable s → Reachable ⟨(s.apply deployer world).target, ∅⟩
  | modify {l : Layout} {σ : Type} (b : Batch) (deployer : Deployer σ) (world : σ) :
      Reachable (.onLayout l) → Reachable ⟨(l.modify b deployer world).target, ∅⟩
  /-- A plan is changed by itself, that of a layout behind its back. -/
  | plan {s : Session} {d : Dataflow} :
      Reachable s → s.dataflow.Method d → Reachable ⟨s.target.withDataflow d, ∅⟩
  | layout {l l' : Layout} : Reachable (.onLayout l) → l.Method l' → Reachable (.onLayout l')

/-- Sessions on a layout that only sessions and batches have changed since it was made. -/
inductive Live : Session → Prop
  | materialize {s : Session} {l : Layout} :
      Reachable s → Layout.materialize s.dataflow = .ok l → Live (.onLayout l)
  | edit {s : Session} (e : Edit) : Live s → Live (s.step e).after
  | abandon {s : Session} : Live s → Live ⟨s.target, ∅⟩
  | apply {s : Session} {σ : Type} (deployer : Deployer σ) (world : σ) :
      Live s → Live ⟨(s.apply deployer world).target, ∅⟩
  | modify {l : Layout} {σ : Type} (b : Batch) (deployer : Deployer σ) (world : σ) :
      Live (.onLayout l) → Live ⟨(l.modify b deployer world).target, ∅⟩

theorem Live.reachable {s : Session} (h : s.Live) : s.Reachable := by
  induction h with
  | materialize hs hl => exact .materialize hs hl
  | edit e _ ih => exact .edit e ih
  | abandon _ ih => exact .abandon ih
  | apply deployer world _ ih => exact .apply deployer world ih
  | modify b deployer world _ ih => exact .modify b deployer world ih

/-- **The induction along a live history**: what every first layout has, and what every edit and every end of
a session keeps.  A batch is made of these. -/
theorem Live.keeps {P : Session → Prop} {s : Session}
    (hstart : ∀ {s l}, Reachable s → Layout.materialize s.dataflow = .ok l → P (.onLayout l))
    (hstep : ∀ {s} e, s.Live → P s → P (s.step e).after)
    (habandon : ∀ {s}, s.Live → P s → P ⟨s.target, ∅⟩)
    (happly : ∀ {s} {σ : Type} (deployer : Deployer σ) (world : σ), s.Live → P s →
      P ⟨(s.apply deployer world).target, ∅⟩) (h : s.Live) : P s := by
  induction h with
  | materialize hs hok => exact hstart hs hok
  | edit e hs ih => exact hstep e hs ih
  | abandon hs ih => exact habandon hs ih
  | apply deployer world hs ih => exact happly deployer world hs ih
  | modify b deployer world hs ih =>
    exact (Layout.modify_keeps (P := fun s => s.Live ∧ P s) (fun s e h => ⟨.edit e h.1, hstep e h.1 h.2⟩)
      (fun s h => ⟨.abandon h.1, habandon h.1 h.2⟩)
      (fun s world h => ⟨.apply deployer world h.1, happly deployer world h.1 h.2⟩) b world ⟨hs, ih⟩).2

theorem Reachable.runAll {s : Session} (h : s.Reachable) (edits : List Edit) :
    (s.runAll edits).2.Reachable :=
  runAll_keeps (fun _ e hs => .edit e hs) h edits

/-! ## Plans stay anchored -/

theorem dataflow_apply {σ : Type} (s : Session) (deployer : Deployer σ) (world : σ) :
    (s.apply deployer world).target.dataflow = s.dataflow := by
  obtain ⟨target, changes⟩ := s
  cases target with
  | plan d => rfl
  | live l =>
    obtain ⟨l', htarget, halike⟩ := exists_alike_apply deployer world
    rw [htarget]
    exact halike.dataflow

theorem anchored_step {s : Session} (e : Edit) (h : s.dataflow.Anchored) :
    (s.step e).after.dataflow.Anchored := by
  refine step_keeps (P := fun s => s.dataflow.Anchored) (fun s m hs hm => ?_) h h e
  rw [dataflow_after]
  exact hs.after hm

end Session

theorem Dataflow.Method.anchored {d d' : Dataflow} (hm : d.Method d') (h : d.Anchored) :
    d'.Anchored := by
  cases hm with
  | addStage name operator hok =>
    obtain ⟨_, rfl⟩ := addStage_eq_ok_iff.1 hok
    exact h.insert _
  | setPartitions name count hok =>
    obtain ⟨_, _, rfl⟩ := setPartitions_eq_ok_iff.1 hok
    exact h.adjust _
  | removeStage name => exact h.removeStage name
  | rewrite name f => exact h.adjust f
  | configure name config hok =>
    obtain ⟨_, o, _, _, rfl⟩ := configure_eq_ok_iff.1 hok
    exact h.adjust _
  | setProperties name properties hok =>
    obtain ⟨_, o, _, _, rfl⟩ := setProperties_eq_ok_iff.1 hok
    exact h.adjust _
  | addStream name source hok =>
    obtain ⟨_, ⟨p, hp⟩, rfl⟩ := addStream_eq_ok_iff.1 hok
    exact h.insertStream (stage?_isSome_of_findPort hp)
  | addSink stream sink hok =>
    obtain ⟨s, _, hc, rfl⟩ := addSink_eq_ok_iff.1 hok
    exact h.attach (isSome_stage?_of_checkSinks hc sink List.mem_cons_self)
  | removeStream name => exact h.removeStream name

theorem Layout.Method.dataflow {l l' : Layout} (hm : l.Method l') : l'.dataflow = l.dataflow := by
  cases hm with
  | addOperator name hok => exact dataflow_addOperator hok
  | removeOperator name => exact (without_removeOperator l name).dataflow
  | connectSink stream sink hok =>
    obtain ⟨s, _, _, _, rfl⟩ := connectSink_eq_ok_iff.1 hok
    rfl
  | dropStream stream hok =>
    obtain ⟨s, _, _, rfl⟩ := dropStream_eq_ok_iff.1 hok
    rfl
  | place ids => exact (alike_place l ids).dataflow
  | prime id hok => exact (primes_of_prime hok).alike.dataflow

theorem Layout.dataflow_addOperators {l l' : Layout} {names : List String} {ids : List InstanceId}
    (h : l.addOperators names = .ok (ids, l')) : l'.dataflow = l.dataflow :=
  addOperators_keeps (P := fun p => p.dataflow = l.dataflow) (fun hone h => (dataflow_addOperator hone).trans h)
    rfl h

theorem Layout.dataflow_materialize {d : Dataflow} {l : Layout} (h : materialize d = .ok l) :
    l.dataflow = d := by
  obtain ⟨ids, l₀, _, ha, hp⟩ := materialize_eq_ok_iff.1 h
  rw [(primes_of_primeAll hp).alike.dataflow, (alike_place l₀ _).dataflow, dataflow_addOperators ha]
  rfl

/-- **The streams of every plan are anchored in its stages.** -/
theorem Session.Reachable.anchored {s : Session} (h : s.Reachable) : s.dataflow.Anchored := by
  induction h with
  | empty config => exact .empty config
  | copy _ ih => exact ih
  | materialize _ hl ih =>
    show Dataflow.Anchored (Layout.dataflow _)
    rw [Layout.dataflow_materialize hl]
    exact ih
  | edit e _ ih => exact anchored_step e ih
  | abandon _ ih => exact ih
  | apply deployer world _ ih =>
    show Dataflow.Anchored (Target.dataflow _)
    rw [dataflow_apply]
    exact ih
  | modify b deployer world _ ih =>
    refine Layout.modify_keeps (P := fun s => s.dataflow.Anchored) (fun s e => anchored_step e)
      (fun s hs => hs) (fun s world hs => ?_) b world ih
    show Dataflow.Anchored (Target.dataflow _)
    rw [dataflow_apply]
    exact hs
  | @plan s d _ hm ih =>
    have : (Session.mk (s.target.withDataflow d) ∅).dataflow = d := by
      obtain ⟨target, changes⟩ := s
      cases target <;> rfl
    rw [this]
    exact hm.anchored ih
  | layout _ hm ih =>
    show Dataflow.Anchored (Layout.dataflow _)
    rw [hm.dataflow]
    exact ih

/-! ## Failing edits -/

/-- **An edit that fails changes nothing**, whatever was done to the plan and the layout before: not
the plan, not the layout with the numbers it will give, and not the account of the session. -/
theorem Session.step_of_error {s : Session} (h : s.Reachable) {e : Edit} {c : Cause}
    (hc : (s.step e).result = .error c) : (s.step e).after = s := by
  rw [step_eq h.anchored] at hc ⊢
  cases hr : s.resolve e with
  | error c => rfl
  | ok moves => rw [hr] at hc; cases hc

/-- An operator that hands on what it gets. -/
def Operator.relay : Operator :=
  ⟨"relay", .ofLists [⟨"in", none⟩] [⟨"out", none⟩], .fields ∅⟩

/-- A plan of one operator, and its layout. -/
def Dataflow.single : Dataflow :=
  let d := Dataflow.empty .default
  { d with stages := d.stages.insert "a" (d.newStage "a" .relay) }

def Layout.single : Layout := (Layout.materialize .single).toOption.getD (.ofDataflow .single)

theorem Session.reachable_single : (Session.onPlan .single).Reachable :=
  .plan (.empty .default) (.addStage "a" .relay rfl)

theorem Session.live_single : (Session.onLayout .single).Live := .materialize reachable_single rfl

/-- The operator is taken out behind the back of the layout: it can be put into the plan again but not
laid out, and is taken out of the plan once more. -/
theorem Session.step_of_error_rollback :
    let l : Layout := { Layout.single with dataflow := Layout.single.dataflow.removeStage "a" }
    (Session.onLayout l).Reachable ∧
      ((Session.onLayout l).step (.addOperator "a" .relay)).result =
        .error (.alreadyMaterialized "a") ∧
      ((Session.onLayout l).step (.addOperator "a" .relay)).after = .onLayout l := by
  have h : (Session.onLayout
      { Layout.single with dataflow := Layout.single.dataflow.removeStage "a" }).Reachable :=
    .plan live_single.reachable (.removeStage "a")
  exact ⟨h, rfl, step_of_error h rfl⟩

end LiveDataflow
