import LiveDataflow.Proofs.History

/-!
# How plans are built

A plan is built from an empty one by calls and by the edits of sessions, on the plan alone or on a
layout of it.  Seven changes are behind all of these, so what each of the seven keeps is true of every
plan that is built.

## Results

* `Dataflow.Built`: the plans that can be built.
* `Dataflow.Invariant`: what the changes of a plan keep, one by one.
* `Dataflow.Invariant.holds`: every plan that is built has it.
* `Dataflow.Pruned`: a plan of which streams were taken, or sinks from streams.
-/

set_option autoImplicit false

namespace LiveDataflow.Dataflow

variable {d d' : Dataflow} {name : String} {relabels : Bool}

/-! ## Calls and edits -/

/-- What a program can call on a plan to change it; with `relabels` it may also give a stage another
label.  A call that fails leaves the plan as it is. -/
inductive Call (relabels : Bool) : Dataflow → Dataflow → Prop
  | addStage {d d' : Dataflow} (name : String) (operator : Operator) :
      d.addStage name operator = .ok d' → Call relabels d d'
  | setPartitions {d d' : Dataflow} (name : String) (count : Nat) :
      d.setPartitions name count = .ok d' → Call relabels d d'
  | removeStage {d : Dataflow} (name : String) : Call relabels d (d.removeStage name)
  | relabel {d : Dataflow} (name label : String) :
      relabels = true → Call relabels d (d.relabel name label)
  | configure {d d' : Dataflow} (name : String) (config : Json) :
      d.configure name config = .ok d' → Call relabels d d'
  | setProperties {d d' : Dataflow} (name : String) (properties : SortedMap String String) :
      d.setProperties name properties = .ok d' → Call relabels d d'
  | addStream {d d' : Dataflow} (name : String) (source : PortAddress) :
      d.addStream name source = .ok d' → Call relabels d d'
  | addSink {d d' : Dataflow} (stream : String) (sink : PortAddress) :
      d.addSink stream sink = .ok d' → Call relabels d d'
  | removeStream {d : Dataflow} (name : String) : Call relabels d (d.removeStream name)

/-- The plans that can be built. -/
inductive Built (relabels : Bool) : Dataflow → Prop
  | empty (config : Config) : Built relabels (.empty config)
  | call {d d' : Dataflow} : Built relabels d → d.Call relabels d' → Built relabels d'
  /-- An edit of a session, on the plan alone or on any layout of it. -/
  | edit {s : Session} (e : Edit) : Built relabels s.dataflow → Built relabels (s.step e).after.dataflow

/-! ## What changes keep -/

/-- What each change of a plan keeps. -/
structure Invariant (relabels : Bool) (P : Dataflow → Prop) : Prop where
  empty : ∀ config, P (.empty config)
  insert : ∀ {d : Dataflow} {name : String} (operator : Operator), P d → d.stage? name = none →
    P { d with stages := d.stages.insert name (d.newStage name operator) }
  /-- A stage is changed in place.  Its ports stay as they were declared, and it keeps a partition. -/
  adjust : ∀ {d : Dataflow} {f : Stage → Stage} (name : String), P d →
    (∀ stage, (f stage).ports = stage.ports) →
    (relabels = false → ∀ stage, (f stage).label = stage.label) →
    (∀ stage, stage.partitions ≠ 0 → (f stage).partitions ≠ 0) →
    P { d with stages := d.stages.adjust name f }
  removeStage : ∀ {d : Dataflow} {name : String}, P d → (d.stage? name).isSome = true →
    P (d.removeStage name)
  insertStream : ∀ {d : Dataflow} {name : String} {source : PortAddress} {p : Port}, P d →
    d.stream? name = none → d.outputPort source = .ok p →
    P { d with streams := d.streams.insert name ⟨name, source, []⟩ }
  attach : ∀ {d : Dataflow} {stream : String} {s : Stream} {sink : PortAddress}, d.Anchored → P d →
    d.stream? stream = some s → d.checkSinks s.source [sink] = .ok () → P (d.attach stream sink)
  removeStream : ∀ {d : Dataflow} (name : String), P d → P (d.removeStream name)

namespace Invariant

variable {P : Dataflow → Prop}

theorem setOperator (hP : Invariant relabels P) (h : P d) (operator : Operator) :
    P (d.setOperator name operator) :=
  hP.adjust name h (fun _ => rfl) (fun _ _ => rfl) fun _ hp => hp

theorem removeAny (hP : Invariant relabels P) (h : P d) (name : String) : P (d.removeStage name) := by
  cases hstage : d.stage? name with
  | none => rw [removeStage_of_absent hstage]; exact h
  | some stage => exact hP.removeStage h (by rw [hstage]; rfl)

theorem call (hP : Invariant relabels P) (ha : d.Anchored) (h : P d) (hc : d.Call relabels d') :
    P d' := by
  cases hc with
  | addStage name operator hok =>
    obtain ⟨hname, rfl⟩ := addStage_eq_ok_iff.1 hok
    exact hP.insert operator h hname
  | setPartitions name count hok =>
    obtain ⟨hcount, _, rfl⟩ := setPartitions_eq_ok_iff.1 hok
    exact hP.adjust name h (fun _ => rfl) (fun _ _ => rfl) fun _ _ => hcount
  | removeStage name => exact hP.removeAny h name
  | relabel name label hrelabels =>
    exact hP.adjust name h (fun _ => rfl) (fun hno => by rw [hrelabels] at hno; cases hno) fun _ hp => hp
  | configure name config hok =>
    obtain ⟨_, o, _, _, rfl⟩ := configure_eq_ok_iff.1 hok
    exact hP.setOperator h o
  | setProperties name properties hok =>
    obtain ⟨_, o, _, _, rfl⟩ := setProperties_eq_ok_iff.1 hok
    exact hP.setOperator h o
  | addStream name source hok =>
    obtain ⟨hname, ⟨p, hp⟩, rfl⟩ := addStream_eq_ok_iff.1 hok
    exact hP.insertStream h hname hp
  | addSink stream sink hok =>
    obtain ⟨s, hs, hc, rfl⟩ := addSink_eq_ok_iff.1 hok
    exact hP.attach ha h hs hc
  | removeStream name => exact hP.removeStream name h

theorem after (hP : Invariant relabels P) (ha : d.Anchored) (h : P d) {m : Move} (hm : d.Admits m) :
    P (d.after m) := by
  cases m with
  | addStage name operator => exact hP.insert operator h hm
  | removeStage name => exact hP.removeStage h hm.1
  | setOperator name operator => exact hP.setOperator h operator
  | addStream stream source =>
    obtain ⟨hname, p, hp⟩ := hm
    exact hP.insertStream h hname hp
  | attach stream sink =>
    obtain ⟨s, hs, hc⟩ := hm
    exact hP.attach ha h hs hc
  | removeStream stream => exact hP.removeStream stream h

end Invariant

theorem Call.method (h : d.Call relabels d') : d.Method d' := by
  cases h with
  | addStage name operator hok => exact .addStage name operator hok
  | setPartitions name count hok => exact .setPartitions name count hok
  | removeStage name => exact .removeStage name
  | relabel name label _ => exact .rewrite name _
  | configure name config hok => exact .configure name config hok
  | setProperties name properties hok => exact .setProperties name properties hok
  | addStream name source hok => exact .addStream name source hok
  | addSink stream sink hok => exact .addSink stream sink hok
  | removeStream name => exact .removeStream name

theorem Built.anchored (h : d.Built relabels) : d.Anchored := by
  induction h with
  | empty config => exact .empty config
  | call _ hc ih => exact hc.method.anchored ih
  | edit e _ ih => exact Session.anchored_step e ih

theorem Built.runAll {s : Session} (h : s.dataflow.Built relabels) (edits : List Edit) :
    (s.runAll edits).2.dataflow.Built relabels :=
  Session.runAll_keeps (P := fun s => s.dataflow.Built relabels) (fun _ e hs => .edit e hs) h edits

/-- **What every change keeps, all plans that are built have.**  An edit that is refused changes nothing,
and one that is not comes to moves, each granted by the plan that it is made on. -/
theorem Invariant.holds {P : Dataflow → Prop} (hP : Invariant relabels P) (h : d.Built relabels) :
    P d := by
  induction h with
  | empty config => exact hP.empty config
  | call hd hc ih => exact hP.call hd.anchored ih hc
  | edit e hd ih =>
    have hmove : ∀ (s : Session) (m : Move), (s.dataflow.Anchored ∧ P s.dataflow) →
        s.dataflow.Admits m → (s.after m).dataflow.Anchored ∧ P (s.after m).dataflow := by
      intro s m hs hm
      rw [s.dataflow_after]
      exact ⟨hs.1.after hm, hP.after hs.1 hs.2 hm⟩
    exact (Session.step_keeps hmove hd.anchored ⟨hd.anchored, ih⟩ e).2

/-! ## Streams that are cut -/

/-- Every stream of the second plan is one of the first, perhaps without some of its sinks. -/
def Pruned (d d' : Dataflow) : Prop :=
  ∀ name s, d'.stream? name = some s →
    ∃ t, d.stream? name = some t ∧ s.source = t.source ∧ s.sinks.Sublist t.sinks

theorem pruned_of_streams (h : d'.streams = d.streams) : d.Pruned d' := by
  intro name s hs
  refine ⟨s, ?_, rfl, .refl _⟩
  unfold stream? at hs ⊢
  rw [← h]
  exact hs

theorem pruned_removeStage (h : (d.stage? name).isSome = true) : d.Pruned (d.removeStage name) := by
  intro stream s hs
  obtain ⟨t, ht, _, rfl⟩ := exists_of_stream?_removeStage h hs
  exact ⟨t, ht, rfl, List.filter_sublist⟩

theorem pruned_removeStream : d.Pruned (d.removeStream name) := by
  intro stream s hs
  rw [stream?_removeStream] at hs
  split at hs
  · cases hs
  · exact ⟨s, hs, rfl, .refl _⟩

theorem Pruned.links_subset (h : d.Pruned d') : d'.links ⊆ d.links := by
  intro e he
  obtain ⟨name, s, hs, a, ha, rfl⟩ := mem_links_iff.1 he
  obtain ⟨t, ht, hsource, hsinks⟩ := h name s hs
  exact mem_links_iff.2 ⟨name, t, ht, a, hsinks.subset ha, by rw [hsource]⟩

end LiveDataflow.Dataflow
