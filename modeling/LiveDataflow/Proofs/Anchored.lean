import LiveDataflow.Proofs.Attachment
import LiveDataflow.Proofs.Sorted

/-!
# Streams are anchored in stages

Every stream of a plan is filed under its own name, and every port it joins belongs to a stage of the
plan.  Adding a stage therefore touches no stream, and taking it out again restores the plan.

## Results

* `Dataflow.Anchored`: the invariant.
* `Dataflow.Anchored.adjust`, `Dataflow.Anchored.insert`, `Dataflow.Anchored.removeStage`,
  `Dataflow.Anchored.insertStream`, `Dataflow.Anchored.attach`, `Dataflow.Anchored.removeStream`:
  every change of a plan keeps it.
* `Dataflow.Anchored.removeStage_insert`: a stage that was added can be taken out without a trace.
-/

set_option autoImplicit false

namespace LiveDataflow.Dataflow

variable {d d' : Dataflow} {name : String} {source sink : PortAddress} {operator : Operator}

/-- Streams are filed under their names and join ports of stages. -/
structure Anchored (d : Dataflow) : Prop where
  keyed : ∀ name s, d.stream? name = some s → s.name = name
  source : ∀ name s, d.stream? name = some s → (d.stage? s.source.operator).isSome = true
  sinks : ∀ name s, d.stream? name = some s → ∀ a ∈ s.sinks, (d.stage? a.operator).isSome = true

theorem stage?_isSome_of_findPort {table : PortTable → SortedMap String Port} {a : PortAddress}
    {p : Port} (h : d.findPort table a = .ok p) : (d.stage? a.operator).isSome = true := by
  unfold findPort at h
  split at h
  · cases h
  · rename_i hs
    rw [hs]; rfl

theorem Anchored.empty (config : Config) : (empty config).Anchored :=
  ⟨fun _ _ h => (nomatch h), fun _ _ h => (nomatch h), fun _ _ h => (nomatch h)⟩

/-! ## Stages -/

/-- Streams stay anchored as long as no stage goes. -/
theorem Anchored.of_stages (h : d.Anchored) (hstreams : d'.streams = d.streams)
    (hstages : ∀ name, (d.stage? name).isSome = true → (d'.stage? name).isSome = true) :
    d'.Anchored := by
  have hstream : ∀ name, d'.stream? name = d.stream? name := fun name => by
    unfold stream?; rw [hstreams]
  refine ⟨fun name s hs => ?_, fun name s hs => ?_, fun name s hs a ha => ?_⟩ <;>
    rw [hstream] at hs
  · exact h.keyed name s hs
  · exact hstages _ (h.source name s hs)
  · exact hstages _ (h.sinks name s hs a ha)

theorem stage?_adjust {f : Stage → Stage} {j : String} :
    ({ d with stages := d.stages.adjust name f } : Dataflow).stage? j =
      if name = j then (d.stage? j).map f else d.stage? j :=
  SortedMap.get?_adjust ..

theorem isSome_stage?_adjust {f : Stage → Stage} {j : String} :
    (({ d with stages := d.stages.adjust name f } : Dataflow).stage? j).isSome =
      (d.stage? j).isSome := by
  rw [stage?_adjust]
  split <;> simp

theorem Anchored.adjust (h : d.Anchored) (f : Stage → Stage) :
    ({ d with stages := d.stages.adjust name f } : Dataflow).Anchored :=
  h.of_stages rfl fun j hj => by rw [isSome_stage?_adjust]; exact hj

theorem stage?_insert {stage : Stage} {j : String} :
    ({ d with stages := d.stages.insert name stage } : Dataflow).stage? j =
      if name = j then some stage else d.stage? j :=
  SortedMap.get?_insert ..

theorem Anchored.insert (h : d.Anchored) (stage : Stage) :
    ({ d with stages := d.stages.insert name stage } : Dataflow).Anchored :=
  h.of_stages rfl fun j hj => by rw [stage?_insert]; split <;> simp [hj]

theorem contains_stages : d.stages.contains name = (d.stage? name).isSome := rfl

theorem addStage_eq_ok_iff :
    d.addStage name operator = .ok d' ↔
      d.stage? name = none ∧ d' = { d with stages := d.stages.insert name (d.newStage name operator) } := by
  unfold addStage
  rw [contains_stages]
  cases hs : d.stage? name with
  | some stage => simp
  | none => simp [eq_comm]

theorem setPartitions_eq_ok_iff {count : Nat} :
    d.setPartitions name count = .ok d' ↔
      count ≠ 0 ∧ (d.stage? name).isSome = true ∧
        d' = { d with stages := d.stages.adjust name fun stage => { stage with partitions := count } } := by
  unfold setPartitions
  rw [contains_stages]
  by_cases hcount : count = 0
  · simp [hcount]
  · cases (d.stage? name).isSome <;> simp [hcount, eq_comm]

theorem configure_eq_ok_iff {config : Json} :
    d.configure name config = .ok d' ↔ ∃ stage o, d.stage? name = some stage ∧
      stage.operator.configure config = .ok o ∧ d' = d.setOperator name o := by
  unfold configure
  cases d.stage? name with
  | none => simp
  | some stage => cases h : stage.operator.configure config <;> simp [h, Except.map, eq_comm]

theorem setProperties_eq_ok_iff {properties : SortedMap String String} :
    d.setProperties name properties = .ok d' ↔ ∃ stage o, d.stage? name = some stage ∧
      stage.operator.setProperties properties = .ok o ∧ d' = d.setOperator name o := by
  unfold setProperties
  cases d.stage? name with
  | none => simp
  | some stage => cases h : stage.operator.setProperties properties <;> simp [h, Except.map, eq_comm]

/-! ## Removing a stage -/

theorem stage?_removeStage {j : String} :
    (d.removeStage name).stage? j = if name = j then none else d.stage? j := by
  unfold removeStage
  split
  · exact SortedMap.get?_erase ..
  · rename_i hno
    split
    · rename_i hj
      subst hj
      rw [contains_stages] at hno
      simpa using hno
    · rfl

theorem stream?_removeStage (h : (d.stage? name).isSome = true) {stream : String} :
    (d.removeStage name).stream? stream =
      ((d.stream? stream).filter fun s => s.source.operator ≠ name).map fun s =>
        { s with sinks := s.sinks.filter (·.operator ≠ name) } := by
  unfold removeStage
  rw [if_pos (by rw [contains_stages]; exact h)]
  exact (SortedMap.get?_mapValues ..).trans (congrArg _ (SortedMap.get?_filter ..))

theorem removeStage_of_absent (h : d.stage? name = none) : d.removeStage name = d := by
  unfold removeStage
  rw [if_neg (by rw [contains_stages, h]; simp)]

/-- A stream that is left after a removal was there, with sinks on the stage that are gone now. -/
theorem exists_of_stream?_removeStage (h : (d.stage? name).isSome = true) {stream : String}
    {s : Stream} (hs : (d.removeStage name).stream? stream = some s) :
    ∃ t, d.stream? stream = some t ∧ t.source.operator ≠ name ∧
      s = { t with sinks := t.sinks.filter (·.operator ≠ name) } := by
  rw [stream?_removeStage h, Option.map_eq_some_iff] at hs
  obtain ⟨t, ht, rfl⟩ := hs
  obtain ⟨ht, hne⟩ := Option.filter_eq_some_iff.1 ht
  exact ⟨t, ht, by simpa using hne, rfl⟩

theorem Anchored.removeStage (h : d.Anchored) (name : String) : (d.removeStage name).Anchored := by
  cases hstage : d.stage? name with
  | none => rw [removeStage_of_absent hstage]; exact h
  | some stage =>
    have hsome : (d.stage? name).isSome = true := by rw [hstage]; rfl
    refine ⟨fun stream s hs => ?_, fun stream s hs => ?_, fun stream s hs a ha => ?_⟩ <;>
      obtain ⟨t, ht, hne, rfl⟩ := exists_of_stream?_removeStage hsome hs
    · exact h.keyed stream t ht
    · rw [stage?_removeStage, if_neg (Ne.symm hne)]
      exact h.source stream t ht
    · obtain ⟨ha, hna⟩ := List.mem_filter.1 ha
      rw [stage?_removeStage, if_neg fun e => by simp [e] at hna]
      exact h.sinks stream t ht a ha

/-- **A stage that was added can be taken out without a trace.** -/
theorem Anchored.removeStage_insert (h : d.Anchored) (hname : d.stage? name = none) (stage : Stage) :
    ({ d with stages := d.stages.insert name stage } : Dataflow).removeStage name = d := by
  have hne : ∀ stream s, d.streams.get? stream = some s →
      s.source.operator ≠ name ∧ ∀ a ∈ s.sinks, a.operator ≠ name := by
    intro stream s hs
    refine ⟨fun e => ?_, fun a ha e => ?_⟩
    · have := h.source stream s hs
      rw [e, hname] at this; cases this
    · have := h.sinks stream s hs a ha
      rw [e, hname] at this; cases this
  have hstages : (d.stages.insert name stage).erase name = d.stages :=
    SortedMap.erase_insert stage hname
  have hfilter : d.streams.filter (fun _ s => s.source.operator ≠ name) = d.streams :=
    SortedMap.filter_eq_self fun stream s hs => by simpa using (hne stream s hs).1
  have hmap : (d.streams.mapValues fun _ s =>
      { s with sinks := s.sinks.filter (·.operator ≠ name) }) = d.streams := by
    refine SortedMap.mapValues_eq_self fun stream s hs => ?_
    have : s.sinks.filter (·.operator ≠ name) = s.sinks :=
      List.filter_eq_self.2 fun a ha => by simpa using (hne stream s hs).2 a ha
    rw [this]
  unfold Dataflow.removeStage
  rw [if_pos (by rw [contains_stages, stage?_insert, if_pos rfl]; rfl)]
  show ({ d with stages := _, streams := _ } : Dataflow) = d
  rw [hstages, hfilter, hmap]

/-! ## Streams -/

theorem stream?_insert {stream : Stream} {j : String} :
    ({ d with streams := d.streams.insert name stream } : Dataflow).stream? j =
      if name = j then some stream else d.stream? j :=
  SortedMap.get?_insert ..

/-- A stream that is there after one was added is the new one or was there. -/
theorem eq_or_of_stream?_insert {stream s : Stream} {j : String}
    (hs : ({ d with streams := d.streams.insert name stream } : Dataflow).stream? j = some s) :
    (name = j ∧ s = stream) ∨ d.stream? j = some s := by
  rw [stream?_insert] at hs
  split at hs
  · rename_i hj
    cases hs
    exact .inl ⟨hj, rfl⟩
  · exact .inr hs

theorem stream?_removeStream {j : String} :
    (d.removeStream name).stream? j = if name = j then none else d.stream? j :=
  SortedMap.get?_erase ..

theorem addStream_eq_ok_iff :
    d.addStream name source = .ok d' ↔
      d.stream? name = none ∧ (∃ p, d.outputPort source = .ok p) ∧
        d' = { d with streams := d.streams.insert name ⟨name, source, []⟩ } := by
  unfold addStream
  cases hs : d.stream? name with
  | some s => simp
  | none =>
    cases hp : d.outputPort source with
    | error c => simp [bind, Except.bind]
    | ok p => simp [bind, Except.bind, pure, Except.pure, eq_comm]

theorem Anchored.insertStream (h : d.Anchored) (hsource : (d.stage? source.operator).isSome = true) :
    ({ d with streams := d.streams.insert name ⟨name, source, []⟩ } : Dataflow).Anchored := by
  refine ⟨fun j s hs => ?_, fun j s hs => ?_, fun j s hs a ha => ?_⟩ <;>
    rcases eq_or_of_stream?_insert hs with ⟨hj, rfl⟩ | hold
  · exact hj
  · exact h.keyed j s hold
  · exact hsource
  · exact h.source j s hold
  · cases ha
  · exact h.sinks j s hold a ha

theorem addSink_eq_ok_iff :
    d.addSink name sink = .ok d' ↔
      ∃ s, d.stream? name = some s ∧ d.checkSinks s.source [sink] = .ok () ∧ d' = d.attach name sink := by
  unfold addSink
  cases hs : d.stream? name with
  | none => simp
  | some s =>
    cases hc : d.checkSinks s.source [sink] with
    | error c => simp [hc, bind, Except.bind]
    | ok u => simp [hc, bind, Except.bind, pure, Except.pure, eq_comm]

/-- Only the stream that gets the sink differs. -/
theorem exists_of_stream?_attach {stream : String} {s : Stream}
    (hs : (d.attach stream sink).stream? name = some s) :
    ∃ t, d.stream? name = some t ∧
      (s = t ∨ (stream = name ∧ s = { t with sinks := t.sinks ++ [sink] })) := by
  rw [stream?_attach] at hs
  split at hs
  · rename_i hname
    obtain ⟨t, ht, rfl⟩ := Option.map_eq_some_iff.1 hs
    exact ⟨t, ht, .inr ⟨hname, rfl⟩⟩
  · exact ⟨s, hs, .inl rfl⟩

theorem Anchored.attach (h : d.Anchored) (hsink : (d.stage? sink.operator).isSome = true) :
    (d.attach name sink).Anchored := by
  refine ⟨fun j s hs => ?_, fun j s hs => ?_, fun j s hs a ha => ?_⟩ <;>
    obtain ⟨t, ht, rfl | ⟨_, rfl⟩⟩ := exists_of_stream?_attach hs
  · exact h.keyed j s ht
  · exact h.keyed j t ht
  · exact h.source j s ht
  · exact h.source j t ht
  · exact h.sinks j s ht a ha
  · rcases List.mem_append.1 ha with ha | ha
    · exact h.sinks j t ht a ha
    · rw [List.mem_singleton.1 ha]; exact hsink

theorem isSome_stage?_of_checkSinks {sinks : List PortAddress}
    (h : d.checkSinks source sinks = .ok ()) :
    ∀ a ∈ sinks, (d.stage? a.operator).isSome = true := by
  obtain ⟨p, _, _, hall⟩ := checkSinks_eq_ok_iff.1 h
  intro a ha
  obtain ⟨q, hq, _⟩ := (hall a ha).declared
  exact stage?_isSome_of_findPort hq

theorem Anchored.removeStream (h : d.Anchored) (name : String) : (d.removeStream name).Anchored := by
  refine ⟨fun j s hs => ?_, fun j s hs => ?_, fun j s hs a ha => ?_⟩ <;>
    rw [stream?_removeStream] at hs <;> split at hs
  · cases hs
  · exact h.keyed j s hs
  · cases hs
  · exact h.source j s hs
  · cases hs
  · exact h.sinks j s hs a ha

end LiveDataflow.Dataflow
