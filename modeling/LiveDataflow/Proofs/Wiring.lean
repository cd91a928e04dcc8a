import Mathlib.Data.List.Nodup
import LiveDataflow.Layout.Change
import LiveDataflow.Proofs.Sorted

/-!
# What the changes of a layout do

One description for each change of a layout, in terms of what can be looked up in it afterwards.
Later proofs use these and do not open the changes again.

## Results

* `Layout.wires_only_foldl_wireStream`, `Layout.mem_wires_foldl_wireStream`: wiring streams adds
  their meshes and touches nothing but the wires.
* `Layout.addOperator_eq_ok_iff`, `Layout.instance?_enter`: an operator that is laid out gets
  instances with numbers of their own.
* `Layout.without_removeOperator`: taking an operator away takes its instances and the wires at them,
  and nothing else.
* `Layout.connectSink_eq_ok_iff`, `Layout.dropStream_eq_ok_iff`.
-/

set_option autoImplicit false

namespace LiveDataflow.Layout

variable {l l' : Layout} {name : String} {s : Stream} {sink : PortAddress} {w : Wire}
  {id : InstanceId} {i : Instance}

/-! ## Wires -/

theorem mem_mesh_iff : w ∈ l.mesh s sink ↔
    w.source ∈ l.presentOf s.source.operator ∧ w.target ∈ l.presentOf sink.operator ∧
      w.stream = s.name ∧ w.port = sink.port := by
  obtain ⟨a, b, stream, port⟩ := w
  unfold mesh
  simp only [List.mem_flatMap, List.mem_map, Wire.mk.injEq]
  constructor
  · rintro ⟨a', ha, b', hb, rfl, rfl, rfl, rfl⟩
    exact ⟨ha, hb, rfl, rfl⟩
  · rintro ⟨ha, hb, rfl, rfl⟩
    exact ⟨a, ha, b, hb, rfl, rfl, rfl, rfl⟩

/-- Wiring a stream touches nothing but the wires. -/
theorem wires_only_wireStream (l : Layout) (s : Stream) :
    ∃ more, l.wireStream s = { l with wires := l.wires ++ more } := by
  unfold wireStream
  induction s.sinks generalizing l with
  | nil => exact ⟨[], by simp⟩
  | cons sink rest ih =>
    obtain ⟨more, hmore⟩ := ih (l.wireSink s sink)
    rw [List.foldl_cons, hmore]
    exact ⟨l.missingWires s sink ++ more, by simp [wireSink]⟩

/-- Wiring streams touches nothing but the wires. -/
theorem wires_only_foldl_wireStream (streams : List Stream) (l : Layout) :
    ∃ more, streams.foldl wireStream l = { l with wires := l.wires ++ more } := by
  induction streams generalizing l with
  | nil => exact ⟨[], by simp⟩
  | cons s rest ih =>
    obtain ⟨more, hmore⟩ := wires_only_wireStream l s
    obtain ⟨most, hmost⟩ := ih (l.wireStream s)
    rw [List.foldl_cons, hmost, hmore]
    exact ⟨more ++ most, by simp⟩

theorem mesh_wires (l : Layout) (wires : List Wire) :
    ({ l with wires := wires } : Layout).mesh s sink = l.mesh s sink := rfl

theorem mem_wires_wireStream :
    w ∈ (l.wireStream s).wires ↔ w ∈ l.wires ∨ ∃ sink ∈ s.sinks, w ∈ l.mesh s sink := by
  unfold wireStream
  induction s.sinks generalizing l with
  | nil => simp
  | cons sink rest ih =>
    rw [List.foldl_cons, ih, mem_wires_wireSink]
    have hmesh : ∀ b, (l.wireSink s sink).mesh s b = l.mesh s b := fun b => rfl
    simp [hmesh, or_assoc]

/-- **Wiring streams adds their meshes.** -/
theorem mem_wires_foldl_wireStream {streams : List Stream} :
    w ∈ (streams.foldl wireStream l).wires ↔
      w ∈ l.wires ∨ ∃ s ∈ streams, ∃ sink ∈ s.sinks, w ∈ l.mesh s sink := by
  induction streams generalizing l with
  | nil => simp
  | cons s rest ih =>
    obtain ⟨more, hmore⟩ := wires_only_wireStream l s
    have hmesh : ∀ t b, (l.wireStream s).mesh t b = l.mesh t b := fun t b => by
      rw [hmore, mesh_wires]
    rw [List.foldl_cons, ih, mem_wires_wireStream]
    simp [hmesh, or_assoc]

theorem nodup_missingWires (h : ∀ operator, (l.presentOf operator).Nodup) :
    (l.missingWires s sink).Nodup := by
  unfold missingWires
  refine List.nodup_flatMap.2 ⟨fun a _ => ?_, ?_⟩
  · refine List.Nodup.map (fun b c hbc => ?_) ((h _).filter _)
    cases hbc; rfl
  · refine (h s.source.operator).imp fun {a b} hab => ?_
    intro w hwa hwb
    obtain ⟨_, _, rfl⟩ := List.mem_map.1 hwa
    obtain ⟨_, _, hw⟩ := List.mem_map.1 hwb
    cases hw
    exact hab rfl

theorem nodup_wires_wireSink (h : ∀ operator, (l.presentOf operator).Nodup)
    (hw : l.wires.Nodup) : (l.wireSink s sink).wires.Nodup := by
  unfold wireSink
  refine List.nodup_append.2 ⟨hw, nodup_missingWires h, fun v hv u hu => ?_⟩
  rintro rfl
  exact (mem_missingWires.1 hu).2 hv

theorem nodup_wires_wireStream (h : ∀ operator, (l.presentOf operator).Nodup)
    (hw : l.wires.Nodup) : (l.wireStream s).wires.Nodup := by
  unfold wireStream
  induction s.sinks generalizing l with
  | nil => exact hw
  | cons sink rest ih => exact ih h (nodup_wires_wireSink h hw)

theorem nodup_wires_foldl_wireStream {streams : List Stream}
    (h : ∀ operator, (l.presentOf operator).Nodup) (hw : l.wires.Nodup) :
    (streams.foldl wireStream l).wires.Nodup := by
  induction streams generalizing l with
  | nil => exact hw
  | cons s rest ih =>
    obtain ⟨more, hmore⟩ := wires_only_wireStream l s
    refine ih (fun operator => ?_) (nodup_wires_wireStream h hw)
    rw [hmore]; exact h operator

/-! ## Laying out an operator -/

/-- The streams that an operator is the source or a sink of. -/
def touching (l : Layout) (name : String) : List Stream :=
  l.dataflow.streams.values.filter fun s => s.source.operator = name || s.feeds name

theorem addOperator_eq_ok_iff {ids : List InstanceId} :
    l.addOperator name = .ok (ids, l') ↔
      ∃ stage, l.dataflow.stage? name = some stage ∧ l.byOperator.contains name = false ∧
        ids = (l.freshInstances name stage.partitions).map (·.id) ∧
        l' = (l.touching name).foldl wireStream
          (l.enter name (l.freshInstances name stage.partitions)) := by
  unfold addOperator touching
  cases l.dataflow.stage? name with
  | none => simp
  | some stage =>
    cases l.byOperator.contains name <;> simp [eq_comm]

/-- Laying out an operator gives it new instances, and touches nothing else but the wires. -/
theorem wires_only_addOperator {ids : List InstanceId} (h : l.addOperator name = .ok (ids, l')) :
    ∃ partitions wires, ids = (l.freshInstances name partitions).map (·.id) ∧
      l' = { l.enter name (l.freshInstances name partitions) with wires := wires } := by
  obtain ⟨stage, _, _, rfl, rfl⟩ := addOperator_eq_ok_iff.1 h
  obtain ⟨more, hmore⟩ := wires_only_foldl_wireStream (l.touching name)
    (l.enter name (l.freshInstances name stage.partitions))
  exact ⟨stage.partitions, _, rfl, hmore⟩

theorem byOperator_addOperator {ids : List InstanceId} (h : l.addOperator name = .ok (ids, l')) :
    l'.byOperator = l.byOperator.insert name ids := by
  obtain ⟨partitions, wires, rfl, rfl⟩ := wires_only_addOperator h
  rfl

theorem mem_freshInstances_iff {partitions : Nat} :
    i ∈ l.freshInstances name partitions ↔
      ∃ p < partitions, i = ⟨⟨l.lastInstance + 1 + p⟩, name, p, none, none⟩ := by
  unfold freshInstances
  rw [List.mem_map]
  simp only [List.mem_range, eq_comm]

theorem nodup_freshInstances (l : Layout) (name : String) (partitions : Nat) :
    ((l.freshInstances name partitions).map (·.id)).Nodup := by
  unfold freshInstances
  rw [List.map_map]
  refine List.Nodup.map (fun p q hpq => ?_) List.nodup_range
  have : l.lastInstance + 1 + p = l.lastInstance + 1 + q := congrArg InstanceId.val hpq
  omega

theorem eq_of_mem_freshInstances {partitions : Nat} {j : Instance} (hi : i ∈ l.freshInstances name partitions)
    (hj : j ∈ l.freshInstances name partitions) (hid : i.id = j.id) : i = j :=
  List.inj_on_of_nodup_map (nodup_freshInstances l name partitions) hi hj hid

/-- **The instances after laying out an operator**: the new ones, and those from before. -/
theorem instance?_enter {partitions : Nat} :
    (l.enter name (l.freshInstances name partitions)).instance? id = some i ↔
      (i ∈ l.freshInstances name partitions ∧ i.id = id) ∨
        ((∀ j ∈ l.freshInstances name partitions, j.id ≠ id) ∧ l.instance? id = some i) := by
  unfold instance? enter
  by_cases h : ∃ j ∈ l.freshInstances name partitions, j.id = id
  · obtain ⟨j, hj, rfl⟩ := h
    rw [SortedMap.get?_foldl_insert_of_mem ⟨j, hj, rfl⟩ fun _ hk => eq_of_mem_freshInstances hk hj]
    constructor
    · intro e; cases e; exact .inl ⟨hj, rfl⟩
    · rintro (⟨hi, hid⟩ | ⟨hno, _⟩)
      · exact congrArg some (eq_of_mem_freshInstances hj hi hid.symm)
      · exact absurd rfl (hno j hj)
  · have hno : ∀ j ∈ l.freshInstances name partitions, j.id ≠ id := fun j hj e => h ⟨j, hj, e⟩
    rw [SortedMap.get?_foldl_insert_of_notMem hno]
    constructor
    · exact fun hi => .inr ⟨hno, hi⟩
    · rintro (⟨hi, hid⟩ | ⟨_, hi⟩)
      · exact absurd hid (hno i hi)
      · exact hi

theorem instancesOf_enter {operator : String} {fresh : List Instance} :
    (l.enter name fresh).instancesOf operator =
      if name = operator then fresh.map (·.id) else l.instancesOf operator := by
  unfold instancesOf enter
  dsimp only
  rw [SortedMap.get?_insert]
  split <;> rfl

/-! ## Taking an operator away -/

/-- What is left of a layout without some of its instances. -/
structure Without (l : Layout) (ids : List InstanceId) (l' : Layout) : Prop where
  dataflow : l'.dataflow = l.dataflow
  byOperator : l'.byOperator = l.byOperator
  lastInstance : l'.lastInstance = l.lastInstance
  lastContainer : l'.lastContainer = l.lastContainer
  instances : ∀ id, l'.instance? id = if id ∈ ids then none else l.instance? id
  wires : l'.wires = l.wires.filter fun w => w.source ∉ ids ∧ w.target ∉ ids
  containers : l'.containers.keys = l.containers.keys

theorem Without.instance?_eq_some_iff {ids : List InstanceId} (h : l.Without ids l') :
    l'.instance? id = some i ↔ id ∉ ids ∧ l.instance? id = some i := by
  rw [h.instances]
  split
  · rename_i hid
    simp [hid]
  · rename_i hid
    exact (and_iff_right hid).symm

theorem removeInstance_of_absent (h : l.instance? id = none) : l.removeInstance id = l := by
  unfold removeInstance
  rw [h]

theorem without_removeInstance (h : (l.instance? id).isSome = true) :
    l.Without [id] (l.removeInstance id) := by
  obtain ⟨i, hi⟩ := Option.isSome_iff_exists.1 h
  unfold removeInstance
  rw [hi]
  refine ⟨rfl, rfl, rfl, rfl, fun j => ?_, ?_, ?_⟩
  · refine (SortedMap.get?_erase l.instances id j).trans ?_
    simp only [List.mem_singleton, eq_comm]
    rfl
  · simp only [List.mem_singleton]
  · dsimp only
    split
    · rfl
    · simp [SortedMap.keys, SortedMap.adjust, SortedMap.mapValues]

theorem Without.trans {l'' : Layout} {ids more : List InstanceId} (h : l.Without ids l')
    (h' : l'.Without more l'') : l.Without (ids ++ more) l'' := by
  refine ⟨h'.dataflow.trans h.dataflow, h'.byOperator.trans h.byOperator,
    h'.lastInstance.trans h.lastInstance, h'.lastContainer.trans h.lastContainer, fun id => ?_, ?_,
    h'.containers.trans h.containers⟩
  · rw [h'.instances id, h.instances id]
    by_cases hid : id ∈ ids <;> simp [hid]
  · rw [h'.wires, h.wires, List.filter_filter]
    refine List.filter_congr fun w _ => ?_
    simp only [List.mem_append, not_or]
    grind

/-- Taking instances away one after the other, each of them there or without a wire. -/
theorem without_foldl_removeInstance (ids : List InstanceId) (l : Layout)
    (h : ∀ id ∈ ids, (l.instance? id).isSome = true ∨
      ∀ w ∈ l.wires, w.source ≠ id ∧ w.target ≠ id) :
    l.Without ids (ids.foldl removeInstance l) := by
  induction ids generalizing l with
  | nil => exact ⟨rfl, rfl, rfl, rfl, by simp, by simp, rfl⟩
  | cons id rest ih =>
    have hone : l.Without [id] (l.removeInstance id) := by
      cases hi : l.instance? id with
      | some i => exact without_removeInstance (by rw [hi]; rfl)
      | none =>
        have hfree : ∀ w ∈ l.wires, w.source ≠ id ∧ w.target ≠ id := by
          rcases h id List.mem_cons_self with hsome | hfree
          · rw [hi] at hsome; cases hsome
          · exact hfree
        rw [removeInstance_of_absent hi]
        refine ⟨rfl, rfl, rfl, rfl, fun j => ?_, ?_, rfl⟩
        · by_cases hj : j = id
          · subst hj; simp [hi]
          · simp [hj]
        · refine (List.filter_eq_self.2 fun w hw => ?_).symm
          simpa using hfree w hw
    refine hone.trans (ih _ fun j hj => ?_)
    -- an instance that occurs twice is gone the second time, and so are its wires
    by_cases hjid : j = id
    · refine .inr fun w hw => ?_
      rw [hone.wires] at hw
      simpa [hjid] using (List.mem_filter.1 hw).2
    · rcases h j (List.mem_cons_of_mem _ hj) with hsome | hfree
      · refine .inl ?_
        rw [hone.instances j, if_neg (by simpa using hjid)]
        exact hsome
      · refine .inr fun w hw => hfree w ?_
        rw [hone.wires] at hw
        exact (List.mem_filter.1 hw).1

theorem mem_presentOf_iff {operator : String} :
    id ∈ l.presentOf operator ↔ id ∈ l.instancesOf operator ∧ (l.instance? id).isSome = true := by
  unfold presentOf
  rw [List.mem_filter]
  rfl

/-- **What is left after taking an operator away.** -/
theorem without_removeOperator (l : Layout) (name : String) :
    ({ l with byOperator := l.byOperator.erase name } : Layout).Without (l.presentOf name)
      (l.removeOperator name).2 :=
  without_foldl_removeInstance _ _ fun _ hid => .inl (mem_presentOf_iff.1 hid).2

theorem instancesOf_erase {operator : String} :
    ({ l with byOperator := l.byOperator.erase name } : Layout).instancesOf operator =
      if name = operator then [] else l.instancesOf operator := by
  unfold instancesOf
  dsimp only
  rw [SortedMap.get?_erase]
  split <;> rfl

theorem Without.instancesOf {l₁ : Layout} {ids : List InstanceId} (h : l₁.Without ids l')
    (herase : l₁.byOperator = l.byOperator.erase name) (operator : String) :
    l'.instancesOf operator = if name = operator then [] else l.instancesOf operator := by
  unfold Layout.instancesOf
  rw [h.byOperator, herase]
  exact instancesOf_erase

/-! ## Sinks and streams -/

theorem connectSink_eq_ok_iff {stream : String} {ids : SortedSet InstanceId} :
    l.connectSink stream sink = .ok (ids, l') ↔
      ∃ s, l.dataflow.stream? stream = some s ∧ sink ∈ s.sinks ∧
        ids = .ofList (l.instancesOf sink.operator) ∧ l' = l.wireSink s sink := by
  unfold connectSink
  cases l.dataflow.stream? stream with
  | none => simp
  | some s =>
    by_cases h : sink ∈ s.sinks <;> simp [Stream.hasSink, h, eq_comm]

theorem dropStream_eq_ok_iff {stream : String} {ids : SortedSet InstanceId} :
    l.dropStream stream = .ok (ids, l') ↔
      ∃ s, l.dataflow.stream? stream = some s ∧
        ids = .ofList ((s.source.operator :: s.sinks.map (·.operator)).flatMap l.instancesOf) ∧
        l' = { l with wires := l.wires.filter (·.stream ≠ stream) } := by
  unfold dropStream
  cases l.dataflow.stream? stream with
  | none => simp
  | some s => simp [eq_comm]

end LiveDataflow.Layout
