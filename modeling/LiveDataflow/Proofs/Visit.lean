import LiveDataflow.Proofs.Consumers
import LiveDataflow.Proofs.Containers
import LiveDataflow.Proofs.Interchange
import LiveDataflow.Proofs.Outcome

/-!
# An operator that comes and goes

A session may add an operator, let it consume streams that others consume as well, and take it away again.
Each of the three parts undoes something of the first: the plan forgets the stage and its sinks, the layout
its instances with the wires at them, and the account the instances that were new.  Only the numbers that
the instances had are not given again.

## Results

* `Dataflow.Visited`, `Layout.Visited`: a plan and a layout with one more operator that can be taken away.
* `Layout.Visited.attach`: attaching a port of this operator keeps it so.
* `Layout.Visited.removeStage`: without the operator the layout is the one from before.
* `Session.Visited.step`: an edit of the kind, granted or refused, changes nothing else.
* `Session.Live.visit_undone`: the session is the one from before.
-/

set_option autoImplicit false

namespace LiveDataflow

/-! ## Plans -/

namespace Dataflow

variable {d p : Dataflow} {name stream : String} {t : Stream}

/-- A plan with one more operator.  It is the source of no stream, and the only consumer of none. -/
structure Visited (d : Dataflow) (name : String) (p : Dataflow) : Prop where
  anchored : p.Anchored
  leaves : p.Admits (.removeStage name)
  back : p.removeStage name = d

theorem Anchored.visited_addStage (h : d.Anchored) (hname : d.stage? name = none) (operator : Operator) :
    d.Visited name (d.after (.addStage name operator)) := by
  have hother : ∀ {n}, (d.stage? n).isSome = true → n ≠ name := by
    rintro n hn rfl
    rw [hname] at hn
    cases hn
  refine ⟨h.insert _, admits_removeStage_iff.2 ⟨?_, fun t ht => ?_, fun t ht => ?_⟩,
    h.removeStage_insert hname _⟩
  · show (stage? { d with stages := d.stages.insert name _ } name).isSome = true
    rw [stage?_insert, if_pos rfl]
    rfl
  · obtain ⟨stream, hstream⟩ := SortedMap.mem_values_iff.1 ht
    exact hother (h.source stream t hstream)
  · obtain ⟨stream, hstream⟩ := SortedMap.mem_values_iff.1 ht
    rintro ⟨a, ha, hname⟩
    exact absurd hname (hother (h.sinks stream t hstream a ha))

/-- A sink goes with its operator. -/
theorem removeStage_attach (hname : (p.stage? name).isSome = true) (stream port : String) :
    (p.attach stream ⟨name, port⟩).removeStage name = p.removeStage name := by
  have hstreams : (((p.attach stream ⟨name, port⟩).streams.filter fun _ s =>
        s.source.operator ≠ name).mapValues fun _ s =>
          { s with sinks := s.sinks.filter (·.operator ≠ name) }) =
      ((p.streams.filter fun _ s => s.source.operator ≠ name).mapValues fun _ s =>
          { s with sinks := s.sinks.filter (·.operator ≠ name) }) := by
    apply SortedMap.ext_get?
    intro other
    simp only [attach, SortedMap.get?_mapValues, SortedMap.get?_filter, SortedMap.get?_adjust]
    split
    · cases p.streams.get? other with
      | none => rfl
      | some s => by_cases hs : s.source.operator = name <;> simp [Option.filter, hs]
    · rfl
  have hattached : (p.attach stream ⟨name, port⟩).stages.contains name = true := hname
  have hbefore : p.stages.contains name = true := hname
  unfold removeStage
  rw [if_pos hattached, if_pos hbefore, hstreams]
  rfl

theorem Visited.attach (h : d.Visited name p) (ht : p.stream? stream = some t)
    (helse : ∃ a ∈ t.sinks, a.operator ≠ name) (port : String) :
    d.Visited name (p.attach stream ⟨name, port⟩) := by
  obtain ⟨hstage, hsource, hshared⟩ := admits_removeStage_iff.1 h.leaves
  refine ⟨h.anchored.attach hstage, admits_removeStage_iff.2 ⟨hstage, fun u hu => ?_, fun u hu => ?_⟩,
    (removeStage_attach hstage stream port).trans h.back⟩ <;>
    obtain ⟨other, hother⟩ := SortedMap.mem_values_iff.1 hu <;>
    obtain ⟨u₀, hu₀, rfl | ⟨rfl, rfl⟩⟩ := exists_of_stream?_attach hother
  · exact hsource u (SortedMap.mem_values_iff.2 ⟨other, hu₀⟩)
  · exact hsource u₀ (SortedMap.mem_values_iff.2 ⟨stream, hu₀⟩)
  · exact hshared u (SortedMap.mem_values_iff.2 ⟨other, hu₀⟩)
  · intro _
    rw [ht] at hu₀
    cases hu₀
    obtain ⟨a, ha, hne⟩ := helse
    exact ⟨a, List.mem_append_left _ ha, hne⟩

/-- A stream that others consumed before is consumed by others now. -/
theorem Visited.consumed_elsewhere (h : d.Visited name p) (ht : p.stream? stream = some t)
    (hbefore : ∀ t₀, d.stream? stream = some t₀ → ∃ a ∈ t₀.sinks, a.operator ≠ name) :
    ∃ a ∈ t.sinks, a.operator ≠ name := by
  obtain ⟨hstage, hsource, _⟩ := admits_removeStage_iff.1 h.leaves
  have hmem : t ∈ p.streams.values := SortedMap.mem_values_iff.2 ⟨stream, ht⟩
  have hrest : d.stream? stream = some { t with sinks := t.sinks.filter (·.operator ≠ name) } := by
    rw [← h.back, stream?_removeStage hstage, ht, Option.filter_some, if_pos (by simpa using hsource t hmem)]
    rfl
  obtain ⟨a, ha, hne⟩ := hbefore _ hrest
  exact ⟨a, (List.mem_filter.1 ha).1, hne⟩

end Dataflow

/-! ## Layouts -/

namespace Layout

variable {l p : Layout} {name stream : String} {t : Stream} {partitions : Nat} {ids : List InstanceId}

theorem ext (hdataflow : l.dataflow = p.dataflow) (hinstances : l.instances = p.instances)
    (hoperators : l.byOperator = p.byOperator) (hwires : l.wires = p.wires)
    (hcontainers : l.containers = p.containers) (hlast : l.lastInstance = p.lastInstance)
    (hlastContainer : l.lastContainer = p.lastContainer) : l = p := by
  cases l
  cases p
  simp_all

/-- Who has no container leaves none. -/
theorem containers_foldl_removeInstance (h : ∀ id ∈ ids, l.containerOf id = none) :
    (ids.foldl removeInstance l).containers = l.containers := by
  induction ids generalizing l with
  | nil => rfl
  | cons id rest ih =>
    obtain ⟨hid, hrest⟩ := List.forall_mem_cons.1 h
    have hone : (l.removeInstance id).containers = l.containers := by
      apply SortedMap.ext_get?
      intro c
      simp [get?_containers_removeInstance, hid]
    refine (ih fun j hj => ?_).trans hone
    unfold containerOf
    rw [instance?_removeInstance]
    split
    · rfl
    · exact hrest j hj

/-- The new instances can be taken out again. -/
theorem instance?_enter_without (h : l.Numbered) (name : String) (partitions : Nat) (id : InstanceId) :
    (if id ∈ (l.freshInstances name partitions).map (·.id) then none
      else (l.enter name (l.freshInstances name partitions)).instance? id) = l.instance? id := by
  split
  · rename_i hid
    obtain ⟨i, hi, rfl⟩ := List.mem_map.1 hid
    exact (h.fresh_absent hi).symm
  · rename_i hid
    exact SortedMap.get?_foldl_insert_of_notMem fun i hi heq => hid (List.mem_map.2 ⟨i, hi, heq⟩)

/-- A layout with one more operator, which has new instances, and wires at these only. -/
structure Visited (l : Layout) (name : String) (partitions : Nat) (p : Layout) : Prop where
  plan : l.dataflow.Visited name p.dataflow
  entered : p = { l.enter name (l.freshInstances name partitions) with
    dataflow := p.dataflow
    wires := p.wires }
  wires : (p.wires.filter fun w => w.source ∉ p.instancesOf name ∧ w.target ∉ p.instancesOf name) = l.wires

namespace Visited

theorem instancesOf_eq (h : l.Visited name partitions p) :
    p.instancesOf name = (l.freshInstances name partitions).map (·.id) := by
  rw [h.entered]
  exact instancesOf_enter.trans (if_pos rfl)

theorem addStage (h : l.Sound) (hname : l.dataflow.stage? name = none) (operator : Operator) :
    l.Visited name l.dataflow.config.defaultPartitions.toNat (l.after (.addStage name operator)).2 := by
  have hafter : l.after (.addStage name operator) = _ := h.after_addStage hname
  have hof : (l.after (.addStage name operator)).2.instancesOf name =
      (l.freshInstances name l.dataflow.config.defaultPartitions.toNat).map (·.id) := by
    rw [hafter]
    exact instancesOf_enter.trans (if_pos rfl)
  refine ⟨?_, ?_, ?_⟩
  · rw [dataflow_after]
    exact h.laid.anchored.visited_addStage hname operator
  · rw [hafter]
    rfl
  · rw [hof, hafter]
    refine List.filter_eq_self.2 fun w hw => ?_
    -- what has a wire was there, and what is new was not
    have hold : ∀ {id}, l.Present id →
        id ∉ (l.freshInstances name l.dataflow.config.defaultPartitions.toNat).map (·.id) := by
      intro id hid hnew
      obtain ⟨i, hi, rfl⟩ := List.mem_map.1 hnew
      have hnone : l.instance? i.id = none := h.laid.numbered.fresh_absent hi
      unfold Present at hid
      rw [hnone] at hid
      cases hid
    obtain ⟨hsource, htarget⟩ := h.intact.ends w hw
    rw [decide_eq_true_eq]
    exact ⟨hold hsource, hold htarget⟩

/-- **Attaching a port of the new operator brings wires into its instances only.** -/
theorem attach (h : l.Visited name partitions p) (ht : p.dataflow.stream? stream = some t)
    (helse : ∃ a ∈ t.sinks, a.operator ≠ name) (port : String) :
    l.Visited name partitions (p.after (.attach stream ⟨name, port⟩)).2 := by
  have hafter : p.after (.attach stream ⟨name, port⟩) = _ := after_attach ht
  have hof : (p.after (.attach stream ⟨name, port⟩)).2.instancesOf name = p.instancesOf name := by
    rw [hafter]
    rfl
  refine ⟨?_, ?_, ?_⟩
  · rw [dataflow_after]
    exact h.plan.attach ht helse port
  · rw [after_attach_eq ht ⟨name, port⟩]
    have hentered := h.entered
    generalize p.dataflow = d, p.wires = wires at hentered
    rw [hentered]
  · rw [hof, hafter, ← h.wires]
    refine (List.filter_append ..).trans ((congrArg _ ?_).trans (List.append_nil _))
    refine List.filter_eq_nil_iff.2 fun w hw => ?_
    have htarget : w.target ∈ p.instancesOf name :=
      (mem_presentOf_iff.1 (mem_mesh_iff.1 (mem_missingWires.1 hw).1).2.1).1
    simp [htarget]

theorem numbered (h : l.Visited name partitions p) (hl : l.Sound)
    (hname : l.byOperator.contains name = false) : p.Numbered := by
  rw [h.entered]
  exact (hl.laid.numbered.enter (instancesOf_of_absent hname) partitions).of_same rfl rfl rfl

/-- Its instances are in no container. -/
theorem containers_removeStage (h : l.Visited name partitions p) (hl : l.Sound) :
    (p.after (.removeStage name)).2.containers = p.containers := by
  refine containers_foldl_removeInstance (l := { p with
    dataflow := p.dataflow.removeStage name
    byOperator := p.byOperator.erase name }) fun id hid => ?_
  have hid : id ∈ (l.freshInstances name partitions).map (·.id) :=
    h.instancesOf_eq ▸ (mem_presentOf_iff.1 hid).1
  obtain ⟨i, hi, rfl⟩ := List.mem_map.1 hid
  have hnone : l.instance? i.id = none := hl.laid.numbered.fresh_absent hi
  have hsame : p.containerOf i.id = l.containerOf i.id := by
    rw [h.entered]
    exact Housed.containerOf_enter hl.laid.numbered name partitions i.id
  show p.containerOf i.id = none
  rw [hsame]
  unfold containerOf
  rw [hnone]
  rfl

theorem instances_removeStage (h : l.Visited name partitions p) (hl : l.Sound)
    (hname : l.byOperator.contains name = false) :
    (p.after (.removeStage name)).2.instances = l.instances := by
  have hwithout := without_after_removeStage (h.numbered hl hname) name
  have hentered : p.instances = (l.enter name (l.freshInstances name partitions)).instances := by
    rw [h.entered]
  refine SortedMap.ext_get? fun id => (hwithout.instances id).trans ?_
  refine Eq.trans ?_ (instance?_enter_without hl.laid.numbered name partitions id)
  unfold instance?
  rw [h.instancesOf_eq, hentered]

/-- **Without the operator the layout is the one from before**, but for the numbers that were given. -/
theorem removeStage (h : l.Visited name partitions p) (hl : l.Sound)
    (hname : l.byOperator.contains name = false) :
    (p.after (.removeStage name)).2 = { l with lastInstance := l.lastInstance + partitions } := by
  have hwithout := without_after_removeStage (h.numbered hl hname) name
  have hoperators : (p.after (.removeStage name)).2.byOperator = l.byOperator := by
    rw [hwithout.byOperator, h.entered]
    exact SortedMap.erase_insert _ (Option.not_isSome_iff_eq_none.1 (Bool.eq_false_iff.1 hname))
  refine ext ?_ (h.instances_removeStage hl hname) hoperators ?_ ?_ ?_ ?_
  · exact hwithout.dataflow.trans h.plan.back
  · exact hwithout.wires.trans h.wires
  · rw [h.containers_removeStage hl, h.entered]
    rfl
  · rw [hwithout.lastInstance, h.entered]
    simp [enter, freshInstances]
  · rw [hwithout.lastContainer, h.entered]
    rfl

end Visited

end Layout

/-! ## The account -/

namespace ChangeSet

variable {c : ChangeSet} {ids others : List InstanceId}

/-- New instances are not affected as well. -/
theorem recordAffected_of_added (h : ∀ id ∈ ids, id ∈ c.added) : c.recordAffected ids = c := by
  obtain ⟨hadded, hremoved, haffected⟩ := recordAffected_eq c ids
  refine ext hadded (SortedSet.ext_mem fun id => ?_) hremoved
  rw [haffected]
  exact or_iff_left fun hid => hid.2.1 (h id hid.1)

/-- Instances that were made and taken away leave no trace. -/
theorem recordRemoved_recordAdded (hnodup : others.Nodup) (hsame : ∀ id, id ∈ others ↔ id ∈ ids)
    (hnew : ∀ id ∈ ids, id ∉ c.added ∧ id ∉ c.affected) :
    (c.recordAdded ids).recordRemoved others = c := by
  refine ext ?_ ?_ ?_ <;> refine SortedSet.ext_mem fun id => ?_ <;>
    obtain ⟨hadded, haffected, hremoved⟩ := recordRemoved_eq (c := c.recordAdded ids) hnodup id
  · rw [hadded, mem_added_recordAdded, hsame]
    by_cases hid : id ∈ ids
    · simp [hid, (hnew id hid).1]
    · simp [hid]
  · rw [haffected, mem_affected_recordAdded, hsame]
    by_cases hid : id ∈ ids
    · simp [hid, (hnew id hid).2]
    · simp [hid]
  · rw [hremoved, removed_recordAdded, mem_added_recordAdded, hsame]
    exact or_iff_left fun hid => hid.2 (.inr hid.1)

/-- What is written down of an instance was given its number before. -/
theorem Balances.le_lastInstance {l₀ l : Layout} {id : InstanceId} (h : Balances l₀ c l id) (hl : l.Numbered)
    (hid : id ∈ c.added ∨ id ∈ c.affected) : id.val ≤ l.lastInstance := by
  rcases hid with hid | hid
  · exact hl.bounded id (h.added.1 hid).1
  · exact hl.bounded id (h.affected hid).2

end ChangeSet

/-! ## Sessions -/

/-- An edit that attaches a port of an operator to a stream, if it is there, that another operator consumes. -/
def Edit.Joins (d : Dataflow) (name : String) (e : Edit) : Prop :=
  ∃ stream port, e.AttachesOne (stream, ⟨name, port⟩) ∧
    ∀ t, d.stream? stream = some t → ∃ a ∈ t.sinks, a.operator ≠ name

namespace Session

variable {s : Session} {l : Layout} {c : ChangeSet} {name : String} {e : Edit} {edits : List Edit}

/-- A session in which an operator has come and not gone yet, on the layout `l` and with the account `c`
but for that. -/
def Visited (l : Layout) (c : ChangeSet) (name : String) (s : Session) : Prop :=
  ∃ p, s = ⟨.live p, c.recordAdded (p.instancesOf name)⟩ ∧
    l.Visited name l.dataflow.config.defaultPartitions.toNat p

/-- The operator comes. -/
theorem visited_addOperator (h : l.Sound) (hname : l.dataflow.stage? name = none) (c : ChangeSet)
    (operator : Operator) :
    ∃ s, Session.step ⟨.live l, c⟩ (.addOperator name operator) = ⟨.ok none, s⟩ ∧ s.Visited l c name := by
  have hresolved : Session.resolve ⟨.live l, c⟩ (.addOperator name operator) =
      .ok [.addStage name operator] := by
    have habsent : l.byOperator.contains name = false := h.covers.absent hname
    have hplan : Session.dataflow ⟨.live l, c⟩ = l.dataflow := rfl
    simp [resolve, hplan, hname, hasLaidOut, habsent]
  have hvisited := Layout.Visited.addStage h hname operator
  have hids : (l.after (.addStage name operator)).1 =
      (l.after (.addStage name operator)).2.instancesOf name := by
    rw [hvisited.instancesOf_eq, h.after_addStage hname]
    rfl
  refine ⟨_, step_of_resolved (s := ⟨.live l, c⟩) h.laid.anchored hresolved,
    (l.after (.addStage name operator)).2, ?_, hvisited⟩
  show (⟨.live _, c.recordAdded _⟩ : Session) = _
  rw [hids]

theorem Visited.anchored (h : s.Visited l c name) : s.dataflow.Anchored := by
  obtain ⟨p, rfl, hvisited⟩ := h
  exact hvisited.plan.anchored

/-- **An edit that joins the operator to a stream, granted or refused, changes nothing else.** -/
theorem Visited.step (h : s.Visited l c name) (he : e.Joins l.dataflow name) :
    (s.step e).after.Visited l c name := by
  have hanchored := h.anchored
  obtain ⟨p, rfl, hvisited⟩ := h
  obtain ⟨stream, port, hone, hshared⟩ := he
  cases hr : Session.resolve ⟨.live p, c.recordAdded (p.instancesOf name)⟩ e with
  | error cause =>
    rw [step_of_refused hanchored hr]
    exact ⟨p, rfl, hvisited⟩
  | ok moves =>
    obtain ⟨hm, rfl⟩ := (resolve_of_attachesOne hone).1 hr
    obtain ⟨t, ht, _⟩ := id hm
    rw [after_of_attachesOne hanchored hone hm]
    have hattached := hvisited.attach ht (hvisited.plan.consumed_elsewhere ht hshared) port
    have hids : (p.after (.attach stream ⟨name, port⟩)).1 = (SortedSet.ofList (p.instancesOf name)).toList := by
      rw [Layout.after_attach ht]
    refine ⟨_, ?_, hattached⟩
    rw [hattached.instancesOf_eq, ← hvisited.instancesOf_eq]
    show (⟨.live _, (c.recordAdded _).recordAffected _⟩ : Session) = _
    rw [hids, ChangeSet.recordAffected_of_added fun id hid =>
      ChangeSet.mem_added_recordAdded.2 (.inr (SortedSet.mem_ofList.1 hid))]

theorem Visited.runAll (h : s.Visited l c name) (hedits : ∀ e ∈ edits, e.Joins l.dataflow name) :
    (s.runAll edits).2.Visited l c name := by
  induction edits generalizing s with
  | nil => exact h
  | cons e rest ih =>
    obtain ⟨he, hrest⟩ := List.forall_mem_cons.1 hedits
    exact ih (h.step he) hrest

/-- **The operator goes**, and the session is the one from before. -/
theorem Visited.removeOperator (h : s.Visited l c name) (hl : l.Sound)
    (hname : l.dataflow.stage? name = none)
    (hold : ∀ id, id ∈ c.added ∨ id ∈ c.affected → id.val ≤ l.lastInstance) :
    s.step (.removeOperator name) = ⟨.ok none, ⟨.live { l with
      lastInstance := l.lastInstance + l.dataflow.config.defaultPartitions.toNat }, c⟩⟩ := by
  have hanchored := h.anchored
  obtain ⟨p, rfl, hvisited⟩ := h
  have habsent : l.byOperator.contains name = false := hl.covers.absent hname
  have hnumbered := hvisited.numbered hl habsent
  obtain ⟨hstage, _⟩ := id hvisited.plan.leaves
  obtain ⟨moves, hr⟩ := (removeOperator_resolves_iff
    (s := ⟨.live p, c.recordAdded (p.instancesOf name)⟩) hstage).2 hvisited.plan.leaves
  rcases resolve_removeOperator_eq_ok hr with ⟨hnone, _⟩ | ⟨_, rfl⟩
  · exact absurd hstage (by rw [show p.dataflow.stage? name = none from hnone]; nofun)
  have hback : (c.recordAdded (p.instancesOf name)).recordRemoved (p.after (.removeStage name)).1 = c := by
    refine ChangeSet.recordRemoved_recordAdded (SortedSet.nodup_toList _)
      (fun id => Layout.mem_after_removeStage hnumbered) fun id hid => ?_
    rw [hvisited.instancesOf_eq] at hid
    obtain ⟨i, hi, rfl⟩ := List.mem_map.1 hid
    obtain ⟨k, _, rfl⟩ := Layout.mem_freshInstances_iff.1 hi
    have hnew : ¬ l.lastInstance + 1 + k ≤ l.lastInstance := by omega
    exact ⟨fun hid => hnew (hold _ (.inl hid)), fun hid => hnew (hold _ (.inr hid))⟩
  rw [step_of_resolved hanchored hr]
  show (⟨.ok none, ⟨.live (p.after (.removeStage name)).2, (c.recordAdded _).recordRemoved _⟩⟩ : Step) = _
  rw [hvisited.removeStage hl habsent, hback]

/-- **An operator that is added and removed in one session leaves the session as it was.**  On every layout
that sessions and batches have made, at any point of a session, a new operator can be added, attached to
streams that others consume, as far as the plan grants it, and removed again.  Adding and removing it
succeed, and the plan, the instances, the wires, the containers and the account are the ones from before.
Only the numbers that its instances had are not given again. -/
theorem Live.visit_undone (h : s.Live) (hname : s.dataflow.stage? name = none) (operator : Operator)
    (hedits : ∀ e ∈ edits, e.Joins s.dataflow name) :
    ∃ l, s.target = .live l ∧ (s.step (.addOperator name operator)).result = .ok none ∧
      ((s.step (.addOperator name operator)).after.runAll edits).2.step (.removeOperator name) =
        ⟨.ok none, ⟨.live { l with
          lastInstance := l.lastInstance + l.dataflow.config.defaultPartitions.toNat }, s.changes⟩⟩ := by
  obtain ⟨l₀, l, hl, hedited⟩ := h.begunOn
  obtain ⟨target, c⟩ := s
  dsimp only at hl
  subst hl
  obtain ⟨s, hadded, hvisited⟩ := visited_addOperator hedited.sound hname c operator
  rw [hadded]
  refine ⟨l, rfl, rfl, (hvisited.runAll hedits).removeOperator hedited.sound hname fun id hid => ?_⟩
  exact (hedited.accounts.balances id).le_lastInstance hedited.sound.laid.numbered hid

/-- The session of `forkEdits`, which has an instance in each set of its account. -/
def visitable : Session := ((Session.onLayout forked).runAll forkEdits).2

theorem live_visitable : visitable.Live :=
  runAll_keeps (fun _ e hs => .edit e hs) (.materialize reachable_forking materialize_forking) forkEdits

/-- An operator with two input ports. -/
def joiner : Operator := ⟨"join", .ofLists [⟨"left", none⟩, ⟨"right", none⟩] [], .fields ∅⟩

/-- It is attached to both streams, and what it asks for besides is refused: a port that is taken and one
that is not there. -/
def joining : List Edit :=
  [.addSink "abc" ⟨"g", "left"⟩, .addSinks "abc" [⟨"g", "left"⟩], .addSink "ea" ⟨"g", "right"⟩,
    .addSink "ea" ⟨"g", "none"⟩]

theorem joins_joining : ∀ e ∈ joining, e.Joins visitable.dataflow "g" := by
  have habc : visitable.dataflow.stream? "abc" = some ⟨"abc", ⟨"a", "out"⟩, [⟨"b", "in"⟩]⟩ := by decide +kernel
  have hea : visitable.dataflow.stream? "ea" = some ⟨"ea", ⟨"e", "out"⟩, [⟨"a", "in"⟩]⟩ := by decide +kernel
  have hshared : ∀ stream ∈ ["abc", "ea"], ∀ t, visitable.dataflow.stream? stream = some t →
      ∃ a ∈ t.sinks, a.operator ≠ "g" := by
    intro stream hstream t ht
    rcases List.mem_pair.1 hstream with rfl | rfl
    · rw [habc] at ht
      cases ht
      exact ⟨⟨"b", "in"⟩, List.mem_cons_self, by decide⟩
    · rw [hea] at ht
      cases ht
      exact ⟨⟨"a", "in"⟩, List.mem_cons_self, by decide⟩
  refine List.forall_mem_cons.2 ⟨⟨"abc", "left", .addSink .., hshared _ (by decide)⟩, ?_⟩
  refine List.forall_mem_cons.2 ⟨⟨"abc", "left", .addSinks .., hshared _ (by decide)⟩, ?_⟩
  refine List.forall_mem_cons.2 ⟨⟨"ea", "right", .addSink .., hshared _ (by decide)⟩, ?_⟩
  exact List.forall_mem_singleton.2 ⟨"ea", "none", .addSink .., hshared _ (by decide)⟩

/-- Two of the four edits in between are granted.  The instance of the operator had the number 6. -/
theorem visit_undone_joining :
    visitable.Live ∧ visitable.dataflow.stage? "g" = none ∧
      (∀ e ∈ joining, e.Joins visitable.dataflow "g") ∧
      visitable.changes.added.toList = [⟨5⟩] ∧ visitable.changes.affected.toList = [⟨1⟩] ∧
      visitable.changes.removed.toList = [⟨3⟩] ∧
      ((visitable.step (.addOperator "g" joiner)).after.runAll joining).1.map (·.result.isOk) =
        [true, false, true, false] ∧
      ∃ l, visitable.target = .live l ∧ l.lastInstance = 5 ∧
        ((visitable.step (.addOperator "g" joiner)).after.runAll joining).2.step (.removeOperator "g") =
          ⟨.ok none, ⟨.live { l with lastInstance := 6 }, visitable.changes⟩⟩ := by
  have habsent : visitable.dataflow.stage? "g" = none := by
    rw [← Option.not_isSome_iff_eq_none]
    decide +kernel
  obtain ⟨l, hl, _, hback⟩ := live_visitable.visit_undone habsent joiner joins_joining
  have hedited : forked.edited forkEdits = l := by
    have htarget := hl
    unfold visitable at htarget
    unfold Layout.edited
    rw [htarget]
  have hlast : l.lastInstance = 5 := by
    rw [← hedited]
    decide +kernel
  have hpartitions : l.dataflow.config.defaultPartitions.toNat = 1 := by
    rw [← hedited]
    decide +kernel
  rw [hlast, hpartitions] at hback
  exact ⟨live_visitable, habsent, joins_joining, by decide +kernel, by decide +kernel, by decide +kernel,
    by decide +kernel, l, hl, hlast, hback⟩

end Session

end LiveDataflow
