import LiveDataflow.Proofs.Reconciliation
import LiveDataflow.Proofs.Refinement

/-!
# The account that a session keeps

The account of a session balances, and where the layout follows its plan the account also leaves out no
instance with other wires than before.

## Results

* `Layout.changesOnly_after`: a move changes only the instances that it is recorded for.
* `ChangeSet.Accounts`: the account of a session.
* `ChangeSet.Accounts.after`: every move that the plan grants is accounted for.
* `Session.accounts_runAll`: so is every run of edits.
-/

set_option autoImplicit false

namespace LiveDataflow

/-! ## Wires into an instance -/

namespace Layout

variable {l l₀ : Layout} {id : InstanceId} {m : Move}

/-- The wires into an instance. -/
def incoming (l : Layout) (id : InstanceId) : List Wire := l.wires.filter (·.target = id)

theorem incoming_append {l' : Layout} {more : List Wire} (h : l'.wires = l.wires ++ more)
    (hmore : ∀ w ∈ more, w.target ≠ id) : l'.incoming id = l.incoming id := by
  unfold incoming
  rw [h, List.filter_append]
  have : more.filter (·.target = id) = [] :=
    List.filter_eq_nil_iff.2 fun w hw => by simpa using hmore w hw
  rw [this, List.append_nil]

theorem incoming_filter {l' : Layout} {p : Wire → Bool} (h : l'.wires = l.wires.filter p)
    (hp : ∀ w ∈ l.wires, w.target = id → p w = true) : l'.incoming id = l.incoming id := by
  unfold incoming
  rw [h, List.filter_filter]
  refine List.filter_congr fun w hw => ?_
  by_cases hid : w.target = id
  · simp [hid, hp w hw hid]
  · simp [hid]

/-- An operator without output streams sends nothing. -/
theorem source_notMem_instancesOf (h : l.Sound) {name : String}
    (hout : l.dataflow.outputStreams name = []) {w : Wire} (hw : w ∈ l.wires) :
    w.source ∉ l.instancesOf name := by
  intro hsource
  obtain ⟨s, hs, k, _, _, ha, _⟩ := (h.laid.wired w).1 hw
  have hname : s.source.operator = name := h.laid.numbered.operator_eq ha hsource
  have : s ∈ l.dataflow.outputStreams name :=
    List.mem_filter.2 ⟨SortedMap.mem_values_iff.2 ⟨_, hs⟩, by simpa using hname⟩
  rw [hout] at this
  cases this

/-- What a layout keeps of its containers and its counters. -/
structure Keeps (l l' : Layout) : Prop where
  lastInstance : l.lastInstance ≤ l'.lastInstance
  lastContainer : l'.lastContainer = l.lastContainer
  containers : l'.containers.keys = l.containers.keys

theorem Keeps.refl (l : Layout) : l.Keeps l := ⟨Nat.le_refl _, rfl, rfl⟩

theorem Keeps.trans {l' : Layout} (h : l₀.Keeps l) (h' : l.Keeps l') : l₀.Keeps l' :=
  ⟨Nat.le_trans h.lastInstance h'.lastInstance, h'.lastContainer.trans h.lastContainer,
    h'.containers.trans h.containers⟩

/-- The instances `ids`, each named once, and the wires into them are all that differs. -/
structure ChangesOnly (l : Layout) (ids : List InstanceId) (l' : Layout) : Prop where
  nodup : ids.Nodup
  incoming : ∀ id, id ∉ ids → l'.incoming id = l.incoming id
  instances : ∀ id, id ∉ ids → l'.instance? id = l.instance? id
  keeps : l.Keeps l'

theorem changesOnly_addStage (h : l.Sound) {name : String} {operator : Operator}
    (hstage : l.dataflow.stage? name = none) :
    l.ChangesOnly (l.after (.addStage name operator)).1 (l.after (.addStage name operator)).2 := by
  rw [h.after_addStage hstage]
  exact {
    nodup := nodup_freshInstances _ _ _
    incoming := fun _ _ => rfl
    instances := fun _ hid =>
      SortedMap.get?_foldl_insert_of_notMem fun i hi e => hid (List.mem_map.2 ⟨i, hi, e⟩)
    keeps := ⟨Nat.le_add_right _ _, rfl, rfl⟩ }

theorem changesOnly_removeStage (h : l.Sound) {name : String}
    (hout : l.dataflow.outputStreams name = []) :
    l.ChangesOnly (l.after (.removeStage name)).1 (l.after (.removeStage name)).2 := by
  have hnum := h.laid.numbered
  have hwithout := without_after_removeStage hnum name
  refine ⟨SortedSet.nodup_toList _, fun id hid => ?_, fun id hid => ?_,
    Nat.le_of_eq hwithout.lastInstance.symm, hwithout.lastContainer, hwithout.containers⟩
  · rw [mem_after_removeStage hnum] at hid
    refine incoming_filter hwithout.wires fun w hw hw' => ?_
    rw [decide_eq_true_eq]
    exact ⟨source_notMem_instancesOf h hout hw, hw'.symm ▸ hid⟩
  · rw [mem_after_removeStage hnum] at hid
    rw [hwithout.instances, if_neg hid]
    rfl

theorem changesOnly_attach {stream : String} {s : Stream} {sink : PortAddress}
    (hs : l.dataflow.stream? stream = some s) :
    l.ChangesOnly (l.after (.attach stream sink)).1 (l.after (.attach stream sink)).2 := by
  rw [after_attach hs]
  refine ⟨SortedSet.nodup_toList _, fun id hid => ?_, fun _ _ => rfl, Nat.le_refl _, rfl, rfl⟩
  have hids : id ∉ l.instancesOf sink.operator := fun hmem => hid (SortedSet.mem_ofList.2 hmem)
  refine incoming_append rfl fun w hw hw' => hids ?_
  have htarget := (Layout.mem_mesh_iff.1 (mem_missingWires.1 hw).1).2.1
  rw [hw'] at htarget
  exact (mem_presentOf_iff.1 htarget).1

theorem changesOnly_removeStream (h : l.Sound) {stream : String} {s : Stream}
    (hs : l.dataflow.stream? stream = some s) :
    l.ChangesOnly (l.after (.removeStream stream)).1 (l.after (.removeStream stream)).2 := by
  rw [after_removeStream hs]
  refine ⟨SortedSet.nodup_toList _, fun id hid => ?_, fun _ _ => rfl, Nat.le_refl _, rfl, rfl⟩
  refine incoming_filter rfl fun w hw hw' => ?_
  by_contra hstream
  have hstream : w.stream = stream := by simpa using hstream
  obtain ⟨t, ht, k, hk, _, _, hb⟩ := (h.laid.wired w).1 hw
  rw [hstream, hs] at ht
  cases ht
  refine hid (SortedSet.mem_ofList.2 (List.mem_flatMap.2 ⟨k.operator, ?_, hw' ▸ hb⟩))
  exact List.mem_cons_of_mem _ (List.mem_map_of_mem hk)

/-- **A move changes only the instances that it is recorded for, and the wires into them.** -/
theorem changesOnly_after (h : l.Sound) (hm : l.dataflow.Admits m) :
    l.ChangesOnly (l.after m).1 (l.after m).2 := by
  cases m with
  | addStage name operator => exact changesOnly_addStage h hm
  | removeStage name => exact changesOnly_removeStage h hm.2.1
  | setOperator _ _ | addStream _ _ =>
    exact ⟨List.nodup_nil, fun _ _ => rfl, fun _ _ => rfl, Nat.le_refl _, rfl, rfl⟩
  | attach stream sink =>
    obtain ⟨s, hs, _⟩ := hm
    exact changesOnly_attach hs
  | removeStream stream =>
    obtain ⟨s, hs⟩ := Option.isSome_iff_exists.1 hm
    exact changesOnly_removeStream h hs

end Layout

/-! ## The account -/

namespace ChangeSet

open Layout

variable {l l₀ : Layout} {c : ChangeSet} {id : InstanceId} {m : Move}

/-- What the account says about one instance, compared with the layout `l₀` that it was begun on. -/
structure Tracks (l₀ : Layout) (c : ChangeSet) (l : Layout) (id : InstanceId) : Prop where
  added : id ∈ c.added ↔ l.Present id ∧ ¬ l₀.Present id
  removed : id ∈ c.removed ↔ l₀.Present id ∧ ¬ l.Present id
  affected : id ∈ c.affected → l₀.Present id ∧ l.Present id
  /-- The wires into an instance have changed only if the account says so. -/
  incoming : l₀.Present id → l.Present id → id ∉ c.affected → l.incoming id = l₀.incoming id
  /-- An instance that is still there is where it was. -/
  kept : l₀.Present id → l.Present id → l.instance? id = l₀.instance? id
  bounded : l₀.Present id → id.val ≤ l.lastInstance

/-- **The account of a session that began on `l₀`.** -/
structure Accounts (l₀ : Layout) (c : ChangeSet) (l : Layout) : Prop where
  tracks : ∀ id, Tracks l₀ c l id
  keeps : l₀.Keeps l

theorem Tracks.balances (h : Tracks l₀ c l id) : Balances l₀ c l id :=
  ⟨h.added, h.removed, h.affected, h.bounded⟩

theorem Accounts.start (h : l.Numbered) : Accounts l ∅ l where
  tracks id :=
    have hstart : Balances l ∅ l id := .start h
    { added := hstart.added
      removed := hstart.removed
      affected := hstart.affected
      incoming := fun _ _ _ => rfl
      kept := fun _ _ => rfl
      bounded := hstart.bounded }
  keeps := .refl l

/-- Nothing is written down about the instances that a move is not recorded for. -/
theorem mem_after_of_notMem {ids : List InstanceId} (hnodup : ids.Nodup) (hid : id ∉ ids) :
    (id ∈ (c.after ids m).added ↔ id ∈ c.added) ∧
      (id ∈ (c.after ids m).affected ↔ id ∈ c.affected) := by
  have haffected := recordAffected_eq c ids
  have hremoved := recordRemoved_eq (c := c) hnodup id
  cases m with
  | addStage name operator =>
    simp [ChangeSet.after, mem_added_recordAdded, mem_affected_recordAdded, hid]
  | removeStage name => simp [ChangeSet.after, hremoved.1, hremoved.2.1, hid]
  | setOperator name operator => exact ⟨Iff.rfl, Iff.rfl⟩
  | addStream stream source => exact ⟨Iff.rfl, Iff.rfl⟩
  | attach stream sink | removeStream stream =>
    simp [ChangeSet.after, haffected.1, haffected.2.2 id, hid]

/-- An instance that was there from the start is neither new nor gone when its wires change. -/
theorem Balances.mem_recordAffected {ids : List InstanceId} (h : Balances l₀ c l id) (hid : id ∈ ids)
    (h₀ : l₀.Present id) (hp : l.Present id) : id ∈ (c.recordAffected ids).affected := by
  have hnotAdded : id ∉ c.added := fun ha => (h.added.1 ha).2 h₀
  have hnotRemoved : id ∉ c.removed := fun hr => (h.removed.1 hr).2 hp
  exact ((recordAffected_eq c ids).2.2 id).2 (.inr ⟨hid, hnotAdded, hnotRemoved⟩)

/-- An instance that a move is recorded for, and that was there from the start and still is, is affected
and where it was. -/
theorem Balances.mem_affected_after (h : Balances l₀ c l id) (hl : l.Sound) (hm : l.dataflow.Admits m)
    (hid : id ∈ (l.after m).1) (h₀ : l₀.Present id) (hp : (l.after m).2.Present id) :
    id ∈ (c.after (l.after m).1 m).affected ∧ (l.after m).2.instance? id = l.instance? id := by
  have hnum := hl.laid.numbered
  have hafter := h.after hnum m
  cases m with
  | addStage name operator =>
    have hadded := mem_added_recordAdded (c := c).2 (.inr hid)
    exact absurd h₀ (hafter.added.1 hadded).2
  | removeStage name => exact absurd hid ((present_after_removeStage hnum).1 hp).2
  | setOperator name operator => cases hid
  | addStream stream source => cases hid
  | attach stream sink =>
    obtain ⟨s, hs, _⟩ := hm
    rw [after_attach hs] at hid hp ⊢
    exact ⟨h.mem_recordAffected hid h₀ hp, rfl⟩
  | removeStream stream =>
    obtain ⟨s, hs⟩ := Option.isSome_iff_exists.1 hm
    rw [after_removeStream hs] at hid hp ⊢
    exact ⟨h.mem_recordAffected hid h₀ hp, rfl⟩

theorem Tracks.after (h : Tracks l₀ c l id) (hl : l.Sound) (hm : l.dataflow.Admits m) :
    Tracks l₀ (c.after (l.after m).1 m) (l.after m).2 id := by
  have honly := changesOnly_after hl hm
  have hbalances := h.balances.after hl.laid.numbered m
  have hkept : l₀.Present id → (l.after m).2.Present id →
      (l.after m).2.instance? id = l.instance? id := by
    intro h₀ hp
    by_cases hid : id ∈ (l.after m).1
    · exact (h.balances.mem_affected_after hl hm hid h₀ hp).2
    · exact honly.instances id hid
  have hbefore : l₀.Present id → (l.after m).2.Present id → l.Present id := by
    intro h₀ hp
    have hsame := hkept h₀ hp
    unfold Present at hp ⊢
    rw [← hsame]
    exact hp
  refine ⟨hbalances.added, hbalances.removed, hbalances.affected, fun h₀ hp hno => ?_, fun h₀ hp => ?_,
    hbalances.bounded⟩
  · have hid : id ∉ (l.after m).1 := fun hid =>
      hno (h.balances.mem_affected_after hl hm hid h₀ hp).1
    rw [(mem_after_of_notMem honly.nodup hid).2] at hno
    rw [honly.incoming id hid]
    exact h.incoming h₀ (hbefore h₀ hp) hno
  · rw [hkept h₀ hp]
    exact h.kept h₀ (hbefore h₀ hp)

/-- **Every move that the plan grants is accounted for.** -/
theorem Accounts.after (h : Accounts l₀ c l) (hl : l.Sound) (hm : l.dataflow.Admits m) :
    Accounts l₀ (c.after (l.after m).1 m) (l.after m).2 :=
  ⟨fun id => (h.tracks id).after hl hm, h.keeps.trans (changesOnly_after hl hm).keeps⟩

theorem Accounts.balances (h : Accounts l₀ c l) : ∀ id, Balances l₀ c l id :=
  fun id => (h.tracks id).balances

end ChangeSet

/-! ## Sessions -/

namespace Session

variable {s : Session} {l₀ : Layout}

/-- The session works on a layout of its whole plan and has kept account since it was `l₀`. -/
def Accounts (l₀ : Layout) (s : Session) : Prop :=
  ∃ l, s.target = .live l ∧ l.Sound ∧ ChangeSet.Accounts l₀ s.changes l

theorem Accounts.sound (h : s.Accounts l₀) : s.Sound := by
  obtain ⟨l, hl, hs, _⟩ := h
  exact ⟨l, hl, hs⟩

theorem Accounts.after_move (h : s.Accounts l₀) {m : Move} (hm : s.dataflow.Admits m) :
    (s.after m).Accounts l₀ := by
  obtain ⟨target, changes⟩ := s
  obtain ⟨l, rfl, hs, ha⟩ := h
  exact ⟨(l.after m).2, rfl, hs.after hm, ha.after hs hm⟩

theorem Accounts.step (h : s.Accounts l₀) (e : Edit) : (s.step e).after.Accounts l₀ :=
  step_keeps (fun _ _ hs hm => hs.after_move hm) h.sound.anchored h e

/-- **The account stays true through every run of edits**, those that fail included. -/
theorem accounts_runAll (h : s.Accounts l₀) (edits : List Edit) : (s.runAll edits).2.Accounts l₀ :=
  runAll_keeps (fun _ e hs => hs.step e) h edits

theorem accounts_onLayout (h : l₀.Sound) : (Session.onLayout l₀).Accounts l₀ :=
  ⟨l₀, rfl, h, .start h.laid.numbered⟩

/-- **The account says exactly what the session did**, on any layout that comes about and after any
edits: what it calls added and removed is the difference between the instances at the start and now, and
what it calls affected was there all along.  So no instance is written down twice, and one that was
made and taken away in the session is not written down at all. -/
theorem changes_eq_difference {l : Layout} (h : (Session.onLayout l).Reachable) (edits : List Edit) :
    let s := ((Session.onLayout l).runAll edits).2
    ∃ p, s.target = .live p ∧ s.changes.added = p.ids \ l.ids ∧ s.changes.removed = l.ids \ p.ids ∧
      (∀ id ∈ s.changes.affected, id ∈ l.ids ∧ id ∈ p.ids) ∧
      (∀ id ∈ s.changes.added, id ∉ s.changes.affected ∧ id ∉ s.changes.removed) ∧
      (∀ id ∈ s.changes.affected, id ∉ s.changes.removed) ∧
      ∀ id, id ∉ l.ids → id ∉ p.ids →
        id ∉ s.changes.added ∧ id ∉ s.changes.affected ∧ id ∉ s.changes.removed := by
  have hl : l.Intact := h.intact l rfl
  obtain ⟨p, htarget, _, hb⟩ := balances_runAll (balances_onLayout hl) h.anchored edits
  intro s
  have hadded : ∀ id, id ∈ s.changes.added ↔ id ∈ p.ids ∧ id ∉ l.ids := by
    intro id
    rw [Layout.mem_ids, Layout.mem_ids]
    exact (hb id).added
  have hremoved : ∀ id, id ∈ s.changes.removed ↔ id ∈ l.ids ∧ id ∉ p.ids := by
    intro id
    rw [Layout.mem_ids, Layout.mem_ids]
    exact (hb id).removed
  have haffected : ∀ id ∈ s.changes.affected, id ∈ l.ids ∧ id ∈ p.ids := by
    intro id hid
    rw [Layout.mem_ids, Layout.mem_ids]
    exact (hb id).affected hid
  have hsum : s.changes.added = p.ids \ l.ids := by
    apply SortedSet.ext_mem
    intro id
    rw [hadded, SortedSet.mem_sdiff]
  have hrest : s.changes.removed = l.ids \ p.ids := by
    apply SortedSet.ext_mem
    intro id
    rw [hremoved, SortedSet.mem_sdiff]
  refine ⟨p, htarget, hsum, hrest, haffected, ?_, ?_, ?_⟩
  · intro id hid
    have hnew := (hadded id).1 hid
    exact ⟨fun ha => hnew.2 (haffected id ha).1, fun hr => hnew.2 ((hremoved id).1 hr).1⟩
  · intro id hid hr
    exact ((hremoved id).1 hr).2 (haffected id hid).2
  · intro id hbefore hnow
    exact ⟨fun ha => hnow ((hadded id).1 ha).1, fun ha => hbefore (haffected id ha).1,
      fun hr => hbefore ((hremoved id).1 hr).1⟩

/-- A new operator feeds the first one, the third is taken away and added again, one more comes and
goes, and an edit fails. -/
def accountedEdits : List Edit :=
  [.addOperator "e" .relay, .addStream "ea" ⟨"e", "out"⟩ [⟨"a", "in"⟩], .removeOperator "c",
    .addOperator "f" .relay, .removeOperator "f", .addOperator "c" .relay, .removeOperator "a"]

/-- The number of the operator that came and went, 6, is written down nowhere. -/
theorem changes_eq_difference_forked :
    let s := ((Session.onLayout forked).runAll accountedEdits).2
    (Session.onLayout forked).Reachable ∧
      s.changes.added.toList = [⟨5⟩, ⟨7⟩] ∧ s.changes.affected.toList = [⟨1⟩] ∧
      s.changes.removed.toList = [⟨3⟩] ∧
      ∃ p, s.target = .live p ∧ s.changes.added = p.ids \ forked.ids ∧
        s.changes.removed = forked.ids \ p.ids := by
  have hlists : (fun c : ChangeSet => (c.added.toList, c.affected.toList, c.removed.toList))
      ((Session.onLayout forked).runAll accountedEdits).2.changes = ([⟨5⟩, ⟨7⟩], [⟨1⟩], [⟨3⟩]) := by
    decide +kernel
  obtain ⟨hadded, hrest⟩ := Prod.mk.inj hlists
  obtain ⟨haffected, hremoved⟩ := Prod.mk.inj hrest
  obtain ⟨p, htarget, hsum, hgone, _⟩ := changes_eq_difference reachable_forked accountedEdits
  exact ⟨reachable_forked, hadded, haffected, hremoved, p, htarget, hsum, hgone⟩

end Session

end LiveDataflow
