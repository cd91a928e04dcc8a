import LiveDataflow.Proofs.Placement

/-!
# Instances are filed under their operators

Every instance is listed under the operator that it belongs to, once, and its number was given before.
Laying out an operator gives new numbers, and numbers are not given again.

## Results

* `Layout.Numbered`: the invariant.
* `Layout.Numbered.enter`, `Layout.Numbered.without`, `Layout.Numbered.alike`: laying out an operator,
  taking one away, placing and priming keep it.
* `Layout.Numbered.present_enter`, `Layout.Numbered.present_without`: which instances there are then.
-/

set_option autoImplicit false

namespace LiveDataflow.Layout

variable {l l' : Layout} {name : String} {sink : PortAddress} {s : Stream} {w : Wire}
  {id : InstanceId}

/-- Whether there is an instance of this number. -/
def Present (l : Layout) (id : InstanceId) : Prop := (l.instance? id).isSome = true

instance (l : Layout) (id : InstanceId) : Decidable (l.Present id) :=
  inferInstanceAs (Decidable ((l.instance? id).isSome = true))

theorem present_of_instance? {i : Instance} (hi : l.instance? id = some i) : l.Present id :=
  Option.isSome_iff_exists.2 ⟨i, hi⟩

theorem Without.present_iff {ids : List InstanceId} (h : l.Without ids l') :
    l'.Present id ↔ l.Present id ∧ id ∉ ids := by
  unfold Present
  simp only [Option.isSome_iff_exists, h.instance?_eq_some_iff, exists_and_left]
  exact and_comm

/-- Instances are filed under their operators and have numbers of their own. -/
structure Numbered (l : Layout) : Prop where
  indexed : ∀ name id, id ∈ l.instancesOf name ↔ ∃ i, l.instance? id = some i ∧ i.operator = name
  own : ∀ id i, l.instance? id = some i → i.id = id
  distinct : ∀ name, (l.instancesOf name).Nodup
  bounded : ∀ id, l.Present id → id.val ≤ l.lastInstance

namespace Numbered

theorem present (h : l.Numbered) (hid : id ∈ l.instancesOf name) : l.Present id := by
  obtain ⟨i, hi, _⟩ := (h.indexed name id).1 hid
  exact present_of_instance? hi

theorem operator_eq (h : l.Numbered) {other : String} (hid : id ∈ l.instancesOf name)
    (hother : id ∈ l.instancesOf other) : name = other := by
  obtain ⟨i, hi, rfl⟩ := (h.indexed name id).1 hid
  obtain ⟨j, hj, rfl⟩ := (h.indexed other id).1 hother
  rw [hi] at hj
  cases hj; rfl

theorem presentOf_eq (h : l.Numbered) (name : String) : l.presentOf name = l.instancesOf name := by
  unfold presentOf
  exact List.filter_eq_self.2 fun id hid => h.present hid

theorem nodup_presentOf (h : l.Numbered) (name : String) : (l.presentOf name).Nodup := by
  rw [h.presentOf_eq]
  exact h.distinct name

theorem mem_mesh_iff (h : l.Numbered) : w ∈ l.mesh s sink ↔
    w.source ∈ l.instancesOf s.source.operator ∧ w.target ∈ l.instancesOf sink.operator ∧
      w.stream = s.name ∧ w.port = sink.port := by
  rw [Layout.mem_mesh_iff, h.presentOf_eq, h.presentOf_eq]

theorem of_same (h : l.Numbered) (hinstances : l'.instances = l.instances)
    (hoperators : l'.byOperator = l.byOperator) (hlast : l'.lastInstance = l.lastInstance) :
    l'.Numbered := by
  have hget : ∀ id, l'.instance? id = l.instance? id := fun id => by
    unfold instance?; rw [hinstances]
  have hof : ∀ name, l'.instancesOf name = l.instancesOf name := fun name => by
    unfold instancesOf; rw [hoperators]
  refine ⟨fun name id => ?_, fun id i hi => ?_, fun name => ?_, fun id hid => ?_⟩
  · rw [hof, hget]; exact h.indexed name id
  · rw [hget] at hi; exact h.own id i hi
  · rw [hof]; exact h.distinct name
  · unfold Present at hid
    rw [hget] at hid
    rw [hlast]; exact h.bounded id hid

theorem alike (h : l.Numbered) (ha : l.Alike l') : l'.Numbered := by
  have hof : ∀ name, l'.instancesOf name = l.instancesOf name := fun name => by
    unfold instancesOf; rw [ha.byOperator]
  have hback : l'.Alike l := ⟨ha.dataflow.symm, ha.byOperator.symm, ha.wires.symm,
    ha.lastInstance.symm, fun id => (ha.instances id).symm⟩
  refine ⟨fun name id => ?_, fun id i hi => ?_, fun name => ?_, fun id hid => ?_⟩
  · rw [hof, h.indexed]
    constructor
    · rintro ⟨i, hi, rfl⟩
      obtain ⟨j, hj, hij⟩ := hback.counterpart hi
      exact ⟨j, hj, (congrArg Instance.operator hij).symm⟩
    · rintro ⟨i, hi, rfl⟩
      obtain ⟨j, hj, hij⟩ := ha.counterpart hi
      exact ⟨j, hj, (congrArg Instance.operator hij).symm⟩
  · obtain ⟨j, hj, hij⟩ := ha.counterpart hi
    have hids : i.bare.id = j.bare.id := congrArg Instance.id hij
    exact hids.trans (h.own id j hj)
  · rw [hof]; exact h.distinct name
  · unfold Present at hid
    rw [ha.isSome] at hid
    rw [ha.lastInstance]; exact h.bounded id hid

theorem ofDataflow (d : Dataflow) : (Layout.ofDataflow d).Numbered :=
  ⟨fun _ _ => ⟨fun h => (nomatch h), fun ⟨_, h, _⟩ => (nomatch h)⟩, fun _ _ h => (nomatch h),
    fun _ => List.nodup_nil, fun _ h => (nomatch h)⟩

/-- New numbers are above all that are there. -/
theorem fresh_absent (h : l.Numbered) {partitions : Nat} {i : Instance}
    (hi : i ∈ l.freshInstances name partitions) : l.instance? i.id = none := by
  obtain ⟨p, _, rfl⟩ := mem_freshInstances_iff.1 hi
  by_contra hne
  have := h.bounded _ (Option.isSome_iff_ne_none.2 hne)
  dsimp only at this
  omega

theorem present_enter (h : l.Numbered) {partitions : Nat} :
    (l.enter name (l.freshInstances name partitions)).Present id ↔
      id ∈ (l.freshInstances name partitions).map (·.id) ∨ l.Present id := by
  unfold Present
  simp only [Option.isSome_iff_exists, instance?_enter, List.mem_map]
  constructor
  · rintro ⟨i, ⟨hi, hid⟩ | ⟨_, hi⟩⟩
    · exact .inl ⟨i, hi, hid⟩
    · exact .inr ⟨i, hi⟩
  · rintro (⟨i, hi, rfl⟩ | ⟨i, hi⟩)
    · exact ⟨i, .inl ⟨hi, rfl⟩⟩
    · refine ⟨i, .inr ⟨fun j hj e => ?_, hi⟩⟩
      have := h.fresh_absent hj
      rw [e, hi] at this
      cases this

theorem enter (h : l.Numbered) (hname : l.instancesOf name = []) (partitions : Nat) :
    (l.enter name (l.freshInstances name partitions)).Numbered := by
  refine ⟨fun other id => ?_, fun id i hi => ?_, fun other => ?_, fun id hid => ?_⟩
  · rw [instancesOf_enter]
    simp only [instance?_enter]
    split
    · rename_i hother
      subst hother
      rw [List.mem_map]
      constructor
      · rintro ⟨i, hi, rfl⟩
        obtain ⟨p, _, rfl⟩ := mem_freshInstances_iff.1 hi
        exact ⟨_, .inl ⟨hi, rfl⟩, rfl⟩
      · rintro ⟨i, ⟨hi, hid⟩ | ⟨_, hi⟩, hop⟩
        · exact ⟨i, hi, hid⟩
        · have := (h.indexed name id).2 ⟨i, hi, hop⟩
          rw [hname] at this
          cases this
    · rename_i hother
      rw [h.indexed]
      constructor
      · rintro ⟨i, hi, rfl⟩
        refine ⟨i, .inr ⟨fun j hj e => ?_, hi⟩, rfl⟩
        have := h.fresh_absent hj
        rw [e, hi] at this
        cases this
      · rintro ⟨i, ⟨hi, _⟩ | ⟨_, hi⟩, hop⟩
        · obtain ⟨p, _, rfl⟩ := mem_freshInstances_iff.1 hi
          exact absurd hop hother
        · exact ⟨i, hi, hop⟩
  · rcases instance?_enter.1 hi with ⟨_, hid⟩ | ⟨_, hi⟩
    · exact hid
    · exact h.own id i hi
  · rw [instancesOf_enter]
    split
    · exact nodup_freshInstances l name partitions
    · exact h.distinct other
  · have hlength : (l.freshInstances name partitions).length = partitions := by
      simp [freshInstances]
    show id.val ≤ l.lastInstance + (l.freshInstances name partitions).length
    rw [hlength]
    rcases h.present_enter.1 hid with hid | hid
    · obtain ⟨i, hi, rfl⟩ := List.mem_map.1 hid
      obtain ⟨p, hp, rfl⟩ := mem_freshInstances_iff.1 hi
      dsimp only
      omega
    · have := h.bounded id hid
      omega

theorem present_without (h : l.Numbered)
    (hw : ({ l with byOperator := l.byOperator.erase name } : Layout).Without (l.presentOf name) l') :
    l'.Present id ↔ l.Present id ∧ id ∉ l.instancesOf name := by
  rw [hw.present_iff, h.presentOf_eq]
  exact Iff.rfl

theorem without (h : l.Numbered)
    (hw : ({ l with byOperator := l.byOperator.erase name } : Layout).Without (l.presentOf name) l') :
    l'.Numbered := by
  have hof : ∀ other, l'.instancesOf other = if name = other then [] else l.instancesOf other :=
    hw.instancesOf rfl
  have hget : ∀ id i, l'.instance? id = some i ↔ id ∉ l.instancesOf name ∧ l.instance? id = some i := by
    intro id i
    rw [hw.instance?_eq_some_iff, h.presentOf_eq]
    exact Iff.rfl
  refine ⟨fun other id => ?_, fun id i hi => ?_, fun other => ?_, fun id hid => ?_⟩
  · rw [hof]
    simp only [hget]
    split
    · rename_i hother
      subst hother
      constructor
      · intro hid; cases hid
      · rintro ⟨i, ⟨hno, hi⟩, hop⟩
        exact absurd ((h.indexed name id).2 ⟨i, hi, hop⟩) hno
    · rename_i hother
      constructor
      · intro hid
        obtain ⟨i, hi, hop⟩ := (h.indexed other id).1 hid
        exact ⟨i, ⟨fun hname => hother (h.operator_eq hname hid), hi⟩, hop⟩
      · rintro ⟨i, ⟨_, hi⟩, hop⟩
        exact (h.indexed other id).2 ⟨i, hi, hop⟩
  · exact h.own id i ((hget id i).1 hi).2
  · rw [hof]
    split
    · exact List.nodup_nil
    · exact h.distinct other
  · rw [hw.lastInstance]
    exact h.bounded id ((h.present_without hw).1 hid).1

end Numbered

theorem mem_unplaced_iff (h : l.Numbered) :
    id ∈ l.unplaced ↔ ∃ i, l.instance? id = some i ∧ i.container = none := by
  unfold unplaced
  rw [SortedSet.mem_ofList, List.mem_map]
  simp only [List.mem_filter, SortedMap.mem_values_iff, decide_eq_true_eq]
  constructor
  · rintro ⟨i, ⟨⟨key, hkey⟩, hi⟩, rfl⟩
    have : i.id = key := h.own key i hkey
    exact ⟨i, by rw [this]; exact hkey, hi⟩
  · rintro ⟨i, hid, hi⟩
    exact ⟨i, ⟨⟨id, hid⟩, hi⟩, h.own id i hid⟩

theorem Placed.present (h : l.Placed id) : l.Present id := by
  obtain ⟨i, hi, _⟩ := h
  exact present_of_instance? hi

theorem mem_unplaced_iff_not_placed (h : l.Numbered) : id ∈ l.unplaced ↔ l.Present id ∧ ¬ l.Placed id := by
  rw [mem_unplaced_iff h]
  unfold Placed Present
  cases l.instance? id <;> simp

end LiveDataflow.Layout
