import LiveDataflow.Proofs.Acyclic
import LiveDataflow.Proofs.Cluster
import LiveDataflow.Proofs.Evolution

/-!
# No operator is without instances

With settings that are accepted every stage of a plan has a partition, and sessions lay out nothing but
stages of the plan.  So every operator of a layout has an instance.

## Results

* `Dataflow.Partitioned.invariant`: every change of a plan leaves its stages their partitions.
* `Dataflow.Built.populated`: with settings that are accepted every stage has a partition.
* `Layout.Staffed.after`, `Layout.staffed_materialize`: every operator that is laid out has an instance.
-/

set_option autoImplicit false

namespace LiveDataflow

namespace Dataflow

variable {d : Dataflow} {relabels : Bool}

/-- Where operators come with a partition, every stage has one. -/
def Partitioned (d : Dataflow) : Prop :=
  d.config.defaultPartitions ≠ 0 → ∀ name stage, d.stage? name = some stage → stage.partitions ≠ 0

/-- **Every change of a plan leaves its stages their partitions.** -/
theorem Partitioned.invariant : Invariant relabels Partitioned where
  empty config _ := fun _ _ h => (nomatch h)
  insert operator h _ := by
    intro hconfig j stage hj
    rw [stage?_insert] at hj
    split at hj
    · cases hj
      exact fun hzero => hconfig (UInt64.toNat_inj.1 hzero)
    · exact h hconfig j stage hj
  adjust name h _ _ hpartitions := by
    intro hconfig j stage hj
    rw [stage?_adjust] at hj
    split at hj
    · obtain ⟨old, hold, rfl⟩ := Option.map_eq_some_iff.1 hj
      exact hpartitions old (h hconfig j old hold)
    · exact h hconfig j stage hj
  removeStage {d name} h _ := by
    intro hconfig j stage hj
    rw [config_removeStage] at hconfig
    rw [stage?_removeStage] at hj
    split at hj
    · cases hj
    · exact h hconfig j stage hj
  insertStream h _ _ := h
  attach _ h _ _ := h
  removeStream _ h := h

/-- New operators come with a partition, and every stage has one. -/
structure Populated (d : Dataflow) : Prop where
  positive : d.config.defaultPartitions ≠ 0
  partitions : ∀ name stage, d.stage? name = some stage → stage.partitions ≠ 0

theorem Built.populated (h : d.Built relabels) (hconfig : d.config.validate = .ok ()) : d.Populated := by
  have hpositive := (Config.validate_eq_ok_iff.1 hconfig).2
  exact ⟨hpositive, Partitioned.invariant.holds h hpositive⟩

theorem Populated.after (h : d.Populated) (ha : d.Anchored) {m : Move} (hm : d.Admits m) :
    (d.after m).Populated := by
  have hinvariant : Invariant false Partitioned := Partitioned.invariant
  have hpositive : (d.after m).config.defaultPartitions ≠ 0 := by
    rw [config_after]
    exact h.positive
  exact ⟨hpositive, hinvariant.after ha (fun _ => h.partitions) hm hpositive⟩

end Dataflow

namespace Layout

variable {l l' : Layout} {name : String} {ids : List InstanceId} {d : Dataflow}

/-- Every operator that is laid out has an instance. -/
def Staffed (l : Layout) : Prop := ∀ name ids, l.byOperator.get? name = some ids → ids ≠ []

theorem Staffed.of_same (h : l.Staffed) (hoperators : l'.byOperator = l.byOperator) : l'.Staffed := by
  unfold Staffed
  rw [hoperators]
  exact h

/-- An operator of the plan has an instance. -/
theorem Staffed.instancesOf_ne_nil (h : l.Staffed) (hc : l.Covers)
    (hstage : (l.dataflow.stage? name).isSome = true) : l.instancesOf name ≠ [] := by
  have hcontains : (l.byOperator.get? name).isSome = true := (hc name).trans hstage
  obtain ⟨ids, hids⟩ := Option.isSome_iff_exists.1 hcontains
  have hlist : l.instancesOf name = ids := by
    unfold instancesOf
    rw [hids]
    rfl
  rw [hlist]
  exact h name ids hids

theorem Staffed.addOperator (h : l.Staffed) (hd : l.dataflow.Populated)
    (hok : l.addOperator name = .ok (ids, l')) : l'.Staffed := by
  obtain ⟨stage, hstage, _, hids, _⟩ := addOperator_eq_ok_iff.1 hok
  intro other list hlist
  rw [byOperator_addOperator hok, SortedMap.get?_insert] at hlist
  split at hlist
  · cases hlist
    have hlength : ids.length = stage.partitions := by simp [hids, freshInstances]
    intro hnil
    rw [hnil] at hlength
    exact hd.partitions name stage hstage hlength.symm
  · exact h other list hlist

theorem Staffed.addOperators {names : List String} (h : l.Staffed) (hd : l.dataflow.Populated)
    (hok : l.addOperators names = .ok (ids, l')) : l'.Staffed := by
  have hboth : l'.Staffed ∧ l'.dataflow.Populated := by
    refine addOperators_keeps (P := fun l => l.Staffed ∧ l.dataflow.Populated) (fun hone h => ?_) ⟨h, hd⟩ hok
    rw [dataflow_addOperator hone]
    exact ⟨h.1.addOperator h.2 hone, h.2⟩
  exact hboth.1

theorem staffed_materialize (hd : d.Populated) (hok : materialize d = .ok l) : l.Staffed := by
  obtain ⟨ids, l₀, _, hadd, hprime⟩ := materialize_eq_ok_iff.1 hok
  have hstart : (Layout.ofDataflow d).Staffed := fun _ _ h => (nomatch h)
  have hlaid : l₀.Staffed := hstart.addOperators hd hadd
  have halike : l₀.Alike l := (alike_place l₀ _).trans (primes_of_primeAll hprime).alike
  exact hlaid.of_same halike.byOperator

/-- **A move leaves every operator an instance.** -/
theorem Staffed.after (h : l.Staffed) (hc : l.Covers) {m : Move} (hm : l.dataflow.Admits m)
    (hd : (l.dataflow.after m).Populated) : (l.after m).2.Staffed := by
  cases m with
  | addStage name operator =>
    have hplan : ({ l with dataflow := l.dataflow.after (.addStage name operator) } : Layout).Staffed :=
      h.of_same rfl
    exact hplan.addOperator hd (addOperator_after (hc.absent hm))
  | removeStage name =>
    have hwithout := without_removeOperator { l with dataflow := l.dataflow.removeStage name } name
    have herased : (l.after (.removeStage name)).2.byOperator = l.byOperator.erase name := hwithout.byOperator
    intro other list hlist
    rw [herased, SortedMap.get?_erase] at hlist
    split at hlist
    · cases hlist
    · exact h other list hlist
  | setOperator name operator => exact h.of_same rfl
  | addStream stream source => exact h.of_same rfl
  | attach stream sink =>
    obtain ⟨s, hs, _⟩ := hm
    rw [after_attach hs]
    exact h.of_same rfl
  | removeStream stream =>
    obtain ⟨s, hs⟩ := Option.isSome_iff_exists.1 hm
    rw [after_removeStream hs]
    exact h.of_same rfl

end Layout

end LiveDataflow
