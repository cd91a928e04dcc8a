import LiveDataflow.Proofs.Evolution

/-!
# Instances and containers agree

Which container an instance has is written down twice, with the instance and with the container.  The two
records agree on every layout that comes about.  A container is filled when it is opened and only loses
instances from then on, so none ever hosts more than a group.

## Results

* `Layout.Housed`: the invariant.
* `Layout.get?_containers_removeInstance`, `Layout.get?_containers_host`: what is in the containers after
  an instance was taken away and after a container was opened.
* `Layout.Housed.kept`: every change of a layout keeps it.
-/

set_option autoImplicit false

namespace LiveDataflow.Layout

variable {l l' : Layout} {id : InstanceId} {c : ContainerId} {group : List InstanceId}

/-- The container of an instance, if it is there and has one. -/
def containerOf (l : Layout) (id : InstanceId) : Option ContainerId :=
  (l.instance? id).bind (·.container)

/-- Whether a container is there and hosts an instance. -/
def HostedBy (l : Layout) (id : InstanceId) (c : ContainerId) : Prop :=
  ∃ hosted, l.containers.get? c = some hosted ∧ id ∈ hosted

theorem containerOf_eq_some_iff :
    l.containerOf id = some c ↔ ∃ i, l.instance? id = some i ∧ i.container = some c := by
  unfold containerOf
  rw [Option.bind_eq_some_iff]

/-- An instance has a container exactly if the container hosts it.  Containers are numbered and no larger
than a group. -/
structure Housed (l : Layout) : Prop where
  agree : ∀ id c, l.containerOf id = some c ↔ l.HostedBy id c
  small : ∀ c hosted, l.containers.get? c = some hosted → hosted.size ≤ l.dataflow.config.groupSize
  numbered : ∀ c hosted, l.containers.get? c = some hosted → c.val ≤ l.lastContainer

/-! ## What is in the containers -/

theorem get?_containers_removeInstance :
    (l.removeInstance id).containers.get? c = (l.containers.get? c).map fun hosted =>
      if l.containerOf id = some c then hosted.erase id else hosted := by
  unfold removeInstance containerOf
  cases l.instance? id with
  | none => simp
  | some i =>
    cases hcontainer : i.container with
    | none => simp [hcontainer]
    | some c' =>
      by_cases hc : c' = c
      · subst hc
        simp [hcontainer, SortedMap.get?_adjust]
      · simp [hcontainer, hc, SortedMap.get?_adjust]

theorem instance?_removeInstance {j : InstanceId} :
    (l.removeInstance id).instance? j = if id = j then none else l.instance? j := by
  unfold removeInstance
  cases hi : l.instance? id with
  | none =>
    dsimp only
    split
    · rename_i hj
      rw [← hj, hi]
    · rfl
  | some i => exact SortedMap.get?_erase ..

theorem get?_containers_host :
    (l.host group).containers.get? c =
      if (⟨l.lastContainer + 1⟩ : ContainerId) = c then some (.ofList group) else l.containers.get? c :=
  SortedMap.get?_insert ..

/-- Placing opens a container for each group of those that wait for one. -/
theorem place_eq_foldl_host (l : Layout) (ids : SortedSet InstanceId) :
    (l.place ids).2 = (groups l.dataflow.config.groupSize (l.waiting ids)).foldl host l.kept := rfl

theorem length_le_of_mem_groupsWithin {α : Type} {size n : Nat} {xs g : List α}
    (hg : g ∈ groupsWithin size n xs) : g.length ≤ size := by
  induction n generalizing xs with
  | zero => cases hg
  | succ n ih =>
    cases xs with
    | nil => cases hg
    | cons x rest =>
      rcases List.mem_cons.1 hg with rfl | hg
      · exact List.length_take_le _ _
      · exact ih hg

namespace Housed

/-- What is hosted is there. -/
theorem present (h : l.Housed) (hid : l.HostedBy id c) : l.Present id := by
  obtain ⟨i, hi, _⟩ := containerOf_eq_some_iff.1 ((h.agree id c).2 hid)
  exact present_of_instance? hi

theorem ofDataflow (d : Dataflow) : (Layout.ofDataflow d).Housed :=
  ⟨fun _ _ => ⟨fun h => (nomatch h), fun ⟨_, h, _⟩ => (nomatch h)⟩, fun _ _ h => (nomatch h),
    fun _ _ h => (nomatch h)⟩

/-- The containers alone say which instances have one. -/
theorem of_same (h : l.Housed) (hof : ∀ id, l'.containerOf id = l.containerOf id)
    (hcontainers : l'.containers = l.containers) (hlast : l'.lastContainer = l.lastContainer)
    (hconfig : l'.dataflow.config = l.dataflow.config) : l'.Housed := by
  refine ⟨fun id c => ?_, fun c hosted hc => ?_, fun c hosted hc => ?_⟩
  · unfold HostedBy
    rw [hof, hcontainers]
    exact h.agree id c
  · rw [hcontainers] at hc
    rw [hconfig]
    exact h.small c hosted hc
  · rw [hcontainers] at hc
    rw [hlast]
    exact h.numbered c hosted hc

/-! ## Operators -/

/-- New instances have no container, and none hosts them. -/
theorem containerOf_enter (h : l.Numbered) (name : String) (partitions : Nat) (id : InstanceId) :
    (l.enter name (l.freshInstances name partitions)).containerOf id = l.containerOf id := by
  apply Option.ext
  intro c
  simp only [containerOf_eq_some_iff, instance?_enter]
  constructor
  · rintro ⟨i, ⟨hi, _⟩ | ⟨_, hi⟩, hc⟩
    · obtain ⟨p, _, rfl⟩ := mem_freshInstances_iff.1 hi
      cases hc
    · exact ⟨i, hi, hc⟩
  · rintro ⟨i, hi, hc⟩
    refine ⟨i, .inr ⟨fun j hj heq => ?_, hi⟩, hc⟩
    have habsent : l.instance? j.id = none := h.fresh_absent hj
    rw [heq, hi] at habsent
    cases habsent

/-- An instance that is taken away leaves its container, and no other hosts it. -/
theorem get?_removeInstance (h : l.Housed) :
    (l.removeInstance id).containers.get? c = (l.containers.get? c).map (·.erase id) := by
  rw [get?_containers_removeInstance]
  cases hc : l.containers.get? c with
  | none => rfl
  | some hosted =>
    by_cases hof : l.containerOf id = some c
    · simp [hof]
    · have hnot : id ∉ hosted := fun hid => hof ((h.agree id c).2 ⟨hosted, hc, hid⟩)
      simp [hof, SortedSet.erase_eq_self hnot]

theorem removeInstance (h : l.Housed) (id : InstanceId) : (l.removeInstance id).Housed := by
  have hconfig : (l.removeInstance id).dataflow = l.dataflow ∧
      (l.removeInstance id).lastContainer = l.lastContainer := by
    unfold Layout.removeInstance
    split <;> exact ⟨rfl, rfl⟩
  refine ⟨fun j c => ?_, fun c hosted hc => ?_, fun c hosted hc => ?_⟩
  · rw [containerOf_eq_some_iff, instance?_removeInstance]
    unfold HostedBy
    rw [h.get?_removeInstance]
    simp only [Option.map_eq_some_iff]
    constructor
    · rintro ⟨i, hi, hic⟩
      split at hi
      · cases hi
      · rename_i hne
        obtain ⟨hosted, hc, hj⟩ := (h.agree j c).1 (containerOf_eq_some_iff.2 ⟨i, hi, hic⟩)
        exact ⟨_, ⟨hosted, hc, rfl⟩, SortedSet.mem_erase.2 ⟨hj, Ne.symm hne⟩⟩
    · rintro ⟨_, ⟨hosted, hc, rfl⟩, hj⟩
      obtain ⟨hj, hne⟩ := SortedSet.mem_erase.1 hj
      rw [if_neg (Ne.symm hne)]
      exact containerOf_eq_some_iff.1 ((h.agree j c).2 ⟨hosted, hc, hj⟩)
  · rw [h.get?_removeInstance] at hc
    obtain ⟨before, hbefore, rfl⟩ := Option.map_eq_some_iff.1 hc
    rw [hconfig.1]
    exact Nat.le_trans (before.size_erase_le id) (h.small c before hbefore)
  · rw [h.get?_removeInstance] at hc
    obtain ⟨before, hbefore, _⟩ := Option.map_eq_some_iff.1 hc
    rw [hconfig.2]
    exact h.numbered c before hbefore

theorem removeInstances (h : l.Housed) (ids : List InstanceId) : (ids.foldl Layout.removeInstance l).Housed := by
  induction ids generalizing l with
  | nil => exact h
  | cons id rest ih => exact ih (h.removeInstance id)

theorem removeOperator (h : l.Housed) (name : String) : (l.removeOperator name).2.Housed := by
  have herased : ({ l with byOperator := l.byOperator.erase name } : Layout).Housed :=
    h.of_same (fun _ => rfl) rfl rfl rfl
  exact herased.removeInstances _

/-! ## Placement -/

/-- A container that hosts nothing can be given up. -/
theorem kept_containers (h : l.Housed) : l.kept.Housed := by
  have hget : ∀ c hosted, l.kept.containers.get? c = some hosted ↔
      l.containers.get? c = some hosted ∧ hosted.isEmpty = false := by
    intro c hosted
    unfold Layout.kept
    dsimp only
    rw [SortedMap.get?_filter, Option.filter_eq_some_iff, Bool.not_eq_true']
  refine ⟨fun id c => ?_, fun c hosted hc => ?_, fun c hosted hc => ?_⟩
  · have hsame : l.kept.HostedBy id c ↔ l.HostedBy id c := by
      constructor
      · rintro ⟨hosted, hc, hid⟩
        exact ⟨hosted, ((hget c hosted).1 hc).1, hid⟩
      · rintro ⟨hosted, hc, hid⟩
        refine ⟨hosted, (hget c hosted).2 ⟨hc, ?_⟩, hid⟩
        exact List.isEmpty_eq_false_iff.2 (List.ne_nil_of_mem hid)
    rw [hsame]
    exact h.agree id c
  · exact h.small c hosted ((hget c hosted).1 hc).1
  · exact h.numbered c hosted ((hget c hosted).1 hc).1

/-- A group of instances without containers gets a new one. -/
theorem host (h : l.Housed) (hfree : ∀ id ∈ group, l.Present id ∧ l.containerOf id = none)
    (hsize : group.length ≤ l.dataflow.config.groupSize) : (l.host group).Housed := by
  refine ⟨fun id c => ?_, fun c hosted hc => ?_, fun c hosted hc => ?_⟩
  · rw [containerOf_eq_some_iff, instance?_host]
    unfold HostedBy
    rw [get?_containers_host]
    by_cases hid : id ∈ group
    · obtain ⟨hpresent, hnone⟩ := hfree id hid
      obtain ⟨i, hi⟩ := Option.isSome_iff_exists.1 hpresent
      rw [if_pos hid, hi]
      split
      · rename_i hc
        simp [hc, hid]
      · rename_i hc
        have hno : ¬ l.HostedBy id c := fun hhosted => by
          rw [(h.agree id c).2 hhosted] at hnone
          cases hnone
        refine iff_of_false ?_ hno
        rintro ⟨_, hj, hjc⟩
        cases hj
        exact hc (Option.some.inj hjc)
    · rw [if_neg hid, ← containerOf_eq_some_iff, h.agree]
      split
      · rename_i hc
        refine iff_of_false ?_ (by simp [hid])
        rintro ⟨hosted, hhosted, _⟩
        have hle := h.numbered c hosted hhosted
        rw [← hc] at hle
        exact Nat.not_succ_le_self _ hle
      · exact Iff.rfl
  · rw [get?_containers_host] at hc
    split at hc
    · cases hc
      exact Nat.le_trans (SortedSet.size_ofList_le group) hsize
    · exact h.small c hosted hc
  · rw [get?_containers_host] at hc
    show c.val ≤ l.lastContainer + 1
    split at hc
    · rename_i hnew
      exact Nat.le_of_eq (congrArg ContainerId.val hnew.symm)
    · exact Nat.le_succ_of_le (h.numbered c hosted hc)

/-- Groups are hosted one after the other: those that come later have no container yet. -/
theorem hostAll {groups : List (List InstanceId)} (h : l.Housed) (hnodup : groups.flatten.Nodup)
    (hfree : ∀ id ∈ groups.flatten, l.Present id ∧ l.containerOf id = none)
    (hsize : ∀ g ∈ groups, g.length ≤ l.dataflow.config.groupSize) :
    (groups.foldl Layout.host l).Housed := by
  induction groups generalizing l with
  | nil => exact h
  | cons group rest ih =>
    rw [List.flatten_cons, List.nodup_append] at hnodup
    obtain ⟨_, hrest, hdisjoint⟩ := hnodup
    have hone : (l.host group).Housed :=
      h.host (fun id hid => hfree id (List.mem_append_left _ hid)) (hsize group List.mem_cons_self)
    refine ih hone hrest (fun id hid => ?_) fun g hg => hsize g (List.mem_cons_of_mem _ hg)
    have hnot : id ∉ group := fun hgroup => hdisjoint id hgroup id hid rfl
    have hsame : (l.host group).instance? id = l.instance? id := by
      rw [instance?_host, if_neg hnot]
    unfold Present containerOf
    rw [hsame]
    exact hfree id (List.mem_append_right _ hid)

theorem place (h : l.Housed) (ids : SortedSet InstanceId) : (l.place ids).2.Housed := by
  have hpositive : 0 < l.dataflow.config.groupSize := by unfold Config.groupSize; omega
  have hflatten : (groups l.dataflow.config.groupSize (l.waiting ids)).flatten = l.waiting ids :=
    flatten_groups hpositive _
  have hnodup : (l.waiting ids).Nodup := ids.nodup_toList.filter _
  have hkept : l.kept.Housed := h.kept_containers
  rw [place_eq_foldl_host]
  refine hkept.hostAll ?_ ?_ fun g hg => length_le_of_mem_groupsWithin hg
  · rw [hflatten]
    exact hnodup
  · rw [hflatten]
    intro id hid
    obtain ⟨_, i, hi, hnone⟩ := mem_waiting_iff.1 hid
    refine ⟨present_of_instance? hi, ?_⟩
    have hinst : l.kept.instance? id = some i := hi
    unfold containerOf
    rw [hinst]
    exact hnone

theorem prime (h : l.Housed) (hok : l.prime id = .ok l') : l'.Housed := by
  have hget := instance?_prime hok
  obtain ⟨_, rfl⟩ := prime_eq_ok_iff.1 hok
  refine h.of_same (fun j => ?_) rfl rfl rfl
  unfold containerOf
  rw [hget]
  split
  · cases l.instance? j <;> rfl
  · rfl

/-- **Every change of a layout keeps instances and containers in agreement.** -/
theorem kept : Kept Housed where
  withDataflow _ hconfig h := h.of_same (fun _ => rfl) rfl rfl hconfig
  withWires _ h := h.of_same (fun _ => rfl) rfl rfl rfl
  enter partitions hi _ h := h.of_same (containerOf_enter hi.numbered _ partitions) rfl rfl rfl
  removeOperator name _ h := h.removeOperator name
  place ids h := h.place ids
  prime hok h := h.prime hok

end Housed

end LiveDataflow.Layout
