import Mathlib.Order.Lattice
import LiveDataflow.Proofs.Indexes

/-!
# Containers are filled in turn

A placement gives up the containers that host nothing and opens new ones for the instances that wait.  These
are cut into groups in the order of their numbers: as many to a group as a container takes, and only the last
group may be smaller.  The groups go into new containers one after the other, so both the containers opened
and the container of each instance are known from the number of those that wait before it.

## Results

* `Layout.getElem?_groups`, `Layout.length_groups`: the groups that a list is cut into, and their number.
* `Layout.get?_containers_foldl_host_new`, `Layout.instance?_foldl_host_group`: where groups are hosted.
* `Layout.Packs`: what a placement comes to.
* `Layout.Housed.packs`: every placement comes to this.
* `Layout.place_eq_self`, `Layout.Housed.place_place`: when a placement does nothing; placing the same
  instances again does nothing.
* `Session.Reachable.place_packs`: both, and that the new containers have later numbers than any before.
-/

set_option autoImplicit false

namespace LiveDataflow

namespace Layout

variable {l l' : Layout} {id : InstanceId} {c : ContainerId} {group : List InstanceId}
  {ids : SortedSet InstanceId}

/-! ## Groups of a list -/

section Groups

variable {α : Type} {size n i : Nat} {xs : List α}

theorem getElem?_groupsWithin (hsize : 0 < size) (hn : xs.length ≤ n) :
    (groupsWithin size n xs)[i]? =
      if i * size < xs.length then some ((xs.drop (i * size)).take size) else none := by
  induction n generalizing xs i with
  | zero =>
    have hnil : xs = [] := List.eq_nil_of_length_eq_zero (Nat.le_zero.1 hn)
    simp [groupsWithin, hnil]
  | succ n ih =>
    cases xs with
    | nil => simp [groupsWithin]
    | cons x rest =>
      rw [groupsWithin]
      cases i with
      | zero => simp
      | succ i =>
        have hrest : ((x :: rest).drop size).length ≤ n := by
          rw [List.length_drop]
          simp only [List.length_cons] at hn ⊢
          omega
        rw [List.getElem?_cons_succ, ih hrest, List.length_drop, List.drop_drop, Nat.succ_mul,
          Nat.add_comm size (i * size)]
        refine if_congr ?_ rfl rfl
        omega

/-- The groups that a list is cut into. -/
theorem getElem?_groups (hsize : 0 < size) :
    (groups size xs)[i]? = if i * size < xs.length then some ((xs.drop (i * size)).take size) else none :=
  getElem?_groupsWithin hsize (Nat.le_refl _)

theorem lt_groupCount_iff (hsize : 0 < size) (k : Nat) : i < (k + size - 1) / size ↔ i * size < k := by
  rw [← Nat.succ_le_iff, Nat.le_div_iff_mul_le hsize, Nat.succ_mul]
  omega

/-- As many groups as are needed. -/
theorem length_groups (hsize : 0 < size) : (groups size xs).length = (xs.length + size - 1) / size := by
  refine eq_of_forall_lt_iff fun i => ?_
  rw [lt_groupCount_iff hsize, ← not_le, ← List.getElem?_eq_none_iff, getElem?_groups hsize]
  split <;> simp [*]

/-- A member of a list is in the group of its place. -/
theorem mem_group_of_getElem? {j : Nat} {a : α} (hsize : 0 < size) (hj : xs[j]? = some a) :
    (groups size xs)[j / size]? = some ((xs.drop (j / size * size)).take size) ∧
      a ∈ (xs.drop (j / size * size)).take size := by
  have hless : j < xs.length := (List.getElem?_eq_some_iff.1 hj).1
  have hstart : j / size * size ≤ j := Nat.div_mul_le_self j size
  refine ⟨by rw [getElem?_groups hsize, if_pos (by omega)], ?_⟩
  refine List.mem_of_getElem? (i := j % size) ?_
  rw [List.getElem?_take, if_pos (Nat.mod_lt j hsize), List.getElem?_drop, Nat.div_add_mod']
  exact hj

end Groups

/-! ## Groups are hosted one after the other -/

section Hosting

variable {gs : List (List InstanceId)} {i : Nat}

theorem lastContainer_foldl_host (gs : List (List InstanceId)) (l : Layout) :
    (gs.foldl host l).lastContainer = l.lastContainer + gs.length := by
  induction gs generalizing l with
  | nil => rfl
  | cons group rest ih =>
    rw [List.foldl_cons, ih, List.length_cons]
    show l.lastContainer + 1 + rest.length = _
    omega

/-- Other containers are left alone. -/
theorem get?_containers_foldl_host_old (gs : List (List InstanceId)) {l : Layout}
    (hc : c.val ≤ l.lastContainer ∨ l.lastContainer + gs.length < c.val) :
    (gs.foldl host l).containers.get? c = l.containers.get? c := by
  induction gs generalizing l with
  | nil => rfl
  | cons group rest ih =>
    rw [List.length_cons] at hc
    have hlater : c.val ≤ (l.host group).lastContainer ∨
        (l.host group).lastContainer + rest.length < c.val := by
      show c.val ≤ l.lastContainer + 1 ∨ l.lastContainer + 1 + rest.length < c.val
      omega
    rw [List.foldl_cons, ih hlater, get?_containers_host, if_neg]
    rintro rfl
    dsimp only at hc
    omega

theorem instance?_foldl_host_outside {l : Layout} (hid : id ∉ gs.flatten) :
    (gs.foldl host l).instance? id = l.instance? id := by
  induction gs generalizing l with
  | nil => rfl
  | cons first rest ih =>
    rw [List.flatten_cons, List.mem_append, not_or] at hid
    rw [List.foldl_cons, ih hid.2, instance?_host, if_neg hid.1]

/-- A group is hosted after those before it and before those behind it, and the number of its container
says so. -/
theorem exists_foldl_host_eq (hg : gs[i]? = some group) (l : Layout) :
    ∃ before after, gs = before ++ group :: after ∧
      gs.foldl host l = after.foldl host ((before.foldl host l).host group) ∧
      (before.foldl host l).lastContainer + 1 = l.lastContainer + 1 + i := by
  obtain ⟨hi, hget⟩ := List.getElem?_eq_some_iff.1 hg
  have hsplit : gs = gs.take i ++ group :: gs.drop (i + 1) := by
    rw [← hget, List.getElem_cons_drop, List.take_append_drop]
  refine ⟨gs.take i, gs.drop (i + 1), hsplit, ?_, ?_⟩
  · exact (congrArg (List.foldl host l) hsplit).trans (by rw [List.foldl_append, List.foldl_cons])
  · rw [lastContainer_foldl_host, List.length_take]
    omega

/-- **Each group gets a container of its own**, in turn. -/
theorem get?_containers_foldl_host_new {l : Layout} (hg : gs[i]? = some group) :
    (gs.foldl host l).containers.get? ⟨l.lastContainer + 1 + i⟩ = some (.ofList group) := by
  obtain ⟨before, after, _, hfold, hnumber⟩ := exists_foldl_host_eq hg l
  rw [hfold, ← hnumber, get?_containers_foldl_host_old after (.inl (Nat.le_refl _)), get?_containers_host]
  exact if_pos rfl

/-- The instances of a group note down their container. -/
theorem instance?_foldl_host_group {l : Layout} (hnodup : gs.flatten.Nodup) (hg : gs[i]? = some group)
    (hid : id ∈ group) :
    (gs.foldl host l).instance? id =
      (l.instance? id).map fun x => { x with container := some ⟨l.lastContainer + 1 + i⟩ } := by
  obtain ⟨before, after, rfl, hfold, hnumber⟩ := exists_foldl_host_eq hg l
  rw [List.flatten_append, List.flatten_cons] at hnodup
  obtain ⟨_, hrest, hbefore⟩ := List.nodup_append.1 hnodup
  obtain ⟨_, _, hafter⟩ := List.nodup_append.1 hrest
  have hnotBefore : id ∉ before.flatten := fun hmem => hbefore id hmem id (List.mem_append_left _ hid) rfl
  have hnotAfter : id ∉ after.flatten := fun hmem => hafter id hid id hmem rfl
  rw [hfold, instance?_foldl_host_outside hnotAfter, instance?_host, if_pos hid,
    instance?_foldl_host_outside hnotBefore, hnumber]

end Hosting

/-! ## Placing -/

/-- What a placement comes to: instances that wait are packed into new containers in turn. -/
structure Packs (l : Layout) (waiting : List InstanceId) (size : Nat) (p : Placement) (l' : Layout) :
    Prop where
  /-- The containers that host nothing are given up. -/
  released : ∀ c, c ∈ p.released ↔ l.containers.get? c = some ∅
  deleted : ∀ c ∈ p.released, l'.containers.get? c = none
  /-- As many containers are opened as are needed, and get the next numbers. -/
  created : p.created.toList = (List.range ((waiting.length + size - 1) / size)).map fun i =>
    ⟨l.lastContainer + 1 + i⟩
  /-- A new container hosts those that are next in turn. -/
  hosts : ∀ i, i < (waiting.length + size - 1) / size → ∃ hosted,
    l'.containers.get? ⟨l.lastContainer + 1 + i⟩ = some hosted ∧
      hosted.toList = (waiting.drop (i * size)).take size
  /-- It is full, unless it is the last one. -/
  full : ∀ i, i + 1 < (waiting.length + size - 1) / size → ∀ hosted,
    l'.containers.get? ⟨l.lastContainer + 1 + i⟩ = some hosted → hosted.size = size
  /-- Those that waited get their containers, and nothing else of them changes. -/
  placed : ∀ j id, waiting[j]? = some id → ∃ x, l.instance? id = some x ∧
    l'.instance? id = some { x with container := some ⟨l.lastContainer + 1 + j / size⟩ }
  others : ∀ id, id ∉ waiting → l'.instance? id = l.instance? id
  remaining : ∀ c, c ∉ p.created → c ∉ p.released → l'.containers.get? c = l.containers.get? c
  nonempty : ∀ c hosted, l'.containers.get? c = some hosted → hosted ≠ ∅

theorem groupSize_pos (l : Layout) : 0 < l.dataflow.config.groupSize := by
  unfold Config.groupSize
  omega

theorem ascending_waiting (l : Layout) (ids : SortedSet InstanceId) :
    (l.waiting ids).Pairwise (· < ·) :=
  ids.ascending.filter _

theorem get?_containers_kept :
    l.kept.containers.get? c = (l.containers.get? c).filter fun hosted => !hosted.isEmpty :=
  SortedMap.get?_filter ..

/-- The containers that host nothing are given up. -/
theorem mem_released_place_iff : c ∈ (l.place ids).1.released ↔ l.containers.get? c = some ∅ := by
  rw [mem_released_place, SortedMap.mem_keys_iff, SortedMap.mem_keys_iff, get?_containers_kept]
  cases l.containers.get? c with
  | none => simp
  | some hosted =>
    rw [Option.some.injEq, ← SortedSet.isEmpty_iff, Option.filter_some]
    cases hosted.isEmpty <;> simp

theorem lastContainer_place (l : Layout) (ids : SortedSet InstanceId) :
    (l.place ids).2.lastContainer = l.lastContainer +
      ((l.waiting ids).length + l.dataflow.config.groupSize - 1) / l.dataflow.config.groupSize := by
  rw [place_eq_foldl_host, lastContainer_foldl_host, length_groups l.groupSize_pos]
  rfl

/-- The numbers of the containers that are opened. -/
theorem toList_created_place (l : Layout) (ids : SortedSet InstanceId) :
    (l.place ids).1.created.toList =
      (List.range (((l.waiting ids).length + l.dataflow.config.groupSize - 1) /
        l.dataflow.config.groupSize)).map fun i => ⟨l.lastContainer + 1 + i⟩ := by
  have hcreated : (l.place ids).1.created = .ofList
      ((List.range ((l.place ids).2.lastContainer - l.lastContainer)).map fun i =>
        (⟨l.lastContainer + 1 + i⟩ : ContainerId)) := rfl
  rw [hcreated, lastContainer_place, Nat.add_sub_cancel_left]
  refine SortedSet.toList_ofList (List.pairwise_map.2 (List.pairwise_lt_range.imp fun {i k} hlt => ?_))
  show l.lastContainer + 1 + i < l.lastContainer + 1 + k
  omega

/-- A container that is there after a placement is a new one, or was there and hosts something. -/
theorem get?_containers_place_old (hc : c ∉ (l.place ids).1.created) :
    (l.place ids).2.containers.get? c = (l.containers.get? c).filter fun hosted => !hosted.isEmpty := by
  rw [mem_created_place, lastContainer_place] at hc
  rw [← get?_containers_kept, place_eq_foldl_host]
  refine get?_containers_foldl_host_old _ ?_
  rw [length_groups l.groupSize_pos]
  show c.val ≤ l.lastContainer ∨ l.lastContainer + _ < c.val
  omega

theorem get?_containers_place_new {i : Nat} (hi : i * l.dataflow.config.groupSize < (l.waiting ids).length) :
    ∃ hosted, (l.place ids).2.containers.get? ⟨l.lastContainer + 1 + i⟩ = some hosted ∧
      hosted.toList =
        ((l.waiting ids).drop (i * l.dataflow.config.groupSize)).take l.dataflow.config.groupSize := by
  have hgroup : (groups l.dataflow.config.groupSize (l.waiting ids))[i]? = some _ :=
    (getElem?_groups l.groupSize_pos).trans (if_pos hi)
  refine ⟨_, get?_containers_foldl_host_new (l := l.kept) hgroup, SortedSet.toList_ofList ?_⟩
  exact (ascending_waiting l ids).sublist ((List.take_sublist _ _).trans (List.drop_sublist _ _))

theorem exists_of_mem_created (hc : c ∈ (l.place ids).1.created) :
    ∃ i, i * l.dataflow.config.groupSize < (l.waiting ids).length ∧ c = ⟨l.lastContainer + 1 + i⟩ := by
  rw [SortedSet.mem_iff, toList_created_place] at hc
  obtain ⟨i, hi, rfl⟩ := List.mem_map.1 hc
  exact ⟨i, (lt_groupCount_iff l.groupSize_pos _).1 (List.mem_range.1 hi), rfl⟩

/-- Those that do not wait are left alone. -/
theorem instance?_place_outside (hid : id ∉ l.waiting ids) :
    (l.place ids).2.instance? id = l.instance? id := by
  rw [place_eq_foldl_host]
  refine instance?_foldl_host_outside ?_
  rw [flatten_groups l.groupSize_pos]
  exact hid

/-- **Every placement packs those that wait into new containers.** -/
theorem Housed.packs (h : l.Housed) (ids : SortedSet InstanceId) :
    l.Packs (l.waiting ids) l.dataflow.config.groupSize (l.place ids).1 (l.place ids).2 where
  released _ := mem_released_place_iff
  deleted c hc := by
    have hempty := mem_released_place_iff.1 hc
    have hold : c ∉ (l.place ids).1.created := by
      intro hnew
      have hlater := (mem_created_place.1 hnew).1
      have hnumbered := h.numbered c ∅ hempty
      omega
    rw [get?_containers_place_old hold, hempty]
    rfl
  created := toList_created_place l ids
  hosts i hi := get?_containers_place_new ((lt_groupCount_iff l.groupSize_pos _).1 hi)
  full i hi hosted hc := by
    have hless := (lt_groupCount_iff l.groupSize_pos _).1 hi
    rw [Nat.succ_mul] at hless
    have hpart : i * l.dataflow.config.groupSize < (l.waiting ids).length := by omega
    obtain ⟨hosted', hc', hlist⟩ := get?_containers_place_new hpart
    rw [hc'] at hc
    cases hc
    rw [SortedSet.size, hlist, List.length_take, List.length_drop]
    omega
  placed j id hj := by
    obtain ⟨_, x, hx, _⟩ := mem_waiting_iff.1 (List.mem_of_getElem? hj)
    obtain ⟨hgroup, hid⟩ := mem_group_of_getElem? l.groupSize_pos hj
    refine ⟨x, hx, ?_⟩
    have hnodup : (groups l.dataflow.config.groupSize (l.waiting ids)).flatten.Nodup := by
      rw [flatten_groups l.groupSize_pos]
      exact ids.nodup_toList.filter _
    rw [place_eq_foldl_host, instance?_foldl_host_group hnodup hgroup hid]
    exact congrArg (Option.map _) hx
  others _ hid := instance?_place_outside hid
  remaining c hnew hempty := by
    rw [mem_released_place_iff] at hempty
    rw [get?_containers_place_old hnew]
    cases hc : l.containers.get? c with
    | none => rfl
    | some hosted =>
      refine Option.filter_eq_some_iff.2 ⟨rfl, ?_⟩
      rw [Bool.not_eq_true', ← Bool.not_eq_true, SortedSet.isEmpty_iff]
      rintro rfl
      exact hempty hc
  nonempty c hosted hc := by
    by_cases hnew : c ∈ (l.place ids).1.created
    · obtain ⟨i, hi, rfl⟩ := exists_of_mem_created hnew
      obtain ⟨hosted', hc', hlist⟩ := get?_containers_place_new hi
      rw [hc'] at hc
      cases hc
      rintro rfl
      have hlength := congrArg List.length hlist
      have hpos := l.groupSize_pos
      rw [List.length_take, List.length_drop] at hlength
      have hnil : (∅ : SortedSet InstanceId).toList.length = 0 := rfl
      omega
    · rw [get?_containers_place_old hnew, Option.filter_eq_some_iff, Bool.not_eq_true', ← Bool.not_eq_true,
        SortedSet.isEmpty_iff] at hc
      exact hc.2

/-- With nothing that waits and nothing to give up, a placement does nothing. -/
theorem place_eq_self (hwaiting : l.waiting ids = [])
    (hfull : ∀ c hosted, l.containers.get? c = some hosted → hosted ≠ ∅) :
    l.place ids = (⟨∅, ∅⟩, l) := by
  have hkept : l.kept = l := by
    have hall : (l.containers.filter fun _ hosted => !hosted.isEmpty) = l.containers := by
      refine SortedMap.filter_eq_self fun c hosted hc => ?_
      rw [Bool.not_eq_true', ← Bool.not_eq_true, SortedSet.isEmpty_iff]
      exact hfull c hosted hc
    unfold Layout.kept
    rw [hall]
  have hlayout : (l.place ids).2 = l := by
    rw [place_eq_foldl_host, hwaiting, hkept]
    rfl
  have hcreated : (l.place ids).1.created = ∅ := by
    refine SortedSet.eq_empty_iff.2 fun c hc => ?_
    have hnew := mem_created_place.1 hc
    rw [hlayout] at hnew
    omega
  have hreleased : (l.place ids).1.released = ∅ := by
    refine SortedSet.eq_empty_iff.2 fun c hc => ?_
    exact hfull c ∅ (mem_released_place_iff.1 hc) rfl
  refine Prod.ext ?_ hlayout
  show (⟨(l.place ids).1.created, (l.place ids).1.released⟩ : Placement) = ⟨∅, ∅⟩
  rw [hcreated, hreleased]

/-- **Placing the same instances again does nothing.** -/
theorem Housed.place_place (h : l.Housed) (ids : SortedSet InstanceId) :
    (l.place ids).2.place ids = (⟨∅, ∅⟩, (l.place ids).2) := by
  have hpacks := h.packs ids
  generalize (l.place ids).2 = l' at hpacks ⊢
  refine place_eq_self ?_ hpacks.nonempty
  refine List.eq_nil_iff_forall_not_mem.2 fun id hid => ?_
  obtain ⟨hmem, x, hx, hnone⟩ := mem_waiting_iff.1 hid
  by_cases hwaited : id ∈ l.waiting ids
  · obtain ⟨j, hj⟩ := List.getElem?_of_mem hwaited
    obtain ⟨y, _, hy⟩ := hpacks.placed j id hj
    rw [hx] at hy
    cases hy
    cases hnone
  · rw [hpacks.others id hwaited] at hx
    exact hwaited (mem_waiting_iff.2 ⟨hmem, x, hx, hnone⟩)

end Layout

/-! ## Everything that comes about -/

namespace Session

/-- **Instances are packed into containers in turn**, on every layout that comes about.  Those that wait are
the given ones that are there and have no container, in ascending order.  The containers that are opened have
later numbers than any that the layout ever had before, and placing the same instances again does nothing. -/
theorem Reachable.place_packs {s : Session} (h : s.Reachable) {l : Layout} (hl : s.target = .live l)
    (ids : SortedSet InstanceId) :
    (∀ id, id ∈ l.waiting ids ↔ id ∈ ids ∧ ∃ i, l.instance? id = some i ∧ i.container = none) ∧
    (l.waiting ids).Pairwise (· < ·) ∧
    l.Packs (l.waiting ids) (max 1 l.dataflow.config.maxPerContainer.toNat)
      (l.place ids).1 (l.place ids).2 ∧
    (∀ (s₀ : Session) (l₀ : Layout) c₀ hosted, s₀.Reachable → s₀.Leads s → s₀.target = .live l₀ →
      l₀.containers.get? c₀ = some hosted → ∀ c ∈ (l.place ids).1.created, c₀ < c) ∧
    (l.place ids).2.place ids = (⟨∅, ∅⟩, (l.place ids).2) := by
  have hhoused : ∀ {s : Session} {l : Layout}, s.Reachable → s.target = .live l → l.Housed :=
    fun hs hl => Layout.Housed.kept.holds .ofDataflow hs _ hl
  refine ⟨fun id => Layout.mem_waiting_iff, Layout.ascending_waiting l ids, (hhoused h hl).packs ids,
    fun s₀ l₀ c₀ hosted h₀ hlead hl₀ hc₀ c hc => ?_, (hhoused h hl).place_place ids⟩
  have hstart : s₀.On l₀.Since := by
    intro l₁ hl₁
    rw [hl₀] at hl₁
    cases hl₁
    exact .refl l₀
  have hsince : l₀.Since l := (Layout.Since.kept l₀).leads hlead h₀ hstart l hl
  have hbefore := (hhoused h₀ hl₀).numbered c₀ hosted hc₀
  have hlast := hsince.lastContainer
  have hnew := (Layout.mem_created_place.1 hc).1
  show c₀.val < c.val
  omega

/-- A plan of one operator with three partitions, two of which go into a container. -/
def roomy : Dataflow :=
  let d := Dataflow.empty { maxPerContainer := 2, defaultPartitions := 3 }
  { d with stages := d.stages.insert "a" (d.newStage "a" .relay) }

/-- The layout of that plan. -/
def crowded : Layout := (Layout.materialize roomy).toOption.getD (.ofDataflow roomy)

theorem reachable_crowded : (Session.onLayout crowded).Reachable :=
  .materialize (s := .onPlan roomy) (.plan (.empty _) (.addStage "a" .relay rfl)) rfl

/-- The instances of the operator are taken away, and another operator is laid out. -/
def vacated : Layout :=
  let l := (crowded.removeOperator "a").2
  let d := { l.dataflow with stages := l.dataflow.stages.insert "b" (l.dataflow.newStage "b" .relay) }
  (({ l with dataflow := d } : Layout).addOperator "b").toOption.elim l (·.2)

theorem reachable_vacated : (Session.onLayout vacated).Reachable := by
  have hremoved := Reachable.layout reachable_crowded (.removeOperator "a")
  have hadded := Reachable.plan hremoved (.addStage "b" .relay rfl)
  exact .layout hadded (.addOperator "b" rfl)

/-- Two empty containers are given up.  The three new instances get two others, and an instance that is gone
and one that never was get none. -/
theorem place_packs_vacated :
    let ids : SortedSet InstanceId := .ofList [⟨1⟩, ⟨4⟩, ⟨5⟩, ⟨6⟩, ⟨9⟩]
    (Session.onLayout vacated).Reachable ∧ vacated.waiting ids = [⟨4⟩, ⟨5⟩, ⟨6⟩] ∧
      ⟨1⟩ ∈ (vacated.place ids).1.released ∧ (vacated.place ids).1.created.toList = [⟨3⟩, ⟨4⟩] ∧
      (∃ hosted, (vacated.place ids).2.containers.get? ⟨4⟩ = some hosted ∧ hosted.toList = [⟨6⟩]) ∧
      (vacated.place ids).2.place ids = (⟨∅, ∅⟩, (vacated.place ids).2) := by
  have hwaiting : vacated.waiting (.ofList [⟨1⟩, ⟨4⟩, ⟨5⟩, ⟨6⟩, ⟨9⟩]) = [⟨4⟩, ⟨5⟩, ⟨6⟩] := by decide +kernel
  have hsize : max 1 vacated.dataflow.config.maxPerContainer.toNat = 2 := by decide +kernel
  have hlast : vacated.lastContainer = 2 := by decide +kernel
  obtain ⟨_, _, hpacks, _, htwice⟩ := Reachable.place_packs reachable_vacated rfl
    (.ofList [⟨1⟩, ⟨4⟩, ⟨5⟩, ⟨6⟩, ⟨9⟩])
  rw [hwaiting, hsize] at hpacks
  have hcreated := hpacks.created
  have hhosts := hpacks.hosts 1 (by decide)
  rw [hlast] at hcreated hhosts
  exact ⟨reachable_vacated, hwaiting, (hpacks.released ⟨1⟩).2 (by decide +kernel), hcreated, hhosts, htwice⟩

end Session

end LiveDataflow
