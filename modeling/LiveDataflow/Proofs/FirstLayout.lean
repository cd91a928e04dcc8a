import Mathlib.Algebra.Order.Floor.Div
import LiveDataflow.Proofs.Acyclic
import LiveDataflow.Proofs.Cluster
import LiveDataflow.Proofs.InTurn
import LiveDataflow.Proofs.Packing

/-!
# The first layout of a plan

The first layout is made from nothing, and so nothing about it is left open: the instances, their numbers and
containers and the wires between them can all be read off the plan.

## Results

* `Dataflow.partitionCount`: how many instances a plan needs.
* `Layout.FirstOf`: the layout that can be read off a plan.
* `Layout.firstOf_materialize`: the first layout is this one.
* `Dataflow.Built.first_layout`: so it is for every plan that is built, and its partitions are connected as
  they are if the operators are laid out in any other order.
-/

set_option autoImplicit false

namespace LiveDataflow

/-- How many instances a plan needs. -/
def Dataflow.partitionCount (d : Dataflow) : Nat := (d.stages.values.map (·.partitions)).sum

namespace Layout

variable {d : Dataflow} {l l₀ : Layout} {ids : List InstanceId} {id : InstanceId} {i : Instance}

/-- The layout that can be read off a plan, with containers for `size` instances. -/
structure FirstOf (d : Dataflow) (size : Nat) (l : Layout) : Prop where
  dataflow : l.dataflow = d
  operators : l.byOperator.keys = d.stages.keys
  partitions : ∀ name stage, d.stage? name = some stage →
    (l.instancesOf name).length = stage.partitions
  /-- Operator by operator the instances are numbered without a gap, in the order of their partitions. -/
  numbers : d.labels.flatMap l.instancesOf = (List.range d.partitionCount).map fun k => ⟨k + 1⟩
  /-- What an instance is depends on its number and its place only. -/
  instances : ∀ id i, l.instance? id = some i ↔
    (l.instancesOf i.operator)[i.partition]? = some id ∧
      i = ⟨id, i.operator, i.partition, some ⟨id.val ⌈/⌉ size⟩, some .initial⟩
  containers : l.containers.keys = (List.range (d.partitionCount ⌈/⌉ size)).map fun k => ⟨k + 1⟩
  hosted : ∀ id c, l.HostedBy id c ↔ l.Present id ∧ c = ⟨id.val ⌈/⌉ size⟩
  /-- For each sink of each stream, every instance of the source has one wire to every instance of the
  sink's operator. -/
  wired : ∀ s ∈ d.streams.values, ∀ k ∈ s.sinks, ∀ a ∈ l.instancesOf s.source.operator,
    ∀ b ∈ l.instancesOf k.operator, l.wires.count ⟨a, b, s.name, k.port⟩ = 1
  only : ∀ w ∈ l.wires, ∃ s ∈ d.streams.values, ∃ k ∈ s.sinks, w.stream = s.name ∧ w.port = k.port ∧
    w.source ∈ l.instancesOf s.source.operator ∧ w.target ∈ l.instancesOf k.operator

/-! ## Before the instances are placed -/

section Unplaced

variable (hadd : (Layout.ofDataflow d).addOperators d.labels = .ok (ids, l₀))

include hadd

theorem numbers_first : ids = (List.range d.partitionCount).map fun k => ⟨k + 1⟩ := by
  have hturn := inTurn_addOperators hadd
  have hsum : ids.length = d.partitionCount := by
    have hlengths : d.stages.keys.map (fun n => (l₀.instancesOf n).length) =
        d.stages.values.map (·.partitions) := by
      refine SortedMap.map_keys_eq_map_values fun n stage hstage => ?_
      refine hturn.partitions n ((labels_perm_keys hadd).mem_iff.2 ?_) stage hstage
      rw [SortedMap.mem_keys_iff, hstage]
      rfl
    rw [← hturn.listed, List.length_flatMap, ((labels_perm_keys hadd).map _).sum_nat, hlengths]
    rfl
  rw [← hsum]
  refine hturn.numbers.trans (List.map_congr_left fun k _ => congrArg InstanceId.mk ?_)
  exact (Nat.add_right_comm 0 1 k).trans (by rw [Nat.zero_add])

/-- New instances have no container. -/
theorem bare_first (hi : l₀.instance? id = some i) : i.container = none := by
  have hhoused : l₀.Housed := Housed.kept.addOperators (.ofDataflow d) (.ofDataflow d) hadd
  cases hc : i.container with
  | none => rfl
  | some c =>
    obtain ⟨hosted, hget, _⟩ := (hhoused.agree id c).1 (containerOf_eq_some_iff.2 ⟨i, hi, hc⟩)
    rw [(containers_addOperators hadd).1] at hget
    cases hget

/-- All of them wait for one, in the order of their numbers. -/
theorem waiting_first : l₀.waiting (.ofList ids) = ids := by
  have hascending : ids.Pairwise (· < ·) := by
    rw [numbers_first hadd]
    exact List.pairwise_map.2 (List.pairwise_lt_range.imp Nat.succ_lt_succ)
  have hnumbered : l₀.Numbered := (Intact.addOperators (.ofDataflow d) hadd).numbered
  unfold waiting
  rw [SortedSet.toList_ofList hascending, List.filter_eq_self]
  intro id hid
  rw [← (inTurn_addOperators hadd).listed] at hid
  obtain ⟨n, _, hof⟩ := List.mem_flatMap.1 hid
  obtain ⟨i, hi, _⟩ := (hnumbered.indexed n id).1 hof
  rw [hi]
  simpa using bare_first hadd hi

/-- The place of an instance among all of them tells its container. -/
theorem instance?_place_first (hd : d.Anchored) (hi : l₀.instance? id = some i) :
    id ∈ ids ∧ (l₀.place (.ofList ids)).2.instance? id =
      some { i with container := some ⟨id.val ⌈/⌉ d.config.groupSize⟩ } := by
  have hid : id ∈ ids := by
    refine (present_addOperators (.ofDataflow hd) hadd (present_of_instance? hi)).resolve_right ?_
    rintro hnone
    cases hnone
  have hpacks := (Housed.kept.addOperators (.ofDataflow d) (.ofDataflow d) hadd).packs (.ofList ids)
  obtain ⟨j, hj⟩ := List.getElem?_of_mem hid
  rw [waiting_first hadd] at hpacks
  obtain ⟨x, hx, hplaced⟩ := hpacks.placed j id hj
  rw [hi] at hx
  cases hx
  -- the numbers are the places, counted from one
  have hval : id.val = j + 1 := by
    rw [numbers_first hadd, List.getElem?_map] at hj
    obtain ⟨k, hk, rfl⟩ := Option.map_eq_some_iff.1 hj
    obtain ⟨_, rfl⟩ := List.getElem?_eq_some_iff.1 hk
    rw [List.getElem_range]
  have hcontainer : l₀.lastContainer + 1 + j / l₀.dataflow.config.groupSize =
      id.val ⌈/⌉ d.config.groupSize := by
    have hlast : l₀.lastContainer = 0 := (containers_addOperators hadd).2
    have hplan : l₀.dataflow = d := dataflow_addOperators hadd
    rw [hlast, hplan, hval, Nat.ceilDiv_eq_add_pred_div, Nat.zero_add, Nat.add_comm 1]
    have hpos : 0 < d.config.groupSize := (Layout.ofDataflow d).groupSize_pos
    rw [← Nat.add_div_right j hpos]
    congr 1
    omega
  rw [hplaced, hcontainer]
  exact ⟨hid, rfl⟩

end Unplaced

/-! ## The first layout -/

/-- **What an instance of the first layout is** depends on its number and its place only. -/
theorem instance?_materialize (hd : d.Anchored) (hok : materialize d = .ok l) :
    l.instance? id = some i ↔ (l.instancesOf i.operator)[i.partition]? = some id ∧
      i = ⟨id, i.operator, i.partition, some ⟨id.val ⌈/⌉ d.config.groupSize⟩, some .initial⟩ := by
  obtain ⟨ids, l₀, _, hadd, hprime⟩ := materialize_eq_ok_iff.1 hok
  have halike : l₀.Alike l := (alike_place l₀ _).trans (primes_of_primeAll hprime).alike
  have hnumbered : l₀.Numbered := (Intact.addOperators (.ofDataflow d) hadd).numbered
  have hlisted : l.Listed := Listed.kept.materialize (.ofDataflow d) hok
  have hform : ∀ {i}, l.instance? id = some i →
      i = ⟨id, i.operator, i.partition, some ⟨id.val ⌈/⌉ d.config.groupSize⟩, some .initial⟩ := by
    intro i hi
    obtain ⟨x, hx, _⟩ := halike.counterpart hi
    obtain ⟨hid, hplaced⟩ := instance?_place_first hadd hd hx
    have hown : x.id = id := hnumbered.own id x hx
    rw [instance?_primeAll hprime, if_pos hid, hplaced] at hi
    cases hi
    rw [← hown]
  refine ⟨fun hi => ⟨hlisted.position id i hi, hform hi⟩, fun ⟨hplace, hi⟩ => ?_⟩
  obtain ⟨x, hx, hoperator, hpartition⟩ := (hlisted.getElem?_eq_some_iff (hnumbered.alike halike)).1 hplace
  have hxform := hform hx
  rw [hoperator, hpartition, ← hi] at hxform
  rw [← hxform]
  exact hx

/-- **The containers of the first layout** are as many as are needed, numbered without a gap. -/
theorem containers_materialize (hok : materialize d = .ok l) :
    l.containers.keys = (List.range (d.partitionCount ⌈/⌉ d.config.groupSize)).map fun k => ⟨k + 1⟩ := by
  obtain ⟨ids, l₀, _, hadd, hprime⟩ := materialize_eq_ok_iff.1 hok
  obtain ⟨hempty, hlast⟩ := containers_addOperators hadd
  have hplan : l₀.dataflow = d := dataflow_addOperators hadd
  have hlength : ids.length = d.partitionCount := by
    rw [numbers_first hadd, List.length_map, List.length_range]
  have hcreated := toList_created_place l₀ (.ofList ids)
  rw [waiting_first hadd, hlength, hlast, hplan, ← Nat.ceilDiv_eq_add_pred_div] at hcreated
  rw [(primes_of_primeAll hprime).containers]
  have hkeys : (l₀.place (.ofList ids)).2.containers.keys = (l₀.place (.ofList ids)).1.created.toList := by
    refine (SortedMap.pairwise_keys _).eq_of_mem_iff (SortedSet.ascending _) fun c => ?_
    rw [mem_containers_place, hempty]
    refine or_iff_right fun hold => ?_
    cases hold.1
  rw [hkeys, hcreated]
  refine List.map_congr_left fun k _ => congrArg ContainerId.mk ?_
  show 0 + 1 + k = k + 1
  omega

/-- **The first layout is the one that can be read off the plan.** -/
theorem firstOf_materialize (hd : d.Anchored) (hok : materialize d = .ok l) :
    l.FirstOf d d.config.groupSize := by
  obtain ⟨ids, l₀, _, hadd, hprime⟩ := materialize_eq_ok_iff.1 hok
  have halike : l₀.Alike l := (alike_place l₀ _).trans (primes_of_primeAll hprime).alike
  have hof : l.instancesOf = l₀.instancesOf := funext halike.instancesOf_eq
  have hturn := inTurn_addOperators hadd
  have hplan : l.dataflow = d := dataflow_materialize hok
  have hrefines := refines_of_sound (sound_materialize hd hok)
  have hhoused : l.Housed := Housed.kept.materialize (.ofDataflow d) hok
  have hnames := hrefines.names
  have hwires := hrefines.wires
  rw [hplan] at hnames hwires
  refine
    { dataflow := hplan
      operators := hnames
      partitions := fun name stage hstage => ?_
      numbers := ?_
      instances := fun id i => instance?_materialize hd hok
      containers := containers_materialize hok
      hosted := fun id c => ?_
      wired := fun s hs k hk a ha b hb => ?_
      only := fun w hw => (hwires w).1 hw }
  · rw [hof]
    refine hturn.partitions name ((labels_perm_keys hadd).mem_iff.2 ?_) stage hstage
    rw [SortedMap.mem_keys_iff]
    exact Option.isSome_iff_exists.2 ⟨stage, hstage⟩
  · rw [hof, hturn.listed]
    exact numbers_first hadd
  · rw [← hhoused.agree, containerOf_eq_some_iff]
    unfold Present
    rw [Option.isSome_iff_exists]
    constructor
    · rintro ⟨i, hi, hc⟩
      rw [((instance?_materialize hd hok).1 hi).2] at hc
      exact ⟨⟨i, hi⟩, (Option.some.inj hc).symm⟩
    · rintro ⟨⟨i, hi⟩, rfl⟩
      refine ⟨i, hi, ?_⟩
      rw [((instance?_materialize hd hok).1 hi).2]
  · exact List.count_eq_one_of_mem hrefines.once ((hwires _).2 ⟨s, hs, k, hk, rfl, rfl, ha, hb⟩)

/-! ## Any other order -/

/-- Where no operator is laid out there is nothing at all. -/
theorem Intact.laid_of_empty (h : l.Intact) (hd : l.dataflow.Anchored) (hnone : l.byOperator = ∅) :
    l.Laid := by
  have hof : ∀ name, l.instancesOf name = [] := by
    intro name
    unfold instancesOf
    rw [hnone]
    rfl
  have hwires : l.wires = [] := by
    refine List.eq_nil_iff_forall_not_mem.2 fun w hw => ?_
    obtain ⟨i, hi⟩ := Option.isSome_iff_exists.1 (h.ends w hw).1
    have hmem := (h.numbered.indexed i.operator w.source).2 ⟨i, hi, rfl⟩
    rw [hof] at hmem
    cases hmem
  refine ⟨h.numbered, hd, fun w => iff_of_false ?_ ?_, by rw [hwires]; exact List.nodup_nil⟩
  · rw [hwires]
    exact List.not_mem_nil
  · rintro ⟨s, _, k, _, _, hsource, _⟩
    rw [hof] at hsource
    cases hsource

/-- **Operators that are laid out in another order are connected in the same way.** -/
theorem strands_addOperators (hd : d.Anchored) (hok : materialize d = .ok l) (hintact : l₀.Intact)
    (hlisted : l₀.Listed) (hplan : l₀.dataflow = d) (hnone : l₀.byOperator = ∅) {names : List String}
    (hperm : names.Perm d.stages.keys) :
    ∃ ids l₁, l₀.addOperators names = .ok (ids, l₁) ∧ l₁.strands.Perm l.strands := by
  subst hplan
  have hmem : ∀ n, n ∈ names ↔ (l₀.dataflow.stage? n).isSome = true := fun n =>
    hperm.mem_iff.trans SortedMap.mem_keys_iff
  have hnodup : names.Nodup :=
    hperm.nodup_iff.2 ((SortedMap.pairwise_keys _).imp KeyOrder.ne_of_lt)
  obtain ⟨ids, l₁, hadd⟩ := exists_addOperators hnodup fun n hn => ⟨(hmem n).1 hn, by rw [hnone]; rfl⟩
  have hturn := inTurn_addOperators hadd
  have hfirst := firstOf_materialize hd hok
  have hsound : l.Sound := sound_materialize hd hok
  refine ⟨ids, l₁, hadd, strands_perm hsound.laid (Listed.kept.materialize (.ofDataflow _) hok)
    ((hintact.laid_of_empty hd hnone).addOperators hadd) (Listed.kept.addOperators hintact hlisted hadd)
    ((dataflow_addOperators hadd).trans hfirst.dataflow.symm) fun n => ?_⟩
  cases hstage : l₀.dataflow.stage? n with
  | some stage =>
    have hn : n ∈ names := (hmem n).2 (by rw [hstage]; rfl)
    rw [hturn.partitions n hn stage hstage, hfirst.partitions n stage hstage]
  | none =>
    have hn : n ∉ names := by
      rw [hmem, hstage]
      nofun
    have habsent : l.dataflow.stage? n = none := by
      rw [hfirst.dataflow]
      exact hstage
    rw [hturn.others n hn, instancesOf_of_absent (hsound.covers.absent habsent),
      instancesOf_of_absent (by rw [hnone]; rfl)]

end Layout

namespace Dataflow

variable {d : Dataflow} {relabels : Bool}

/-- Stages that keep the labels that they came with are labelled with their names. -/
theorem Forward.labels_eq_keys (h : d.Forward) : d.labels = d.stages.keys := by
  rw [labels, ← SortedMap.map_keys_eq_map_values (f := id) fun n stage hstage => ?_, List.map_id]
  exact (h.labelled n stage hstage).symm

/-- **The first layout can be read off the plan**, for every plan that can be built and laid out.  Operators
are laid out in the order of their stages; these are the names of the operators in ascending order, unless
stages were given other labels.  Partitions are numbered in that order from one on, without a gap; they fill
containers in turn, can start before all data, and are connected once for every sink of a stream between
their operators.  The operators can be laid out in any other order as well, here or wherever none is laid
out yet, and then the same partitions are connected. -/
theorem Built.first_layout (hd : d.Built relabels) {l : Layout} (hok : Layout.materialize d = .ok l) :
    d.labels.Perm d.stages.keys ∧ (relabels = false → d.labels = d.stages.keys) ∧
      l.FirstOf d (max 1 d.config.maxPerContainer.toNat) ∧
      ∀ l₀ names, (l₀ = .ofDataflow d ∨ (Session.onLayout l₀).Reachable) → l₀.dataflow = d →
        l₀.byOperator = ∅ → names.Perm d.stages.keys →
          ∃ ids l₁, l₀.addOperators names = .ok (ids, l₁) ∧ l₁.strands.Perm l.strands := by
  obtain ⟨_, _, _, hadd, _⟩ := Layout.materialize_eq_ok_iff.1 hok
  refine ⟨Layout.labels_perm_keys hadd, ?_, Layout.firstOf_materialize hd.anchored hok,
    fun l₀ names hl₀ hplan hnone hperm => ?_⟩
  · rintro rfl
    exact (Forward.invariant.holds hd).labels_eq_keys
  · have hkept : l₀.Intact ∧ l₀.Listed := by
      rcases hl₀ with rfl | hl₀
      · exact ⟨.ofDataflow d, .ofDataflow d⟩
      · exact ⟨hl₀.intact l₀ rfl, Layout.Listed.kept.holds .ofDataflow hl₀ l₀ rfl⟩
    exact Layout.strands_addOperators hd.anchored hok hkept.1 hkept.2 hplan hnone hperm

/-- The session that makes a plan of two operators with two partitions each, three to a container.  A stream
leads from the first operator to both ports of the second. -/
def fanning : Session :=
  let taker : Operator := ⟨"taker", .ofLists [⟨"left", none⟩, ⟨"right", none⟩] [], .fields ∅⟩
  ((Session.onPlan (.empty { maxPerContainer := 3, defaultPartitions := 2 })).runAll
    [.addOperator "b" taker, .addOperator "a" .relay,
      .addStream "ab" ⟨"a", "out"⟩ [⟨"b", "right"⟩, ⟨"b", "left"⟩]]).2

/-- The layout of that plan. -/
def fanned : Layout := (Layout.materialize fanning.dataflow).toOption.getD (.ofDataflow fanning.dataflow)

theorem materialize_fanning : Layout.materialize fanning.dataflow = .ok fanned := by
  have hsome : (Layout.materialize fanning.dataflow).toOption.isSome = true := by decide +kernel
  unfold fanned
  cases hl : Layout.materialize fanning.dataflow with
  | error c => rw [hl] at hsome; cases hsome
  | ok l => rfl

/-- Both operators are taken away, and the plan is left as it is. -/
def cleared : Layout := ((fanned.removeOperator "a").2.removeOperator "b").2

theorem reachable_cleared : (Session.onLayout cleared).Reachable := by
  have hfanning : fanning.Reachable := Session.Reachable.runAll (.empty _) _
  have hfanned : (Session.onLayout fanned).Reachable := .materialize hfanning materialize_fanning
  exact .layout (.layout hfanned (.removeOperator "a")) (.removeOperator "b")

/-- The last of four instances is alone in the second container.  Laid out again, the last operator first,
the instances have later numbers, and the same eight wires between partitions. -/
theorem first_layout_fanned :
    fanning.dataflow.Built false ∧ Layout.materialize fanning.dataflow = .ok fanned ∧
      fanned.FirstOf fanning.dataflow 3 ∧ fanned.instancesOf "b" = [⟨3⟩, ⟨4⟩] ∧
      fanned.instance? ⟨4⟩ = some ⟨⟨4⟩, "b", 1, some ⟨2⟩, some .initial⟩ ∧
      (Session.onLayout cleared).Reachable ∧ cleared.byOperator = ∅ ∧
      ∃ ids l₁, cleared.addOperators ["b", "a"] = .ok (ids, l₁) ∧ ids = [⟨5⟩, ⟨6⟩, ⟨7⟩, ⟨8⟩] ∧
        fanned.strands.length = 8 ∧ l₁.strands.Perm fanned.strands := by
  have hbuilt : fanning.dataflow.Built false := Built.runAll (.empty _) _
  have hnone : cleared.byOperator = ∅ := by decide +kernel
  have hplan : cleared.dataflow = fanning.dataflow := by
    have hfirst : (fanned.removeOperator "a").2.dataflow = fanned.dataflow :=
      (Layout.without_removeOperator fanned "a").dataflow
    have hsecond : cleared.dataflow = (fanned.removeOperator "a").2.dataflow :=
      (Layout.without_removeOperator _ "b").dataflow
    exact hsecond.trans (hfirst.trans (Layout.dataflow_materialize materialize_fanning))
  have hsize : max 1 fanning.dataflow.config.maxPerContainer.toNat = 3 := by decide +kernel
  have hids : (cleared.addOperators ["b", "a"]).toOption.map (·.1) = some [⟨5⟩, ⟨6⟩, ⟨7⟩, ⟨8⟩] := by
    decide +kernel
  obtain ⟨_, _, hfirst, hother⟩ := Built.first_layout hbuilt materialize_fanning
  rw [hsize] at hfirst
  obtain ⟨ids, l₁, hadd, hperm⟩ :=
    hother cleared ["b", "a"] (.inr reachable_cleared) hplan hnone (by decide +kernel)
  rw [hadd] at hids
  exact ⟨hbuilt, materialize_fanning, hfirst, by decide +kernel,
    (hfirst.instances ⟨4⟩ _).2 ⟨by decide +kernel, by decide +kernel⟩, reachable_cleared, hnone, ids, l₁, hadd,
    Option.some.inj hids, by decide +kernel, hperm⟩

end Dataflow

end LiveDataflow
