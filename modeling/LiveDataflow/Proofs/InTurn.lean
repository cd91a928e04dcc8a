import LiveDataflow.Proofs.Indexes
import LiveDataflow.Proofs.Refinement

/-!
# Operators that are laid out in turn

The numbers of instances are given in the order in which operators are laid out, and a stream is wired when
the later one of its two ends comes.  So the numbers depend on the order.  Which partition of which operator
is connected to which does not: once all operators of a plan are there, the plan alone says it.

## Results

* `Layout.InTurn`: what laying out operators one after the other comes to.
* `Layout.inTurn_addOperators`, `Layout.exists_addOperators`: it comes to this, and when it goes through.
* `Layout.strands`: the wires without the numbers of the instances.
* `Layout.mem_strands_iff`: the plan and the numbers of partitions say which of them there are.
* `Layout.strands_perm`: two layouts of one plan have the same strands.
-/

set_option autoImplicit false

namespace LiveDataflow

namespace Layout

variable {l l₁ l' : Layout} {name : String} {names more : List String} {ids rest : List InstanceId}

/-! ## Laying out one after the other -/

/-- Operators were laid out one after the other. -/
structure InTurn (l : Layout) (names : List String) (ids : List InstanceId) (l' : Layout) : Prop where
  /-- The next numbers are given, none is left out. -/
  numbers : ids = (List.range ids.length).map fun k => ⟨l.lastInstance + 1 + k⟩
  lastInstance : l'.lastInstance = l.lastInstance + ids.length
  /-- They go to the operators in turn, and to the partitions of each in order. -/
  listed : names.flatMap l'.instancesOf = ids
  partitions : ∀ n ∈ names, ∀ stage, l.dataflow.stage? n = some stage →
    (l'.instancesOf n).length = stage.partitions
  others : ∀ n ∉ names, l'.instancesOf n = l.instancesOf n

theorem inTurn_addOperator (hok : l.addOperator name = .ok (ids, l')) : l.InTurn [name] ids l' := by
  obtain ⟨stage, hstage, _, hids, _⟩ := addOperator_eq_ok_iff.1 hok
  have hlist : ids = (List.range stage.partitions).map fun k => ⟨l.lastInstance + 1 + k⟩ := by
    rw [hids, freshInstances, List.map_map]
    rfl
  have hlength : ids.length = stage.partitions := by
    rw [hlist, List.length_map, List.length_range]
  have hof : ∀ n, l'.instancesOf n = if name = n then ids else l.instancesOf n := by
    intro n
    unfold instancesOf
    rw [byOperator_addOperator hok, SortedMap.get?_insert]
    split <;> rfl
  refine ⟨by rw [hlength]; exact hlist, ?_, ?_, fun n hn stage' hstage' => ?_, fun n hn => ?_⟩
  · obtain ⟨partitions, wires, rfl, rfl⟩ := wires_only_addOperator hok
    rw [List.length_map]
    rfl
  · rw [List.flatMap_singleton, hof, if_pos rfl]
  · rw [List.mem_singleton.1 hn] at hstage' ⊢
    rw [hstage] at hstage'
    cases hstage'
    rw [hof, if_pos rfl, hlength]
  · rw [hof, if_neg fun heq => hn (List.mem_singleton.2 heq.symm)]

theorem InTurn.refl (l : Layout) : l.InTurn [] [] l :=
  ⟨rfl, rfl, rfl, fun _ hn => (nomatch hn), fun _ _ => rfl⟩

theorem InTurn.trans (h : l.InTurn names ids l₁) (h' : l₁.InTurn more rest l')
    (hplan : l₁.dataflow = l.dataflow) (hdisjoint : ∀ n ∈ names, n ∉ more) :
    l.InTurn (names ++ more) (ids ++ rest) l' := by
  have hkept : ∀ n ∈ names, l'.instancesOf n = l₁.instancesOf n := fun n hn => h'.others n (hdisjoint n hn)
  constructor
  · have hnumbers := h'.numbers
    rw [h.lastInstance] at hnumbers
    rw [List.length_append, List.range_add, List.map_append, List.map_map, ← h.numbers]
    congr 1
    refine hnumbers.trans (List.map_congr_left fun k _ => congrArg InstanceId.mk ?_)
    show l.lastInstance + ids.length + 1 + k = l.lastInstance + 1 + (ids.length + k)
    omega
  · rw [h'.lastInstance, h.lastInstance, List.length_append, Nat.add_assoc]
  · rw [List.flatMap_append, h'.listed, List.flatMap_congr hkept, h.listed]
  · intro n hn stage hstage
    rcases List.mem_append.1 hn with hn | hn
    · rw [hkept n hn]
      exact h.partitions n hn stage hstage
    · rw [← hplan] at hstage
      exact h'.partitions n hn stage hstage
  · intro n hn
    rw [List.mem_append, not_or] at hn
    rw [h'.others n hn.2, h.others n hn.1]

/-- **What laying out operators one after the other comes to.** -/
theorem inTurn_addOperators (hok : l.addOperators names = .ok (ids, l')) : l.InTurn names ids l' := by
  have hnodup := (names_addOperators hok).1
  induction names generalizing l ids with
  | nil =>
    cases hok
    exact .refl _
  | cons name rest ih =>
    obtain ⟨first, l₁, more, hone, hrest, rfl⟩ := addOperators_cons_eq_ok_iff.1 hok
    obtain ⟨hnot, hnodup⟩ := List.nodup_cons.1 hnodup
    exact (inTurn_addOperator hone).trans (ih hrest hnodup) (dataflow_addOperator hone)
      fun n hn => by rw [List.mem_singleton.1 hn]; exact hnot

/-- Operators of the plan that are not laid out yet can be laid out in any order. -/
theorem exists_addOperators (hnodup : names.Nodup)
    (hnew : ∀ n ∈ names, (l.dataflow.stage? n).isSome = true ∧ l.byOperator.contains n = false) :
    ∃ ids l', l.addOperators names = .ok (ids, l') := by
  induction names generalizing l with
  | nil => exact ⟨[], l, rfl⟩
  | cons name rest ih =>
    obtain ⟨hnot, hnodup⟩ := List.nodup_cons.1 hnodup
    obtain ⟨⟨hstage, habsent⟩, hnews⟩ := List.forall_mem_cons.1 hnew
    obtain ⟨stage, hstage⟩ := Option.isSome_iff_exists.1 hstage
    obtain ⟨first, l₁, hone⟩ : ∃ first l₁, l.addOperator name = .ok (first, l₁) :=
      ⟨_, _, addOperator_eq_ok_iff.2 ⟨stage, hstage, habsent, rfl, rfl⟩⟩
    obtain ⟨more, l', hrest⟩ := ih (l := l₁) hnodup fun n hn => by
      rw [dataflow_addOperator hone, byOperator_addOperator hone, contains_byOperator_insert]
      refine ⟨(hnews n hn).1, ?_⟩
      rw [(hnews n hn).2, Bool.or_false, decide_eq_false_iff_not]
      rintro rfl
      exact hnot hn
    exact ⟨_, l', addOperators_cons_eq_ok_iff.2 ⟨first, l₁, more, hone, hrest, rfl⟩⟩

end Layout

/-! ## Wires between partitions -/

/-- A wire without the numbers of its instances: the operators and partitions at its ends. -/
structure Strand where
  source : String × Nat
  target : String × Nat
  stream : String
  port : String
  deriving DecidableEq

namespace Layout

variable {l l' : Layout} {w : Wire} {x : Strand}

def strand? (l : Layout) (w : Wire) : Option Strand := do
  let a ← l.instance? w.source
  let b ← l.instance? w.target
  return ⟨(a.operator, a.partition), (b.operator, b.partition), w.stream, w.port⟩

/-- The wires by the operators and partitions that they connect. -/
def strands (l : Layout) : List Strand := l.wires.filterMap l.strand?

theorem strand?_eq_some_iff (hn : l.Numbered) (hl : l.Listed) :
    l.strand? w = some x ↔ (l.instancesOf x.source.1)[x.source.2]? = some w.source ∧
      (l.instancesOf x.target.1)[x.target.2]? = some w.target ∧ w.stream = x.stream ∧ w.port = x.port := by
  obtain ⟨⟨operator, p⟩, ⟨operator', p'⟩, stream, port⟩ := x
  rw [hl.getElem?_eq_some_iff hn, hl.getElem?_eq_some_iff hn]
  unfold strand?
  cases l.instance? w.source <;> cases l.instance? w.target <;> simp [and_assoc]

/-- **The plan and the numbers of partitions say which strands there are.** -/
theorem mem_strands_iff (h : l.Laid) (hl : l.Listed) :
    x ∈ l.strands ↔ ∃ s, l.dataflow.stream? x.stream = some s ∧ ∃ k ∈ s.sinks, x.port = k.port ∧
      x.source.1 = s.source.operator ∧ x.source.2 < (l.instancesOf s.source.operator).length ∧
      x.target.1 = k.operator ∧ x.target.2 < (l.instancesOf k.operator).length := by
  unfold strands
  simp only [List.mem_filterMap, strand?_eq_some_iff h.numbered hl]
  constructor
  · rintro ⟨w, hw, ha, hb, hstream, hport⟩
    obtain ⟨s, hs, k, hk, hk', hsource, htarget⟩ := (h.wired w).1 hw
    have hfrom := h.numbered.operator_eq (List.mem_of_getElem? ha) hsource
    have hto := h.numbered.operator_eq (List.mem_of_getElem? hb) htarget
    rw [hfrom] at ha
    rw [hto] at hb
    rw [hstream] at hs
    exact ⟨s, hs, k, hk, hport.symm.trans hk', hfrom, (List.getElem?_eq_some_iff.1 ha).1, hto,
      (List.getElem?_eq_some_iff.1 hb).1⟩
  · rintro ⟨s, hs, k, hk, hport, hfrom, hp, hto, hq⟩
    rw [← hfrom] at hp
    rw [← hto] at hq
    refine ⟨⟨_, _, x.stream, x.port⟩, (h.wired _).2 ⟨s, hs, k, hk, hport, ?_, ?_⟩,
      List.getElem?_eq_getElem hp, List.getElem?_eq_getElem hq, rfl, rfl⟩
    · rw [← hfrom]
      exact List.getElem_mem hp
    · rw [← hto]
      exact List.getElem_mem hq

/-- No two wires connect the same partitions for the same sink. -/
theorem nodup_strands (h : l.Laid) (hl : l.Listed) : l.strands.Nodup := by
  refine h.once.filterMap fun w w' x hw hw' => ?_
  obtain ⟨ha, hb, hstream, hport⟩ := (strand?_eq_some_iff h.numbered hl).1 hw
  obtain ⟨ha', hb', hstream', hport'⟩ := (strand?_eq_some_iff h.numbered hl).1 hw'
  obtain ⟨a, b, stream, port⟩ := w
  obtain ⟨a', b', stream', port'⟩ := w'
  dsimp only at *
  rw [ha] at ha'
  rw [hb] at hb'
  cases ha'
  cases hb'
  subst hstream hport hstream' hport'
  rfl

/-- **Two layouts of one plan have the same strands**, if the operators have as many instances. -/
theorem strands_perm (h : l.Laid) (hl : l.Listed) (h' : l'.Laid) (hl' : l'.Listed)
    (hplan : l'.dataflow = l.dataflow)
    (hlength : ∀ name, (l'.instancesOf name).length = (l.instancesOf name).length) :
    l'.strands.Perm l.strands := by
  refine (List.perm_ext_iff_of_nodup (nodup_strands h' hl') (nodup_strands h hl)).2 fun x => ?_
  rw [mem_strands_iff h' hl', mem_strands_iff h hl, hplan]
  simp only [hlength]

end Layout

end LiveDataflow
