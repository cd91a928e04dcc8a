import LiveDataflow.Proofs.Balance

/-!
# What a rollout stops and starts

The rollout of a session is put together from two closures, unions and differences.  As the account of
the session balances, all of it comes to this: started is what data flows to from an instance that is new
or has other wires, stopped is what of that is not new, and what was taken away.

## Results

* `Layout.mem_dependents_iff`: what depends on a set of instances.
* `Layout.exists_reconcile`: priming never fails, so there always is a rollout.
* `Layout.placed_of_reconcile`: then everything has a container.
* `Layout.mem_started_iff`, `Layout.stopped_eq`: the closed form of a rollout.
* `Session.apply_reconciles`: the end of every live session fails with the deployer's own error only, and
  hands it the closed form.
-/

set_option autoImplicit false

namespace LiveDataflow.Layout

open Reachability

variable {l l₀ l' : Layout} {id : InstanceId} {changes : ChangeSet} {ids more : SortedSet InstanceId}
  {r : Rollout}

/-! ## What depends on what -/

theorem mem_dependents_iff :
    id ∈ l.dependents ids ↔ ∃ a ∈ ids, l.Present a ∧ Reaches l.edges a id := by
  unfold dependents
  rw [SortedSet.mem_ofList, mem_traverse_iff]
  simp only [List.mem_filter, SortedSet.mem_iff, and_assoc]
  exact Iff.rfl

/-- Data flows to instances that are there. -/
theorem Intact.present_of_reaches (h : l.Intact) {a : InstanceId} (ha : l.Present a)
    (hreach : Reaches l.edges a id) : l.Present id := by
  cases hreach with
  | refl => exact ha
  | tail _ he =>
    obtain ⟨w, hw, hends⟩ := List.mem_map.1 he
    cases hends
    exact (h.ends w hw).2

theorem present_of_mem_dependents (h : l.Intact) (hid : id ∈ l.dependents ids) : l.Present id := by
  obtain ⟨a, _, ha, hreach⟩ := mem_dependents_iff.1 hid
  exact h.present_of_reaches ha hreach

/-- What depends on dependents is a dependent. -/
theorem dependents_subset (hmore : ∀ id ∈ more, id ∈ l.dependents ids) (hid : id ∈ l.dependents more) :
    id ∈ l.dependents ids := by
  obtain ⟨a, ha, _, hreach⟩ := mem_dependents_iff.1 hid
  obtain ⟨b, hb, hpresent, hbefore⟩ := mem_dependents_iff.1 (hmore a ha)
  exact mem_dependents_iff.2 ⟨b, hb, hpresent, hbefore.trans hreach⟩

/-- Placing and priming change nothing about what depends on what. -/
theorem Alike.dependents_eq (h : l.Alike l') (ids : SortedSet InstanceId) :
    l'.dependents ids = l.dependents ids := by
  have hthere : ∀ id, l'.instances.contains id = l.instances.contains id := h.isSome
  have hedges : l'.edges = l.edges := by
    unfold edges
    rw [h.wires]
  unfold dependents
  rw [hedges, List.filter_congr fun id _ => hthere id]

/-- What has no container is taken for new. -/
theorem mem_novel_of_not_placed (h : l.Numbered) (hid : l.Present id) (hno : ¬ l.Placed id) :
    id ∈ l.novel changes := by
  have hunplaced : id ∈ l.unplaced := (mem_unplaced_iff_not_placed h).2 ⟨hid, hno⟩
  exact SortedSet.mem_union.2 (.inr hunplaced)

/-- After a rollout was made everything has a container. -/
theorem placed_of_reconcile (h : l.Numbered) (hr : l.reconcile changes = .ok (r, l'))
    (hid : l'.Present id) : l'.Placed id := by
  have hprimes := primes_of_primeAll (reconcile_eq_ok_iff.1 hr).1
  have hbefore : l.Present id := ((alike_of_reconcile hr).isSome id).symm.trans hid
  refine (hprimes.placed id).2 (placed_place.2 ?_)
  by_cases hplaced : l.Placed id
  · exact .inl hplaced
  · exact .inr ⟨mem_novel_of_not_placed h hbefore hplaced, hbefore⟩

/-! ## The rollout -/

section Reconcile

variable (h : l.Intact) (hb : ∀ id, ChangeSet.Balances l₀ changes l id)

include h hb

/-- What a rollout takes for new is there. -/
theorem present_of_mem_novel (hid : id ∈ l.novel changes) : l.Present id := by
  rcases SortedSet.mem_union.1 hid with hadded | hunplaced
  · exact ((hb id).added.1 hadded).1
  · obtain ⟨i, hi, _⟩ := (mem_unplaced_iff h.numbered).1 hunplaced
    exact present_of_instance? hi

/-- **Priming never fails, so there always is a rollout.** -/
theorem exists_reconcile : ∃ r l', l.reconcile changes = .ok (r, l') := by
  have hall : ∀ id ∈ (l.novel changes).toList,
      ((l.place (l.novel changes)).2.instance? id).isSome = true := by
    intro id hid
    rw [(alike_place l _).isSome]
    exact present_of_mem_novel h hb hid
  obtain ⟨l', hl'⟩ := primeAll_eq_ok_iff.2 hall
  exact ⟨_, l', reconcile_eq_ok_iff.2 ⟨hl', rfl⟩⟩

/-- What depends on new and rewired instances is not gone. -/
theorem not_removed_of_mem_dependents (hid : id ∈ l.dependents ids) : id ∉ changes.removed := by
  intro hremoved
  exact ((hb id).removed.1 hremoved).2 (present_of_mem_dependents h hid)

variable (hr : l.reconcile changes = .ok (r, l'))

include hr

/-- What is started depends on a new or a rewired instance. -/
theorem mem_started_iff_dependents :
    id ∈ r.started ↔ id ∈ l.dependents (l.novel changes) ∨ id ∈ l.dependents changes.affected := by
  have halike := alike_of_reconcile hr
  obtain ⟨_, rfl⟩ := reconcile_eq_ok_iff.1 hr
  rw [halike.dependents_eq, halike.dependents_eq, SortedSet.mem_sdiff, SortedSet.mem_union]
  refine and_iff_left_of_imp fun hid => ?_
  rcases hid with hid | hid
  · exact not_removed_of_mem_dependents h hb hid
  · exact not_removed_of_mem_dependents h hb hid

/-- **What is started** is what data flows to from a new or a rewired instance. -/
theorem mem_started_iff :
    id ∈ r.started ↔
      ∃ a, (a ∈ l.novel changes ∨ a ∈ changes.affected) ∧ Reaches l.edges a id := by
  rw [mem_started_iff_dependents h hb hr, mem_dependents_iff, mem_dependents_iff]
  constructor
  · rintro (⟨a, ha, _, hreach⟩ | ⟨a, ha, _, hreach⟩)
    · exact ⟨a, .inl ha, hreach⟩
    · exact ⟨a, .inr ha, hreach⟩
  · rintro ⟨a, ha | ha, hreach⟩
    · exact .inl ⟨a, ha, present_of_mem_novel h hb ha, hreach⟩
    · exact .inr ⟨a, ha, ((hb a).affected ha).2, hreach⟩

theorem mem_started_of_affected (hid : id ∈ changes.affected) : id ∈ r.started :=
  (mem_started_iff h hb hr).2 ⟨id, .inr hid, .refl⟩

theorem present_of_mem_started (hid : id ∈ r.started) : l.Present id := by
  rcases (mem_started_iff_dependents h hb hr).1 hid with hid | hid
  · exact present_of_mem_dependents h hid
  · exact present_of_mem_dependents h hid

/-- **What is stopped** is what is started and not new, and what was taken away. -/
theorem stopped_eq : r.stopped = (r.started \ l.novel changes) ∪ changes.removed := by
  have halike := alike_of_reconcile hr
  apply SortedSet.ext_mem
  intro id
  have hstarted : id ∈ r.started ↔
      id ∈ l.dependents (l.novel changes) ∨ id ∈ l.dependents changes.affected :=
    mem_started_iff_dependents h hb hr
  have hgone : id ∈ changes.removed → id ∉ l.novel changes := fun hremoved hnovel =>
    ((hb id).removed.1 hremoved).2 (present_of_mem_novel h hb hnovel)
  have hstopped : id ∈ r.stopped ↔
      ((id ∈ l.dependents (l.novel changes) ∧ id ∉ l.novel changes) ∨
        id ∈ l.dependents changes.affected ∨ id ∈ changes.removed) ∧ id ∉ l.novel changes := by
    obtain ⟨_, rfl⟩ := reconcile_eq_ok_iff.1 hr
    rw [halike.dependents_eq, halike.dependents_eq]
    simp only [SortedSet.mem_sdiff, SortedSet.mem_union, or_assoc]
  rw [hstopped, SortedSet.mem_union, SortedSet.mem_sdiff, hstarted]
  by_cases hnovel : id ∈ l.novel changes
  · have hthere : id ∉ changes.removed := fun hremoved => hgone hremoved hnovel
    simp [hnovel, hthere]
  · simp [hnovel, or_assoc]

end Reconcile

end LiveDataflow.Layout

/-! ## The end of a session -/

namespace LiveDataflow.Session

open Reachability

variable {l : Layout}

/-- **The end of a live session**, on any layout that comes about and after any edits.  It fails only if
the deployer refuses, and the rollout that the deployer gets is the closed form: it starts what data flows
to from an instance that is new, not placed or rewired, and it stops what of that is neither new nor
unplaced, and what was taken away.  So nothing that was taken away is started, nothing new is stopped,
and an instance that is neither new nor gone, and that no data reaches from a new or rewired one, is left
alone. -/
theorem apply_reconciles (h : (Session.onLayout l).Reachable) (edits : List Edit) :
    let s := ((Session.onLayout l).runAll edits).2
    ∃ p r p', s.target = .live p ∧
      (∀ {σ : Type} (deployer : Deployer σ) (world : σ), s.apply deployer world =
        ⟨(deployer r world).1.map fun _ => r, .live p', (deployer r world).2⟩) ∧
      (∀ id, id ∈ r.started ↔
        ∃ a, (a ∈ s.changes.added ∪ p.unplaced ∨ a ∈ s.changes.affected) ∧ Reaches p.edges a id) ∧
      (∀ id ∈ r.started, p.Present id) ∧
      r.stopped = (r.started \ (s.changes.added ∪ p.unplaced)) ∪ s.changes.removed ∧
      (∀ id ∈ r.started, id ∉ s.changes.removed) ∧
      (∀ id ∈ r.stopped, id ∉ s.changes.added ∪ p.unplaced) ∧
      ∀ id, id ∉ s.changes.added ∪ p.unplaced → id ∉ s.changes.removed →
        (∀ a, a ∈ s.changes.added ∪ p.unplaced ∨ a ∈ s.changes.affected → ¬ Reaches p.edges a id) →
          id ∉ r.started ∧ id ∉ r.stopped := by
  have hl : l.Intact := h.intact l rfl
  obtain ⟨p, htarget, hp, hb⟩ := balances_runAll (balances_onLayout hl) h.anchored edits
  intro s
  obtain ⟨r, p', hr⟩ := Layout.exists_reconcile hp hb
  have hstopped := Layout.stopped_eq hp hb hr
  have hthere : ∀ id ∈ s.changes.added ∪ p.unplaced, p.Present id := fun id hid =>
    Layout.present_of_mem_novel hp hb hid
  have hgone : ∀ id ∈ s.changes.removed, ¬ p.Present id := fun id hid => ((hb id).removed.1 hid).2
  have hstarted : ∀ id ∈ r.started, p.Present id := fun id hid =>
    Layout.present_of_mem_started hp hb hr hid
  refine ⟨p, r, p', htarget, fun deployer world => ?_, fun id => Layout.mem_started_iff hp hb hr, hstarted,
    hstopped, fun id hid hremoved => hgone id hremoved (hstarted id hid), fun id hid hnovel => ?_,
    fun id hnovel hremoved hfar => ?_⟩
  · have hs : s = ⟨.live p, s.changes⟩ := by rw [← htarget]
    rw [hs]
    exact apply_eq_of_reconcile deployer world hr
  · rw [hstopped] at hid
    rcases SortedSet.mem_union.1 hid with hid | hid
    · exact (SortedSet.mem_sdiff.1 hid).2 hnovel
    · exact hgone id hid (hthere id hnovel)
  · have hno : id ∉ r.started := by
      intro hid
      obtain ⟨a, ha, hreach⟩ := (Layout.mem_started_iff hp hb hr).1 hid
      exact hfar a ha hreach
    refine ⟨hno, fun hid => ?_⟩
    rw [hstopped] at hid
    rcases SortedSet.mem_union.1 hid with hid | hid
    · exact hno (SortedSet.mem_sdiff.1 hid).1
    · exact hremoved hid

/-- The session that makes a plan of four operators: the first feeds the second and the third, the last
stands alone. -/
def forking : Session := ((Session.onPlan (.empty .default)).runAll
  [.addOperator "a" .relay, .addOperator "b" .relay, .addOperator "c" .relay, .addOperator "d" .relay,
    .addStream "abc" ⟨"a", "out"⟩ [⟨"b", "in"⟩, ⟨"c", "in"⟩]]).2

/-- The layout of that plan. -/
def forked : Layout := (Layout.materialize forking.dataflow).toOption.getD (.ofDataflow forking.dataflow)

theorem reachable_forking : forking.Reachable := Reachable.runAll (.empty .default) _

theorem materialize_forking : Layout.materialize forking.dataflow = .ok forked := by
  have hsome : (Layout.materialize forking.dataflow).toOption.isSome = true := by decide +kernel
  unfold forked
  cases hl : Layout.materialize forking.dataflow with
  | error c => rw [hl] at hsome; cases hsome
  | ok l => rfl

theorem reachable_forked : (Session.onLayout forked).Reachable :=
  .materialize reachable_forking materialize_forking

/-- A new operator feeds the first one, the third one is taken away, and an edit fails. -/
def forkEdits : List Edit :=
  [.addOperator "e" .relay, .addStream "ea" ⟨"e", "out"⟩ [⟨"a", "in"⟩], .removeOperator "c",
    .addStream "da" ⟨"d", "out"⟩ [⟨"a", "in"⟩]]

/-- The first two operators are stopped and started again, and the last one is left alone. -/
theorem apply_reconciles_forked :
    let s := ((Session.onLayout forked).runAll forkEdits).2
    (Session.onLayout forked).Reachable ∧ ∃ p r, s.target = .live p ∧
      (s.apply Deployer.accepting ()).result = .ok r ∧
      r.stopped = (r.started \ (s.changes.added ∪ p.unplaced)) ∪ s.changes.removed ∧
      r.started.toList = [⟨1⟩, ⟨2⟩, ⟨5⟩] ∧ r.stopped.toList = [⟨1⟩, ⟨2⟩, ⟨3⟩] := by
  have hlists : (((Session.onLayout forked).runAll forkEdits).2.apply
      Deployer.accepting ()).result.toOption.map (fun r => (r.started.toList, r.stopped.toList)) =
        some ([⟨1⟩, ⟨2⟩, ⟨5⟩], [⟨1⟩, ⟨2⟩, ⟨3⟩]) := by decide +kernel
  obtain ⟨p, r, p', htarget, happly, _, _, hstopped, _⟩ := apply_reconciles reachable_forked forkEdits
  have hresult : (((Session.onLayout forked).runAll forkEdits).2.apply Deployer.accepting ()).result =
      .ok r := by
    rw [happly]
    rfl
  rw [hresult] at hlists
  obtain ⟨hstarted, hstops⟩ := Prod.mk.inj (Option.some.inj hlists)
  exact ⟨reachable_forked, p, r, htarget, hresult, hstopped, hstarted, hstops⟩

end LiveDataflow.Session
