import LiveDataflow.Proofs.Reconciliation

/-!
# What lies downstream

The search for what depends on a set of instances goes on from one of them to the next with the same
record of what was visited.  However it goes about that, on wires that run in circles and with numbers that
no instance has or has any more, it finds what is downstream of those instances that are there.

## Results

* `Layout.dependents_mono`, `Layout.dependents_union`, `Layout.dependents_dependents`: a closure that is
  made one point at a time.
* `Layout.traverse_eq_dependents`: the order of the search makes no difference.
* `Session.Reachable.dependents_downstream`: what depends on a set of instances, on every layout that
  comes about.
-/

set_option autoImplicit false

namespace LiveDataflow

open Reachability

namespace Layout

variable {l : Layout} {id : InstanceId} {ids more : SortedSet InstanceId}

theorem dependents_mono (hsub : ∀ id ∈ ids, id ∈ more) (hid : id ∈ l.dependents ids) :
    id ∈ l.dependents more := by
  obtain ⟨a, ha, hpresent, hreach⟩ := mem_dependents_iff.1 hid
  exact mem_dependents_iff.2 ⟨a, hsub a ha, hpresent, hreach⟩

theorem dependents_union (l : Layout) (ids more : SortedSet InstanceId) :
    l.dependents (ids ∪ more) = l.dependents ids ∪ l.dependents more := by
  apply SortedSet.ext_mem
  intro id
  rw [SortedSet.mem_union]
  constructor
  · intro hid
    obtain ⟨a, ha, hrest⟩ := mem_dependents_iff.1 hid
    rcases SortedSet.mem_union.1 ha with ha | ha
    · exact .inl (mem_dependents_iff.2 ⟨a, ha, hrest⟩)
    · exact .inr (mem_dependents_iff.2 ⟨a, ha, hrest⟩)
  · rintro (hid | hid)
    · exact dependents_mono (fun _ ha => SortedSet.mem_union.2 (.inl ha)) hid
    · exact dependents_mono (fun _ ha => SortedSet.mem_union.2 (.inr ha)) hid

/-- An instance that is there depends on itself. -/
theorem mem_dependents_of_present (hid : id ∈ ids) (hpresent : l.Present id) : id ∈ l.dependents ids :=
  mem_dependents_iff.2 ⟨id, hid, hpresent, .refl⟩

/-- What is downstream of it all is there already. -/
theorem dependents_dependents (h : l.Intact) (ids : SortedSet InstanceId) :
    l.dependents (l.dependents ids) = l.dependents ids := by
  apply SortedSet.ext_mem
  intro id
  constructor
  · exact dependents_subset fun _ ha => ha
  · intro hid
    exact mem_dependents_of_present hid (present_of_mem_dependents h hid)

/-- **The order of a search makes no difference**: neither that of its starting points nor that of the
wires, and they may be repeated. -/
theorem traverse_eq_dependents {edges : List (InstanceId × InstanceId)} {starts : List InstanceId}
    (hstarts : ∀ a, a ∈ starts ↔ a ∈ ids ∧ l.Present a) (hedges : ∀ e, e ∈ edges ↔ e ∈ l.edges) :
    .ofList (traverse edges starts) = l.dependents ids := by
  have hreaches : ∀ a id, Reaches edges a id ↔ Reaches l.edges a id := fun a id =>
    ⟨fun h => h.of_subset fun e => (hedges e).1, fun h => h.of_subset fun e => (hedges e).2⟩
  apply SortedSet.ext_mem
  intro id
  rw [SortedSet.mem_ofList, mem_traverse_iff, mem_dependents_iff]
  simp only [hstarts, hreaches, and_assoc]

end Layout

namespace Session

/-- **What depends on a set of instances**, on every layout that comes about: exactly what a path of wires
leads to from one of the set that is there.  No starting point is left out because an earlier search came
by, and nothing depends on numbers that no instance has.  So larger sets have more dependents, those of a
union are those of its parts, and dependents of dependents are dependents. -/
theorem Reachable.dependents_downstream {s : Session} (h : s.Reachable) {l : Layout}
    (hl : s.target = .live l) (ids more : SortedSet InstanceId) :
    (∀ id, id ∈ l.dependents ids ↔ ∃ a ∈ ids, l.Present a ∧ Reaches l.edges a id) ∧
    (∀ id ∈ l.dependents ids, l.Present id) ∧
    (∀ edges starts, (∀ a, a ∈ starts ↔ a ∈ ids ∧ l.Present a) → (∀ e, e ∈ edges ↔ e ∈ l.edges) →
      .ofList (traverse edges starts) = l.dependents ids) ∧
    ((∀ id ∈ ids, id ∈ more) → ∀ id ∈ l.dependents ids, id ∈ l.dependents more) ∧
    l.dependents (ids ∪ more) = l.dependents ids ∪ l.dependents more ∧
    l.dependents (l.dependents ids) = l.dependents ids := by
  have hintact : l.Intact := h.intact l hl
  refine ⟨fun id => Layout.mem_dependents_iff, fun id => Layout.present_of_mem_dependents hintact, ?_, ?_,
    l.dependents_union ids more, Layout.dependents_dependents hintact ids⟩
  · intro edges starts hstarts hedges
    exact Layout.traverse_eq_dependents hstarts hedges
  · intro hsub id hid
    exact Layout.dependents_mono hsub hid

/-- The layout of `forked`.  Its plan was changed by itself: the stream is gone, and a new one leads from
the second operator to the first.  The wires of the old stream are still there when those of the new one
are laid, so the first two instances send data to each other.  The last instance is taken away. -/
def knotted : Layout :=
  let d := forked.dataflow.removeStream "abc"
  let source : PortAddress := ⟨"b", "out"⟩
  let turned : Dataflow := { d with streams := d.streams.insert "ba" ⟨"ba", source, []⟩ }
  let l : Layout := { forked with dataflow := turned.attach "ba" ⟨"a", "in"⟩ }
  ((l.wireSink ⟨"ba", source, [⟨"a", "in"⟩]⟩ ⟨"a", "in"⟩).removeOperator "d").2

theorem reachable_knotted : (Session.onLayout knotted).Reachable := by
  have hcut : (Session.onLayout { forked with dataflow := forked.dataflow.removeStream "abc" }).Reachable :=
    .plan reachable_forked (.removeStream "abc")
  have hadded := Reachable.plan hcut (.addStream "ba" ⟨"b", "out"⟩ rfl)
  have hturned := Reachable.plan hadded (.addSink "ba" ⟨"a", "in"⟩ rfl)
  have hwired := Reachable.layout hturned (.connectSink "ba" ⟨"a", "in"⟩ rfl)
  exact .layout hwired (.removeOperator "d")

/-- The set names the second instance, the one that is gone and one that never was. -/
theorem dependents_downstream_knotted :
    (Session.onLayout knotted).Reachable ∧ knotted.edges = [(⟨1⟩, ⟨2⟩), (⟨1⟩, ⟨3⟩), (⟨2⟩, ⟨1⟩)] ∧
      (knotted.dependents (.ofList [⟨2⟩, ⟨4⟩, ⟨9⟩])).toList = [⟨1⟩, ⟨2⟩, ⟨3⟩] ∧
      ⟨3⟩ ∈ knotted.dependents (.ofList [⟨2⟩]) ∧
      knotted.dependents (knotted.dependents (.ofList [⟨2⟩])) = knotted.dependents (.ofList [⟨2⟩]) := by
  have hedges : knotted.edges = [(⟨1⟩, ⟨2⟩), (⟨1⟩, ⟨3⟩), (⟨2⟩, ⟨1⟩)] := by decide +kernel
  obtain ⟨hmem, _, _, _, _, htwice⟩ :=
    Reachable.dependents_downstream reachable_knotted rfl (.ofList [⟨2⟩]) ∅
  have hback : Reaches knotted.edges ⟨2⟩ ⟨1⟩ := .single (by simp [hedges])
  have hreach : Reaches knotted.edges ⟨2⟩ ⟨3⟩ := hback.tail (by simp [hedges])
  have hpresent : knotted.Present ⟨2⟩ := by decide +kernel
  exact ⟨reachable_knotted, hedges, by decide +kernel,
    (hmem ⟨3⟩).2 ⟨⟨2⟩, SortedSet.mem_ofList.2 List.mem_cons_self, hpresent, hreach⟩, htwice⟩

end Session

end LiveDataflow
