import LiveDataflow.Proofs.Construction

/-!
# Data flows forward only

A sink is attached only if its operator does not lead back to the source of the stream, so attaching it
closes no cycle, and taking stages, streams and sinks away closes none either.  The check for cycles in
`Dataflow.validate` therefore never fails, as long as the stages keep the labels that they came with.

## Results

* `Reachability.Acyclic.of_edges_from`: edges out of one point close no cycle if none of their ends leads
  back to it.
* `Dataflow.Forward`: the invariant.
* `Dataflow.Built.never_cyclic`: no plan that can be built has a cycle, and such a plan is valid if and only
  if no stream dangles.
-/

set_option autoImplicit false

namespace LiveDataflow.Reachability

variable {α : Type} {edges more : List (α × α)} {a b u : α} {ends : List α}

/-- No edge leads back to where it began. -/
def Acyclic (edges : List (α × α)) : Prop := ∀ e ∈ edges, ¬ Reaches edges e.2 e.1

theorem Acyclic.ne (h : Acyclic edges) {e : α × α} (he : e ∈ edges) : e.1 ≠ e.2 := by
  intro heq
  have hback := h e he
  rw [heq] at hback
  exact hback .refl

theorem Acyclic.of_subset (h : Acyclic more) (hsub : edges ⊆ more) : Acyclic edges :=
  fun e he hback => h e (hsub he) (hback.of_subset hsub)

/-- **Edges out of one point close no cycle if none of their ends leads back to it.** -/
theorem Acyclic.of_edges_from (h : Acyclic edges) (hback : ∀ v ∈ ends, ¬ Reaches edges v u)
    (hmore : ∀ e ∈ more, e ∈ edges ∨ (e.1 = u ∧ e.2 ∈ ends)) : Acyclic more := by
  intro e he hcycle
  rcases hmore e he with hold | ⟨hbegin, hend⟩
  · rcases hcycle.of_edges_from hmore with hcycle | ⟨hu, v, hv, hvb⟩
    · exact h e hold hcycle
    · exact hback v hv ((hvb.tail hold).trans hu)
  · rw [hbegin] at hcycle
    rcases hcycle.of_edges_from hmore with hcycle | ⟨hcycle, _⟩
    · exact hback e.2 hend hcycle
    · exact hback e.2 hend hcycle

end LiveDataflow.Reachability

namespace LiveDataflow.Dataflow

open Reachability

variable {d d' : Dataflow} {name : String} {sink : PortAddress} {s : Stream} {c : Cause}

/-- Stages are labelled with their names, and no link leads back to where it began. -/
structure Forward (d : Dataflow) : Prop where
  labelled : ∀ name stage, d.stage? name = some stage → stage.label = name
  acyclic : Acyclic d.links

/-! ## The operator graph -/

namespace Forward

theorem mem_labels_iff (h : d.Forward) : name ∈ d.labels ↔ (d.stage? name).isSome = true := by
  unfold labels
  rw [List.mem_map, Option.isSome_iff_exists]
  constructor
  · rintro ⟨stage, hstage, rfl⟩
    obtain ⟨key, hkey⟩ := SortedMap.mem_values_iff.1 hstage
    have hlabel : stage.label = key := h.labelled key stage hkey
    rw [hlabel]
    exact ⟨stage, hkey⟩
  · rintro ⟨stage, hstage⟩
    exact ⟨stage, SortedMap.mem_values_iff.2 ⟨name, hstage⟩, h.labelled name stage hstage⟩

/-- No link is left out of the operator graph. -/
theorem topology_eq (h : d.Forward) (ha : d.Anchored) : d.topology = d.links := by
  unfold topology
  rw [List.filter_eq_self]
  intro e he
  obtain ⟨stream, t, ht, a, hat, rfl⟩ := mem_links_iff.1 he
  have hsource := h.mem_labels_iff.2 (ha.source stream t ht)
  have hsink := h.mem_labels_iff.2 (ha.sinks stream t ht a hat)
  simp [hsource, hsink]

/-- A sink that passes the check does not lead back to the source. -/
theorem not_reaches_of_checkSinks (h : d.Forward) (ha : d.Anchored)
    (hs : d.stream? name = some s) (hc : d.checkSinks s.source [sink] = .ok ()) :
    ¬ Reaches d.links sink.operator s.source.operator := by
  obtain ⟨p, _, _, hall⟩ := checkSinks_eq_ok_iff.1 hc
  have hattachable := hall sink List.mem_cons_self
  obtain ⟨q, hq, _⟩ := hattachable.declared
  have hsource := h.mem_labels_iff.2 (ha.source name s hs)
  have hsink := h.mem_labels_iff.2 (stage?_isSome_of_findPort hq)
  have hahead := hattachable.ahead
  intro hback
  rw [← h.topology_eq ha] at hback
  rw [leadsTo_iff.2 ⟨hsink, hsource, hback⟩] at hahead
  cases hahead

/-! ## What changes keep -/

/-- The one new link of a sink that is attached. -/
theorem mem_links_attach (hs : d.stream? name = some s) {e : String × String}
    (he : e ∈ (d.attach name sink).links) :
    e ∈ d.links ∨ e = (s.source.operator, sink.operator) := by
  obtain ⟨stream, t', ht', a, ha, rfl⟩ := mem_links_iff.1 he
  obtain ⟨t, ht, rfl | ⟨rfl, rfl⟩⟩ := exists_of_stream?_attach ht'
  · exact .inl (mem_links_iff.2 ⟨stream, t', ht, a, ha, rfl⟩)
  · rw [hs] at ht
    cases ht
    rcases List.mem_append.1 ha with hold | hnew
    · exact .inl (mem_links_iff.2 ⟨name, s, hs, a, hold, rfl⟩)
    · rw [List.mem_singleton.1 hnew]
      exact .inr rfl

/-- A sink that passes the check closes no cycle. -/
theorem acyclic_attach (h : d.Forward) (ha : d.Anchored) (hs : d.stream? name = some s)
    (hc : d.checkSinks s.source [sink] = .ok ()) : Acyclic (d.attach name sink).links := by
  have hback : ∀ v ∈ [sink.operator], ¬ Reaches d.links v s.source.operator := by
    intro v hv
    rw [List.mem_singleton.1 hv]
    exact h.not_reaches_of_checkSinks ha hs hc
  refine h.acyclic.of_edges_from hback fun e he => ?_
  rcases mem_links_attach hs he with hold | rfl
  · exact .inl hold
  · exact .inr ⟨rfl, List.mem_singleton_self _⟩

theorem links_insertStream_subset {source : PortAddress} :
    ({ d with streams := d.streams.insert name ⟨name, source, []⟩ } : Dataflow).links ⊆ d.links := by
  intro e he
  obtain ⟨stream, t, ht, a, ha, rfl⟩ := mem_links_iff.1 he
  rcases eq_or_of_stream?_insert ht with ⟨_, rfl⟩ | hold
  · cases ha
  · exact mem_links_iff.2 ⟨stream, t, hold, a, ha, rfl⟩

/-- **Data flows forward only, and every change keeps it so.** -/
theorem invariant : Invariant false Forward where
  empty config := ⟨fun _ _ h => (nomatch h), fun _ h => (nomatch h)⟩
  insert operator h _ := by
    refine ⟨fun j stage hj => ?_, h.acyclic⟩
    rw [stage?_insert] at hj
    split at hj
    · rename_i heq
      cases hj
      exact heq
    · exact h.labelled j stage hj
  adjust name h _ hlabel _ := by
    refine ⟨fun j stage hj => ?_, h.acyclic⟩
    rw [stage?_adjust] at hj
    split at hj
    · obtain ⟨old, hold, rfl⟩ := Option.map_eq_some_iff.1 hj
      rw [hlabel rfl]
      exact h.labelled j old hold
    · exact h.labelled j stage hj
  removeStage h hname := by
    refine ⟨fun j stage hj => ?_, h.acyclic.of_subset (pruned_removeStage hname).links_subset⟩
    rw [stage?_removeStage] at hj
    split at hj
    · cases hj
    · exact h.labelled j stage hj
  insertStream h _ _ := ⟨h.labelled, h.acyclic.of_subset links_insertStream_subset⟩
  attach ha h hs hc := ⟨h.labelled, h.acyclic_attach ha hs hc⟩
  removeStream name h := ⟨h.labelled, h.acyclic.of_subset pruned_removeStream.links_subset⟩

end Forward

/-! ## Validation -/

/-- A plan without a cycle is valid if no stream dangles. -/
theorem validate_eq_ok_iff_of_acyclic (h : Acyclic d.topology) :
    d.validate = .ok () ↔ ∀ s ∈ d.streams.values, s.sinks ≠ [] := by
  rw [validate_eq_ok_iff]
  refine and_iff_left ?_
  rintro ⟨e, he, hback⟩
  exact h e he hback

/-- A plan without a cycle is refused for the dangling stream that comes first. -/
theorem validate_eq_error_of_acyclic (ha : d.Anchored) (h : Acyclic d.topology)
    (hc : d.validate = .error c) :
    ∃ s ∈ d.streams.values, c = .noSinks s.name ∧ s.sinks = [] ∧
      ∀ t ∈ d.streams.values, t.sinks = [] → ¬ t.name < s.name := by
  cases hfind : d.streams.values.find? (·.isDangling) with
  | none =>
    have hall : ∀ s ∈ d.streams.values, s.sinks ≠ [] := by
      intro s hs hnil
      have := List.find?_eq_none.1 hfind s hs
      simp [Stream.isDangling, hnil] at this
    rw [(validate_eq_ok_iff_of_acyclic h).2 hall] at hc
    cases hc
  | some s =>
    obtain ⟨key, hkey, hdangling, hleast⟩ := SortedMap.least_of_find?_values hfind
    have hname : s.name = key := ha.keyed key s hkey
    have hcause : c = .noSinks s.name := by
      unfold validate at hc
      rw [hfind] at hc
      cases hc
      rfl
    refine ⟨s, SortedMap.mem_values_iff.2 ⟨key, hkey⟩, hcause, by simpa [Stream.isDangling] using hdangling,
      fun t ht hnil => ?_⟩
    obtain ⟨other, hother⟩ := SortedMap.mem_values_iff.1 ht
    rw [hname, ha.keyed other t hother]
    exact hleast other t hother (by simp [Stream.isDangling, hnil])

/-- **No plan that can be built has a cycle**: no stream leads from an operator to itself, and no path of
links leads back to where it began.  So a plan is valid exactly if every stream has a sink, and is
refused for the first stream, by name, that has none. -/
theorem Built.never_cyclic (h : d.Built false) :
    (∀ e ∈ d.links, e.1 ≠ e.2) ∧ Acyclic d.links ∧
      (d.validate = .ok () ↔ ∀ s ∈ d.streams.values, s.sinks ≠ []) ∧
      ∀ c, d.validate = .error c → ∃ s ∈ d.streams.values, c = .noSinks s.name ∧ s.sinks = [] ∧
        ∀ t ∈ d.streams.values, t.sinks = [] → ¬ t.name < s.name := by
  have hforward : d.Forward := Forward.invariant.holds h
  have htopology : Acyclic d.topology := by
    rw [hforward.topology_eq h.anchored]
    exact hforward.acyclic
  exact ⟨fun e he => hforward.acyclic.ne he, hforward.acyclic, validate_eq_ok_iff_of_acyclic htopology,
    fun c hc => validate_eq_error_of_acyclic h.anchored htopology hc⟩

/-- Three operators.  A stream from the last one back to the first is refused, and when the second one is
taken away a stream is left that leads nowhere. -/
def cut : Dataflow :=
  let s := (Session.onPlan (.empty .default)).runAll
    [.addOperator "a" .relay, .addOperator "b" .relay, .addOperator "c" .relay,
      .addStream "ab" ⟨"a", "out"⟩ [⟨"b", "in"⟩], .addStream "ac" ⟨"a", "out"⟩ [⟨"c", "in"⟩],
      .addStream "ca" ⟨"c", "out"⟩ [⟨"a", "in"⟩], .addStream "z" ⟨"c", "out"⟩ []]
  s.2.dataflow.removeStage "b"

theorem never_cyclic_cut :
    cut.Built false ∧ cut.links = [("a", "c")] ∧ ¬ Reaches cut.links "c" "a" ∧
      cut.validate = .error (.noSinks "ab") ∧
      ∃ s ∈ cut.streams.values, Cause.noSinks "ab" = .noSinks s.name ∧ s.sinks = [] ∧
        ∀ t ∈ cut.streams.values, t.sinks = [] → ¬ t.name < s.name := by
  have hbuilt : cut.Built false := .call (Built.runAll (.empty .default) _) (.removeStage "b")
  have hrefused : cut.validate = .error (.noSinks "ab") := rfl
  obtain ⟨_, hacyclic, _, hleast⟩ := Built.never_cyclic hbuilt
  exact ⟨hbuilt, rfl, hacyclic ("a", "c") List.mem_cons_self, hrefused, hleast _ hrefused⟩

end LiveDataflow.Dataflow
