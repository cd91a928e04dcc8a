import LiveDataflow.Proofs.Acyclic
import LiveDataflow.Proofs.WellWired

/-!
# Sinks that are attached at once

The check of a batch looks at each sink by itself, on the plan as it was before the batch.  That is enough:
all the new edges begin at the source, so the last one on a cycle is followed by a path back to the source
that uses none of them, and the sink of this edge is refused by itself.

## Results

* `Reachability.acyclic_append_iff`: edges out of one point close no cycle exactly if none of their ends
  leads back to it.
* `Dataflow.Forward.attachable_iff`: a sink by itself, in terms of paths.
* `Dataflow.Built.checkSinks_ok_iff_acyclic`: which batches pass, in terms of the plan with all of their
  edges.
-/

set_option autoImplicit false

namespace LiveDataflow.Reachability

variable {α : Type} {edges : List (α × α)}

/-- **Edges out of one point close no cycle exactly if none of their ends leads back to it** without
them. -/
theorem acyclic_append_iff (h : Acyclic edges) (u : α) (ends : List α) :
    Acyclic (edges ++ ends.map fun v => (u, v)) ↔ ∀ v ∈ ends, ¬ Reaches edges v u := by
  constructor
  · intro hall v hv hback
    have hnew : (u, v) ∈ edges ++ ends.map fun v => (u, v) :=
      List.mem_append_right _ (List.mem_map_of_mem hv)
    exact hall (u, v) hnew (hback.of_subset (List.subset_append_left _ _))
  · intro hback
    refine h.of_edges_from hback fun e he => ?_
    rcases List.mem_append.1 he with hold | hnew
    · exact .inl hold
    · obtain ⟨v, hv, rfl⟩ := List.mem_map.1 hnew
      exact .inr ⟨rfl, hv⟩

end LiveDataflow.Reachability

namespace LiveDataflow.Dataflow

open Reachability

variable {d : Dataflow} {source a : PortAddress} {p : Port}

/-- A sink that is declared leads to the source exactly if a path does. -/
theorem Forward.leadsTo_iff_reaches (h : d.Forward) {b : PortAddress} {q : Port}
    (ha : d.inputPort a = .ok q) (hb : d.outputPort b = .ok p) :
    d.leadsTo a.operator b.operator = true ↔ Reaches d.topology a.operator b.operator := by
  have hlabel : a.operator ∈ d.labels := h.mem_labels_iff.2 (stage?_isSome_of_findPort ha)
  have hother : b.operator ∈ d.labels := h.mem_labels_iff.2 (stage?_isSome_of_findPort hb)
  rw [leadsTo_iff]
  exact ⟨fun hleads => hleads.2.2, fun hreach => ⟨hlabel, hother, hreach⟩⟩

/-- What a sink has to fulfil by itself: it is declared, fits and is free, and its operator does not lead
back to the source. -/
theorem Forward.attachable_iff (h : d.Forward) (hp : d.outputPort source = .ok p) :
    d.Attachable source p a ↔
      (∃ q, d.inputPort a = .ok q ∧ (d.config.strictTypes = true → p.fits q = true)) ∧
        (∀ s ∈ d.streams.values, a ∉ s.sinks) ∧ ¬ Reaches d.topology a.operator source.operator := by
  have hvacant : (∀ s ∈ d.streams.values, a ∉ s.sinks) ↔
      ∀ name s, d.stream? name = some s → a ∉ s.sinks := by
    simp only [SortedMap.mem_values_iff]
    constructor
    · intro hall name s hs
      exact hall s ⟨name, hs⟩
    · rintro hall s ⟨name, hs⟩
      exact hall name s hs
  rw [hvacant]
  constructor
  · intro hattachable
    obtain ⟨q, hq, hfits⟩ := hattachable.declared
    refine ⟨⟨q, hq, hfits⟩, hattachable.vacant, ?_⟩
    rw [← h.leadsTo_iff_reaches hq hp, hattachable.ahead]
    exact Bool.false_ne_true
  · rintro ⟨⟨q, hq, hfits⟩, hfree, hback⟩
    refine ⟨⟨q, hq, hfits⟩, hfree, fun hsame => hback ?_, ?_⟩
    · rw [hsame]
    · rw [← Bool.not_eq_true, h.leadsTo_iff_reaches hq hp]
      exact hback

/-- **Exactly the batches pass whose sinks can all be attached at once**: the source is a declared output
port, every sink is a declared input port, no sink is there twice or is a sink of a stream already, on a
strict plan no sink declares another type than the source, and with all the new edges together the operator
graph has no cycle. -/
theorem Built.checkSinks_ok_iff_acyclic (h : d.Built false) (source : PortAddress)
    (sinks : List PortAddress) :
    d.checkSinks source sinks = .ok () ↔
      (∃ p, d.outputPort source = .ok p) ∧ (∀ a ∈ sinks, ∃ q, d.inputPort a = .ok q) ∧ sinks.Nodup ∧
      (∀ a ∈ sinks, ∀ s ∈ d.streams.values, a ∉ s.sinks) ∧
      (d.config.strictTypes = true → ∀ a ∈ sinks, ∀ p q, d.outputPort source = .ok p →
        d.inputPort a = .ok q → ∀ t u, p.dataType = some t → q.dataType = some u → t = u) ∧
      Acyclic (d.topology ++ sinks.map fun a => (source.operator, a.operator)) := by
  have hforward : d.Forward := Forward.invariant.holds h
  have hacyclic : Acyclic d.topology := by
    rw [hforward.topology_eq h.anchored]
    exact hforward.acyclic
  have htogether : Acyclic (d.topology ++ sinks.map fun a => (source.operator, a.operator)) ↔
      ∀ a ∈ sinks, ¬ Reaches d.topology a.operator source.operator := by
    have hends := acyclic_append_iff hacyclic source.operator (sinks.map (·.operator))
    rw [List.map_map, List.forall_mem_map] at hends
    exact hends
  rw [checkSinks_eq_ok_iff, htogether]
  constructor
  · rintro ⟨p, hp, hnodup, hall⟩
    have hall := fun a ha => (hforward.attachable_iff hp).1 (hall a ha)
    refine ⟨⟨p, hp⟩, fun a ha => ?_, hnodup, fun a ha => (hall a ha).2.1, fun hstrict a ha p' q hp' hq => ?_,
      fun a ha => (hall a ha).2.2⟩
    · obtain ⟨⟨q, hq, _⟩, _⟩ := hall a ha
      exact ⟨q, hq⟩
    · obtain ⟨⟨q', hq', hfits⟩, _⟩ := hall a ha
      rw [hp] at hp'
      rw [hq] at hq'
      cases hp'
      cases hq'
      exact Port.fits_iff.1 (hfits hstrict)
  · rintro ⟨⟨p, hp⟩, hdeclared, hnodup, hvacant, htypes, hback⟩
    refine ⟨p, hp, hnodup, fun a ha => (hforward.attachable_iff hp).2 ⟨?_, hvacant a ha, hback a ha⟩⟩
    obtain ⟨q, hq⟩ := hdeclared a ha
    exact ⟨q, hq, fun hstrict => Port.fits_iff.2 (htypes hstrict a ha p q hp hq)⟩

/-- Four operators, the first of which feeds the second. -/
def fed : Dataflow := ((Session.onPlan (.empty .default)).runAll
  [.addOperator "a" .relay, .addOperator "b" .relay, .addOperator "c" .relay, .addOperator "d" .relay,
    .addStream "ab" ⟨"a", "out"⟩ [⟨"b", "in"⟩]]).2.dataflow

/-- The second operator can feed the third and the fourth at once, but not the third and the first. -/
theorem checkSinks_ok_iff_acyclic_fed :
    fed.Built false ∧ fed.topology = [("a", "b")] ∧
      fed.checkSinks ⟨"b", "out"⟩ [⟨"c", "in"⟩, ⟨"d", "in"⟩] = .ok () ∧
      Acyclic [("a", "b"), ("b", "c"), ("b", "d")] ∧
      fed.checkSinks ⟨"b", "out"⟩ [⟨"c", "in"⟩, ⟨"a", "in"⟩] ≠ .ok () := by
  have hbuilt : fed.Built false := Built.runAll (.empty .default) _
  have hpasses : fed.checkSinks ⟨"b", "out"⟩ [⟨"c", "in"⟩, ⟨"d", "in"⟩] = .ok () := rfl
  obtain ⟨_, _, _, _, _, hacyclic⟩ := (Built.checkSinks_ok_iff_acyclic hbuilt _ _).1 hpasses
  refine ⟨hbuilt, rfl, hpasses, hacyclic, fun hback => ?_⟩
  obtain ⟨_, _, _, _, _, hcyclic⟩ := (Built.checkSinks_ok_iff_acyclic hbuilt _ _).1 hback
  have hforth : Reaches [("a", "b"), ("b", "c"), ("b", "a")] "a" "b" :=
    .single List.mem_cons_self
  exact hcyclic ("b", "a") (by decide) hforth

end LiveDataflow.Dataflow
