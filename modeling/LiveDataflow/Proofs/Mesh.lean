import LiveDataflow.Proofs.Downstream
import LiveDataflow.Proofs.Staffed

/-!
# Instances reach each other as their operators do

A layout that follows its plan has a wire between two instances exactly if a link of the plan joins their
operators.  A path of wires is therefore a path of links, and where every operator has an instance a path of
links is one of wires, to every instance of its end.

## Results

* `Layout.Laid.mem_edges_iff`: the wires between instances are the links between their operators.
* `Layout.Laid.reaches_links`, `Layout.reaches_edges`: paths of wires and paths of links.
* `Layout.mem_dependents_of_operators_iff`: what depends on all the instances of some operators.
* `Layout.Laid.acyclic_edges`: wires run in circles only if links do.
-/

set_option autoImplicit false

namespace LiveDataflow.Layout

open Reachability

variable {l : Layout} {name : String} {a b : String} {id x y : InstanceId}

/-- The wires between instances are the links between their operators. -/
theorem Laid.mem_edges_iff (h : l.Laid) :
    (x, y) ∈ l.edges ↔ ∃ e ∈ l.dataflow.links, x ∈ l.instancesOf e.1 ∧ y ∈ l.instancesOf e.2 := by
  unfold edges
  rw [List.mem_map]
  constructor
  · rintro ⟨w, hw, hends⟩
    cases hends
    obtain ⟨s, hs, k, hk, _, hsource, htarget⟩ := (h.wired w).1 hw
    exact ⟨_, Dataflow.mem_links_iff.2 ⟨w.stream, s, hs, k, hk, rfl⟩, hsource, htarget⟩
  · rintro ⟨e, he, hx, hy⟩
    obtain ⟨stream, s, hs, k, hk, rfl⟩ := Dataflow.mem_links_iff.1 he
    exact ⟨⟨x, y, stream, k.port⟩, (h.wired _).2 ⟨s, hs, k, hk, rfl, hx, hy⟩, rfl⟩

/-- A path of wires follows a path of links. -/
theorem Laid.reaches_links (h : l.Laid) (hx : x ∈ l.instancesOf a) (hreach : Reaches l.edges x y) :
    ∃ b, Reaches l.dataflow.links a b ∧ y ∈ l.instancesOf b := by
  induction hreach with
  | refl => exact ⟨a, .refl, hx⟩
  | tail _ he ih =>
    obtain ⟨b, hab, hy⟩ := ih
    obtain ⟨⟨b', c⟩, hlink, hy', hz⟩ := h.mem_edges_iff.1 he
    have hsame : b = b' := h.numbered.operator_eq hy hy'
    subst hsame
    exact ⟨c, hab.tail hlink, hz⟩

/-- Where every operator has an instance, a path of links leads along wires to every instance of its
end. -/
theorem reaches_edges (h : l.Sound) (hstaffed : l.Staffed) (hreach : Reaches l.dataflow.links a b)
    (hy : y ∈ l.instancesOf b) : ∃ x ∈ l.instancesOf a, Reaches l.edges x y := by
  induction hreach generalizing y with
  | refl => exact ⟨y, hy, .refl⟩
  | @tail b c _ he ih =>
    obtain ⟨stream, s, hs, k, _, hends⟩ := Dataflow.mem_links_iff.1 he
    cases hends
    have hstage : (l.dataflow.stage? s.source.operator).isSome = true := h.laid.anchored.source stream s hs
    have hsome : l.instancesOf s.source.operator ≠ [] := hstaffed.instancesOf_ne_nil h.covers hstage
    obtain ⟨z, hz⟩ := List.exists_mem_of_ne_nil _ hsome
    obtain ⟨x, hx, hreach⟩ := ih hz
    exact ⟨x, hx, hreach.tail (h.laid.mem_edges_iff.2 ⟨_, he, hz, hy⟩)⟩

/-- **What depends on all the instances of some operators** is all the instances of the operators that
those lead to. -/
theorem mem_dependents_of_operators_iff (h : l.Sound) (hstaffed : l.Staffed) {names : List String} :
    id ∈ l.dependents (.ofList (names.flatMap l.instancesOf)) ↔
      ∃ a ∈ names, ∃ b, Reaches l.dataflow.links a b ∧ id ∈ l.instancesOf b := by
  rw [mem_dependents_iff]
  constructor
  · rintro ⟨x, hx, _, hreach⟩
    obtain ⟨a, ha, hx⟩ := List.mem_flatMap.1 (SortedSet.mem_ofList.1 hx)
    exact ⟨a, ha, h.laid.reaches_links hx hreach⟩
  · rintro ⟨a, ha, b, hab, hid⟩
    obtain ⟨x, hx, hreach⟩ := reaches_edges h hstaffed hab hid
    have hmem : x ∈ names.flatMap l.instancesOf := List.mem_flatMap.2 ⟨a, ha, hx⟩
    exact ⟨x, SortedSet.mem_ofList.2 hmem, h.laid.numbered.present hx, hreach⟩

/-- Wires run in circles only if links do. -/
theorem Laid.acyclic_edges (h : l.Laid) (hacyclic : Acyclic l.dataflow.links) : Acyclic l.edges := by
  rintro ⟨x, y⟩ he hback
  obtain ⟨⟨a, b⟩, hlink, hx, hy⟩ := h.mem_edges_iff.1 he
  obtain ⟨c, hreach, hx'⟩ := h.reaches_links hy hback
  have hsame : c = a := h.numbered.operator_eq hx' hx
  subst hsame
  exact hacyclic _ hlink hreach

end LiveDataflow.Layout
