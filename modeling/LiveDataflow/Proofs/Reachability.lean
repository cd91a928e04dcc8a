import Mathlib.Logic.Relation
import LiveDataflow.Dataflow.Topology

/-!
# What sweeps and searches find

Both find exactly what a path of edges leads to.  A sweep only adds ends of edges whose beginning is there,
and there are no more sweeps to make than there are ends that are missing.  A search leaves behind it no
point whose successors are neither visited nor on its stack, and every step uses up a point of the stack or
the edges of a point.

## Results

* `Reachability.Reaches`: there is a path of zero or more edges.
* `Reachability.Reaches.of_edges_from`, `Reachability.Reaches.of_edges_out`: what a path needs of edges out
  of one point.
* `Reachability.mem_reachable_iff`: sweeping finds exactly what is reached from the starting points.
* `Reachability.hasCycle_iff`: `hasCycle` holds exactly if some edge leads back to where it began.
* `Reachability.Pending`: what holds all along a search; `Reachability.explore_closed`: a search ends with
  nothing left to visit.
* `Reachability.mem_traverse_iff`: however the starting points are ordered, a search visits exactly what is
  reached from them.
* `Dataflow.leadsTo_iff`: `leadsTo` holds exactly between labels that a path joins.
* `Dataflow.validate_eq_ok_iff`: a plan is valid if and only if no stream dangles and the operator graph has
  no cycle.
-/

set_option autoImplicit false

namespace LiveDataflow.Reachability

variable {α : Type}

/-- There is a path of zero or more edges. -/
abbrev Reaches (edges : List (α × α)) : α → α → Prop := Relation.ReflTransGen fun a b => (a, b) ∈ edges

section Paths

variable {edges more : List (α × α)} {ends : List α} {a b u : α}

theorem Reaches.of_subset (h : Reaches edges a b) (hsub : edges ⊆ more) : Reaches more a b :=
  Relation.ReflTransGen.mono (fun _ _ he => hsub he) a b h

/-- A path that may use more edges out of one point does without them, or comes to that point and goes on
from the end of one of them. -/
theorem Reaches.of_edges_from (h : ∀ e ∈ more, e ∈ edges ∨ (e.1 = u ∧ e.2 ∈ ends))
    (hab : Reaches more a b) :
    Reaches edges a b ∨ (Reaches edges a u ∧ ∃ v ∈ ends, Reaches edges v b) := by
  induction hab with
  | refl => exact .inl .refl
  | @tail b c _ he ih =>
    rcases h _ he with he | ⟨hbegin, hend⟩
    · exact ih.imp (·.tail he) fun ⟨hau, v, hv, hvb⟩ => ⟨hau, v, hv, hvb.tail he⟩
    · -- the path ends with a new edge: what led to its beginning leads there the first time
      have hbegin : b = u := hbegin
      subst hbegin
      rcases ih with hau | ⟨hau, _⟩
      · exact .inr ⟨hau, c, hend, .refl⟩
      · exact .inr ⟨hau, c, hend, .refl⟩

/-- **Edges out of a point do not help to reach it**: the first arrival needs none of them. -/
theorem Reaches.of_edges_out (h : ∀ e ∈ more, e ∈ edges ∨ e.1 = b) (hab : Reaches more a b) :
    Reaches edges a b := by
  have hfrom : ∀ e ∈ more, e ∈ edges ∨ (e.1 = b ∧ e.2 ∈ more.map Prod.snd) := fun e he =>
    (h e he).imp_right fun hbegin => ⟨hbegin, List.mem_map_of_mem he⟩
  rcases hab.of_edges_from hfrom with hreach | ⟨hreach, _⟩
  · exact hreach
  · exact hreach

end Paths

/-- What a visited point leads to is visited, or is still on the stack. -/
def Pending (edges : List (α × α)) (stack visited : List α) : Prop :=
  ∀ e ∈ edges, e.1 ∈ visited → e.2 ∈ visited ∨ e.2 ∈ stack

/-- Where nothing is left to visit, everything that a visited point reaches is visited. -/
theorem Pending.mem_of_reaches {edges : List (α × α)} {visited : List α} {a x : α}
    (h : Pending edges [] visited) (ha : a ∈ visited) (hreach : Reaches edges a x) : x ∈ visited := by
  induction hreach with
  | refl => exact ha
  | tail _ he ih => exact (h _ he ih).resolve_right List.not_mem_nil

theorem Pending.skip {edges : List (α × α)} {rest visited : List α} {a : α}
    (h : Pending edges (a :: rest) visited) (ha : a ∈ visited) : Pending edges rest visited := by
  intro e he hbegin
  rcases h e he hbegin with hend | hend
  · exact .inl hend
  · rcases List.mem_cons.1 hend with heq | hend
    · exact .inl (heq ▸ ha)
    · exact .inr hend

variable [DecidableEq α]

/-! ## What a sweep adds -/

theorem subset_grow (edges : List (α × α)) (seen : List α) : seen ⊆ grow edges seen := by
  induction edges generalizing seen with
  | nil => exact fun _ h => h
  | cons e edges ih =>
    rw [grow, List.foldl_cons]
    refine fun x hx => ih _ ?_
    split
    · exact List.mem_append_left _ hx
    · exact hx

theorem length_le_grow (edges : List (α × α)) (seen : List α) :
    seen.length ≤ (grow edges seen).length := by
  induction edges generalizing seen with
  | nil => exact Nat.le_refl _
  | cons e edges ih =>
    rw [grow, List.foldl_cons]
    refine Nat.le_trans ?_ (ih _)
    split <;> simp

theorem mem_grow {edges : List (α × α)} {seen : List α} {x : α} (h : x ∈ grow edges seen) :
    x ∈ seen ∨ ∃ a ∈ seen, Reaches edges a x := by
  induction edges generalizing seen with
  | nil => exact .inl h
  | cons e edges ih =>
    rw [grow, List.foldl_cons] at h
    have widen : ∀ {a b : α}, Reaches edges a b → Reaches (e :: edges) a b :=
      fun h => h.of_subset (List.subset_cons_self e edges)
    split at h
    · next hc =>
      have step : Reaches (e :: edges) e.1 e.2 := .single List.mem_cons_self
      rcases ih h with hx | ⟨a, ha, hax⟩
      · rcases List.mem_append.1 hx with hx | hx
        · exact .inl hx
        · rw [List.mem_singleton.1 hx]; exact .inr ⟨e.1, hc.1, step⟩
      · rcases List.mem_append.1 ha with ha | ha
        · exact .inr ⟨a, ha, widen hax⟩
        · rw [List.mem_singleton.1 ha] at hax
          exact .inr ⟨e.1, hc.1, step.trans (widen hax)⟩
    · rcases ih h with hx | ⟨a, ha, hax⟩
      · exact .inl hx
      · exact .inr ⟨a, ha, widen hax⟩

/-- The end of every edge whose beginning was there is there after a sweep. -/
theorem mem_grow_of_edge {edges : List (α × α)} {seen : List α} {e : α × α} (he : e ∈ edges)
    (hs : e.1 ∈ seen) : e.2 ∈ grow edges seen := by
  induction edges generalizing seen with
  | nil => exact absurd he List.not_mem_nil
  | cons d edges ih =>
    rw [grow, List.foldl_cons]
    rcases List.mem_cons.1 he with rfl | he
    · refine subset_grow edges _ ?_
      split
      · exact List.mem_append_right _ List.mem_cons_self
      · next hc => exact Decidable.of_not_not fun hn => hc ⟨hs, hn⟩
    · refine ih he ?_
      split
      · exact List.mem_append_left _ hs
      · exact hs

/-- A sweep that makes the list no longer adds nothing. -/
theorem grow_subset_of_length {edges : List (α × α)} {seen : List α}
    (h : (grow edges seen).length = seen.length) : grow edges seen ⊆ seen := by
  induction edges generalizing seen with
  | nil => exact fun _ h => h
  | cons d edges ih =>
    rw [grow, List.foldl_cons] at h ⊢
    have hle := length_le_grow edges
      (if d.1 ∈ seen ∧ d.2 ∉ seen then seen ++ [d.2] else seen)
    by_cases hc : d.1 ∈ seen ∧ d.2 ∉ seen
    · rw [if_pos hc] at h hle
      rw [grow, h, List.length_append] at hle
      exact absurd hle (Nat.not_succ_le_self _)
    · rw [if_neg hc] at h ⊢
      exact ih h

/-! ## Saturation -/

theorem subset_saturate (edges : List (α × α)) (n : Nat) (seen : List α) :
    seen ⊆ saturate edges n seen := by
  induction n generalizing seen with
  | zero => exact fun _ h => h
  | succ n ih =>
    rw [saturate]
    split
    · exact fun _ h => h
    · exact fun x hx => ih _ (subset_grow edges seen hx)

theorem reaches_of_mem_saturate {edges : List (α × α)} {n : Nat} {seen : List α} {x : α}
    (h : x ∈ saturate edges n seen) : ∃ a ∈ seen, Reaches edges a x := by
  induction n generalizing seen with
  | zero => exact ⟨x, h, .refl⟩
  | succ n ih =>
    rw [saturate] at h
    split at h
    · exact ⟨x, h, .refl⟩
    · obtain ⟨a, ha, hax⟩ := ih h
      rcases mem_grow ha with ha | ⟨b, hb, hba⟩
      · exact ⟨a, ha, hax⟩
      · exact ⟨b, hb, hba.trans hax⟩

/-- As many sweeps as there are edges whose end is still missing are enough. -/
theorem saturate_closed {edges : List (α × α)} {n : Nat} {seen : List α}
    (hn : (edges.filter fun e => e.2 ∉ seen).length ≤ n) {e : α × α} (he : e ∈ edges)
    (hs : e.1 ∈ saturate edges n seen) : e.2 ∈ saturate edges n seen := by
  induction n generalizing seen with
  | zero =>
    have hnil := List.eq_nil_of_length_eq_zero (Nat.le_zero.1 hn)
    have := List.filter_eq_nil_iff.1 hnil e he
    rw [saturate]
    simpa using this
  | succ n ih =>
    rw [saturate] at hs ⊢
    split at hs
    · next hlen =>
      rw [if_pos hlen]
      exact grow_subset_of_length hlen (mem_grow_of_edge he hs)
    · next hlen =>
      rw [if_neg hlen]
      refine ih ?_ hs
      have hlt : seen.length < (grow edges seen).length :=
        Nat.lt_of_le_of_ne (length_le_grow edges seen) (Ne.symm hlen)
      have hnew : ∃ d ∈ edges, d.2 ∉ seen ∧ d.2 ∈ grow edges seen := by
        refine Decidable.by_contra fun hno => ?_
        have hall : ∀ d ∈ edges, d.1 ∈ seen → d.2 ∈ seen := fun d hd hds =>
          Decidable.by_contra fun hn => hno ⟨d, hd, hn, mem_grow_of_edge hd hds⟩
        have hfix : grow edges seen = seen := by
          clear hn ih hs hlen hlt hno he
          induction edges with
          | nil => rfl
          | cons d edges ih =>
            rw [grow, List.foldl_cons, if_neg fun hc =>
              hc.2 (hall d List.mem_cons_self hc.1)]
            exact ih fun d' hd' => hall d' (List.mem_cons_of_mem _ hd')
        rw [hfix] at hlt
        exact Nat.lt_irrefl _ hlt
      obtain ⟨d, hd, hds, hdg⟩ := hnew
      have hsub : (edges.filter fun e => e.2 ∉ grow edges seen) =
          (edges.filter fun e => e.2 ∉ seen).filter fun e => e.2 ∉ grow edges seen := by
        rw [List.filter_filter]
        refine List.filter_congr fun x _ => ?_
        by_cases hx : x.2 ∈ seen
        · simp [hx, subset_grow edges seen hx]
        · simp [hx]
      have hless : (edges.filter fun e => e.2 ∉ grow edges seen).length <
          (edges.filter fun e => e.2 ∉ seen).length := by
        rw [hsub]
        exact List.length_filter_lt_length_iff_exists.2
          ⟨d, List.mem_filter.2 ⟨hd, by simpa using hds⟩, by simpa using hdg⟩
      omega

/-- The saturated list holds exactly what is reached from the starting points. -/
theorem mem_reachable_iff {edges : List (α × α)} {starts : List α} {b : α} :
    b ∈ reachable edges starts ↔ ∃ a ∈ starts, Reaches edges a b := by
  refine ⟨reaches_of_mem_saturate, ?_⟩
  rintro ⟨a, ha, hab⟩
  induction hab with
  | refl => exact subset_saturate edges _ starts ha
  | tail _ he ih => exact saturate_closed (List.length_filter_le _ edges) he ih

theorem hasCycle_iff {edges : List (α × α)} :
    hasCycle edges = true ↔ ∃ e ∈ edges, Reaches edges e.2 e.1 := by
  simp [hasCycle, mem_reachable_iff]

/-! ## Searching -/

section Search

variable {edges : List (α × α)} {n : Nat} {stack visited rest starts : List α} {a b x : α}

theorem mem_successors_iff : b ∈ successors edges a ↔ (a, b) ∈ edges := by
  unfold successors
  rw [List.mem_map]
  constructor
  · rintro ⟨⟨a', b'⟩, he, rfl⟩
    obtain ⟨he, ha⟩ := List.mem_filter.1 he
    have ha : a' = a := by simpa using ha
    rw [← ha]
    exact he
  · intro he
    exact ⟨(a, b), List.mem_filter.2 ⟨he, by simp⟩, rfl⟩

/-! ### Only what is reached is visited -/

theorem reaches_of_mem_explore (h : x ∈ explore edges n stack visited) :
    x ∈ visited ∨ ∃ a ∈ stack, Reaches edges a x := by
  induction n generalizing stack visited with
  | zero => exact .inl h
  | succ n ih =>
    cases stack with
    | nil => exact .inl h
    | cons a rest =>
      rw [explore] at h
      split at h
      · rcases ih h with hold | ⟨b, hb, hreach⟩
        · exact .inl hold
        · exact .inr ⟨b, List.mem_cons_of_mem _ hb, hreach⟩
      · rcases ih h with hold | ⟨b, hb, hreach⟩
        · rcases List.mem_cons.1 hold with rfl | hold
          · exact .inr ⟨x, List.mem_cons_self, .refl⟩
          · exact .inl hold
        · rcases List.mem_append.1 hb with hb | hb
          · have hedge := mem_successors_iff.1 (List.mem_filter.1 hb).1
            exact .inr ⟨a, List.mem_cons_self, .head hedge hreach⟩
          · exact .inr ⟨b, List.mem_cons_of_mem _ hb, hreach⟩

/-! ### Everything that is reached is visited -/

theorem Pending.visit (h : Pending edges (a :: rest) visited) :
    Pending edges ((successors edges a).filter (· ∉ a :: visited) ++ rest) (a :: visited) := by
  intro e he hbegin
  by_cases hvisited : e.2 ∈ a :: visited
  · exact .inl hvisited
  refine .inr (List.mem_append.2 ?_)
  rcases List.mem_cons.1 hbegin with hbegin | hbegin
  · have hsuccessor : e.2 ∈ successors edges a := mem_successors_iff.2 (hbegin ▸ he)
    exact .inl (List.mem_filter.2 ⟨hsuccessor, by simpa using hvisited⟩)
  · rw [List.mem_cons, not_or] at hvisited
    rcases h e he hbegin with hend | hend
    · exact absurd hend hvisited.2
    · exact .inr ((List.mem_cons.1 hend).resolve_left hvisited.1)

/-- The points that a search can still take off its stack: those that are on it, and one for each edge
that begins at a point not visited. -/
def remaining (edges : List (α × α)) (stack visited : List α) : Nat :=
  stack.length + (edges.filter (·.1 ∉ visited)).length

/-- The edges of a point that is visited now are not counted again. -/
theorem length_successors_add (ha : a ∉ visited) :
    (successors edges a).length + (edges.filter (·.1 ∉ a :: visited)).length =
      (edges.filter (·.1 ∉ visited)).length := by
  unfold successors
  rw [List.length_map]
  induction edges with
  | nil => rfl
  | cons e edges ih =>
    by_cases hbegin : e.1 = a
    · simp [hbegin, ha] at ih ⊢
      omega
    · by_cases hvisited : e.1 ∈ visited
      · simp [hbegin, hvisited] at ih ⊢
        omega
      · simp [hbegin, hvisited] at ih ⊢
        omega

theorem remaining_visit (ha : a ∉ visited) :
    remaining edges ((successors edges a).filter (· ∉ a :: visited) ++ rest) (a :: visited) <
      remaining edges (a :: rest) visited := by
  have hfewer : ((successors edges a).filter (· ∉ a :: visited)).length ≤ (successors edges a).length :=
    List.length_filter_le _ _
  have hcount : (successors edges a).length + (edges.filter (·.1 ∉ a :: visited)).length =
      (edges.filter (·.1 ∉ visited)).length := length_successors_add ha
  unfold remaining
  rw [List.length_append, List.length_cons]
  omega

/-- **A search ends with nothing left to visit**: it has visited what was on its stack, and everything that
a visited point leads to. -/
theorem explore_closed (h : Pending edges stack visited) (hn : remaining edges stack visited ≤ n) :
    (∀ x, x ∈ visited ∨ x ∈ stack → x ∈ explore edges n stack visited) ∧
      Pending edges [] (explore edges n stack visited) := by
  induction n generalizing stack visited with
  | zero =>
    unfold remaining at hn
    have hempty : stack = [] := List.eq_nil_of_length_eq_zero (by omega)
    subst hempty
    refine ⟨fun x hx => ?_, h⟩
    exact hx.resolve_right List.not_mem_nil
  | succ n ih =>
    cases stack with
    | nil =>
      refine ⟨fun x hx => ?_, h⟩
      exact hx.resolve_right List.not_mem_nil
    | cons a rest =>
      rw [explore]
      split
      · rename_i ha
        have hless : remaining edges rest visited ≤ n := by
          unfold remaining at hn ⊢
          rw [List.length_cons] at hn
          omega
        obtain ⟨hall, hclosed⟩ := ih (h.skip ha) hless
        refine ⟨fun x hx => hall x ?_, hclosed⟩
        rcases hx with hx | hx
        · exact .inl hx
        · rcases List.mem_cons.1 hx with rfl | hx
          · exact .inl ha
          · exact .inr hx
      · rename_i ha
        have hless := Nat.lt_of_lt_of_le (remaining_visit ha) hn
        obtain ⟨hall, hclosed⟩ := ih h.visit (Nat.le_of_lt_succ hless)
        refine ⟨fun x hx => hall x ?_, hclosed⟩
        rcases hx with hx | hx
        · exact .inl (List.mem_cons_of_mem _ hx)
        · rcases List.mem_cons.1 hx with rfl | hx
          · exact .inl List.mem_cons_self
          · exact .inr (List.mem_append_right _ hx)

/-- A search from one point, after searches that left nothing to visit. -/
theorem mem_explore_iff (h : Pending edges [] visited) :
    (x ∈ explore edges (edges.length + 1) [a] visited ↔ x ∈ visited ∨ Reaches edges a x) ∧
      Pending edges [] (explore edges (edges.length + 1) [a] visited) := by
  have hpending : Pending edges [a] visited := fun e he hbegin =>
    (h e he hbegin).imp_right fun hend => absurd hend List.not_mem_nil
  have hfuel : remaining edges [a] visited ≤ edges.length + 1 := by
    have hfewer : (edges.filter (·.1 ∉ visited)).length ≤ edges.length := List.length_filter_le _ _
    unfold remaining
    rw [List.length_singleton]
    omega
  obtain ⟨hall, hclosed⟩ := explore_closed hpending hfuel
  refine ⟨⟨fun hx => ?_, ?_⟩, hclosed⟩
  · rcases reaches_of_mem_explore hx with hold | ⟨b, hb, hreach⟩
    · exact .inl hold
    · exact .inr (List.mem_singleton.1 hb ▸ hreach)
  · rintro (hold | hreach)
    · exact hall x (.inl hold)
    · exact hclosed.mem_of_reaches (hall a (.inr List.mem_cons_self)) hreach

/-- **A search visits exactly what is reached from its starting points**, whatever their order and however
often one of them is named. -/
theorem mem_traverse_iff : x ∈ traverse edges starts ↔ ∃ a ∈ starts, Reaches edges a x := by
  have key : ∀ starts visited : List α, Pending edges [] visited →
      (x ∈ starts.foldl (fun visited a => explore edges (edges.length + 1) [a] visited) visited ↔
        x ∈ visited ∨ ∃ a ∈ starts, Reaches edges a x) := by
    intro starts
    induction starts with
    | nil => intro visited _; simp
    | cons a rest ih =>
      intro visited h
      obtain ⟨hone, hclosed⟩ := mem_explore_iff (x := x) (a := a) h
      rw [List.foldl_cons, ih _ hclosed, hone]
      simp [or_assoc]
  have hstart : Pending edges [] ([] : List α) := fun _ _ hbegin => absurd hbegin List.not_mem_nil
  unfold traverse
  rw [key starts [] hstart]
  exact or_iff_right List.not_mem_nil

end Search

end LiveDataflow.Reachability

/-! ## The operator graph -/

namespace LiveDataflow.Dataflow

open Reachability

theorem leadsTo_iff {d : Dataflow} {a b : String} :
    d.leadsTo a b = true ↔ a ∈ d.labels ∧ b ∈ d.labels ∧ Reaches d.topology a b := by
  simp [leadsTo, mem_reachable_iff, and_assoc]

theorem validate_eq_ok_iff {d : Dataflow} :
    d.validate = .ok () ↔
      (∀ s ∈ d.streams.values, s.sinks ≠ []) ∧ ¬ ∃ e ∈ d.topology, Reaches d.topology e.2 e.1 := by
  rw [← hasCycle_iff, validate]
  split
  · next s h =>
    have hs := List.mem_of_find?_eq_some h
    have hd : s.sinks = [] := by simpa [Stream.isDangling] using List.find?_some h
    simp only [reduceCtorEq, false_iff]
    exact fun hall => hall.1 s hs hd
  · next h =>
    have hall : ∀ s ∈ d.streams.values, s.sinks ≠ [] := fun s hs he => by
      simpa [Stream.isDangling, he] using List.find?_eq_none.1 h s hs
    cases hc : hasCycle d.topology
    · simpa [isCyclic, hc] using hall
    · simp [isCyclic, hc]

end LiveDataflow.Dataflow
