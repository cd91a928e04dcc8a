import Mathlib.Data.List.Induction
import LiveDataflow.Proofs.Paths

/-!
# Writes one after the other

Writes are made in an order in which none clears away what one before it has made: a path may go on where one
before it ends, and not the other way round.  So what was written last is there at the end, and what the
writes name is there with all that leads to it.  Made again, each write finds its path as it left it, unless
one before it has cleared it away; then it makes again what it made the first time.

## Results

* `Json.writeAll`, `Json.ClearAll`: what a run of writes comes to, and when it succeeds.
* `Json.Ordered.exists_write`: each write of an ordered run is made and not cleared away.
* `Json.at?_writeAll_of_apart`, `Json.at?_writeAll_of_mem`, `Json.exists_at?_writeAll`: look-ups after them.
* `Json.writeAll_write`: a write before a run is lost in it, or can be made after it.
* `Json.ClearAll.again`: the same writes succeed once more and change nothing.
-/

set_option autoImplicit false

namespace LiveDataflow.Json

variable {j v : Json} {p q : List String} {x : List String × Json} {ws more : List (List String × Json)}

/-- Writes values along their paths, one after the other. -/
def writeAll (j : Json) (ws : List (List String × Json)) : Json := ws.foldl (fun j x => j.write x.1 x.2) j

/-- Each path can be followed when its turn comes. -/
def ClearAll (j : Json) : List (List String × Json) → Prop
  | [] => True
  | x :: rest => j.Clear x.1 ∧ (j.write x.1 x.2).ClearAll rest

/-- No path is one that a path before it goes through or ends with. -/
def Ordered (ws : List (List String × Json)) : Prop := ws.Pairwise fun x y => ¬ y.1 <+: x.1

theorem writeAll_cons (j : Json) (x : List String × Json) (ws : List (List String × Json)) :
    j.writeAll (x :: ws) = (j.write x.1 x.2).writeAll ws := rfl

theorem writeAll_append (j : Json) (ws more : List (List String × Json)) :
    j.writeAll (ws ++ more) = (j.writeAll ws).writeAll more :=
  List.foldl_append

theorem clearAll_append : j.ClearAll (ws ++ more) ↔ j.ClearAll ws ∧ (j.writeAll ws).ClearAll more := by
  induction ws generalizing j with
  | nil => simp [ClearAll, writeAll]
  | cons x rest ih => simp [ClearAll, writeAll_cons, ih, and_assoc]

theorem exists_writeAll_eq (fields : Fields) (h : ∀ x ∈ ws, x.1 ≠ []) :
    ∃ written, (object fields).writeAll ws = object written := by
  induction ws generalizing fields with
  | nil => exact ⟨fields, rfl⟩
  | cons x rest ih =>
    obtain ⟨hx, hrest⟩ := List.forall_mem_cons.1 h
    rw [writeAll_cons, ← object_fieldsOf_write _ x.2 hx]
    exact ih _ hrest

/-! ## Look-ups -/

/-- **What is elsewhere stays.** -/
theorem at?_writeAll_of_apart (h : ∀ x ∈ ws, Apart x.1 q) : (j.writeAll ws).at? q = j.at? q := by
  induction ws generalizing j with
  | nil => rfl
  | cons x rest ih =>
    obtain ⟨hx, hrest⟩ := List.forall_mem_cons.1 h
    rw [writeAll_cons, ih hrest, at?_write_of_apart hx]

/-- Each write of an ordered run is made, and nothing that comes after it clears it away. -/
theorem Ordered.exists_write (h : Ordered ws) (hx : x ∈ ws) (j : Json) :
    ∃ (j' : Json) (later : List (List String × Json)),
      j.writeAll ws = (j'.write x.1 x.2).writeAll later ∧ later ⊆ ws ∧ ∀ y ∈ later, ¬ y.1 <+: x.1 := by
  obtain ⟨before, later, rfl⟩ := List.append_of_mem hx
  refine ⟨j.writeAll before, later, writeAll_append j before (x :: later), ?_, ?_⟩
  · exact fun y hy => List.mem_append_right _ (List.mem_cons_of_mem _ hy)
  · exact (List.pairwise_cons.1 (List.pairwise_append.1 h).2.1).1

/-- **What was written is there**, unless a path goes on from it. -/
theorem at?_writeAll_of_mem (h : Ordered ws) (hx : x ∈ ws) (hlast : ∀ y ∈ ws, x.1 <+: y.1 → y.1 = x.1) :
    (j.writeAll ws).at? x.1 = some x.2 := by
  obtain ⟨j', later, heq, hsub, hlater⟩ := h.exists_write hx j
  have hapart : ∀ y ∈ later, Apart y.1 x.1 := fun y hy => apart_iff.2 ⟨hlater y hy, fun hpre =>
    hlater y hy (hlast y (hsub hy) hpre ▸ List.prefix_refl _)⟩
  rw [heq, at?_writeAll_of_apart hapart, at?_write_self]

/-- What is there stays, or is an object instead, if the writes put nothing in its place or above it. -/
theorem at?_writeAll_keeps {P : Json → Prop} (hobject : ∀ fields, P (.object fields))
    (h : ∃ u, j.at? q = some u ∧ P u) (hfar : ∀ x ∈ ws, ¬ x.1 <+: q) :
    ∃ u, (j.writeAll ws).at? q = some u ∧ P u := by
  induction ws generalizing j with
  | nil => exact h
  | cons x rest ih =>
    obtain ⟨hx, hrest⟩ := List.forall_mem_cons.1 hfar
    exact ih (at?_write_keeps hobject h hx) hrest

/-- **What is on the way is an object.** -/
theorem exists_at?_writeAll (h : Ordered ws) (hx : x ∈ ws) (hq : q <+: x.1) (hne : q ≠ x.1) :
    ∃ fields, (j.writeAll ws).at? q = some (.object fields) := by
  obtain ⟨j', later, heq, _, hlater⟩ := h.exists_write hx j
  obtain ⟨fields, hfields⟩ := exists_at?_write_of_prefix (j := j') (v := x.2) hq hne
  obtain ⟨_, hu, fields, rfl⟩ := at?_writeAll_keeps (P := fun u => ∃ fields, u = .object fields)
    (fun fields => ⟨fields, rfl⟩) ⟨_, hfields, fields, rfl⟩ fun y hy hpre => hlater y hy (hpre.trans hq)
  exact ⟨fields, heq ▸ hu⟩

/-- What the writes name is there. -/
theorem isSome_at?_writeAll (h : Ordered ws) (hx : x ∈ ws) : ((j.writeAll ws).at? x.1).isSome = true := by
  obtain ⟨j', later, heq, _, hlater⟩ := h.exists_write hx j
  obtain ⟨u, hu, _⟩ := at?_writeAll_keeps (P := fun _ => True) (fun _ => trivial)
    ⟨x.2, at?_write_self j' x.2 x.1, trivial⟩ hlater
  rw [heq, hu]
  rfl

theorem keys_prefix_writeAll (h : ∀ x ∈ ws, x.1 ≠ []) :
    j.fieldsOf.keys <+: (j.writeAll ws).fieldsOf.keys := by
  induction ws generalizing j with
  | nil => exact List.prefix_refl _
  | cons x rest ih =>
    obtain ⟨hx, hrest⟩ := List.forall_mem_cons.1 h
    exact (keys_prefix_write j x.2 hx).trans (ih hrest)

/-! ## The same writes again -/

/-- **A write before a run of writes is lost in it, or can be made after it.**  It is lost as soon as
something is written at its path or above it; until then it changes places with one write after the other. -/
theorem writeAll_write (hclear : j.ClearAll ws) (hp : j.Clear p) (hnot : ∀ x ∈ ws, ¬ p <+: x.1)
    (hforked : ∀ x ∈ ws, Apart p x.1 → Forked j p x.1) :
    (j.write p v).ClearAll ws ∧
      ((j.write p v).writeAll ws = j.writeAll ws ∨ (j.write p v).writeAll ws = (j.writeAll ws).write p v) := by
  induction ws generalizing j with
  | nil => exact ⟨trivial, .inr rfl⟩
  | cons x rest ih =>
    obtain ⟨hx, hrest⟩ := hclear
    obtain ⟨hnotx, hnot⟩ := List.forall_mem_cons.1 hnot
    obtain ⟨hforkedx, hforked⟩ := List.forall_mem_cons.1 hforked
    by_cases hpre : x.1 <+: p
    · obtain ⟨r, rfl⟩ := hpre
      have hlost : (j.write (x.1 ++ r) v).write x.1 x.2 = j.write x.1 x.2 := write_write_append ..
      refine ⟨⟨hp.write_append, ?_⟩, .inl ?_⟩
      · rw [hlost]
        exact hrest
      · rw [writeAll_cons, writeAll_cons, hlost]
    · have hapart : Apart p x.1 := apart_iff.2 ⟨hnotx, hpre⟩
      have hswap : (j.write p v).write x.1 x.2 = (j.write x.1 x.2).write p v := write_comm (hforkedx hapart)
      obtain ⟨hclear, hall⟩ := ih hrest ((clear_write_iff hapart.symm hx).2 hp) hnot
        fun y hy hpart => (hforked y hy hpart).write hapart.symm
      rw [writeAll_cons, writeAll_cons, hswap]
      refine ⟨⟨(clear_write_iff hapart hp).2 hx, ?_⟩, hall⟩
      rw [hswap]
      exact hclear

/-- **The same writes succeed once more and change nothing.** -/
theorem ClearAll.again (h : j.ClearAll ws) (hord : Ordered ws) :
    (j.writeAll ws).ClearAll ws ∧ (j.writeAll ws).writeAll ws = j.writeAll ws := by
  -- From the end: the writes before the last one are made again over it, and they lose it or leave it last.
  induction ws using List.reverseRecOn with
  | nil => exact ⟨trivial, rfl⟩
  | append_singleton ws x ih =>
    obtain ⟨hws, hx, _⟩ := clearAll_append.1 h
    obtain ⟨hordws, _, hlast⟩ := List.pairwise_append.1 hord
    have hnot : ∀ y ∈ ws, ¬ x.1 <+: y.1 := fun y hy => hlast y hy x (List.mem_singleton_self x)
    obtain ⟨hagain, hsame⟩ := ih hws hordws
    have hforked : ∀ y ∈ ws, Apart x.1 y.1 → Forked (j.writeAll ws) x.1 y.1 := fun y hy hapart =>
      hapart.forked (isSome_at?_writeAll hordws hy)
    obtain ⟨hclear, hall⟩ := writeAll_write hagain hx hnot hforked
    rw [hsame] at hall
    have hone : j.writeAll (ws ++ [x]) = (j.writeAll ws).write x.1 x.2 := writeAll_append ..
    have htwice : ((j.writeAll ws).write x.1 x.2).write x.1 x.2 = (j.writeAll ws).write x.1 x.2 :=
      write_write ..
    rw [hone, clearAll_append, writeAll_append]
    rcases hall with hall | hall <;> rw [hall]
    · exact ⟨⟨hclear, hx, trivial⟩, rfl⟩
    · exact ⟨⟨hclear, hx.write, trivial⟩, htwice⟩

end LiveDataflow.Json
