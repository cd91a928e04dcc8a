import LiveDataflow.Proofs.Writes

/-!
# Writes in any order

Keys that are new to an object come in the order in which they are written.  But for that order, writes along
paths that part can be made in any order: whether one succeeds does not depend on the others, and neighbours
can change places.

## Results

* `Json.Alike`: the same but for the order of keys, at every level.
* `Json.Alike.write`: a write respects this.
* `Json.alike_write_write`: two writes along paths that part come to the same in both orders.
* `Json.clearAll_iff`, `Json.alike_writeAll_perm`: so do any number of them.
-/

set_option autoImplicit false

namespace LiveDataflow.Json

variable {j k l v w : Json} {f g : Fields} {key : String} {p q : List String}
  {ws others : List (List String × Json)}

theorem Fields.isSome_get? : (f.get? key).isSome = true ↔ key ∈ f.keys := by
  induction f with
  | nil => simp [Fields.get?, Fields.keys]
  | cons x rest ih =>
    obtain ⟨a, u⟩ := x
    have hkeys : Fields.keys ((a, u) :: rest) = a :: Fields.keys rest := rfl
    rw [hkeys, List.mem_cons, ← ih]
    by_cases ha : a = key
    · simp [Fields.get?, ha]
    · simp [Fields.get?, ha, Ne.symm ha]

/-! ## The same but for the order of keys -/

/-- The same value but for the order of keys, in an object and in the objects under its keys.  Objects in
arrays are taken as they are. -/
inductive Alike : Json → Json → Prop
  | same (j : Json) : Alike j j
  | object {f g : Fields} : f.keys.Perm g.keys →
      (∀ key v w, f.get? key = some v → g.get? key = some w → Alike v w) → Alike (.object f) (.object g)

namespace Alike

theorem keys (h : Alike j k) : j.fieldsOf.keys.Perm k.fieldsOf.keys := by
  cases h with
  | same => exact .refl _
  | object hkeys _ => exact hkeys

theorem values (h : Alike j k) (hv : j.fieldsOf.get? key = some v) (hw : k.fieldsOf.get? key = some w) :
    Alike v w := by
  cases h with
  | same =>
    rw [hv] at hw
    cases hw
    exact .same v
  | object _ hvalues => exact hvalues key v w hv hw

/-- One has a key if the other does. -/
theorem exists_get? (h : Alike j k) (hv : j.fieldsOf.get? key = some v) :
    ∃ w, k.fieldsOf.get? key = some w := by
  rw [← Option.isSome_iff_exists, Fields.isSome_get?, ← h.keys.mem_iff, ← Fields.isSome_get?, hv]
  rfl

theorem symm (h : Alike j k) : Alike k j := by
  induction h with
  | same j => exact .same j
  | object hkeys _ ih => exact .object hkeys.symm fun key w v hw hv => ih key v w hv hw

theorem trans (h : Alike j k) (h' : Alike k l) : Alike j l := by
  induction h generalizing l with
  | same => exact h'
  | @object f g hkeys hvalues ih =>
    have hobject : ∃ fields, l = .object fields := by
      cases h' <;> exact ⟨_, rfl⟩
    obtain ⟨fields, rfl⟩ := hobject
    refine .object (hkeys.trans h'.keys) fun key v w hv hw => ?_
    obtain ⟨u, hu⟩ := (Alike.object hkeys hvalues).exists_get? hv
    exact ih key v u hv hu (h'.values hu hw)

theorem under (h : Alike j k) (key : String) : Alike (j.under key) (k.under key) := by
  unfold Json.under
  cases hv : j.fieldsOf.get? key with
  | none =>
    cases hw : k.fieldsOf.get? key with
    | none => exact .same _
    | some w =>
      obtain ⟨v, hv'⟩ := h.symm.exists_get? hw
      rw [hv] at hv'
      cases hv'
  | some v =>
    obtain ⟨w, hw⟩ := h.exists_get? hv
    rw [hw]
    exact h.values hv hw

/-- Alike values can be put under a key of alike objects. -/
theorem put (h : Alike (.object f) (.object g)) (hvw : Alike v w) (key : String) :
    Alike (.object (f.put key v)) (.object (g.put key w)) := by
  refine .object ?_ fun a u u' hu hu' => ?_
  · have hkeys : f.keys.Perm g.keys := h.keys
    rw [Fields.keys_put, Fields.keys_put]
    by_cases hkey : key ∈ f.keys
    · rw [if_pos hkey, if_pos (hkeys.mem_iff.1 hkey)]
      exact hkeys
    · rw [if_neg hkey, if_neg (mt hkeys.mem_iff.2 hkey)]
      exact hkeys.append_right _
  · rw [Fields.get?_put] at hu hu'
    by_cases ha : key = a
    · rw [if_pos ha] at hu hu'
      cases hu
      cases hu'
      exact hvw
    · rw [if_neg ha] at hu hu'
      exact h.values hu hu'

theorem fieldsOf (h : Alike j k) : Alike (.object j.fieldsOf) (.object k.fieldsOf) := by
  cases h with
  | same => exact .same _
  | object hkeys hvalues => exact .object hkeys hvalues

/-- **A write respects the order of keys only.** -/
theorem write (h : Alike j k) (p : List String) (v : Json) : Alike (j.write p v) (k.write p v) := by
  induction p generalizing j k with
  | nil => exact .same v
  | cons key p ih => exact h.fieldsOf.put (ih (h.under key)) key

theorem writeAll (h : Alike j k) (ws : List (List String × Json)) : Alike (j.writeAll ws) (k.writeAll ws) := by
  induction ws generalizing j k with
  | nil => exact h
  | cons x rest ih => exact ih (h.write x.1 x.2)

end Alike

/-- Fields with two keys can be put in both orders. -/
theorem alike_put_put {a b : String} (hne : a ≠ b) (f : Fields) (v w : Json) :
    Alike (.object ((f.put a v).put b w)) (.object ((f.put b w).put a v)) := by
  refine .object ?_ fun key u u' hu hu' => ?_
  · rw [Fields.keys_put, Fields.keys_put, Fields.keys_put, Fields.keys_put]
    by_cases ha : a ∈ f.keys <;> by_cases hb : b ∈ f.keys <;> simp [ha, hb, hne, Ne.symm hne]
    exact (List.Perm.swap b a []).append_left f.keys
  · have hget : ((f.put a v).put b w).get? key = ((f.put b w).put a v).get? key := by
      simp only [Fields.get?_put]
      by_cases ha : a = key
      · have hb : b ≠ key := fun hb => hne (ha.trans hb.symm)
        simp [ha, hb]
      · simp [ha]
    rw [hget, hu'] at hu
    cases hu
    exact .same u

/-- **Two writes along paths that part come to the same in both orders.** -/
theorem alike_write_write (h : Apart p q) (j v w : Json) :
    Alike ((j.write p v).write q w) ((j.write q w).write p v) := by
  induction h generalizing j with
  | @here a b p q hne =>
    rw [write_cons (j.write _ v), under_write_cons, if_neg hne, write_cons (j.write _ w), under_write_cons,
      if_neg hne.symm]
    exact alike_put_put hne _ _ _
  | @there p q a _ ih =>
    have hfirst : ((j.write (a :: p) v).write (a :: q) w) =
        .object (j.fieldsOf.put a (((j.under a).write p v).write q w)) := by
      rw [write_cons (j.write _ v), under_write_cons, if_pos rfl]
      exact congrArg object (Fields.put_put ..)
    have hsecond : ((j.write (a :: q) w).write (a :: p) v) =
        .object (j.fieldsOf.put a (((j.under a).write q w).write p v)) := by
      rw [write_cons (j.write _ w), under_write_cons, if_pos rfl]
      exact congrArg object (Fields.put_put ..)
    rw [hfirst, hsecond]
    exact (Alike.same _).put (ih (j.under a)) a

/-! ## Runs of writes -/

/-- **Writes along paths that part succeed together exactly if each of them does by itself.** -/
theorem clearAll_iff (h : ws.Pairwise fun x y => Apart x.1 y.1) :
    j.ClearAll ws ↔ ∀ x ∈ ws, j.Clear x.1 := by
  induction ws generalizing j with
  | nil => simp [ClearAll]
  | cons x rest ih =>
    obtain ⟨hx, hrest⟩ := List.pairwise_cons.1 h
    rw [List.forall_mem_cons, ClearAll, ih hrest]
    exact and_congr_right fun hclear => forall₂_congr fun y hy => clear_write_iff (hx y hy) hclear

/-- **Writes along paths that part come to the same in any order**, but for the order of keys. -/
theorem alike_writeAll_perm (hperm : ws.Perm others) (h : ws.Pairwise fun x y => Apart x.1 y.1) (j : Json) :
    Alike (j.writeAll ws) (j.writeAll others) := by
  induction hperm generalizing j with
  | nil => exact .same j
  | cons x _ ih => exact ih (List.pairwise_cons.1 h).2 (j.write x.1 x.2)
  | swap x y rest =>
    obtain ⟨hy, _⟩ := List.pairwise_cons.1 h
    exact (alike_write_write (hy x List.mem_cons_self) j y.2 x.2).writeAll rest
  | trans hfirst _ ih ih' =>
    exact (ih h j).trans (ih' (hfirst.pairwise h fun hxy => hxy.symm) j)

end LiveDataflow.Json
