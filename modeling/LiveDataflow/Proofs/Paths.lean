import LiveDataflow.Property

/-!
# Writing along a path

A property is set in two parts: its path is followed as far as it is there, and what is not there is made.
Here the two are taken apart.  Whether a path can be followed is a condition, and what is there in the end is
a total function of the path, which makes way where something stands in it.  Two paths may be the same, one
may go on where the other ends, or they part; what a write does to a look-up and to another write depends on
nothing else.

## Results

* `Json.write`, `Json.Clear`: what a write comes to, and when it succeeds.
* `Property.setAt_eq_ok_iff`: these describe what the code does.
* `Json.at?_write_append`, `Json.at?_write_of_apart`, `Json.exists_at?_write`: look-ups after a write.
* `Json.write_write_append`: a write undoes what was written there and further on.
* `Json.write_comm`: writes along paths that part can change places if nothing new is made where they part.
-/

set_option autoImplicit false

namespace LiveDataflow

namespace Json

variable {fields : Fields} {j v w : Json} {a b key : String} {p q r : List String}

/-! ## Fields -/

theorem Fields.put_put (key : String) (v w : Json) (fields : Fields) :
    (fields.put key v).put key w = fields.put key w := by
  induction fields with
  | nil => simp [Fields.put]
  | cons f rest ih =>
    obtain ⟨k, u⟩ := f
    by_cases hk : k = key <;> simp [Fields.put, hk, ih]

/-- Fields can be put in any order if one of them has its place already. -/
theorem Fields.put_comm (hne : a ≠ b) (hb : (fields.get? b).isSome = true) :
    (fields.put a v).put b w = (fields.put b w).put a v := by
  induction fields with
  | nil => cases hb
  | cons f rest ih =>
    obtain ⟨k, u⟩ := f
    by_cases hka : k = a
    · have hkb : k ≠ b := fun hkb => hne (hka.symm.trans hkb)
      simp [Fields.put, hka, hne]
    · by_cases hkb : k = b
      · simp [Fields.put, hkb, Ne.symm hne]
      · have hrest : (Fields.get? b rest).isSome = true := by simpa [Fields.get?, hkb] using hb
        simp [Fields.put, hka, hkb, ih hrest]

/-! ## Writing -/

/-- The fields of an object; any other value has none. -/
def fieldsOf : Json → Fields
  | .object fields => fields
  | _ => []

/-- What is under a key, an object without fields if there is nothing. -/
def under (j : Json) (key : String) : Json := (j.fieldsOf.get? key).getD (.object [])

/-- The value with another one at the end of a path.  What is on the way is an object then. -/
def write (j : Json) : List String → Json → Json
  | [], v => v
  | key :: path, v => .object (j.fieldsOf.put key ((j.under key).write path v))

/-- The path can be followed: its keys are not empty, and what is on the way is an object or not there. -/
def Clear (j : Json) : List String → Prop
  | [] => True
  | key :: path => (∃ fields, j = .object fields) ∧ key ≠ "" ∧ (j.under key).Clear path

theorem write_cons (j v : Json) (key : String) (p : List String) :
    j.write (key :: p) v = .object (j.fieldsOf.put key ((j.under key).write p v)) := rfl

/-- A value that is written further down is in an object. -/
theorem object_fieldsOf_write (j v : Json) (hp : p ≠ []) : .object (j.write p v).fieldsOf = j.write p v := by
  obtain ⟨key, p, rfl⟩ := List.exists_cons_of_ne_nil hp
  rfl

theorem get?_write_cons (j v : Json) (a b : String) (p : List String) :
    (j.write (a :: p) v).fieldsOf.get? b =
      if a = b then some ((j.under a).write p v) else j.fieldsOf.get? b :=
  Fields.get?_put ..

theorem under_write_cons (j v : Json) (a b : String) (p : List String) :
    (j.write (a :: p) v).under b = if a = b then (j.under a).write p v else j.under b := by
  unfold under
  rw [get?_write_cons]
  split <;> rfl

theorem at?_cons (key : String) (p : List String) :
    j.at? (key :: p) = (j.fieldsOf.get? key).bind (·.at? p) := by
  cases j <;> rfl

/-- A path that is not empty leads from a value as it does from what is under its first key. -/
theorem at?_under (hp : p ≠ []) : (j.under key).at? p = j.at? (key :: p) := by
  obtain ⟨a, p, rfl⟩ := List.exists_cons_of_ne_nil hp
  rw [at?_cons (j := j)]
  unfold under
  cases j.fieldsOf.get? key <;> rfl

/-! ## Paths that part -/

/-- Two paths that have different keys at some place, and the same keys before it. -/
inductive Apart : List String → List String → Prop
  | here {a b : String} (p q : List String) : a ≠ b → Apart (a :: p) (b :: q)
  | there {p q : List String} (a : String) : Apart p q → Apart (a :: p) (a :: q)

theorem Apart.symm (h : Apart p q) : Apart q p := by
  induction h with
  | here p q hne => exact .here q p hne.symm
  | there a _ ih => exact .there a ih

theorem Apart.ne_nil (h : Apart p q) : q ≠ [] := by
  cases h <;> exact List.cons_ne_nil _ _

/-- Two paths part unless one goes on where the other ends. -/
theorem apart_iff : Apart p q ↔ ¬ p <+: q ∧ ¬ q <+: p := by
  constructor
  · intro h
    induction h with
    | here p q hne =>
      exact ⟨fun hpre => hne (List.cons_prefix_cons.1 hpre).1,
        fun hpre => hne (List.cons_prefix_cons.1 hpre).1.symm⟩
    | there a _ ih =>
      exact ⟨fun hpre => ih.1 (List.cons_prefix_cons.1 hpre).2,
        fun hpre => ih.2 (List.cons_prefix_cons.1 hpre).2⟩
  · rintro ⟨hpq, hqp⟩
    induction p generalizing q with
    | nil => exact absurd (List.nil_prefix) hpq
    | cons a p ih =>
      cases q with
      | nil => exact absurd (List.nil_prefix) hqp
      | cons b q =>
        by_cases hab : a = b
        · subst hab
          exact .there a (ih (fun h => hpq (List.cons_prefix_cons.2 ⟨rfl, h⟩))
            fun h => hqp (List.cons_prefix_cons.2 ⟨rfl, h⟩))
        · exact .here p q hab

/-! ## Look-ups after a write -/

/-- **What was written is there.** -/
theorem at?_write_append (j v : Json) (p r : List String) : (j.write p v).at? (p ++ r) = v.at? r := by
  induction p generalizing j with
  | nil => rfl
  | cons key p ih =>
    rw [List.cons_append, at?_cons, get?_write_cons, if_pos rfl]
    exact ih _

theorem at?_write_self (j v : Json) (p : List String) : (j.write p v).at? p = some v := by
  have h := at?_write_append j v p []
  rw [List.append_nil] at h
  exact h

/-- **What is elsewhere stays.** -/
theorem at?_write_of_apart (h : Apart p q) : (j.write p v).at? q = j.at? q := by
  induction h generalizing j with
  | here p q hne =>
    rw [at?_cons, get?_write_cons, if_neg hne, ← at?_cons]
  | there a h ih =>
    rw [← at?_under h.ne_nil, ← at?_under h.ne_nil, under_write_cons, if_pos rfl, ih]

/-- **What is on the way is an object.** -/
theorem exists_at?_write (j v : Json) (q : List String) (key : String) (r : List String) :
    ∃ fields, (j.write (q ++ key :: r) v).at? q = some (.object fields) := by
  induction q generalizing j with
  | nil => exact ⟨_, rfl⟩
  | cons a q ih =>
    obtain ⟨fields, hfields⟩ := ih (j.under a)
    refine ⟨fields, ?_⟩
    rw [List.cons_append, at?_cons, get?_write_cons, if_pos rfl]
    exact hfields

theorem exists_at?_write_of_prefix (hq : q <+: p) (hne : q ≠ p) :
    ∃ fields, (j.write p v).at? q = some (.object fields) := by
  obtain ⟨r, rfl⟩ := hq
  cases r with
  | nil => exact absurd (List.append_nil q).symm hne
  | cons key r => exact exists_at?_write j v q key r

/-- What is there stays, or is an object instead, unless something is put in its place or above it. -/
theorem at?_write_keeps {P : Json → Prop} (hobject : ∀ fields, P (.object fields))
    (h : ∃ u, j.at? q = some u ∧ P u) (hfar : ¬ p <+: q) : ∃ u, (j.write p v).at? q = some u ∧ P u := by
  by_cases hqp : q <+: p
  · have hne : q ≠ p := fun heq => hfar (heq ▸ List.prefix_refl _)
    obtain ⟨fields, hfields⟩ := exists_at?_write_of_prefix (j := j) (v := v) hqp hne
    exact ⟨_, hfields, hobject fields⟩
  · rw [at?_write_of_apart (apart_iff.2 ⟨hfar, hqp⟩)]
    exact h

/-! ## Writes that meet -/

/-- **A write undoes what was written there and further on.** -/
theorem write_write_append (j v w : Json) (p r : List String) :
    (j.write (p ++ r) w).write p v = j.write p v := by
  induction p generalizing j with
  | nil => rfl
  | cons key p ih =>
    rw [List.cons_append, write_cons, under_write_cons, if_pos rfl, ih]
    exact congrArg object (Fields.put_put ..)

theorem write_write (j v w : Json) (p : List String) : (j.write p w).write p v = j.write p v := by
  have h := write_write_append j v w p []
  rw [List.append_nil] at h
  exact h

/-- The second path parts from the first one at a key that is there. -/
inductive Forked : Json → List String → List String → Prop
  | here {j : Json} {a b : String} (p q : List String) : a ≠ b → (j.fieldsOf.get? b).isSome = true →
      Forked j (a :: p) (b :: q)
  | there {j : Json} {p q : List String} (a : String) : Forked (j.under a) p q → Forked j (a :: p) (a :: q)

/-- **Writes along paths that part can change places** if the second makes nothing new where they part. -/
theorem write_comm (h : Forked j p q) : (j.write p v).write q w = (j.write q w).write p v := by
  induction h with
  | @here j a b p q hne hb =>
    rw [write_cons (j.write _ v), under_write_cons, if_neg hne, write_cons (j.write _ w), under_write_cons,
      if_neg hne.symm]
    exact congrArg object (Fields.put_comm hne hb)
  | @there j p q a _ ih =>
    rw [write_cons (j.write _ v), under_write_cons, if_pos rfl, write_cons (j.write _ w), under_write_cons,
      if_pos rfl, ih]
    exact congrArg object ((Fields.put_put ..).trans (Fields.put_put ..).symm)

/-- A path that is there parts from others at a key that is there. -/
theorem Apart.forked (h : Apart p q) (hq : (j.at? q).isSome = true) : Forked j p q := by
  induction h generalizing j with
  | here p q hne =>
    rw [at?_cons] at hq
    exact .here p q hne (Option.isSome_of_isSome_bind hq)
  | there a h ih =>
    rw [← at?_under h.ne_nil] at hq
    exact .there a (ih hq)

/-- A write elsewhere takes nothing from where they part. -/
theorem Forked.write (h : Forked j p q) (hr : Apart r p) : Forked (j.write r v) p q := by
  induction h generalizing r with
  | @here j a b p q hne hb =>
    obtain ⟨c, r, rfl⟩ := List.exists_cons_of_ne_nil hr.symm.ne_nil
    refine .here p q hne ?_
    rw [get?_write_cons]
    split
    · rfl
    · exact hb
  | @there j p q a h ih =>
    refine .there a ?_
    cases hr with
    | here r p hne =>
      rw [under_write_cons, if_neg hne]
      exact h
    | there a hr =>
      rw [under_write_cons, if_pos rfl]
      exact ih hr

/-! ## Paths that can be followed -/

/-- A path that was written along can be followed. -/
theorem Clear.write_append (h : j.Clear (p ++ r)) : (j.write (p ++ r) v).Clear p := by
  induction p generalizing j with
  | nil => exact trivial
  | cons key p ih =>
    refine ⟨⟨_, rfl⟩, h.2.1, ?_⟩
    rw [List.cons_append, under_write_cons, if_pos rfl]
    exact ih h.2.2

theorem Clear.write (h : j.Clear p) : (j.write p v).Clear p := by
  have h' : j.Clear (p ++ []) := by rw [List.append_nil]; exact h
  have hwritten := h'.write_append (v := v)
  rw [List.append_nil] at hwritten
  exact hwritten

/-- **Whether a path can be followed does not depend on what was written elsewhere.** -/
theorem clear_write_iff (h : Apart p q) (hp : j.Clear p) : (j.write p v).Clear q ↔ j.Clear q := by
  induction h generalizing j with
  | @here a b p q hne =>
    have hunder : (j.write (a :: p) v).under b = j.under b := by rw [under_write_cons, if_neg hne]
    refine and_congr (iff_of_true ⟨_, rfl⟩ hp.1) (and_congr_right fun _ => ?_)
    rw [hunder]
  | @there p q a h ih =>
    have hunder : (j.write (a :: p) v).under a = (j.under a).write p v := by
      rw [under_write_cons, if_pos rfl]
    refine and_congr (iff_of_true ⟨_, rfl⟩ hp.1) (and_congr_right fun _ => ?_)
    rw [hunder]
    exact ih hp.2.2

/-- An object keeps its keys in their order, and new ones come last. -/
theorem keys_prefix_write (j v : Json) (hp : p ≠ []) : j.fieldsOf.keys <+: (j.write p v).fieldsOf.keys := by
  obtain ⟨key, p, rfl⟩ := List.exists_cons_of_ne_nil hp
  show j.fieldsOf.keys <+: (j.fieldsOf.put key _).keys
  rw [Fields.keys_put]
  split
  · exact List.prefix_refl _
  · exact List.prefix_append _ _

end Json

/-! ## What the code does -/

namespace Property

variable {fields written : Json.Fields} {p : List String} {value : Json}

/-- A value is set under a key as it is in the object there. -/
theorem setAt_under {inner : Json.Fields} {key : String} (hunder : (Json.object fields).under key = .object inner)
    (hkey : key ≠ "") (hp : p ≠ [])
    (h : ∀ {written}, setAt inner p value = .ok written ↔
      (Json.object inner).Clear p ∧ Json.object written = (Json.object inner).write p value) :
    (setAt inner p value).map (fun deeper => fields.put key (.object deeper)) = .ok written ↔
      (Json.object fields).Clear (key :: p) ∧ Json.object written = (Json.object fields).write (key :: p) value := by
  have hclear : (Json.object fields).Clear (key :: p) ↔ (Json.object inner).Clear p := by
    rw [← hunder]
    exact ⟨fun hc => hc.2.2, fun hc => ⟨⟨fields, rfl⟩, hkey, hc⟩⟩
  obtain ⟨next, rest, rfl⟩ := List.exists_cons_of_ne_nil hp
  rw [hclear, Json.write_cons (.object fields), hunder]
  constructor
  · intro hok
    cases hset : setAt inner (next :: rest) value with
    | error c =>
      rw [hset] at hok
      cases hok
    | ok deeper =>
      rw [hset] at hok
      cases hok
      obtain ⟨hc, hwritten⟩ := h.1 hset
      exact ⟨hc, by rw [← hwritten]; rfl⟩
  · rintro ⟨hc, hwritten⟩
    have hset : setAt inner (next :: rest) value =
        .ok ((Json.object inner).write (next :: rest) value).fieldsOf := h.2 ⟨hc, rfl⟩
    rw [hset]
    exact congrArg Except.ok (Json.object.inj hwritten).symm

/-- **A value is set exactly if its path can be followed**, and then it is written. -/
theorem setAt_eq_ok_iff (hp : p ≠ []) : setAt fields p value = .ok written ↔
    (Json.object fields).Clear p ∧ Json.object written = (Json.object fields).write p value := by
  induction p generalizing fields written with
  | nil => exact absurd rfl hp
  | cons key rest ih =>
    cases rest with
    | nil =>
      unfold setAt
      by_cases hkey : key = ""
      · simp [hkey, Json.Clear]
      · simp [hkey, Json.Clear, Json.write, Json.fieldsOf, eq_comm]
    | cons next rest =>
      have hrest : next :: rest ≠ [] := List.cons_ne_nil _ _
      unfold setAt
      by_cases hkey : key = ""
      · simp [hkey, Json.Clear]
      rw [if_neg hkey]
      have hunder : (Json.object fields).under key = (fields.get? key).getD (.object []) := rfl
      cases hget : fields.get? key with
      | none =>
        rw [hget] at hunder
        exact setAt_under hunder hkey hrest (ih hrest)
      | some v =>
        rw [hget] at hunder
        cases v with
        | object inner => exact setAt_under hunder hkey hrest (ih hrest)
        | _ =>
          refine iff_of_false nofun ?_
          rintro ⟨⟨_, _, hc⟩, _⟩
          rw [hunder] at hc
          exact nomatch hc.1

end Property

end LiveDataflow
