import Mathlib.Data.List.Sort
import LiveDataflow.SortedMap
import LiveDataflow.SortedSet

/-!
# What is listed in order is determined by what it holds

A key order is asymmetric, so a list that ascends in it is determined by its elements.  Two sets with the
same elements are therefore the same set, two maps with the same look-ups the same map, and operations that
change no element and no look-up change nothing.

## Results

* `SortedSet.ext_mem`, `SortedMap.ext_get?`: elements determine the set, look-ups determine the map.
* `SortedSet.toList_ofList`, `SortedSet.ofList_toList`, `SortedMap.ofList_entries`: from a list and back.
* `SortedMap.get?_foldl_insert_of_notMem`, `SortedMap.get?_foldl_insert_of_mem`: look-ups after entering the
  elements of a list one after the other.
-/

set_option autoImplicit false

namespace LiveDataflow

variable {κ α : Type} [LT κ]

instance [KeyOrder κ] : Std.Asymm fun a b : κ => a < b :=
  ⟨fun _ _ hab hba => KeyOrder.irrefl _ (KeyOrder.trans hab hba)⟩

instance [KeyOrder κ] : Std.Asymm fun a b : κ × α => a.1 < b.1 :=
  ⟨fun _ _ hab hba => KeyOrder.irrefl _ (KeyOrder.trans hab hba)⟩

/-! ## Sets -/

namespace SortedSet

variable {s t : SortedSet κ}

theorem isEmpty_iff : s.isEmpty = true ↔ s = ∅ := by
  refine ⟨fun h => SortedSet.ext (List.isEmpty_iff.1 h), ?_⟩
  rintro rfl
  rfl

variable [KeyOrder κ]

/-- Two sets with the same elements are the same set. -/
theorem ext_mem (h : ∀ k, k ∈ s ↔ k ∈ t) : s = t :=
  SortedSet.ext (s.ascending.eq_of_mem_iff t.ascending h)

theorem eq_empty_iff : s = ∅ ↔ ∀ k, k ∉ s := by
  constructor
  · rintro rfl k
    exact not_mem_empty k
  · intro h
    exact ext_mem fun k => iff_of_false (h k) (not_mem_empty k)

theorem erase_eq_self [DecidableEq κ] {k : κ} (h : k ∉ s) : s.erase k = s := by
  apply ext_mem
  intro j
  rw [mem_erase]
  exact and_iff_left_of_imp fun hj e => h (e ▸ hj)

variable [DecidableLT κ]

@[simp] theorem union_empty (s : SortedSet κ) : s ∪ ∅ = s := rfl

@[simp] theorem empty_union (s : SortedSet κ) : ∅ ∪ s = s := ext_mem fun k => by simp

theorem union_eq_left (h : ∀ k ∈ t, k ∈ s) : s ∪ t = s := by
  apply ext_mem
  intro k
  rw [mem_union]
  exact or_iff_left_of_imp (h k)

/-- A list that ascends is the list of its set. -/
theorem toList_ofList {l : List κ} (h : l.Pairwise (· < ·)) : (ofList l).toList = l :=
  (ofList l).ascending.eq_of_mem_iff h fun _ => mem_ofList

@[simp] theorem ofList_toList (s : SortedSet κ) : ofList s.toList = s := ext_mem fun _ => mem_ofList

end SortedSet

/-! ## Maps -/

namespace SortedMap

variable [KeyOrder κ] {m n : SortedMap κ α} {k : κ}

theorem mem_of_mem_foldl_insert [DecidableLT κ] {l : List (κ × α)} {e : κ × α}
    (h : e ∈ (l.foldl (fun m e => m.insert e.1 e.2) m).entries) : e ∈ l ∨ e ∈ m.entries := by
  induction l generalizing m with
  | nil => exact .inr h
  | cons a l ih =>
    rcases ih h with hl | hm
    · exact .inl (List.mem_cons_of_mem _ hl)
    · rcases mem_place hm with rfl | hm
      · exact .inl List.mem_cons_self
      · exact .inr hm

theorem mem_of_mem_ofList [DecidableLT κ] {l : List (κ × α)} {e : κ × α} (h : e ∈ (ofList l).entries) :
    e ∈ l :=
  (mem_of_mem_foldl_insert h).resolve_right List.not_mem_nil

variable [DecidableEq κ]

/-- Two maps with the same look-ups are the same map. -/
theorem ext_get? (h : ∀ k, m.get? k = n.get? k) : m = n := by
  refine SortedMap.ext (m.ascending.eq_of_mem_iff n.ascending fun e => ?_)
  rw [← get?_eq_some_iff, ← get?_eq_some_iff, h]

theorem filter_eq_self {p : κ → α → Bool} (h : ∀ k v, m.get? k = some v → p k v = true) :
    m.filter p = m := by
  apply ext_get?
  intro k
  rw [get?_filter]
  cases hk : m.get? k with
  | none => rfl
  | some v => exact Option.filter_some_pos (h k v hk)

theorem mapValues_eq_self {f : κ → α → α} (h : ∀ k v, m.get? k = some v → f k v = v) :
    m.mapValues f = m := by
  apply ext_get?
  intro k
  rw [get?_mapValues]
  cases hk : m.get? k with
  | none => rfl
  | some v => exact congrArg some (h k v hk)

variable [DecidableLT κ]

theorem erase_insert (v : α) (h : m.get? k = none) : (m.insert k v).erase k = m := by
  apply ext_get?
  intro j
  rw [get?_erase, get?_insert]
  by_cases hj : k = j
  · subst hj; simp [h]
  · simp [hj]

/-! ## Entering the elements of a list -/

section Entering

variable {β : Type} {key : β → κ} {val : β → α} {l : List β} {v : α}

theorem get?_foldl_insert_of_notMem (h : ∀ b ∈ l, key b ≠ k) :
    (l.foldl (fun m b => m.insert (key b) (val b)) m).get? k = m.get? k := by
  induction l generalizing m with
  | nil => rfl
  | cons b rest ih =>
    rw [List.foldl_cons, ih fun c hc => h c (List.mem_cons_of_mem _ hc), get?_insert,
      if_neg (h b List.mem_cons_self)]

/-- Where all elements with a key come with the same value, this is what stands there in the end. -/
theorem get?_foldl_insert_of_mem (hex : ∃ b ∈ l, key b = k) (hval : ∀ b ∈ l, key b = k → val b = v) :
    (l.foldl (fun m b => m.insert (key b) (val b)) m).get? k = some v := by
  induction l generalizing m with
  | nil =>
    obtain ⟨b, hb, _⟩ := hex
    cases hb
  | cons b rest ih =>
    rw [List.foldl_cons]
    by_cases hrest : ∃ c ∈ rest, key c = k
    · exact ih hrest fun c hc => hval c (List.mem_cons_of_mem _ hc)
    · -- no later element has the key, so the first one does and is not overwritten
      have hlater : ∀ c ∈ rest, key c ≠ k := fun c hc hk => hrest ⟨c, hc, hk⟩
      have hkey : key b = k := by
        obtain ⟨c, hc, hk⟩ := hex
        rcases List.mem_cons.1 hc with rfl | hc
        · exact hk
        · exact absurd hk (hlater c hc)
      rw [get?_foldl_insert_of_notMem hlater, get?_insert, if_pos hkey, hval b List.mem_cons_self hkey]

end Entering

@[simp] theorem ofList_entries (m : SortedMap κ α) : ofList m.entries = m := by
  apply ext_get?
  intro k
  unfold ofList
  cases hk : m.get? k with
  | none =>
    refine get?_foldl_insert_of_notMem fun e he heq => ?_
    rw [← heq, get?_eq_some_iff.2 he] at hk
    cases hk
  | some v =>
    refine get?_foldl_insert_of_mem ⟨(k, v), get?_eq_some_iff.1 hk, rfl⟩ fun e he heq => ?_
    rw [← heq, get?_eq_some_iff.2 he] at hk
    exact Option.some.inj hk

end SortedMap

end LiveDataflow
