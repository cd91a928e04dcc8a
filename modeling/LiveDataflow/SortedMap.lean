import LiveDataflow.KeyOrder

/-!
# Maps listed in key order

A `SortedMap` lists its entries by strictly ascending key.  The order is part of the type, so two
maps with the same look-ups are the same map, and whatever is printed from one of them comes out in
key order without a further sort.

## Results

* `SortedMap.get?_insert`, `SortedMap.get?_erase`, `SortedMap.get?_filter`,
  `SortedMap.get?_mapValues`, `SortedMap.get?_adjust` say what each operation does to a look-up.
* `SortedMap.mem_keys_iff`, `SortedMap.mem_values_iff`: keys and values in terms of look-ups.
-/

set_option autoImplicit false

namespace LiveDataflow

/-- Entries listed by strictly ascending key. -/
structure SortedMap (κ α : Type) [LT κ] where
  entries : List (κ × α)
  ascending : entries.Pairwise fun a b => a.1 < b.1

namespace SortedMap

variable {κ α β : Type}

/-- The value of the first entry with key `k`. -/
def lookup [DecidableEq κ] (k : κ) : List (κ × α) → Option α
  | [] => none
  | (k', v) :: rest => if k' = k then some v else lookup k rest

theorem mem_of_lookup [DecidableEq κ] {k : κ} {v : α} {l : List (κ × α)}
    (h : lookup k l = some v) : (k, v) ∈ l := by
  induction l with
  | nil => simp [lookup] at h
  | cons hd tl ih =>
    obtain ⟨k', v'⟩ := hd
    by_cases hk : k' = k
    · simp [lookup, hk] at h
      simp [hk, h]
    · simp only [lookup, if_neg hk] at h
      exact List.mem_cons_of_mem _ (ih h)

theorem lookup_map [DecidableEq κ] (f : κ → α → β) (k : κ) (l : List (κ × α)) :
    lookup k (l.map fun e => (e.1, f e.1 e.2)) = (lookup k l).map (f k) := by
  induction l with
  | nil => rfl
  | cons hd tl ih =>
    by_cases h : hd.1 = k
    · simp [lookup, h]
    · simp [lookup, h, ih]

variable [LT κ]

@[ext]
theorem ext {m n : SortedMap κ α} (h : m.entries = n.entries) : m = n := by
  cases m; cases n; cases h; rfl

instance [DecidableEq κ] [DecidableEq α] : DecidableEq (SortedMap κ α) := fun m n =>
  if h : m.entries = n.entries then isTrue (ext h) else isFalse fun e => h (e ▸ rfl)

def empty : SortedMap κ α := ⟨[], .nil⟩

instance : EmptyCollection (SortedMap κ α) := ⟨empty⟩

instance : Inhabited (SortedMap κ α) := ⟨empty⟩

def size (m : SortedMap κ α) : Nat := m.entries.length

def keys (m : SortedMap κ α) : List κ := m.entries.map (·.1)

def values (m : SortedMap κ α) : List α := m.entries.map (·.2)

def get? [DecidableEq κ] (m : SortedMap κ α) (k : κ) : Option α := lookup k m.entries

def contains [DecidableEq κ] (m : SortedMap κ α) (k : κ) : Bool := (m.get? k).isSome

/-- Puts an entry at its place, over an entry of the same key. -/
def place [DecidableLT κ] (k : κ) (v : α) : List (κ × α) → List (κ × α)
  | [] => [(k, v)]
  | (k', v') :: rest =>
    if k < k' then (k, v) :: (k', v') :: rest
    else if k' < k then (k', v') :: place k v rest
    else (k, v) :: rest

theorem mem_place [DecidableLT κ] {k : κ} {v : α} {e : κ × α} {l : List (κ × α)} :
    e ∈ place k v l → e = (k, v) ∨ e ∈ l := by
  induction l with
  | nil => simp [place]
  | cons hd tl ih => grind [place]

theorem ascending_place [DecidableLT κ] [KeyOrder κ] (k : κ) (v : α) {l : List (κ × α)}
    (h : l.Pairwise fun a b => a.1 < b.1) :
    (place k v l).Pairwise fun a b => a.1 < b.1 := by
  induction l with
  | nil => simp [place]
  | cons hd tl ih =>
    obtain ⟨k', v'⟩ := hd
    obtain ⟨hhd, htl⟩ := List.pairwise_cons.1 h
    rw [place]
    split
    · next hlt =>
      refine List.pairwise_cons.2 ⟨fun e he => ?_, h⟩
      rcases List.mem_cons.1 he with rfl | he
      · exact hlt
      · exact KeyOrder.trans hlt (hhd e he)
    · next hnlt =>
      split
      · next hgt =>
        refine List.pairwise_cons.2 ⟨fun e he => ?_, ih htl⟩
        rcases mem_place he with rfl | he
        · exact hgt
        · exact hhd e he
      · next hngt =>
        have hkk : k = k' := by
          rcases KeyOrder.connected k k' with hc | hc | hc
          · exact absurd hc hnlt
          · exact hc
          · exact absurd hc hngt
        subst hkk
        exact List.pairwise_cons.2 ⟨hhd, htl⟩

def insert [DecidableLT κ] [KeyOrder κ] (m : SortedMap κ α) (k : κ) (v : α) : SortedMap κ α :=
  ⟨place k v m.entries, ascending_place k v m.ascending⟩

/-- Keeps the entries that pass the test. -/
def filter (m : SortedMap κ α) (p : κ → α → Bool) : SortedMap κ α :=
  ⟨m.entries.filter fun e => p e.1 e.2, m.ascending.filter _⟩

def erase [DecidableEq κ] (m : SortedMap κ α) (k : κ) : SortedMap κ α :=
  m.filter fun k' _ => k' ≠ k

/-- Changes every value and no key. -/
def mapValues (m : SortedMap κ α) (f : κ → α → β) : SortedMap κ β :=
  ⟨m.entries.map fun e => (e.1, f e.1 e.2), List.pairwise_map.2 m.ascending⟩

/-- Changes the value at one key, if it is there. -/
def adjust [DecidableEq κ] (m : SortedMap κ α) (k : κ) (f : α → α) : SortedMap κ α :=
  m.mapValues fun k' v => if k' = k then f v else v

/-- The map of the given entries, a later one over an earlier one of its key. -/
def ofList [DecidableLT κ] [KeyOrder κ] (l : List (κ × α)) : SortedMap κ α :=
  l.foldl (fun m e => m.insert e.1 e.2) empty

/-! ## Look-ups -/

theorem lookup_of_mem [DecidableEq κ] [KeyOrder κ] {k : κ} {v : α} {l : List (κ × α)}
    (hl : l.Pairwise fun a b => a.1 < b.1) (h : (k, v) ∈ l) : lookup k l = some v := by
  induction l with
  | nil => simp at h
  | cons hd tl ih =>
    obtain ⟨k', v'⟩ := hd
    obtain ⟨hhd, htl⟩ := List.pairwise_cons.1 hl
    rcases List.mem_cons.1 h with he | he
    · cases he; simp [lookup]
    · rw [lookup, if_neg (KeyOrder.ne_of_lt (hhd _ he)), ih htl he]

theorem get?_eq_some_iff [DecidableEq κ] [KeyOrder κ] {m : SortedMap κ α} {k : κ} {v : α} :
    m.get? k = some v ↔ (k, v) ∈ m.entries :=
  ⟨mem_of_lookup, lookup_of_mem m.ascending⟩

theorem lookup_place [DecidableEq κ] [DecidableLT κ] [KeyOrder κ] (k k' : κ) (v : α)
    (l : List (κ × α)) :
    lookup k' (place k v l) = if k = k' then some v else lookup k' l := by
  induction l with
  | nil => simp [place, lookup]
  | cons hd tl ih =>
    obtain ⟨j, w⟩ := hd
    rw [place]
    split
    · simp [lookup]
    · next hnlt =>
      split
      · next hgt =>
        have hjk : j ≠ k := KeyOrder.ne_of_lt hgt
        by_cases hj : j = k'
        · have : k ≠ k' := fun e => hjk (hj.trans e.symm)
          simp [lookup, hj, this]
        · simp [lookup, hj, ih]
      · next hngt =>
        have hkj : k = j := by
          rcases KeyOrder.connected k j with hc | hc | hc
          · exact absurd hc hnlt
          · exact hc
          · exact absurd hc hngt
        subst hkj
        by_cases hk : k = k' <;> simp [lookup, hk]

theorem get?_insert [DecidableEq κ] [DecidableLT κ] [KeyOrder κ] (m : SortedMap κ α) (k k' : κ)
    (v : α) : (m.insert k v).get? k' = if k = k' then some v else m.get? k' :=
  lookup_place k k' v m.entries

theorem get?_filter [DecidableEq κ] [KeyOrder κ] (m : SortedMap κ α) (p : κ → α → Bool) (k : κ) :
    (m.filter p).get? k = (m.get? k).filter (p k) := by
  cases h : m.get? k with
  | none =>
    rw [Option.filter_none, Option.eq_none_iff_forall_ne_some]
    intro v hv
    have hm := (get?_eq_some_iff.1 hv : (k, v) ∈ m.entries.filter _)
    rw [get?_eq_some_iff.2 (List.mem_filter.1 hm).1] at h
    exact Option.some_ne_none _ h
  | some v =>
    have hv := get?_eq_some_iff.1 h
    by_cases hp : p k v = true
    · rw [Option.filter_some_pos hp, get?_eq_some_iff]
      exact List.mem_filter.2 ⟨hv, hp⟩
    · rw [Option.filter_some_neg (by simpa using hp), Option.eq_none_iff_forall_ne_some]
      intro w hw
      have hm := List.mem_filter.1 (get?_eq_some_iff.1 hw : (k, w) ∈ m.entries.filter _)
      rw [get?_eq_some_iff.2 hm.1] at h
      cases h
      exact hp hm.2

theorem get?_erase [DecidableEq κ] [KeyOrder κ] (m : SortedMap κ α) (k k' : κ) :
    (m.erase k).get? k' = if k = k' then none else m.get? k' := by
  rw [erase, get?_filter]
  by_cases h : k = k'
  · subst h; cases m.get? k <;> simp
  · cases m.get? k' <;> simp [h, Ne.symm h]

theorem get?_mapValues [DecidableEq κ] (m : SortedMap κ α) (f : κ → α → β) (k : κ) :
    (m.mapValues f).get? k = (m.get? k).map (f k) :=
  lookup_map f k m.entries

theorem get?_adjust [DecidableEq κ] (m : SortedMap κ α) (k k' : κ) (f : α → α) :
    (m.adjust k f).get? k' = if k = k' then (m.get? k').map f else m.get? k' := by
  rw [adjust, get?_mapValues]
  by_cases h : k = k'
  · simp [h]
  · simp [h, Ne.symm h]

/-! ## Keys and values -/

theorem mem_values_iff [DecidableEq κ] [KeyOrder κ] {m : SortedMap κ α} {v : α} :
    v ∈ m.values ↔ ∃ k, m.get? k = some v := by
  unfold values
  rw [List.mem_map]
  constructor
  · rintro ⟨⟨k, w⟩, he, rfl⟩
    exact ⟨k, get?_eq_some_iff.2 he⟩
  · rintro ⟨k, hk⟩
    exact ⟨(k, v), get?_eq_some_iff.1 hk, rfl⟩

/-- The first value that passes a test is the one with the smallest key. -/
theorem least_of_find?_values [DecidableEq κ] [KeyOrder κ] {m : SortedMap κ α} {p : α → Bool} {v : α}
    (h : m.values.find? p = some v) :
    ∃ k, m.get? k = some v ∧ p v = true ∧ ∀ j w, m.get? j = some w → p w = true → ¬ j < k := by
  unfold values at h
  rw [List.find?_map, Option.map_eq_some_iff] at h
  obtain ⟨⟨k, w⟩, hfind, rfl⟩ := h
  obtain ⟨hp, before, after, hentries, hbefore⟩ := List.find?_eq_some_iff_append.1 hfind
  have hmem : (k, w) ∈ m.entries := by rw [hentries]; simp
  refine ⟨k, get?_eq_some_iff.2 hmem, hp, fun j u hj hu hlt => ?_⟩
  have hascending := m.ascending
  have hju := get?_eq_some_iff.1 hj
  rw [hentries] at hascending hju
  have hafter := (List.pairwise_cons.1 (List.pairwise_append.1 hascending).2.1).1
  rcases List.mem_append.1 hju with hb | hb
  · have := hbefore (j, u) hb
    simp [hu] at this
  · rcases List.mem_cons.1 hb with he | hb
    · cases he
      exact KeyOrder.irrefl _ hlt
    · exact KeyOrder.irrefl _ (KeyOrder.trans hlt (hafter (j, u) hb))

theorem mem_keys_iff [DecidableEq κ] [KeyOrder κ] {m : SortedMap κ α} {k : κ} :
    k ∈ m.keys ↔ (m.get? k).isSome = true := by
  unfold keys
  rw [List.mem_map, Option.isSome_iff_exists]
  constructor
  · rintro ⟨⟨j, v⟩, he, rfl⟩
    exact ⟨v, get?_eq_some_iff.2 he⟩
  · rintro ⟨v, hv⟩
    exact ⟨(k, v), get?_eq_some_iff.1 hv, rfl⟩

theorem pairwise_keys (m : SortedMap κ α) : m.keys.Pairwise (· < ·) :=
  List.pairwise_map.2 m.ascending

/-- What keys and values have in common stands at the same places. -/
theorem map_keys_eq_map_values [DecidableEq κ] [KeyOrder κ] {m : SortedMap κ α} {f : κ → β} {g : α → β}
    (h : ∀ k v, m.get? k = some v → f k = g v) : m.keys.map f = m.values.map g := by
  unfold keys values
  rw [List.map_map, List.map_map]
  exact List.map_congr_left fun e he => h e.1 e.2 (get?_eq_some_iff.2 he)

/-- What holds between the values of any two keys holds along the values. -/
theorem pairwise_values [DecidableEq κ] [KeyOrder κ] {m : SortedMap κ α} {r : α → α → Prop}
    (h : ∀ j k v w, m.get? j = some v → m.get? k = some w → j < k → r v w) : m.values.Pairwise r := by
  unfold values
  rw [List.pairwise_map]
  exact m.ascending.imp_of_mem fun ha hb hlt =>
    h _ _ _ _ (get?_eq_some_iff.2 ha) (get?_eq_some_iff.2 hb) hlt

end SortedMap

end LiveDataflow
