import LiveDataflow.KeyOrder

/-!
# Sets listed in order

A `SortedSet` lists its elements in strictly ascending order, so each occurs once, and there is only one
way to list the same elements.

## Results

* `SortedSet.mem_insert`, `SortedSet.mem_erase`, `SortedSet.mem_filter`, `SortedSet.mem_ofList`,
  `SortedSet.mem_union`, `SortedSet.mem_sdiff` say what each operation does to membership.
* `SortedSet.size_erase_le`, `SortedSet.size_ofList_le`: what it does to the number of elements.
-/

set_option autoImplicit false

namespace LiveDataflow

/-- Elements listed in strictly ascending order. -/
structure SortedSet (κ : Type) [LT κ] where
  toList : List κ
  ascending : toList.Pairwise (· < ·)

namespace SortedSet

variable {κ : Type} [LT κ]

@[ext]
theorem ext {s t : SortedSet κ} (h : s.toList = t.toList) : s = t := by
  cases s; cases t; cases h; rfl

instance [DecidableEq κ] : DecidableEq (SortedSet κ) := fun s t =>
  if h : s.toList = t.toList then isTrue (ext h) else isFalse fun e => h (e ▸ rfl)

def empty : SortedSet κ := ⟨[], .nil⟩

instance : EmptyCollection (SortedSet κ) := ⟨empty⟩

instance : Inhabited (SortedSet κ) := ⟨empty⟩

instance : Membership κ (SortedSet κ) := ⟨fun s k => k ∈ s.toList⟩

theorem mem_iff {s : SortedSet κ} {k : κ} : k ∈ s ↔ k ∈ s.toList := Iff.rfl

instance [DecidableEq κ] (k : κ) (s : SortedSet κ) : Decidable (k ∈ s) :=
  inferInstanceAs (Decidable (k ∈ s.toList))

def size (s : SortedSet κ) : Nat := s.toList.length

def isEmpty (s : SortedSet κ) : Bool := s.toList.isEmpty

/-- Puts an element at its place, once. -/
def place [DecidableLT κ] (k : κ) : List κ → List κ
  | [] => [k]
  | k' :: rest =>
    if k < k' then k :: k' :: rest
    else if k' < k then k' :: place k rest
    else k' :: rest

theorem mem_place [DecidableLT κ] [KeyOrder κ] {k j : κ} {l : List κ} :
    j ∈ place k l ↔ j = k ∨ j ∈ l := by
  induction l with
  | nil => simp [place]
  | cons hd tl ih =>
    rw [place]
    split
    · simp
    · next hnlt =>
      split
      · rw [List.mem_cons, ih, List.mem_cons]
        constructor
        · rintro (h | h | h) <;> simp [h]
        · rintro (h | h | h) <;> simp [h]
      · next hngt =>
        have hk : k = hd := by
          rcases KeyOrder.connected k hd with hc | hc | hc
          · exact absurd hc hnlt
          · exact hc
          · exact absurd hc hngt
        subst hk
        simp

theorem ascending_place [DecidableLT κ] [KeyOrder κ] (k : κ) {l : List κ}
    (h : l.Pairwise (· < ·)) : (place k l).Pairwise (· < ·) := by
  induction l with
  | nil => simp [place]
  | cons hd tl ih =>
    obtain ⟨hhd, htl⟩ := List.pairwise_cons.1 h
    rw [place]
    split
    · next hlt =>
      refine List.pairwise_cons.2 ⟨fun e he => ?_, h⟩
      rcases List.mem_cons.1 he with rfl | he
      · exact hlt
      · exact KeyOrder.trans hlt (hhd e he)
    · split
      · next hgt =>
        refine List.pairwise_cons.2 ⟨fun e he => ?_, ih htl⟩
        rcases mem_place.1 he with rfl | he
        · exact hgt
        · exact hhd e he
      · exact h

def insert [DecidableLT κ] [KeyOrder κ] (s : SortedSet κ) (k : κ) : SortedSet κ :=
  ⟨place k s.toList, ascending_place k s.ascending⟩

def filter (s : SortedSet κ) (p : κ → Bool) : SortedSet κ :=
  ⟨s.toList.filter p, s.ascending.filter _⟩

def erase [DecidableEq κ] (s : SortedSet κ) (k : κ) : SortedSet κ := s.filter (· ≠ k)

/-- Adds every element of a list. -/
def insertAll [DecidableLT κ] [KeyOrder κ] (s : SortedSet κ) (l : List κ) : SortedSet κ :=
  l.foldl insert s

def ofList [DecidableLT κ] [KeyOrder κ] (l : List κ) : SortedSet κ := insertAll empty l

instance [DecidableLT κ] [KeyOrder κ] : Union (SortedSet κ) := ⟨fun s t => s.insertAll t.toList⟩

instance [DecidableEq κ] : SDiff (SortedSet κ) := ⟨fun s t => s.filter (· ∉ t)⟩

/-! ## Membership -/

@[simp] theorem not_mem_empty (k : κ) : k ∉ (∅ : SortedSet κ) := List.not_mem_nil

@[simp] theorem mem_insert [DecidableLT κ] [KeyOrder κ] {s : SortedSet κ} {k j : κ} :
    j ∈ s.insert k ↔ j = k ∨ j ∈ s :=
  mem_place

@[simp] theorem mem_filter {s : SortedSet κ} {p : κ → Bool} {k : κ} :
    k ∈ s.filter p ↔ k ∈ s ∧ p k = true :=
  List.mem_filter

@[simp] theorem mem_erase [DecidableEq κ] {s : SortedSet κ} {k j : κ} :
    j ∈ s.erase k ↔ j ∈ s ∧ j ≠ k := by
  simp [erase]

@[simp] theorem mem_insertAll [DecidableLT κ] [KeyOrder κ] {s : SortedSet κ} {l : List κ} {k : κ} :
    k ∈ s.insertAll l ↔ k ∈ s ∨ k ∈ l := by
  induction l generalizing s with
  | nil => simp [insertAll]
  | cons a l ih =>
    have : s.insertAll (a :: l) = (s.insert a).insertAll l := rfl
    rw [this, ih, mem_insert, List.mem_cons]
    constructor
    · rintro ((h | h) | h) <;> simp [h]
    · rintro (h | h | h) <;> simp [h]

@[simp] theorem mem_ofList [DecidableLT κ] [KeyOrder κ] {l : List κ} {k : κ} :
    k ∈ ofList l ↔ k ∈ l := by
  rw [ofList, mem_insertAll]
  exact or_iff_right (not_mem_empty k)

@[simp] theorem mem_union [DecidableLT κ] [KeyOrder κ] {s t : SortedSet κ} {k : κ} :
    k ∈ s ∪ t ↔ k ∈ s ∨ k ∈ t :=
  mem_insertAll

@[simp] theorem mem_sdiff [DecidableEq κ] {s t : SortedSet κ} {k : κ} :
    k ∈ s \ t ↔ k ∈ s ∧ k ∉ t := by
  have : (s \ t) = s.filter (· ∉ t) := rfl
  simp [this]

theorem nodup_toList [KeyOrder κ] (s : SortedSet κ) : s.toList.Nodup :=
  s.ascending.imp KeyOrder.ne_of_lt

/-! ## Sizes -/

theorem size_erase_le [DecidableEq κ] (s : SortedSet κ) (k : κ) : (s.erase k).size ≤ s.size :=
  List.length_filter_le _ _

theorem length_place_le [DecidableLT κ] (k : κ) (l : List κ) : (place k l).length ≤ l.length + 1 := by
  induction l with
  | nil => exact Nat.le_refl _
  | cons hd tl ih =>
    rw [place]
    split
    · exact Nat.le_refl _
    · split
      · exact Nat.succ_le_succ ih
      · exact Nat.le_succ _

theorem size_insertAll_le [DecidableLT κ] [KeyOrder κ] (s : SortedSet κ) (l : List κ) :
    (s.insertAll l).size ≤ s.size + l.length := by
  induction l generalizing s with
  | nil => exact Nat.le_refl _
  | cons k rest ih =>
    have hone : (s.insert k).size ≤ s.size + 1 := length_place_le k s.toList
    have hrest : ((s.insert k).insertAll rest).size ≤ (s.insert k).size + rest.length := ih (s.insert k)
    show ((s.insert k).insertAll rest).size ≤ s.size + (rest.length + 1)
    omega

theorem size_ofList_le [DecidableLT κ] [KeyOrder κ] (l : List κ) : (ofList l).size ≤ l.length := by
  have hall : (ofList l).size ≤ 0 + l.length := size_insertAll_le empty l
  rw [Nat.zero_add] at hall
  exact hall

end SortedSet

end LiveDataflow
