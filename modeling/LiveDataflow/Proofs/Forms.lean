import LiveDataflow.JsonForm
import LiveDataflow.Proofs.Sorted
import LiveDataflow.Proofs.Spelled

/-!
# What is written is read back, form by form

A form is sound for the values that fit it if those are written with numbers that can be read, are read from
every spelling of what is written, and are the only values read at all.  Texts, truth values and numbers are
sound by themselves; lists, sets and maps are if their elements are.

## Results

* `JsonForm.Sound.string`, `JsonForm.Sound.bool`, `JsonForm.Sound.below`, `JsonForm.Sound.signed`: what stands
  by itself.
* `JsonForm.Sound.option`, `JsonForm.Sound.list`, `JsonForm.Sound.set`, `JsonForm.Sound.map`: what holds others.
* `JsonForm.Sound.lossless`: a sound form is lossless on texts.
-/

set_option autoImplicit false

namespace LiveDataflow

namespace JsonForm

open Json (Spelling Piece)
open Json.Spelling (Spells)

variable {α : Type} [JsonForm α] {Fits : α → Prop}

/-- A value is read from a spelling. -/
def Reads (a : α) (s : Spelling) : Prop := ofSpelling? s = some a

/-- A form is sound for the values that fit. -/
structure Sound (α : Type) [JsonForm α] (Fits : α → Prop) : Prop where
  exact {a : α} : Fits a → (toJson a).Exact
  reads {a : α} {s : Spelling} : Fits a → s.Spells (toJson a) → Reads a s
  fits {a : α} {s : Spelling} : Reads a s → Fits a

/-- A form loses nothing: what fits is read from its text, and what is read from any text is read from its own. -/
structure Lossless (α : Type) [JsonForm α] (Fits : α → Prop) : Prop where
  back {a : α} : Fits a → read? α (toJson a).text = some a
  settled {a : α} {text : String} : read? α text = some a → read? α (toJson a).text = some a

theorem read?_of_reads {a : α} {text : String} {s : Spelling} (hread : Spelling.read? text = some s)
    (h : Reads a s) : read? α text = some a := by
  rw [read?, hread]
  exact h

theorem Sound.lossless (h : Sound α Fits) : Lossless α Fits := by
  have hback {a : α} (ha : Fits a) : read? α (toJson a).text = some a := by
    obtain ⟨s, hread, hspells⟩ := (h.exact ha).read?_text
    exact read?_of_reads hread (h.reads ha hspells)
  refine ⟨hback, fun {a text} hread => ?_⟩
  obtain ⟨s, -, hs⟩ := Option.bind_eq_some_iff.1 hread
  exact hback (h.fits hs)

/-- What follows for a member from its partner holds of all members. -/
theorem forall_mem_of_forall₂ {β γ : Type} {r : β → γ → Prop} {p : β → Prop} {l : List β} {partners : List γ}
    (h : List.Forall₂ r l partners) (hp : ∀ b c, r b c → p b) : ∀ b ∈ l, p b :=
  ((List.forall₂_and_left l partners).1 (h.imp fun b c hr => ⟨hp b c hr, hr⟩)).1

/-! ## Texts, truth values and numbers -/

theorem Sound.string : Sound String fun _ => True where
  exact _ := .string _
  reads _ hs := by
    cases hs with
    | string h => exact h
  fits _ := trivial

theorem Sound.bool : Sound Bool fun _ => True where
  exact _ := .bool _
  reads _ hs := by
    cases hs with
    | bool b => rfl
  fits _ := trivial

theorem integer?_of_spells {i : Int} {s : Spelling} (h : s.Spells (.number (.integer i))) : integer? s = some i := by
  cases h with
  | number h => simp [integer?, h]

theorem natBelow?_eq_some_iff {bound n : Nat} {s : Spelling} :
    natBelow? bound s = some n ↔ integer? s = some (n : Int) ∧ n < bound := by
  cases h : integer? s with
  | none => simp [natBelow?, h]
  | some i =>
    simp only [natBelow?, h, Option.bind_eq_bind, Option.bind_some, Option.some.injEq]
    split
    · simp only [Option.some.injEq]
      omega
    · simp only [reduceCtorEq, false_iff]
      omega

theorem exact_natural {n : Nat} (h : n < UInt64.size) : Json.Exact (.number (.integer n)) := by
  refine .integer ?_ ?_
  · have hmin : Json.minSigned ≤ 0 := by decide
    omega
  · have hmax : Json.maxWord = UInt64.size - 1 := rfl
    omega

/-- Numbers below a bound, whatever type they are numbers of. -/
theorem Sound.below {bound : Nat} {val : α → Nat} {ofVal : Nat → α} (hbound : bound ≤ UInt64.size)
    (hwritten : ∀ a, toJson a = .number (.integer (val a)))
    (hread : ∀ s, ofSpelling? s = (natBelow? bound s).map ofVal) (hofVal : ∀ a, ofVal (val a) = a)
    (hval : ∀ n < bound, val (ofVal n) = n) : Sound α (val · < bound) where
  exact {a} h := by
    rw [hwritten]
    exact exact_natural (Nat.lt_of_lt_of_le h hbound)
  reads {a s} h hs := by
    rw [hwritten] at hs
    have hn : natBelow? bound s = some (val a) := natBelow?_eq_some_iff.2 ⟨integer?_of_spells hs, h⟩
    rw [Reads, hread, hn, Option.map_some, hofVal]
  fits {a s} h := by
    rw [Reads, hread, Option.map_eq_some_iff] at h
    obtain ⟨n, hn, rfl⟩ := h
    have hlt := (natBelow?_eq_some_iff.1 hn).2
    rwa [hval n hlt]

theorem Sound.word : Sound UInt64 fun _ => True := by
  have h : Sound UInt64 (·.toNat < UInt64.size) :=
    .below (Nat.le_refl _) (fun _ => rfl) (fun _ => rfl) (fun _ => UInt64.ofNat_toNat)
      fun n hn => UInt64.toNat_ofNat_of_lt hn
  exact ⟨fun {n} _ => h.exact n.toNat_lt, fun {n s} _ hs => h.reads n.toNat_lt hs, fun _ => trivial⟩

theorem Sound.instanceId : Sound InstanceId (·.val < idBound) :=
  .below (by decide) (fun _ => rfl) (fun _ => rfl) (fun _ => rfl) fun _ _ => rfl

theorem Sound.containerId : Sound ContainerId (·.val < idBound) :=
  .below (by decide) (fun _ => rfl) (fun _ => rfl) (fun _ => rfl) fun _ _ => rfl

theorem Sound.signed : Sound Int64 fun _ => True where
  exact {n} _ := by
    have hmax : Int64.maxValue.toInt ≤ (Json.maxWord : Int) := by decide
    exact .integer n.minValue_le_toInt (Int.le_trans n.toInt_le hmax)
  reads {n s} _ hs := by
    have hn := integer?_of_spells hs
    have hrange : Int64.minValue.toInt ≤ n.toInt ∧ n.toInt ≤ Int64.maxValue.toInt :=
      ⟨n.minValue_le_toInt, n.toInt_le⟩
    simp only [Reads, ofSpelling?, hn, Option.bind_eq_bind, Option.bind_some, if_pos hrange, Int64.ofInt_toInt]
  fits _ := trivial

/-! ## What may be missing, lists, sets and maps -/

theorem Sound.option (h : Sound α Fits) (hnull : ∀ a : α, toJson a ≠ .null) :
    Sound (Option α) fun o => ∀ a ∈ o, Fits a where
  exact {o} ho := by
    cases o with
    | none => exact .null
    | some a => exact h.exact (ho a rfl)
  reads {o s} ho hs := by
    cases o with
    | none =>
      cases hs with
      | null => rfl
    | some a =>
      have ha : Reads a s := h.reads (ho a rfl) hs
      -- only `null` is read as nothing, and what is there is not written so
      cases s with
      | null =>
        cases hj : toJson a with
        | null => exact absurd hj (hnull a)
        | _ =>
          replace hs : Spells .null (toJson a) := hs
          rw [hj] at hs
          cases hs
      | _ => exact Option.map_eq_some_iff.2 ⟨a, ha, rfl⟩
  fits {o s} hs a ha := by
    cases ha
    cases s with
    | null => cases hs
    | _ =>
      obtain ⟨b, hb, he⟩ := Option.map_eq_some_iff.1 hs
      cases he
      exact h.fits hb

theorem readAll?_eq_some_iff {items : List Spelling} {l : List α} :
    readAll? items = some l ↔ List.Forall₂ Reads l items := by
  induction items generalizing l with
  | nil => simp [readAll?, eq_comm]
  | cons s items ih =>
    simp only [readAll?, Option.bind_eq_bind, Option.bind_eq_some_iff, List.forall₂_cons_right_iff, ← ih]
    simp [Reads, eq_comm]

theorem Sound.list (h : Sound α Fits) : Sound (List α) fun l => ∀ a ∈ l, Fits a where
  exact {l} hl := by
    refine .array fun item hitem => ?_
    obtain ⟨a, ha, rfl⟩ := List.mem_map.1 hitem
    exact h.exact (hl a ha)
  reads {l s} hl hs := by
    cases hs with
    | array hitems =>
      have hspells := List.forall₂_map_left_iff.1 hitems.flip
      have hread := (List.forall₂_and_left l _).2 ⟨hl, hspells⟩
      exact readAll?_eq_some_iff.2 (hread.imp fun a s hs => h.reads hs.1 hs.2)
  fits {l s} hs := by
    cases s with
    | array items => exact forall_mem_of_forall₂ (readAll?_eq_some_iff.1 hs) fun _ _ hread => h.fits hread
    | _ => cases hs

theorem Sound.set [LT α] [DecidableLT α] [KeyOrder α] (h : Sound α Fits) :
    Sound (SortedSet α) fun s => ∀ a ∈ s, Fits a where
  exact hl := h.list.exact hl
  reads hl hs := Option.map_eq_some_iff.2 ⟨_, h.list.reads hl hs, SortedSet.ofList_toList _⟩
  fits hs a ha := by
    obtain ⟨l, hl, rfl⟩ := Option.map_eq_some_iff.1 hs
    exact h.list.fits hl a (SortedSet.mem_ofList.1 ha)

theorem readEntries?_eq_some_iff {fields : List (List Piece × Spelling)} {l : List (String × α)} :
    readEntries? fields = some l ↔
      List.Forall₂ (fun e f => Spelling.string? f.1 = some e.1 ∧ Reads e.2 f.2) l fields := by
  induction fields generalizing l with
  | nil => simp [readEntries?, eq_comm]
  | cons f fields ih =>
    simp only [readEntries?, Option.bind_eq_bind, Option.bind_eq_some_iff, List.forall₂_cons_right_iff, ← ih]
    simp [Reads, eq_comm, and_assoc]

theorem Sound.map (h : Sound α Fits) : Sound (SortedMap String α) fun m => ∀ e ∈ m.entries, Fits e.2 where
  exact {m} hm := by
    refine .object fun field hfield => ?_
    obtain ⟨e, he, rfl⟩ := List.mem_map.1 hfield
    exact h.exact (hm e he)
  reads {m s} hm hs := by
    cases hs with
    | object hentries =>
      have hspells := List.forall₂_map_left_iff.1 hentries.flip
      have hread := (List.forall₂_and_left m.entries _).2 ⟨hm, hspells⟩
      refine Option.map_eq_some_iff.2 ⟨m.entries, readEntries?_eq_some_iff.2 ?_, SortedMap.ofList_entries m⟩
      refine hread.imp ?_
      rintro e f ⟨he, hs⟩
      cases hs with
      | mk hkey hvalue => exact ⟨hkey, h.reads he hvalue⟩
  fits {m s} hs := by
    cases s with
    | object fields =>
      obtain ⟨l, hl, rfl⟩ := Option.map_eq_some_iff.1 hs
      have hfits := forall_mem_of_forall₂ (p := fun e => Fits e.2) (readEntries?_eq_some_iff.1 hl)
        fun _ _ hread => h.fits hread.2
      exact fun e he => hfits e (SortedMap.mem_of_mem_ofList he)
    | _ => cases hs

end JsonForm

end LiveDataflow
