import LiveDataflow.Proofs.Intact

/-!
# What a session made and took away

A session writes down which instances it made, which it took away and whose wires it changed.  Numbers
are not given twice, so the first two are exactly the difference between the layout that it began on and
the one that it has reached, and no instance is written down in two places.

## Results

* `ChangeSet.mem_added_recordAdded`, `ChangeSet.recordAffected_eq`, `ChangeSet.recordRemoved_eq`: what
  recording does to the three sets.
* `ChangeSet.Balances`: the invariant, for one instance.
* `ChangeSet.Balances.after`: every move keeps it, whether the plan grants the move or not.
* `Session.balances_runAll`: so does every run of edits.
-/

set_option autoImplicit false

namespace LiveDataflow

/-! ## Recording -/

namespace ChangeSet

variable {c : ChangeSet} {ids : List InstanceId} {id : InstanceId}

theorem removed_recordAdded : (c.recordAdded ids).removed = c.removed := by
  unfold recordAdded
  induction ids generalizing c with
  | nil => rfl
  | cons j rest ih => exact ih

theorem mem_added_recordAdded : id ∈ (c.recordAdded ids).added ↔ id ∈ c.added ∨ id ∈ ids := by
  unfold recordAdded
  induction ids generalizing c with
  | nil => simp
  | cons j rest ih =>
    rw [List.foldl_cons, ih]
    unfold addOne
    simp only [SortedSet.mem_insert, List.mem_cons]
    rw [or_assoc, or_left_comm]

theorem mem_affected_recordAdded :
    id ∈ (c.recordAdded ids).affected ↔ id ∈ c.affected ∧ id ∉ ids := by
  unfold recordAdded
  induction ids generalizing c with
  | nil => simp
  | cons j rest ih =>
    rw [List.foldl_cons, ih]
    unfold addOne
    simp only [SortedSet.mem_erase, List.mem_cons, not_or, and_assoc]

theorem affectOne_eq (c : ChangeSet) (j : InstanceId) :
    (c.affectOne j).added = c.added ∧ (c.affectOne j).removed = c.removed ∧
      ∀ id, id ∈ (c.affectOne j).affected ↔
        id ∈ c.affected ∨ (id = j ∧ id ∉ c.added ∧ id ∉ c.removed) := by
  unfold affectOne
  split
  · rename_i hj
    refine ⟨rfl, rfl, fun id => (or_iff_left ?_).symm⟩
    rintro ⟨rfl, hadded, hremoved⟩
    exact hj.elim hadded hremoved
  · rename_i hj
    rw [not_or] at hj
    refine ⟨rfl, rfl, fun id => ?_⟩
    rw [SortedSet.mem_insert, or_comm]
    refine or_congr_right ⟨fun h => ⟨h, ?_⟩, fun h => h.1⟩
    rw [h]; exact hj

theorem recordAffected_eq (c : ChangeSet) (ids : List InstanceId) :
    (c.recordAffected ids).added = c.added ∧ (c.recordAffected ids).removed = c.removed ∧
      ∀ id, id ∈ (c.recordAffected ids).affected ↔
        id ∈ c.affected ∨ (id ∈ ids ∧ id ∉ c.added ∧ id ∉ c.removed) := by
  unfold recordAffected
  induction ids generalizing c with
  | nil => exact ⟨rfl, rfl, fun id => by simp⟩
  | cons j rest ih =>
    obtain ⟨hadded, hremoved, haffected⟩ := affectOne_eq c j
    obtain ⟨hadded', hremoved', haffected'⟩ := ih (c.affectOne j)
    refine ⟨hadded'.trans hadded, hremoved'.trans hremoved, fun id => ?_⟩
    rw [List.foldl_cons, haffected', haffected, hadded, hremoved, List.mem_cons, or_assoc, ← or_and_right]

theorem removeOne_eq (c : ChangeSet) (j : InstanceId) (id : InstanceId) :
    (id ∈ (c.removeOne j).added ↔ id ∈ c.added ∧ id ≠ j) ∧
    (id ∈ (c.removeOne j).affected ↔ id ∈ c.affected ∧ id ≠ j) ∧
    (id ∈ (c.removeOne j).removed ↔ id ∈ c.removed ∨ (id = j ∧ id ∉ c.added)) := by
  unfold removeOne
  split
  · rename_i hj
    refine ⟨SortedSet.mem_erase, SortedSet.mem_erase, (or_iff_left ?_).symm⟩
    rintro ⟨rfl, hno⟩
    exact hno hj
  · rename_i hj
    refine ⟨⟨fun h => ⟨h, fun e => hj (e ▸ h)⟩, fun h => h.1⟩, SortedSet.mem_erase, ?_⟩
    rw [SortedSet.mem_insert, or_comm]
    refine or_congr_right ⟨fun h => ⟨h, ?_⟩, fun h => h.1⟩
    rw [h]; exact hj

/-- An instance is recorded as gone once, so one that was new leaves no trace. -/
theorem recordRemoved_eq (h : ids.Nodup) (id : InstanceId) :
    (id ∈ (c.recordRemoved ids).added ↔ id ∈ c.added ∧ id ∉ ids) ∧
    (id ∈ (c.recordRemoved ids).affected ↔ id ∈ c.affected ∧ id ∉ ids) ∧
    (id ∈ (c.recordRemoved ids).removed ↔ id ∈ c.removed ∨ (id ∈ ids ∧ id ∉ c.added)) := by
  unfold recordRemoved
  induction ids generalizing c with
  | nil => simp
  | cons j rest ih =>
    obtain ⟨hj, hrest⟩ := List.nodup_cons.1 h
    obtain ⟨hadded, haffected, hremoved⟩ := removeOne_eq c j id
    obtain ⟨hadded', haffected', hremoved'⟩ := ih hrest (c := c.removeOne j)
    rw [List.foldl_cons, hadded', haffected', hremoved', hadded, haffected, hremoved]
    simp only [List.mem_cons, not_or, and_assoc]
    refine ⟨trivial, trivial, ?_⟩
    by_cases hid : id = j
    · subst hid; simp [hj]
    · simp [hid]

end ChangeSet

/-! ## The layouts before and after -/

namespace Layout

/-- The numbers of the instances that are there. -/
def ids (l : Layout) : SortedSet InstanceId := ⟨l.instances.keys, l.instances.pairwise_keys⟩

theorem mem_ids {l : Layout} {id : InstanceId} : id ∈ l.ids ↔ l.Present id := SortedMap.mem_keys_iff

variable {l l' : Layout} {name : String} {id : InstanceId} {ids : List InstanceId}

/-- The instances after an operator was laid out are the new ones and those from before. -/
theorem present_addOperator (h : l.Numbered) (hok : l.addOperator name = .ok (ids, l'))
    (id : InstanceId) :
    (l'.Present id ↔ id ∈ ids ∨ l.Present id) ∧ (id ∈ ids → l.lastInstance < id.val) ∧
      l.lastInstance ≤ l'.lastInstance := by
  obtain ⟨partitions, wires, rfl, rfl⟩ := wires_only_addOperator hok
  refine ⟨h.present_enter, fun hid => ?_, Nat.le_add_right _ _⟩
  obtain ⟨i, hi, rfl⟩ := List.mem_map.1 hid
  obtain ⟨p, _, rfl⟩ := mem_freshInstances_iff.1 hi
  show l.lastInstance < l.lastInstance + 1 + p
  omega

/-- The instances after a stage was removed are those of the other operators. -/
theorem present_after_removeStage (h : l.Numbered) :
    (l.after (.removeStage name)).2.Present id ↔
      l.Present id ∧ id ∉ (l.after (.removeStage name)).1 := by
  rw [mem_after_removeStage h, (without_after_removeStage h name).present_iff]
  exact Iff.rfl

end Layout

/-! ## The account -/

namespace ChangeSet

open Layout

variable {l l₀ l' : Layout} {c : ChangeSet} {id : InstanceId} {ids : List InstanceId}

/-- What the account says about one instance, compared with the layout `l₀` that it was begun on. -/
structure Balances (l₀ : Layout) (c : ChangeSet) (l : Layout) (id : InstanceId) : Prop where
  added : id ∈ c.added ↔ l.Present id ∧ ¬ l₀.Present id
  removed : id ∈ c.removed ↔ l₀.Present id ∧ ¬ l.Present id
  affected : id ∈ c.affected → l₀.Present id ∧ l.Present id
  /-- Numbers that are given from now on are new to `l₀`. -/
  bounded : l₀.Present id → id.val ≤ l.lastInstance

namespace Balances

theorem start (h : l.Numbered) : Balances l ∅ l id where
  added := iff_of_false (SortedSet.not_mem_empty _) fun hid => hid.2 hid.1
  removed := iff_of_false (SortedSet.not_mem_empty _) fun hid => hid.2 hid.1
  affected := fun hid => absurd hid (SortedSet.not_mem_empty _)
  bounded := h.bounded id

/-- An operator was laid out: its instances have numbers that `l₀` cannot have given. -/
theorem entered (h : Balances l₀ c l id) (hpresent : l'.Present id ↔ id ∈ ids ∨ l.Present id)
    (hfresh : id ∈ ids → l.lastInstance < id.val) (hlast : l.lastInstance ≤ l'.lastInstance) :
    Balances l₀ (c.recordAdded ids) l' id := by
  have hstart : id ∈ ids → ¬ l₀.Present id := by
    intro hid h₀
    have hle := h.bounded h₀
    have hlt := hfresh hid
    omega
  constructor
  · rw [mem_added_recordAdded, h.added, hpresent]
    constructor
    · rintro (⟨hp, h₀⟩ | hid)
      · exact ⟨.inr hp, h₀⟩
      · exact ⟨.inl hid, hstart hid⟩
    · rintro ⟨hid | hp, h₀⟩
      · exact .inr hid
      · exact .inl ⟨hp, h₀⟩
  · rw [removed_recordAdded, h.removed, hpresent]
    refine and_congr_right fun h₀ => ?_
    have hid : id ∉ ids := fun hid => hstart hid h₀
    simp [hid]
  · intro ha
    obtain ⟨ha, _⟩ := mem_affected_recordAdded.1 ha
    exact ⟨(h.affected ha).1, hpresent.2 (.inr (h.affected ha).2)⟩
  · intro h₀
    exact Nat.le_trans (h.bounded h₀) hlast

/-- An operator was taken away with its instances. -/
theorem left (h : Balances l₀ c l id) (hnodup : ids.Nodup)
    (hpresent : l'.Present id ↔ l.Present id ∧ id ∉ ids) (hids : id ∈ ids → l.Present id)
    (hlast : l.lastInstance ≤ l'.lastInstance) : Balances l₀ (c.recordRemoved ids) l' id := by
  obtain ⟨hadded, haffected, hremoved⟩ := recordRemoved_eq (c := c) hnodup id
  constructor
  · rw [hadded, h.added, hpresent, and_right_comm]
  · rw [hremoved, h.removed, h.added, hpresent]
    constructor
    · rintro (⟨h₀, hp⟩ | ⟨hid, hno⟩)
      · exact ⟨h₀, fun hp' => hp hp'.1⟩
      · refine ⟨?_, fun hp' => hp'.2 hid⟩
        by_contra h₀
        exact hno ⟨hids hid, h₀⟩
    · rintro ⟨h₀, hno⟩
      by_cases hid : id ∈ ids
      · exact .inr ⟨hid, fun hp => hp.2 h₀⟩
      · exact .inl ⟨h₀, fun hp => hno ⟨hp, hid⟩⟩
  · intro ha
    obtain ⟨ha, hid⟩ := haffected.1 ha
    exact ⟨(h.affected ha).1, hpresent.2 ⟨(h.affected ha).2, hid⟩⟩
  · intro h₀
    exact Nat.le_trans (h.bounded h₀) hlast

/-- Instances got other wires. -/
theorem rewired (h : Balances l₀ c l id) (hpresent : l'.Present id ↔ l.Present id)
    (hids : id ∈ ids → l.Present id) (hlast : l.lastInstance ≤ l'.lastInstance) :
    Balances l₀ (c.recordAffected ids) l' id := by
  obtain ⟨hadded, hremoved, haffected⟩ := recordAffected_eq c ids
  constructor
  · rw [hadded, hpresent]; exact h.added
  · rw [hremoved, hpresent]; exact h.removed
  · intro ha
    rw [hpresent]
    rcases (haffected id).1 ha with hold | ⟨hid, hno, _⟩
    · exact h.affected hold
    · refine ⟨?_, hids hid⟩
      by_contra h₀
      exact hno (h.added.2 ⟨hids hid, h₀⟩)
  · intro h₀
    exact Nat.le_trans (h.bounded h₀) hlast

/-- Nothing was made or taken away, and nothing is written down. -/
theorem kept (h : Balances l₀ c l id) (hpresent : l'.Present id ↔ l.Present id)
    (hlast : l.lastInstance ≤ l'.lastInstance) : Balances l₀ c l' id := by
  have hnone : id ∈ ([] : List InstanceId) → l.Present id := fun hid => (nomatch hid)
  exact h.rewired hpresent hnone hlast

/-- **The account balances after every move.** -/
theorem after (h : Balances l₀ c l id) (hl : l.Numbered) (m : Move) :
    Balances l₀ (c.after (l.after m).1 m) (l.after m).2 id := by
  cases m with
  | addStage name operator =>
    have hplan : ({ l with dataflow := l.dataflow.after (.addStage name operator) } : Layout).Numbered :=
      hl.of_same rfl rfl rfl
    simp only [ChangeSet.after, Layout.after]
    cases hok : ({ l with dataflow := l.dataflow.after (.addStage name operator) } : Layout).addOperator
        name with
    | error c => exact h.kept Iff.rfl (Nat.le_refl _)
    | ok r =>
      obtain ⟨hpresent, hfresh, hlast⟩ := present_addOperator hplan hok id
      exact h.entered hpresent hfresh hlast
  | removeStage name =>
    have hids : id ∈ (l.after (.removeStage name)).1 → l.Present id := fun hid =>
      hl.present ((mem_after_removeStage hl).1 hid)
    exact h.left (SortedSet.nodup_toList _) (present_after_removeStage hl) hids
      (Nat.le_of_eq (without_after_removeStage hl name).lastInstance.symm)
  | setOperator name operator => exact h.kept Iff.rfl (Nat.le_refl _)
  | addStream stream source => exact h.kept Iff.rfl (Nat.le_refl _)
  | attach stream sink =>
    simp only [ChangeSet.after, Layout.after]
    split
    · rename_i hok
      obtain ⟨s, _, _, rfl, rfl⟩ := connectSink_eq_ok_iff.1 hok
      exact h.rewired Iff.rfl (fun hid => hl.present (SortedSet.mem_ofList.1 hid)) (Nat.le_refl _)
    · exact h.kept Iff.rfl (Nat.le_refl _)
  | removeStream stream =>
    simp only [ChangeSet.after, Layout.after]
    split
    · rename_i hok
      obtain ⟨s, _, rfl, rfl⟩ := dropStream_eq_ok_iff.1 hok
      refine h.rewired Iff.rfl (fun hid => ?_) (Nat.le_refl _)
      obtain ⟨operator, _, hof⟩ := List.mem_flatMap.1 (SortedSet.mem_ofList.1 hid)
      exact hl.present hof
    · exact h.kept Iff.rfl (Nat.le_refl _)

end Balances

end ChangeSet

/-! ## Sessions -/

namespace Session

variable {s : Session} {l₀ : Layout}

/-- The session works on an intact layout, and its account since `l₀` balances. -/
def Balances (l₀ : Layout) (s : Session) : Prop :=
  ∃ l, s.target = .live l ∧ l.Intact ∧ ∀ id, ChangeSet.Balances l₀ s.changes l id

theorem Balances.after (h : s.Balances l₀) (m : Move) : (s.after m).Balances l₀ := by
  obtain ⟨target, changes⟩ := s
  obtain ⟨l, rfl, hl, hb⟩ := h
  exact ⟨(l.after m).2, rfl, hl.after m, fun id => (hb id).after hl.numbered m⟩

/-- **The account balances after every run of edits**, those that fail included. -/
theorem balances_runAll (h : s.Balances l₀) (ha : s.dataflow.Anchored) (edits : List Edit) :
    (s.runAll edits).2.Balances l₀ := by
  refine (runAll_keeps (P := fun s => s.dataflow.Anchored ∧ s.Balances l₀) (fun s e hs => ?_) ⟨ha, h⟩
    edits).2
  exact ⟨anchored_step e hs.1, step_keeps (fun _ m hs _ => hs.after m) hs.1 hs.2 e⟩

theorem balances_onLayout (h : l₀.Intact) : (Session.onLayout l₀).Balances l₀ :=
  ⟨l₀, rfl, h, fun _ => .start h.numbered⟩

end Session

end LiveDataflow
