import Mathlib.Data.List.Induction
import LiveDataflow.Proofs.Balance

/-!
# One role for an instance

A change set is meant to give an instance one role at most: new, affected or gone.  Recording in any
order and with any repetitions, an affected instance never has another role.  An instance that was
recorded as gone has two, though, once it is recorded as new again: that call leaves the instances that
are gone alone.  Sessions never make it, since a number is not given twice
(`ChangeSet.Balances`).

## Results

* `ChangeSet.onlyAffected_record`: no call gives an affected instance a second role.
* `ChangeSet.separate_recordAdded_iff`, `ChangeSet.separate_recordRemoved`: what calls do to instances
  that are new and gone at once.
* `ChangeSet.exclusive_throughout_iff`: the runs of calls that give no instance two roles at any time.
-/

set_option autoImplicit false

namespace LiveDataflow.ChangeSet

/-- One call that records instances. -/
inductive Recording where
  | added (ids : List InstanceId)
  | affected (ids : List InstanceId)
  | removed (ids : List InstanceId)

def record (c : ChangeSet) : Recording → ChangeSet
  | .added ids => c.recordAdded ids
  | .affected ids => c.recordAffected ids
  | .removed ids => c.recordRemoved ids

/-- What a run of calls makes of a fresh change set. -/
def recordAll (calls : List Recording) : ChangeSet := calls.foldl record ∅

theorem recordAll_concat (calls : List Recording) (call : Recording) :
    recordAll (calls ++ [call]) = (recordAll calls).record call := by
  simp [recordAll]

/-- Affected instances are neither new nor gone. -/
def OnlyAffected (c : ChangeSet) : Prop := ∀ id ∈ c.affected, id ∉ c.added ∧ id ∉ c.removed

/-- No instance is new and gone. -/
def Separate (c : ChangeSet) : Prop := ∀ id ∈ c.added, id ∉ c.removed

/-- No instance has two roles. -/
structure Exclusive (c : ChangeSet) : Prop where
  added_affected : ∀ id ∈ c.added, id ∉ c.affected
  added_removed : ∀ id ∈ c.added, id ∉ c.removed
  affected_removed : ∀ id ∈ c.affected, id ∉ c.removed

variable {c : ChangeSet} {ids : List InstanceId}

theorem exclusive_iff : c.Exclusive ↔ c.OnlyAffected ∧ c.Separate := by
  constructor
  · intro h
    exact ⟨fun id hid => ⟨fun hadded => h.added_affected id hadded hid, h.affected_removed id hid⟩,
      h.added_removed⟩
  · rintro ⟨honly, hseparate⟩
    exact ⟨fun id hadded hid => (honly id hid).1 hadded, hseparate, fun id hid => (honly id hid).2⟩

/-! ## One call -/

theorem onlyAffected_removeOne (h : c.OnlyAffected) (j : InstanceId) : (c.removeOne j).OnlyAffected := by
  intro id hid
  obtain ⟨hadded, haffected, hremoved⟩ := removeOne_eq c j id
  obtain ⟨hbefore, hne⟩ := haffected.1 hid
  rw [hadded, hremoved]
  refine ⟨fun hin => (h id hbefore).1 hin.1, ?_⟩
  rintro (hin | ⟨heq, _⟩)
  · exact (h id hbefore).2 hin
  · exact hne heq

theorem separate_removeOne (h : c.Separate) (j : InstanceId) : (c.removeOne j).Separate := by
  intro id hid
  obtain ⟨hadded, _, hremoved⟩ := removeOne_eq c j id
  obtain ⟨hbefore, hne⟩ := hadded.1 hid
  rw [hremoved]
  rintro (hin | ⟨heq, _⟩)
  · exact h id hbefore hin
  · exact hne heq

/-- **No call gives an affected instance a second role**, whatever it records. -/
theorem onlyAffected_record (h : c.OnlyAffected) (call : Recording) : (c.record call).OnlyAffected := by
  cases call with
  | added ids =>
    intro id hid
    obtain ⟨hbefore, hnot⟩ := mem_affected_recordAdded.1 hid
    refine ⟨fun hin => ?_, fun hin => (h id hbefore).2 (removed_recordAdded ▸ hin)⟩
    rcases mem_added_recordAdded.1 hin with hin | hin
    · exact (h id hbefore).1 hin
    · exact hnot hin
  | affected ids =>
    intro id hid
    obtain ⟨hadded, hremoved, haffected⟩ := recordAffected_eq c ids
    show id ∉ (c.recordAffected ids).added ∧ id ∉ (c.recordAffected ids).removed
    rw [hadded, hremoved]
    rcases (haffected id).1 hid with hbefore | ⟨_, hfree⟩
    · exact h id hbefore
    · exact hfree
  | removed ids =>
    show (ids.foldl removeOne c).OnlyAffected
    induction ids generalizing c with
    | nil => exact h
    | cons j rest ih => exact ih (onlyAffected_removeOne h j)

/-- Recording what is new keeps the new and the gone apart only if none of it is gone. -/
theorem separate_recordAdded_iff :
    (c.recordAdded ids).Separate ↔ c.Separate ∧ ∀ id ∈ ids, id ∉ c.removed := by
  unfold Separate
  rw [removed_recordAdded]
  constructor
  · intro h
    exact ⟨fun id hid => h id (mem_added_recordAdded.2 (.inl hid)),
      fun id hid => h id (mem_added_recordAdded.2 (.inr hid))⟩
  · rintro ⟨hbefore, hnew⟩ id hid
    exact (mem_added_recordAdded.1 hid).elim (hbefore id) (hnew id)

theorem separate_recordAffected (h : c.Separate) : (c.recordAffected ids).Separate := by
  obtain ⟨hadded, hremoved, _⟩ := recordAffected_eq c ids
  unfold Separate
  rw [hadded, hremoved]
  exact h

theorem separate_recordRemoved (h : c.Separate) : (c.recordRemoved ids).Separate := by
  unfold recordRemoved
  induction ids generalizing c with
  | nil => exact h
  | cons j rest ih => exact ih (separate_removeOne h j)

/-! ## Runs of calls -/

theorem onlyAffected_recordAll (calls : List Recording) : (recordAll calls).OnlyAffected := by
  induction calls using List.reverseRecOn with
  | nil => exact fun id hid => absurd hid (SortedSet.not_mem_empty id)
  | append_singleton calls call ih =>
    rw [recordAll_concat]
    exact onlyAffected_record ih call

/-- **No instance has two roles at any time of a run exactly if the run never records an instance as new
that is recorded as gone.** -/
theorem exclusive_throughout_iff (calls : List Recording) :
    (∀ before, before <+: calls → (recordAll before).Exclusive) ↔
      ∀ before ids after, calls = before ++ .added ids :: after →
        ∀ id ∈ ids, id ∉ (recordAll before).removed := by
  constructor
  · rintro h before ids after rfl
    have hcall : recordAll (before ++ [.added ids]) = (recordAll before).recordAdded ids :=
      recordAll_concat before (.added ids)
    have hexclusive := h (before ++ [.added ids]) ⟨after, by simp⟩
    rw [hcall] at hexclusive
    exact (separate_recordAdded_iff.1 (exclusive_iff.1 hexclusive).2).2
  · intro h before hbefore
    refine exclusive_iff.2 ⟨onlyAffected_recordAll before, ?_⟩
    -- Only calls that record new instances need the hypothesis.
    induction before using List.reverseRecOn with
    | nil => exact fun id hid => absurd hid (SortedSet.not_mem_empty id)
    | append_singleton before call ih =>
      obtain ⟨after, rfl⟩ := hbefore
      have hseparate := ih ⟨call :: after, by simp⟩
      rw [recordAll_concat]
      cases call with
      | added ids => exact separate_recordAdded_iff.2 ⟨hseparate, h before ids after (by simp)⟩
      | affected ids => exact separate_recordAffected hseparate
      | removed ids => exact separate_recordRemoved hseparate

/-- An instance that is recorded as gone and then as new is in both sets. -/
theorem exclusive_lost : ¬ (recordAll [.removed [⟨1⟩], .added [⟨1⟩]]).Exclusive := by
  intro h
  exact h.added_removed ⟨1⟩ (by decide) (by decide)

end LiveDataflow.ChangeSet
