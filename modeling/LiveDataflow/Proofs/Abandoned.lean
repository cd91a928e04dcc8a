import LiveDataflow.Proofs.Course

/-!
# What a session that is given up leaves to the next one

A session that is given up leaves its edits in the layout, and its account is lost.  The next rollout
finds the new instances by their missing containers, so it starts them with what is downstream of them.
It cannot find what was taken away, nor what was rewired without a new instance upstream.

## Results

* `Layout.rollout_of_account`, `Layout.rollout_without_account`: the rollout with the account of a session
  and the one without it.
* `Layout.rollout_eq_iff`: when the account makes no difference.
* `Course.abandoned_then_applied`: a session that is applied, and one that is given up and followed by a
  session without edits.
-/

set_option autoImplicit false

namespace LiveDataflow

open Reachability

namespace Layout

variable {l p : Layout} {changes : ChangeSet} {id : InstanceId}

/-- Without an account the unplaced instances are what is new. -/
theorem novel_empty (l : Layout) : l.novel ∅ = l.unplaced := SortedSet.empty_union l.unplaced

/-- If everything was placed, the unplaced instances are those that the session has made. -/
theorem Edited.unplaced_eq (h : l.Edited changes p) (hl : l.Numbered)
    (hall : ∀ id, l.Present id → l.Placed id) : p.unplaced = changes.added := by
  apply SortedSet.ext_mem
  intro id
  rw [mem_unplaced_iff_not_placed h.sound.laid.numbered, (h.accounts.tracks id).added,
    h.grows.placed_iff hl]
  constructor
  · rintro ⟨hnow, hno⟩
    exact ⟨hnow, fun hbefore => hno ⟨hall id hbefore, hnow⟩⟩
  · rintro ⟨hnow, hnew⟩
    exact ⟨hnow, fun hplaced => hnew hplaced.1.present⟩

section Leftover

variable {r₁ r₂ : Rollout} {l' : Layout} (h : l.Edited changes p) (hl : l.Numbered)
  (hall : ∀ id, l.Present id → l.Placed id)

include h hl hall

theorem novel_eq_added : p.novel changes = changes.added := by
  unfold novel
  rw [h.unplaced_eq hl hall]
  exact SortedSet.union_eq_left fun _ hid => hid

theorem novel_empty_eq_added : p.novel ∅ = changes.added := by
  rw [novel_empty, h.unplaced_eq hl hall]

/-- With the account and without it the same instances are placed and primed. -/
theorem exists_reconcile_empty (hr : p.reconcile changes = .ok (r₁, l')) :
    ∃ r₂, p.reconcile ∅ = .ok (r₂, l') := by
  -- the account takes part in priming only through what is new
  have hprimed := (reconcile_eq_ok_iff.1 hr).1
  rw [novel_eq_added h hl hall, ← novel_empty_eq_added h hl hall] at hprimed
  exact ⟨_, reconcile_eq_ok_iff.2 ⟨hprimed, rfl⟩⟩

/-- The rollout with the account of a session. -/
theorem rollout_of_account (hr : p.reconcile changes = .ok (r₁, l')) :
    r₁.started = p.dependents changes.added ∪ p.dependents changes.affected ∧
      r₁.stopped = (r₁.started \ changes.added) ∪ changes.removed := by
  have hp := h.sound.intact
  have hb := h.accounts.balances
  have hstopped := stopped_eq hp hb hr
  rw [novel_eq_added h hl hall] at hstopped
  refine ⟨?_, hstopped⟩
  apply SortedSet.ext_mem
  intro id
  rw [mem_started_iff_dependents hp hb hr, novel_eq_added h hl hall, SortedSet.mem_union]

/-- The rollout without it. -/
theorem rollout_without_account (hr : p.reconcile ∅ = .ok (r₂, l')) :
    r₂.started = p.dependents changes.added ∧
      r₂.stopped = p.dependents changes.added \ changes.added := by
  have hp := h.sound.intact
  have hb : ∀ id, ChangeSet.Balances p ∅ p id := fun id => .start hp.numbered
  have hnovel := novel_empty_eq_added h hl hall
  have hstarted : r₂.started = p.dependents changes.added := by
    apply SortedSet.ext_mem
    intro id
    have hnone : id ∉ p.dependents (∅ : ChangeSet).affected := by
      rw [mem_dependents_iff]
      rintro ⟨a, ha, _⟩
      exact SortedSet.not_mem_empty a ha
    rw [mem_started_iff_dependents hp hb hr, hnovel]
    exact or_iff_left hnone
  refine ⟨hstarted, ?_⟩
  rw [stopped_eq hp hb hr, hnovel, hstarted]
  exact SortedSet.union_empty _

/-- The two rollouts give up and ask for the same containers. -/
theorem containers_without_account (hr₁ : p.reconcile changes = .ok (r₁, l'))
    (hr₂ : p.reconcile ∅ = .ok (r₂, l')) : r₂.released = r₁.released ∧ r₂.created = r₁.created := by
  rw [released_of_reconcile hr₁, released_of_reconcile hr₂, created_of_reconcile hr₁,
    created_of_reconcile hr₂, novel_eq_added h hl hall, novel_empty_eq_added h hl hall]
  exact ⟨rfl, rfl⟩

/-- **The account makes no difference exactly if** nothing was taken away and everything that was rewired is
downstream of something new. -/
theorem rollout_eq_iff (hr₁ : p.reconcile changes = .ok (r₁, l')) (hr₂ : p.reconcile ∅ = .ok (r₂, l')) :
    r₂ = r₁ ↔ changes.removed = ∅ ∧ ∀ id ∈ changes.affected, id ∈ p.dependents changes.added := by
  have hp := h.sound.intact
  have hb := h.accounts.balances
  obtain ⟨hstarted₁, hstopped₁⟩ := rollout_of_account h hl hall hr₁
  obtain ⟨hstarted₂, hstopped₂⟩ := rollout_without_account h hl hall hr₂
  obtain ⟨hreleased, hcreated⟩ := containers_without_account h hl hall hr₁ hr₂
  constructor
  · rintro rfl
    constructor
    · refine SortedSet.eq_empty_iff.2 fun id hremoved => ?_
      have hstopped : id ∈ r₂.stopped := by
        rw [hstopped₁]
        exact SortedSet.mem_union.2 (.inr hremoved)
      -- without the account only what is there is stopped
      rw [hstopped₂] at hstopped
      exact not_removed_of_mem_dependents hp hb (SortedSet.mem_sdiff.1 hstopped).1 hremoved
    · intro id hid
      have hstarted : id ∈ r₂.started := mem_started_of_affected hp hb hr₁ hid
      rw [hstarted₂] at hstarted
      exact hstarted
  · rintro ⟨hremoved, haffected⟩
    have hstarted : r₂.started = r₁.started := by
      rw [hstarted₁, hstarted₂]
      exact (SortedSet.union_eq_left fun _ hid => dependents_subset haffected hid).symm
    have hstopped : r₂.stopped = r₁.stopped := by
      rw [hstopped₁, hstopped₂, ← hstarted, hstarted₂, hremoved, SortedSet.union_empty]
    cases r₁
    cases r₂
    cases hstarted
    cases hstopped
    cases hreleased
    cases hcreated
    rfl

end Leftover

end Layout

/-- **A session that is given up, and the next rollout.**  Right after a session that was not given up, let
one session be applied, and the same session be given up and one without edits be applied.  Both leave
the same layout and give up and ask for the same containers.  The second rollout starts what the first
session has made and what is downstream of that, and stops what of it is not new.  The first rollout adds
to this what is downstream of rewired instances, and stops what was taken away.  They are the same
exactly if there is no more to add. -/
theorem Course.abandoned_then_applied {first l : Layout} {endings : List Ending}
    (h : Course first endings l) (hlast : endings.getLast? ≠ some .abandoned) (edits : List Edit) :
    let s := ((Session.onLayout l).runAll edits).2
    ∃ p l' r₁ r₂, s.target = .live p ∧
      (∀ {σ : Type} (deployer : Deployer σ) (world : σ), s.apply deployer world =
        ⟨(deployer r₁ world).1.map fun _ => r₁, .live l', (deployer r₁ world).2⟩) ∧
      (∀ {σ : Type} (deployer : Deployer σ) (world : σ),
        ((Session.onLayout p).runAll []).2.apply deployer world =
          ⟨(deployer r₂ world).1.map fun _ => r₂, .live l', (deployer r₂ world).2⟩) ∧
      r₂.released = r₁.released ∧ r₂.created = r₁.created ∧
      r₂.started = p.dependents s.changes.added ∧
      r₂.stopped = p.dependents s.changes.added \ s.changes.added ∧
      r₁.started = r₂.started ∪ p.dependents s.changes.affected ∧
      r₁.stopped = (r₁.started \ s.changes.added) ∪ s.changes.removed ∧
      (r₂ = r₁ ↔ s.changes.removed = ∅ ∧
        ∀ id ∈ s.changes.affected, id ∈ p.dependents s.changes.added) := by
  have hall : ∀ id, l.Present id → l.Placed id := fun id hid => h.placed_of_last hlast hid
  have hl := h.sound.laid.numbered
  obtain ⟨changes, hs, he⟩ := h.sound.edited edits
  obtain ⟨r₁, l', hr₁⟩ := Layout.exists_reconcile he.sound.intact he.accounts.balances
  obtain ⟨r₂, hr₂⟩ := Layout.exists_reconcile_empty he hl hall hr₁
  obtain ⟨hstarted₁, hstopped₁⟩ := Layout.rollout_of_account he hl hall hr₁
  obtain ⟨hstarted₂, hstopped₂⟩ := Layout.rollout_without_account he hl hall hr₂
  obtain ⟨hreleased, hcreated⟩ := Layout.containers_without_account he hl hall hr₁ hr₂
  have hiff := Layout.rollout_eq_iff he hl hall hr₁ hr₂
  rw [← hstarted₂] at hstarted₁
  intro s
  have hsame : s = ⟨.live (l.edited edits), changes⟩ := hs
  rw [hsame]
  refine ⟨l.edited edits, l', r₁, r₂, rfl, ?_, ?_, hreleased, hcreated, hstarted₂, hstopped₂,
    hstarted₁, hstopped₁, hiff⟩
  · intro σ deployer world
    exact Session.apply_eq_of_reconcile deployer world hr₁
  · intro σ deployer world
    exact Session.apply_eq_of_reconcile deployer world hr₂

/-- Three operators lose the stream between them, and the fourth is taken away. -/
def lostEdits : List Edit := [.removeStream "abc", .removeOperator "d"]

/-- The next rollout neither starts the three again nor stops the fourth. -/
theorem Course.abandoned_lost :
    let s := ((Session.onLayout Session.forked).runAll lostEdits).2
    Course Session.forked [] Session.forked ∧ ∃ p r₁ r₂, s.target = .live p ∧
      (s.apply Deployer.accepting ()).result = .ok r₁ ∧
      (((Session.onLayout p).runAll []).2.apply Deployer.accepting ()).result = .ok r₂ ∧
      r₁.stopped.toList = [⟨1⟩, ⟨2⟩, ⟨3⟩, ⟨4⟩] ∧ r₁.started.toList = [⟨1⟩, ⟨2⟩, ⟨3⟩] ∧
      r₂.stopped.toList = [] ∧ r₂.started.toList = [] := by
  have hcourse : Course Session.forked [] Session.forked :=
    .materialize Session.reachable_forking Session.materialize_forking
  obtain ⟨changes, hs, he⟩ := hcourse.sound.edited lostEdits
  have hfirst := hcourse.sound.apply_eq lostEdits Deployer.accepting ()
  have hsecond := he.sound.apply_eq [] Deployer.accepting ()
  refine ⟨hcourse, Session.forked.edited lostEdits, Session.forked.rollout lostEdits,
    (Session.forked.edited lostEdits).rollout [], ?_, ?_, ?_, ?_, ?_, ?_, ?_⟩
  · rw [hs]
  · rw [hfirst]
    rfl
  · rw [hsecond]
    rfl
  · decide +kernel
  · decide +kernel
  · decide +kernel
  · decide +kernel

/-- A new operator that feeds the others is recovered with all that is downstream of it, and the operator
that was taken away is not stopped. -/
theorem Course.abandoned_then_applied_forked :
    let s := ((Session.onLayout Session.forked).runAll Session.forkEdits).2
    Course Session.forked [] Session.forked ∧ ∃ p r₁ r₂, s.target = .live p ∧
      (s.apply Deployer.accepting ()).result = .ok r₁ ∧
      (((Session.onLayout p).runAll []).2.apply Deployer.accepting ()).result = .ok r₂ ∧
      r₁.started = r₂.started ∪ p.dependents s.changes.affected ∧
      r₁.stopped = (r₁.started \ s.changes.added) ∪ s.changes.removed ∧
      r₁.started.toList = [⟨1⟩, ⟨2⟩, ⟨5⟩] ∧ r₂.started.toList = [⟨1⟩, ⟨2⟩, ⟨5⟩] ∧
      r₁.stopped.toList = [⟨1⟩, ⟨2⟩, ⟨3⟩] ∧ r₂.stopped.toList = [⟨1⟩, ⟨2⟩] := by
  have hcourse : Course Session.forked [] Session.forked :=
    .materialize Session.reachable_forking Session.materialize_forking
  have hlast : ([] : List Ending).getLast? ≠ some .abandoned := nofun
  obtain ⟨p, l', r₁, r₂, htarget, happly₁, happly₂, _, _, _, _, hstarted, hstopped, _⟩ :=
    Course.abandoned_then_applied hcourse hlast Session.forkEdits
  obtain ⟨changes, hs, he⟩ := hcourse.sound.edited Session.forkEdits
  have hsame : Target.live (Session.forked.edited Session.forkEdits) = .live p := by
    rw [← htarget, hs]
  cases hsame
  have hfirst : r₁ = Session.forked.rollout Session.forkEdits := by
    have hend := (happly₁ Deployer.accepting ()).symm.trans
      (hcourse.sound.apply_eq Session.forkEdits Deployer.accepting ())
    exact Except.ok.inj (congrArg Applied.result hend)
  have hsecond : r₂ = (Session.forked.edited Session.forkEdits).rollout [] := by
    have hend := (happly₂ Deployer.accepting ()).symm.trans (he.sound.apply_eq [] Deployer.accepting ())
    exact Except.ok.inj (congrArg Applied.result hend)
  subst hfirst hsecond
  refine ⟨hcourse, _, _, _, htarget, ?_, ?_, hstarted, hstopped, ?_, ?_, ?_, ?_⟩
  · rw [happly₁]
    rfl
  · rw [happly₂]
    rfl
  · decide +kernel
  · decide +kernel
  · decide +kernel
  · decide +kernel

end LiveDataflow
