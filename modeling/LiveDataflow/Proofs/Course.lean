import LiveDataflow.Proofs.Outcome

/-!
# Courses of sessions

Live sessions follow one another on a layout.  Each is given up, or applied with a deployer that accepts or
refuses its rollout, and in all three cases the layout keeps the edits.  Which instances were ever to be
started is written down nowhere; what a layout shows is which of them have a container.

## Results

* `Course`: the layouts that such sessions lead to, with how each of the sessions ended.
* `Course.keeps`: the induction along a course.
* `Course.posted`: the instances with a container are those of the first layout and those that a rollout
  was to start.
* `Course.stopped_unscheduled_iff`: which instances a rollout stops that nothing ever started.
* `Course.present_of_applied`: which instances a course can forget.
-/

set_option autoImplicit false

namespace LiveDataflow

/-- Hands a rollout on to a deployer and keeps it, whatever the deployer says. -/
def Deployer.noting {σ : Type} (deployer : Deployer σ) : Deployer (σ × Option Rollout) :=
  fun r world => ((deployer r world.1).1, (deployer r world.1).2, some r)

theorem Layout.Edited.reconcile_of_noted {l₀ l l' : Layout} {changes : ChangeSet} {r : Rollout} {σ : Type}
    {deployer : Deployer σ} {world world' : σ} {result : Except PlanError Rollout}
    (h : l₀.Edited changes l)
    (happly : Session.apply ⟨.live l, changes⟩ deployer.noting (world, none) =
      ⟨result, .live l', (world', some r)⟩) : l.reconcile changes = .ok (r, l') := by
  obtain ⟨r', hr, _, hworld⟩ := h.reconcile_of_apply happly
  have hnoted : some r = some r' := congrArg Prod.snd hworld
  cases hnoted
  exact hr

/-! ## Courses -/

/-- How a live session ended. -/
inductive Ending where
  /-- It was given up without a rollout. -/
  | abandoned
  /-- The deployer carried its rollout out. -/
  | accepted (rollout : Rollout)
  /-- The deployer refused its rollout, and started and stopped nothing. -/
  | refused (rollout : Rollout)

/-- The rollout that the deployer was handed. -/
def Ending.rollout? : Ending → Option Rollout
  | abandoned => none
  | accepted r | refused r => some r

/-- Layouts that live sessions lead to from a first one, with how the sessions ended, one after the
other. -/
inductive Course (first : Layout) : List Ending → Layout → Prop
  | materialize {s : Session} :
      s.Reachable → Layout.materialize s.dataflow = .ok first → Course first [] first
  | abandon {endings : List Ending} {l p : Layout} (edits : List Edit) :
      Course first endings l → ((Session.onLayout l).runAll edits).2.target = .live p →
        Course first (endings ++ [.abandoned]) p
  | accept {endings : List Ending} {l l' : Layout} {r : Rollout} {σ : Type} (edits : List Edit)
      (deployer : Deployer σ) (world world' : σ) :
      Course first endings l →
        ((Session.onLayout l).runAll edits).2.apply deployer world = ⟨.ok r, .live l', world'⟩ →
          Course first (endings ++ [.accepted r]) l'
  | refuse {endings : List Ending} {l l' : Layout} {r : Rollout} {e : PlanError} {σ : Type}
      (edits : List Edit) (deployer : Deployer σ) (world world' : σ) :
      Course first endings l →
        ((Session.onLayout l).runAll edits).2.apply deployer.noting (world, none) =
          ⟨.error e, .live l', (world', some r)⟩ →
            Course first (endings ++ [.refused r]) l'

namespace Course

variable {first l l' : Layout} {endings : List Ending} {e : Ending} {id : InstanceId} {r : Rollout}

section Keeps

variable {P : List Ending → Layout → Prop}
  (hstart : ∀ s : Session, s.Reachable → Layout.materialize s.dataflow = .ok first → P [] first)
  (habandon : ∀ endings l changes p, l.Sound → P endings l → l.Edited changes p →
    P (endings ++ [.abandoned]) p)
  (happly : ∀ endings l changes p e r l', l.Sound → P endings l → l.Edited changes p →
    p.reconcile changes = .ok (r, l') → Ending.rollout? e = some r → P (endings ++ [e]) l')

include hstart habandon happly

/-- **The induction along a course**: what the first layout has, what every run of edits keeps, and what
every rollout keeps whether the deployer accepts it or not. -/
theorem keeps (h : Course first endings l) : P endings l := by
  have hall : l.Sound ∧ P endings l := by
    induction h with
    | materialize hs hok => exact ⟨Layout.sound_materialize hs.anchored hok, hstart _ hs hok⟩
    | @abandon endings l p edits _ htarget ih =>
      obtain ⟨hsound, hP⟩ := ih
      obtain ⟨changes, hs, hedited⟩ := hsound.edited edits
      rw [hs] at htarget
      cases htarget
      exact ⟨hedited.sound, habandon _ _ _ _ hsound hP hedited⟩
    | @accept endings l l' r σ edits deployer world world' _ hend ih =>
      obtain ⟨hsound, hP⟩ := ih
      obtain ⟨changes, hs, hedited⟩ := hsound.edited edits
      rw [hs] at hend
      have hr := hedited.reconcile_of_accepted hend
      exact ⟨hedited.sound.alike (Layout.alike_of_reconcile hr),
        happly _ _ _ _ (.accepted r) _ _ hsound hP hedited hr rfl⟩
    | @refuse endings l l' r e σ edits deployer world world' _ hend ih =>
      obtain ⟨hsound, hP⟩ := ih
      obtain ⟨changes, hs, hedited⟩ := hsound.edited edits
      rw [hs] at hend
      have hr := hedited.reconcile_of_noted hend
      exact ⟨hedited.sound.alike (Layout.alike_of_reconcile hr),
        happly _ _ _ _ (.refused r) _ _ hsound hP hedited hr rfl⟩
  exact hall.2

end Keeps

theorem sound (h : Course first endings l) : l.Sound :=
  keeps (P := fun _ l => l.Sound) (fun _ hs hok => Layout.sound_materialize hs.anchored hok)
    (fun _ _ _ _ _ _ hedited => hedited.sound)
    (fun _ _ _ _ _ _ _ _ _ hedited hr _ => hedited.sound.alike (Layout.alike_of_reconcile hr)) h

/-- Every session of a course can be given up. -/
theorem abandoned (h : Course first endings l) (edits : List Edit) :
    Course first (endings ++ [.abandoned]) (l.edited edits) := by
  obtain ⟨changes, hs, _⟩ := h.sound.edited edits
  have htarget : ((Session.onLayout l).runAll edits).2.target = .live (l.edited edits) := by rw [hs]
  exact .abandon edits h htarget

/-- Every session of a course can be accepted. -/
theorem accepted (h : Course first endings l) (edits : List Edit) :
    Course first (endings ++ [.accepted (l.rollout edits)]) (l.rolledOut edits) :=
  .accept edits Deployer.accepting () () h (h.sound.apply_eq edits Deployer.accepting ())

/-- Every session of a course can be refused. -/
theorem refused (h : Course first endings l) (edits : List Edit) :
    Course first (endings ++ [.refused (l.rollout edits)]) (l.rolledOut edits) :=
  have hend := h.sound.apply_eq edits
    (Deployer.refusing (.reported .deployment "no room")).noting ((), none)
  .refuse edits _ () () h hend

/-- Right after a session that was not given up, everything has a container. -/
theorem placed_of_last (h : Course first endings l) (hlast : endings.getLast? ≠ some .abandoned)
    (hid : l.Present id) : l.Placed id := by
  refine keeps (P := fun endings l => endings.getLast? ≠ some .abandoned →
    ∀ id, l.Present id → l.Placed id) ?_ ?_ ?_ h hlast id hid
  · intro s hs hok _ id hid
    exact (Layout.settled_materialize hs.anchored hok).placed id hid
  · intro endings l changes p _ _ _ hlast
    rw [List.getLast?_concat] at hlast
    exact absurd rfl hlast
  · intro endings l changes p e r l' _ _ hedited hr _ _ id hid
    exact Layout.placed_of_reconcile hedited.sound.laid.numbered hr hid

/-! ## What containers tell -/

/-- Whether an instance is of the first layout, or a rollout of the course was to start it. -/
def Scheduled (first : Layout) (endings : List Ending) (id : InstanceId) : Prop :=
  first.Present id ∨ ∃ e ∈ endings, ∃ r, e.rollout? = some r ∧ id ∈ r.started

theorem scheduled_concat : Scheduled first (endings ++ [e]) id ↔
    Scheduled first endings id ∨ ∃ r, e.rollout? = some r ∧ id ∈ r.started := by
  unfold Scheduled
  simp only [List.mem_append, List.mem_singleton, or_and_right, exists_or, exists_eq_left, or_assoc]

theorem scheduled_abandoned :
    Scheduled first (endings ++ [.abandoned]) id ↔ Scheduled first endings id := by
  rw [scheduled_concat]
  simp [Ending.rollout?]

/-- What scheduled instances have in common: a number that was given, and a container while they are
there. -/
structure Posted (first : Layout) (endings : List Ending) (l : Layout) : Prop where
  bounded : ∀ id, Scheduled first endings id → id.val ≤ l.lastInstance
  placed : ∀ id, l.Present id → (l.Placed id ↔ Scheduled first endings id)

namespace Posted

variable {p : Layout} {changes : ChangeSet}

theorem start {s : Session} (hs : s.Reachable) (hok : Layout.materialize s.dataflow = .ok first) :
    Posted first [] first := by
  have hsettled := Layout.settled_materialize hs.anchored hok
  have hscheduled : ∀ id, Scheduled first [] id ↔ first.Present id := by
    intro id
    simp [Scheduled]
  constructor
  · intro id hid
    exact hsettled.sound.laid.numbered.bounded id ((hscheduled id).1 hid)
  · intro id hid
    rw [hscheduled]
    exact iff_of_true (hsettled.placed id hid) hid

/-- Edits make instances without a container, whose numbers nobody has heard of. -/
theorem edited (h : Posted first endings l) (hl : l.Sound) (he : l.Edited changes p) :
    Posted first endings p := by
  have hnum := hl.laid.numbered
  constructor
  · intro id hid
    exact Nat.le_trans (h.bounded id hid) he.grows.lastInstance
  · intro id hnow
    rw [he.grows.placed_iff hnum]
    by_cases hbefore : l.Present id
    · rw [← h.placed id hbefore]
      exact and_iff_left hnow
    · have hnot : ¬ l.Placed id := fun hplaced => hbefore hplaced.present
      have hunheard : ¬ Scheduled first endings id := by
        intro hid
        have hle := h.bounded id hid
        have hlt := he.grows.fresh hnow hbefore
        omega
      exact iff_of_false (fun hplaced => hnot hplaced.1) hunheard

/-- A rollout places everything, and starts what had no container. -/
theorem reconciled (h : Posted first endings p) (he : l.Edited changes p)
    (hr : p.reconcile changes = .ok (r, l')) (hrollout : e.rollout? = some r) :
    Posted first (endings ++ [e]) l' := by
  have hp := he.sound.intact
  have hb := he.accounts.balances
  have halike := Layout.alike_of_reconcile hr
  have hscheduled : ∀ id, Scheduled first (endings ++ [e]) id ↔
      Scheduled first endings id ∨ id ∈ r.started := by
    intro id
    rw [scheduled_concat, hrollout]
    simp
  constructor
  · intro id hid
    rw [halike.lastInstance]
    rcases (hscheduled id).1 hid with hold | hstarted
    · exact h.bounded id hold
    · exact hp.numbered.bounded id (Layout.present_of_mem_started hp hb hr hstarted)
  · intro id hid
    have hnow : p.Present id := (halike.isSome id).symm.trans hid
    refine iff_of_true (Layout.placed_of_reconcile hp.numbered hr hid) ((hscheduled id).2 ?_)
    by_cases hplaced : p.Placed id
    · exact .inl ((h.placed id hnow).1 hplaced)
    · have hnovel : id ∈ p.novel changes := Layout.mem_novel_of_not_placed hp.numbered hnow hplaced
      exact .inr ((Layout.mem_started_iff hp hb hr).2 ⟨id, .inl hnovel, .refl⟩)

end Posted

/-- **All along a course, the instances with a container are those of the first layout and those that a
rollout was to start.** -/
theorem posted (h : Course first endings l) : Posted first endings l := by
  refine keeps (P := Posted first) ?_ ?_ ?_ h
  · intro s hs hok
    exact .start hs hok
  · intro endings l changes p hl hposted hedited
    have hp := hposted.edited hl hedited
    constructor
    · intro id hid
      exact hp.bounded id (scheduled_abandoned.1 hid)
    · intro id hid
      rw [scheduled_abandoned]
      exact hp.placed id hid
  · intro endings l changes p e r l' hl hposted hedited hr hrollout
    exact (hposted.edited hl hedited).reconciled hedited hr hrollout

/-! ## What is stopped -/

/-- **What a rollout stops that nothing ever started**: exactly what a session that was given up had left
without a container, and the session of the rollout has taken away.  All else that is stopped is of the
first layout or was to be started by an earlier rollout. -/
theorem stopped_unscheduled_iff {σ : Type} {deployer : Deployer σ} {world world' : σ}
    (h : Course first endings l) (edits : List Edit)
    (happly : ((Session.onLayout l).runAll edits).2.apply deployer world =
      ⟨.ok r, .live l', world'⟩) (id : InstanceId) :
    (id ∈ r.stopped ∧ ¬ Scheduled first endings id) ↔ (id ∈ l.unplaced ∧ ¬ l'.Present id) := by
  obtain ⟨changes, hs, he⟩ := h.sound.edited edits
  rw [hs] at happly
  have hr := he.reconcile_of_accepted happly
  generalize l.edited edits = p at he hr
  have hnum := h.sound.laid.numbered
  have hp := he.sound.intact
  have hb := he.accounts.balances
  have hposted := h.posted
  have hafter := hposted.edited h.sound he
  have hsame : l'.Present id ↔ p.Present id := by
    unfold Layout.Present
    rw [(Layout.alike_of_reconcile hr).isSome]
  rw [Layout.stopped_eq hp hb hr, SortedSet.mem_union, SortedSet.mem_sdiff, (hb id).removed, hsame,
    Layout.mem_unplaced_iff_not_placed hnum]
  constructor
  · rintro ⟨⟨hstarted, hnovel⟩ | ⟨hbefore, hgone⟩, hnever⟩
    · -- what runs on has a container, so it was scheduled
      have hnow : p.Present id := Layout.present_of_mem_started hp hb hr hstarted
      have hplaced : p.Placed id := by
        by_contra hno
        exact hnovel (Layout.mem_novel_of_not_placed hp.numbered hnow hno)
      exact absurd ((hafter.placed id hnow).1 hplaced) hnever
    · have hno : ¬ l.Placed id := fun hplaced => hnever ((hposted.placed id hbefore).1 hplaced)
      exact ⟨⟨hbefore, hno⟩, hgone⟩
  · rintro ⟨⟨hbefore, hno⟩, hgone⟩
    have hnever : ¬ Scheduled first endings id := fun hid => hno ((hposted.placed id hbefore).2 hid)
    exact ⟨.inr ⟨hbefore, hgone⟩, hnever⟩

/-- A session adds an operator and is given up. -/
def leftover : Layout := Layout.single.edited [.addOperator "b" .relay]

theorem leftover_course : Course .single [.abandoned] leftover :=
  abandoned (.materialize Session.reachable_single rfl) [.addOperator "b" .relay]

/-- The next session removes the operator, which was never started, and has it stopped. -/
theorem stopped_unscheduled :
    Course .single [.abandoned] leftover ∧
    ∃ r l', ((Session.onLayout leftover).runAll [.removeOperator "b"]).2.apply Deployer.accepting () =
      ⟨.ok r, .live l', ()⟩ ∧ ⟨2⟩ ∈ r.stopped ∧ ¬ Scheduled .single [.abandoned] ⟨2⟩ := by
  have happly := leftover_course.sound.apply_eq [.removeOperator "b"] Deployer.accepting ()
  have hstopped : ⟨2⟩ ∈ (leftover.rollout [.removeOperator "b"]).stopped := by decide +kernel
  have hfirst : ¬ Layout.single.Present ⟨2⟩ := by decide +kernel
  refine ⟨leftover_course, _, _, happly, hstopped, ?_⟩
  rintro (hid | ⟨e, he, r, hr, _⟩)
  · exact hfirst hid
  · obtain rfl : e = .abandoned := by simpa using he
    cases hr

/-- A session adds two operators and is given up; the next one removes one of the two, and one that
runs. -/
theorem stopped_unscheduled_iff_forked :
    let l := Session.forked.edited [.addOperator "e" .relay, .addOperator "f" .relay]
    ∃ r l', Course Session.forked [.abandoned] l ∧
      ((Session.onLayout l).runAll [.removeOperator "e", .removeOperator "c"]).2.apply
        Deployer.accepting () = ⟨.ok r, .live l', ()⟩ ∧
      r.stopped.toList = [⟨3⟩, ⟨5⟩] ∧ l.unplaced.toList = [⟨5⟩, ⟨6⟩] ∧
      l'.ids.toList = [⟨1⟩, ⟨2⟩, ⟨4⟩, ⟨6⟩] ∧
      ∀ id, (id ∈ r.stopped ∧ ¬ Scheduled Session.forked [.abandoned] id) ↔
        (id ∈ l.unplaced ∧ ¬ l'.Present id) := by
  intro l
  have hcourse : Course Session.forked [.abandoned] l :=
    abandoned (.materialize Session.reachable_forking Session.materialize_forking) _
  have happly : ((Session.onLayout l).runAll [.removeOperator "e", .removeOperator "c"]).2.apply
      Deployer.accepting () = ⟨.ok (l.rollout [.removeOperator "e", .removeOperator "c"]),
        .live (l.rolledOut [.removeOperator "e", .removeOperator "c"]), ()⟩ :=
    hcourse.sound.apply_eq _ Deployer.accepting ()
  have hstopped : (l.rollout [.removeOperator "e", .removeOperator "c"]).stopped.toList =
      [⟨3⟩, ⟨5⟩] := by decide +kernel
  have hunplaced : l.unplaced.toList = [⟨5⟩, ⟨6⟩] := by decide +kernel
  have hids : (l.rolledOut [.removeOperator "e", .removeOperator "c"]).ids.toList =
      [⟨1⟩, ⟨2⟩, ⟨4⟩, ⟨6⟩] := by decide +kernel
  exact ⟨_, _, hcourse, happly, hstopped, hunplaced, hids,
    stopped_unscheduled_iff hcourse [.removeOperator "e", .removeOperator "c"] happly⟩

/-! ## What is forgotten -/

/-- **What a course can forget.**  Right after a session that was not given up, an instance is of the first
layout, or an accepted rollout has started it, or else a refused one was to start it: nothing is forgotten
but by a deployer's refusal. -/
theorem present_of_applied (h : Course first endings l) (hlast : endings.getLast? ≠ some .abandoned)
    (hid : l.Present id) :
    first.Present id ∨ (∃ r, .accepted r ∈ endings ∧ id ∈ r.started) ∨
      ∃ r, .refused r ∈ endings ∧ id ∈ r.started := by
  have hplaced : l.Placed id := h.placed_of_last hlast hid
  rcases (h.posted.placed id hid).1 hplaced with hfirst | ⟨e, he, r, hr, hstarted⟩
  · exact .inl hfirst
  · right
    cases e with
    | abandoned => cases hr
    | accepted r' =>
      cases hr
      exact .inl ⟨r, he, hstarted⟩
    | refused r' =>
      cases hr
      exact .inr ⟨r, he, hstarted⟩

/-- The deployer refuses to start a new operator, and is not asked again. -/
theorem present_forgotten :
    ∃ r₁ r₂ l, Course .single [.refused r₁, .accepted r₂] l ∧ l.Present ⟨2⟩ ∧
      ¬ Layout.single.Present ⟨2⟩ ∧ ⟨2⟩ ∈ r₁.started ∧ ⟨2⟩ ∉ r₂.started := by
  have hcourse := (refused (.materialize Session.reachable_single rfl)
    [.addOperator "b" .relay]).accepted []
  have hpresent : ((Layout.single.rolledOut [.addOperator "b" .relay]).rolledOut []).Present ⟨2⟩ := by
    decide +kernel
  have hfirst : ¬ Layout.single.Present ⟨2⟩ := by decide +kernel
  have hrefused : ⟨2⟩ ∈ (Layout.single.rollout [.addOperator "b" .relay]).started := by decide +kernel
  have hnever : ⟨2⟩ ∉ ((Layout.single.rolledOut [.addOperator "b" .relay]).rollout []).started := by
    decide +kernel
  exact ⟨_, _, _, hcourse, hpresent, hfirst, hrefused, hnever⟩

/-- One operator is left by a session that was given up, one is added by an accepted session and one by a
refused one, and then comes a session without edits. -/
theorem present_of_applied_single :
    ∃ r₁ r₂ r₃ l, Course .single [.abandoned, .accepted r₁, .refused r₂, .accepted r₃] l ∧
      l.ids.toList = [⟨1⟩, ⟨2⟩, ⟨3⟩, ⟨4⟩] ∧ r₁.started.toList = [⟨2⟩, ⟨3⟩] ∧
      r₂.started.toList = [⟨4⟩] ∧ r₃.started.toList = [] ∧
      ∀ id, l.Present id → Layout.single.Present id ∨
        (∃ r, Ending.accepted r ∈ [.abandoned, .accepted r₁, .refused r₂, .accepted r₃] ∧
          id ∈ r.started) ∨
        ∃ r, Ending.refused r ∈ [.abandoned, .accepted r₁, .refused r₂, .accepted r₃] ∧
          id ∈ r.started := by
  have hcourse := ((leftover_course.accepted [.addOperator "c" .relay]).refused
    [.addOperator "d" .relay]).accepted []
  refine ⟨_, _, _, _, hcourse, ?_, ?_, ?_, ?_, fun id hid => present_of_applied hcourse ?_ hid⟩
  · decide +kernel
  · decide +kernel
  · decide +kernel
  · decide +kernel
  · intro hlast
    cases hlast

end Course

end LiveDataflow
