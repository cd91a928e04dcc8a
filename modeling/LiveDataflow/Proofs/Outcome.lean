import LiveDataflow.Proofs.Cluster

/-!
# What comes of a session

A session on a sound layout leaves the layout that its edits lead to, whether it is given up or applied,
and it always comes to one rollout.  This module says what the edits do to the instances, and gives the
layout and the rollout as functions of the edits.

## Results

* `Layout.Grows`: edits make instances that have new numbers and no container, and take others away.
* `Session.Live.begunOn`, `Session.BegunOn.exists_reconcile`: every live session was begun on a layout, and
  comes to a rollout.
* `Layout.Sound.edited`: what a run of edits leaves, with the account of it.
* `Layout.Sound.apply_eq`: the end of a session, for every deployer.
-/

set_option autoImplicit false

namespace LiveDataflow

/-! ## What edits do to instances -/

namespace Layout

variable {l l₀ l' : Layout} {id : InstanceId} {i : Instance} {m : Move}

/-- Since `l₀` instances were made and taken away, and nothing else was done to them.  What was made has a
number that `l₀` had not given, and no container. -/
structure Grows (l₀ l : Layout) : Prop where
  lastInstance : l₀.lastInstance ≤ l.lastInstance
  instances : ∀ id i, l.instance? id = some i →
    l₀.instance? id = some i ∨ (l₀.lastInstance < id.val ∧ i.container = none)

namespace Grows

theorem refl (l : Layout) : l.Grows l := ⟨Nat.le_refl _, fun _ _ hi => .inl hi⟩

theorem trans (h : l₀.Grows l) (h' : l.Grows l') : l₀.Grows l' := by
  have hle := h.lastInstance
  refine ⟨Nat.le_trans hle h'.lastInstance, ?_⟩
  intro id i hi
  rcases h'.instances id i hi with hold | ⟨hnew, hbare⟩
  · exact h.instances id i hold
  · have hlt : l₀.lastInstance < id.val := by omega
    exact .inr ⟨hlt, hbare⟩

/-- The instances are the same, or fewer. -/
theorem of_subset (hlast : l'.lastInstance = l.lastInstance)
    (h : ∀ id i, l'.instance? id = some i → l.instance? id = some i) : l.Grows l' :=
  ⟨Nat.le_of_eq hlast.symm, fun id i hi => .inl (h id i hi)⟩

theorem of_without {l₁ : Layout} {ids : List InstanceId} (h : l₁.Without ids l')
    (hinstances : l₁.instances = l.instances) (hlast : l₁.lastInstance = l.lastInstance) :
    l.Grows l' := by
  refine .of_subset (h.lastInstance.trans hlast) ?_
  intro id i hi
  have hold := (h.instance?_eq_some_iff.1 hi).2
  unfold Layout.instance? at hold ⊢
  rw [← hinstances]
  exact hold

theorem addOperator {name : String} {ids : List InstanceId} (hok : l.addOperator name = .ok (ids, l')) :
    l.Grows l' := by
  obtain ⟨partitions, wires, _, rfl⟩ := wires_only_addOperator hok
  refine ⟨Nat.le_add_right _ _, ?_⟩
  intro id i hi
  rcases instance?_enter.1 hi with ⟨hnew, rfl⟩ | ⟨_, hold⟩
  · obtain ⟨p, _, rfl⟩ := mem_freshInstances_iff.1 hnew
    have hlt : l.lastInstance < l.lastInstance + 1 + p := by omega
    exact .inr ⟨hlt, rfl⟩
  · exact .inl hold

/-- **Every move only makes or takes away instances.** -/
theorem after (l : Layout) (m : Move) : l.Grows (l.after m).2 := by
  have hsame : ∀ {l l' : Layout}, l'.instances = l.instances → l'.lastInstance = l.lastInstance → l.Grows l' := by
    intro l l' hinstances hlast
    refine .of_subset hlast fun id i hi => ?_
    unfold Layout.instance? at hi ⊢
    rwa [hinstances] at hi
  refine after_keeps (P := l.Grows) ?plan ?add ?remove ?connect ?drop (.refl l)
  case plan => exact fun h => h.trans (hsame rfl rfl)
  case add => exact fun hok h => h.trans (.addOperator hok)
  case remove => exact fun name h => h.trans (.of_without (without_removeOperator _ name) rfl rfl)
  case connect =>
    intro p p' stream sink ids hok h
    obtain ⟨s, _, _, _, rfl⟩ := connectSink_eq_ok_iff.1 hok
    exact h.trans (hsame rfl rfl)
  case drop =>
    intro p p' stream ids hok h
    obtain ⟨s, _, _, rfl⟩ := dropStream_eq_ok_iff.1 hok
    exact h.trans (hsame rfl rfl)

/-- What `l₀` did not have is new. -/
theorem fresh (h : l₀.Grows l) (hnow : l.Present id) (hbefore : ¬ l₀.Present id) :
    l₀.lastInstance < id.val := by
  obtain ⟨i, hi⟩ := Option.isSome_iff_exists.1 hnow
  rcases h.instances id i hi with hold | ⟨hnew, _⟩
  · exact absurd (present_of_instance? hold) hbefore
  · exact hnew

/-- Edits place nothing. -/
theorem placed_iff (h : l₀.Grows l) (hnum : l₀.Numbered) :
    l.Placed id ↔ l₀.Placed id ∧ l.Present id := by
  constructor
  · rintro ⟨i, hi, hcontainer⟩
    have hnow : l.Present id := present_of_instance? hi
    rcases h.instances id i hi with hold | ⟨_, hbare⟩
    · exact ⟨⟨i, hold, hcontainer⟩, hnow⟩
    · exact absurd hbare hcontainer
  · rintro ⟨⟨j, hj, hcontainer⟩, hnow⟩
    obtain ⟨i, hi⟩ := Option.isSome_iff_exists.1 hnow
    rcases h.instances id i hi with hold | ⟨hnew, _⟩
    · rw [hj] at hold
      cases hold
      exact ⟨j, hi, hcontainer⟩
    · have hbound := hnum.bounded id (present_of_instance? hj)
      omega

end Grows

/-- What a session on `l₀` has made of it, with the account of the session. -/
structure Edited (l₀ : Layout) (changes : ChangeSet) (l : Layout) : Prop where
  sound : l.Sound
  accounts : ChangeSet.Accounts l₀ changes l
  grows : l₀.Grows l

namespace Edited

variable {changes : ChangeSet} {r : Rollout} {σ : Type} {deployer : Deployer σ} {world world' : σ}

theorem start (h : l.Sound) : l.Edited ∅ l := ⟨h, .start h.laid.numbered, .refl l⟩

theorem after (h : l₀.Edited changes l) (hm : l.dataflow.Admits m) :
    l₀.Edited (changes.after (l.after m).1 m) (l.after m).2 :=
  ⟨h.sound.after hm, h.accounts.after h.sound hm, h.grows.trans (.after l m)⟩

/-- The end of a session is that of its rollout. -/
theorem reconcile_of_apply {result : Except PlanError Rollout} (h : l₀.Edited changes l)
    (happly : Session.apply ⟨.live l, changes⟩ deployer world = ⟨result, .live l', world'⟩) :
    ∃ r, l.reconcile changes = .ok (r, l') ∧ result = (deployer r world).1.map (fun _ => r) ∧
      world' = (deployer r world).2 := by
  obtain ⟨r, l₁, hr⟩ := exists_reconcile h.sound.intact h.accounts.balances
  rw [Session.apply_eq_of_reconcile deployer world hr] at happly
  cases happly
  exact ⟨r, hr, rfl, rfl⟩

theorem reconcile_of_accepted (h : l₀.Edited changes l)
    (happly : Session.apply ⟨.live l, changes⟩ deployer world = ⟨.ok r, .live l', world'⟩) :
    l.reconcile changes = .ok (r, l') := by
  obtain ⟨r', hr, hresult, _⟩ := h.reconcile_of_apply happly
  cases hanswer : (deployer r' world).1 with
  | error e => rw [hanswer] at hresult; cases hresult
  | ok u => rw [hanswer] at hresult; cases hresult; exact hr

end Edited

end Layout

/-! ## Sessions that have a beginning -/

namespace Session

variable {s : Session} {l₀ : Layout}

/-- The session was begun on a layout, and works on what it has made of it. -/
def BegunOn (l₀ : Layout) (s : Session) : Prop := ∃ l, s.target = .live l ∧ l₀.Edited s.changes l

theorem begunOn_of_sound {target : Target} (h : Session.Sound ⟨target, ∅⟩) :
    ∃ l₀, Session.BegunOn l₀ ⟨target, ∅⟩ := by
  obtain ⟨l, hl, hs⟩ := h
  exact ⟨l, l, hl, .start hs⟩

theorem BegunOn.sound (h : s.BegunOn l₀) : s.Sound := by
  obtain ⟨l, hl, he⟩ := h
  exact ⟨l, hl, he.sound⟩

theorem BegunOn.step (h : s.BegunOn l₀) (e : Edit) : (s.step e).after.BegunOn l₀ := by
  refine step_keeps (P := fun s => s.BegunOn l₀) ?_ h.sound.anchored h e
  rintro ⟨target, changes⟩ m ⟨l, rfl, he⟩ hm
  exact ⟨(l.after m).2, rfl, he.after hm⟩

theorem BegunOn.runAll (h : s.BegunOn l₀) (edits : List Edit) : (s.runAll edits).2.BegunOn l₀ :=
  runAll_keeps (P := fun s => s.BegunOn l₀) (fun _ e hs => hs.step e) h edits

/-- Every session on a layout that only sessions have changed was begun on one. -/
theorem Live.begunOn (h : s.Live) : ∃ l₀, s.BegunOn l₀ := by
  refine h.keeps (P := fun s => ∃ l₀, s.BegunOn l₀) (fun hs hok => ?_) (fun e _ hs => ?_) (fun _ hs => ?_)
    fun deployer world hlive _ => ?_
  · exact begunOn_of_sound ⟨_, rfl, Layout.sound_materialize hs.anchored hok⟩
  · exact hs.imp fun _ hs => hs.step e
  · obtain ⟨_, hs⟩ := hs
    exact begunOn_of_sound hs.sound
  · exact begunOn_of_sound (hlive.sound.apply deployer world)

/-- **A session that was begun on a layout comes to a rollout**, and only the deployer can refuse it. -/
theorem BegunOn.exists_reconcile (h : s.BegunOn l₀) : ∃ l r l', s.target = .live l ∧
    l₀.Edited s.changes l ∧ l.reconcile s.changes = .ok (r, l') ∧
    ∀ {σ : Type} (deployer : Deployer σ) (world : σ), s.apply deployer world =
      ⟨(deployer r world).1.map fun _ => r, .live l', (deployer r world).2⟩ := by
  obtain ⟨target, changes⟩ := s
  obtain ⟨l, rfl, he⟩ := h
  obtain ⟨r, l', hr⟩ := Layout.exists_reconcile he.sound.intact he.accounts.balances
  exact ⟨l, r, l', rfl, he, hr, fun deployer world => apply_eq_of_reconcile deployer world hr⟩

end Session

/-! ## Sessions as functions -/

namespace Layout

variable {l : Layout}

/-- The layout that a live session leaves when it is given up. -/
def edited (l : Layout) (edits : List Edit) : Layout :=
  match ((Session.onLayout l).runAll edits).2.target with
  | .plan _ => l
  | .live p => p

/-- The rollout that a live session hands to a deployer. -/
def rollout (l : Layout) (edits : List Edit) : Rollout :=
  match (((Session.onLayout l).runAll edits).2.apply Deployer.accepting ()).result with
  | .ok r => r
  | .error _ => ⟨∅, ∅, ∅, ∅⟩

/-- The layout that a live session leaves when it hands its rollout to a deployer. -/
def rolledOut (l : Layout) (edits : List Edit) : Layout :=
  match (((Session.onLayout l).runAll edits).2.apply Deployer.accepting ()).target with
  | .plan _ => l
  | .live p => p

/-- What edits make of a layout, and the account of them. -/
theorem Sound.edited (h : l.Sound) (edits : List Edit) :
    ∃ changes, ((Session.onLayout l).runAll edits).2 = ⟨.live (l.edited edits), changes⟩ ∧
      l.Edited changes (l.edited edits) := by
  have hstart : (Session.onLayout l).BegunOn l := ⟨l, rfl, .start h⟩
  have hrun : ((Session.onLayout l).runAll edits).2.BegunOn l := hstart.runAll edits
  unfold Layout.edited
  generalize ((Session.onLayout l).runAll edits).2 = s at hrun ⊢
  obtain ⟨target, changes⟩ := s
  obtain ⟨p, rfl, hedited⟩ := hrun
  exact ⟨changes, rfl, hedited⟩

/-- **Every session comes to a rollout, and only the deployer can refuse it.** -/
theorem Sound.apply_eq (h : l.Sound) (edits : List Edit) {σ : Type} (deployer : Deployer σ) (world : σ) :
    ((Session.onLayout l).runAll edits).2.apply deployer world =
      ⟨(deployer (l.rollout edits) world).1.map fun _ => l.rollout edits, .live (l.rolledOut edits),
        (deployer (l.rollout edits) world).2⟩ := by
  have hstart : (Session.onLayout l).BegunOn l := ⟨l, rfl, .start h⟩
  obtain ⟨_, r, l', _, _, _, happly⟩ := (hstart.runAll edits).exists_reconcile
  have hrollout : l.rollout edits = r := by
    unfold rollout
    rw [happly]
    rfl
  have hrolledOut : l.rolledOut edits = l' := by
    unfold rolledOut
    rw [happly]
  rw [hrollout, hrolledOut]
  exact happly deployer world

end Layout

end LiveDataflow
