import LiveDataflow.Proofs.History
import LiveDataflow.Proofs.Numbered

/-!
# Layouts stay intact

Whatever a program does with a layout, its instances stay filed under their operators and its wires join
instances that are there: through the edits and the ends of sessions, and through all that can be called
on the layout between two sessions, also when its plan was changed by itself.

## Results

* `Layout.Intact`: the invariant.
* `Layout.Intact.after`: every move keeps it, whether the plan grants the move or not.
* `Layout.Method.intact`: so does everything that can be called on a layout.
* `Session.On.after`, `Session.On.apply`: what moves and rollouts keep of a layout stays true in a session.
* `Session.Reachable.intact`: every layout that comes about is intact.
-/

set_option autoImplicit false

namespace LiveDataflow.Layout

variable {l l' : Layout} {name : String} {sink : PortAddress} {s : Stream} {w : Wire}
  {id : InstanceId} {ids : List InstanceId}

theorem instancesOf_of_absent (h : l.byOperator.contains name = false) : l.instancesOf name = [] := by
  unfold SortedMap.contains at h
  unfold instancesOf
  cases hn : l.byOperator.get? name with
  | none => rfl
  | some ids => rw [hn] at h; cases h

/-- What a layout loses with an operator. -/
theorem without_after_removeStage (h : l.Numbered) (name : String) :
    ({ l with
      dataflow := l.dataflow.removeStage name
      byOperator := l.byOperator.erase name } : Layout).Without (l.instancesOf name)
        (l.after (.removeStage name)).2 := by
  have hwithout := without_removeOperator { l with dataflow := l.dataflow.removeStage name } name
  have hpresent : ({ l with dataflow := l.dataflow.removeStage name } : Layout).presentOf name =
      l.instancesOf name := h.presentOf_eq name
  rw [hpresent] at hwithout
  exact hwithout

theorem mem_after_removeStage (h : l.Numbered) {name : String} :
    id ∈ (l.after (.removeStage name)).1 ↔ id ∈ l.instancesOf name := by
  rw [← h.presentOf_eq]
  exact SortedSet.mem_ofList

/-- A mesh joins instances that are there. -/
theorem present_of_mem_mesh (hw : w ∈ l.mesh s sink) : l.Present w.source ∧ l.Present w.target := by
  obtain ⟨hsource, htarget, _, _⟩ := mem_mesh_iff.1 hw
  exact ⟨(mem_presentOf_iff.1 hsource).2, (mem_presentOf_iff.1 htarget).2⟩

/-- Instances are filed under their operators, and wires join instances that are there. -/
structure Intact (l : Layout) : Prop where
  numbered : l.Numbered
  ends : ∀ w ∈ l.wires, l.Present w.source ∧ l.Present w.target

namespace Intact

theorem ofDataflow (d : Dataflow) : (Layout.ofDataflow d).Intact :=
  ⟨.ofDataflow d, fun _ hw => (nomatch hw)⟩

theorem withDataflow (h : l.Intact) (d : Dataflow) : ({ l with dataflow := d } : Layout).Intact :=
  ⟨h.numbered.of_same rfl rfl rfl, h.ends⟩

theorem alike (h : l.Intact) (ha : l.Alike l') : l'.Intact := by
  refine ⟨h.numbered.alike ha, fun w hw => ?_⟩
  rw [ha.wires] at hw
  unfold Present
  rw [ha.isSome, ha.isSome]
  exact h.ends w hw

/-! ## Wires -/

theorem wireSink (h : l.Intact) (s : Stream) (sink : PortAddress) : (l.wireSink s sink).Intact := by
  refine ⟨h.numbered.of_same rfl rfl rfl, fun w hw => ?_⟩
  rcases mem_wires_wireSink.1 hw with hold | hnew
  · exact h.ends w hold
  · exact present_of_mem_mesh hnew

theorem wireStreams (h : l.Intact) (streams : List Stream) : (streams.foldl wireStream l).Intact := by
  induction streams generalizing l with
  | nil => exact h
  | cons s rest ih =>
    refine ih ?_
    unfold wireStream
    induction s.sinks generalizing l with
    | nil => exact h
    | cons sink more ihs => exact ihs (h.wireSink s sink)

theorem filterWires (h : l.Intact) (p : Wire → Bool) :
    ({ l with wires := l.wires.filter p } : Layout).Intact :=
  ⟨h.numbered.of_same rfl rfl rfl, fun w hw => h.ends w (List.mem_filter.1 hw).1⟩

theorem connectSink {stream : String} {ids : SortedSet InstanceId} (h : l.Intact)
    (hok : l.connectSink stream sink = .ok (ids, l')) : l'.Intact := by
  obtain ⟨s, _, _, _, rfl⟩ := connectSink_eq_ok_iff.1 hok
  exact h.wireSink s sink

theorem dropStream {stream : String} {ids : SortedSet InstanceId} (h : l.Intact)
    (hok : l.dropStream stream = .ok (ids, l')) : l'.Intact := by
  obtain ⟨s, _, _, rfl⟩ := dropStream_eq_ok_iff.1 hok
  exact h.filterWires _

/-! ## Operators -/

theorem enter (h : l.Intact) (hname : l.instancesOf name = []) (partitions : Nat) :
    (l.enter name (l.freshInstances name partitions)).Intact := by
  refine ⟨h.numbered.enter hname partitions, fun w hw => ?_⟩
  obtain ⟨hsource, htarget⟩ := h.ends w hw
  exact ⟨h.numbered.present_enter.2 (.inr hsource), h.numbered.present_enter.2 (.inr htarget)⟩

theorem addOperator (h : l.Intact) (hok : l.addOperator name = .ok (ids, l')) : l'.Intact := by
  obtain ⟨stage, _, habsent, _, rfl⟩ := addOperator_eq_ok_iff.1 hok
  exact (h.enter (instancesOf_of_absent habsent) stage.partitions).wireStreams _

theorem addOperators {names : List String} (h : l.Intact)
    (hok : l.addOperators names = .ok (ids, l')) : l'.Intact :=
  addOperators_keeps (fun hone h => h.addOperator hone) h hok

/-- The wires of the instances that go, go with them. -/
theorem removeOperator (h : l.Intact) (name : String) : (l.removeOperator name).2.Intact := by
  have hwithout := without_removeOperator l name
  refine ⟨h.numbered.without hwithout, fun w hw => ?_⟩
  rw [hwithout.wires, h.numbered.presentOf_eq] at hw
  obtain ⟨hw, hends⟩ := List.mem_filter.1 hw
  rw [decide_eq_true_eq] at hends
  obtain ⟨hsource, htarget⟩ := h.ends w hw
  exact ⟨(h.numbered.present_without hwithout).2 ⟨hsource, hends.1⟩,
    (h.numbered.present_without hwithout).2 ⟨htarget, hends.2⟩⟩

/-! ## Moves and calls -/

/-- **Every move keeps a layout intact.** -/
theorem after (h : l.Intact) (m : Move) : (l.after m).2.Intact :=
  after_keeps (fun h => h.withDataflow _) (fun hok h => h.addOperator hok) (fun name h => h.removeOperator name)
    (fun hok h => h.connectSink hok) (fun hok h => h.dropStream hok) h

end Intact

theorem Method.intact (hm : l.Method l') (h : l.Intact) : l'.Intact := by
  cases hm with
  | addOperator name hok => exact h.addOperator hok
  | removeOperator name => exact h.removeOperator name
  | connectSink stream sink hok => exact h.connectSink hok
  | dropStream stream hok => exact h.dropStream hok
  | place ids => exact h.alike (alike_place l ids)
  | prime id hok => exact h.alike (primes_of_prime hok).alike

theorem intact_materialize {d : Dataflow} (hok : materialize d = .ok l) : l.Intact := by
  obtain ⟨ids, l₀, _, hadd, hprime⟩ := materialize_eq_ok_iff.1 hok
  have hlaid : l₀.Intact := (Intact.ofDataflow d).addOperators hadd
  exact (hlaid.alike (alike_place l₀ _)).alike (primes_of_primeAll hprime).alike

end LiveDataflow.Layout

/-! ## Sessions -/

namespace LiveDataflow.Session

variable {s : Session} {P : Layout → Prop}

/-- The layout that a session works on, if any, has a property. -/
def On (P : Layout → Prop) (s : Session) : Prop := ∀ l, s.target = .live l → P l

theorem On.after (h : s.On P) {m : Move} (hstep : ∀ l, P l → P (l.after m).2) : (s.after m).On P := by
  obtain ⟨target, changes⟩ := s
  intro l' hl'
  cases target with
  | plan d => cases hl'
  | live l =>
    cases hl'
    exact hstep l (h l rfl)

theorem On.apply {σ : Type} (h : s.On P)
    (hstep : ∀ {l l' : Layout} {changes : ChangeSet} {r : Rollout},
      l.reconcile changes = .ok (r, l') → P l → P l')
    (deployer : Deployer σ) (world : σ) : On P ⟨(s.apply deployer world).target, ∅⟩ := by
  obtain ⟨target, changes⟩ := s
  intro l' hl'
  cases target with
  | plan d => cases hl'
  | live l =>
    obtain ⟨l₁, htarget, hend⟩ := exists_apply deployer world
    cases htarget.symm.trans hl'
    rcases hend with rfl | ⟨r, hr⟩
    · exact h l' rfl
    · exact hstep hr (h l rfl)

/-- The layout that a session works on, if any, is intact. -/
def Intact (s : Session) : Prop := ∀ l, s.target = .live l → l.Intact

theorem Intact.after (h : s.Intact) (m : Move) : (s.after m).Intact :=
  On.after (P := Layout.Intact) h fun _ hl => hl.after m

theorem Intact.step (h : s.Intact) (ha : s.dataflow.Anchored) (e : Edit) : (s.step e).after.Intact :=
  step_keeps (fun _ m hs _ => hs.after m) ha h e

theorem Intact.apply {σ : Type} (h : s.Intact) (deployer : Deployer σ) (world : σ) :
    Session.Intact ⟨(s.apply deployer world).target, ∅⟩ :=
  On.apply (P := Layout.Intact) h (fun hr hl => hl.alike (Layout.alike_of_reconcile hr)) deployer world

/-- **Every layout that comes about is intact.** -/
theorem Reachable.intact (h : s.Reachable) : s.Intact := by
  induction h with
  | empty config => intro l hl; cases hl
  | copy _ _ => intro l hl; cases hl
  | materialize _ hok _ =>
    intro l hl
    cases hl
    exact Layout.intact_materialize hok
  | edit e hs ih => exact ih.step hs.anchored e
  | abandon _ ih => exact ih
  | apply deployer world _ ih => exact ih.apply deployer world
  | modify b deployer world hl ih =>
    refine (Layout.modify_keeps (P := fun s => s.dataflow.Anchored ∧ s.Intact)
      (fun s e hs => ⟨anchored_step e hs.1, hs.2.step hs.1 e⟩) (fun s hs => hs) (fun s world hs => ?_)
      b world ⟨hl.anchored, ih⟩).2
    refine ⟨?_, hs.2.apply deployer world⟩
    show Dataflow.Anchored (Target.dataflow _)
    rw [dataflow_apply]
    exact hs.1
  | @plan s d _ _ ih =>
    intro l' hl'
    obtain ⟨target, changes⟩ := s
    cases target with
    | plan d => cases hl'
    | live l =>
      cases hl'
      exact (ih l rfl).withDataflow d
  | layout _ hm ih =>
    intro l' hl'
    cases hl'
    exact hm.intact (ih _ rfl)

end LiveDataflow.Session
