import LiveDataflow.Proofs.Together

/-!
# Instances act as their operators do

Sessions and batches keep a layout even, whether they are applied, refused or given up.  On every layout
that they lead to, what depends on what can be read off the plan, and a session writes down, stops and
starts operators as a whole.

## Results

* `Session.Even.turns`: a layout that was made from a plan with valid settings stays even.
* `Layout.world_modify`: a batch hands the deployer the rollout of its edits, or nothing.
* `Session.dependents_follow_plan`: instances depend on each other as their operators do.
-/

set_option autoImplicit false

namespace LiveDataflow

/-! ## Turns -/

namespace Session

variable {s t : Session} {l : Layout}

/-- The session works on an even layout. -/
def Even (s : Session) : Prop := ∃ l, s.target = .live l ∧ l.Even

namespace Even

theorem anchored (h : s.Even) : s.dataflow.Anchored := by
  obtain ⟨l, hl, he⟩ := h
  have hsound : s.Sound := ⟨l, hl, he.sound⟩
  exact hsound.anchored

theorem step (h : s.Even) (e : Edit) : (s.step e).after.Even := by
  refine step_keeps (P := Even) ?_ h.anchored h e
  rintro ⟨target, changes⟩ m ⟨l, rfl, he⟩ hm
  exact ⟨(l.after m).2, rfl, he.after hm⟩

theorem apply {σ : Type} (h : s.Even) (deployer : Deployer σ) (world : σ) :
    Even ⟨(s.apply deployer world).target, ∅⟩ := by
  obtain ⟨target, changes⟩ := s
  obtain ⟨l, rfl, he⟩ := h
  obtain ⟨l', htarget, rfl | ⟨r, hr⟩⟩ := exists_apply deployer world
  · exact ⟨l, htarget, he⟩
  · exact ⟨l', htarget, he.reconcile hr⟩

/-- **A layout stays even**, whatever is done with sessions and batches. -/
theorem turns (h : s.Even) (hts : Relation.ReflTransGen Turn s t) : t.Even :=
  turns_keep (fun _ e hs => hs.step e) (fun _ hs => hs) (fun deployer _ world hs => hs.apply deployer world)
    h hts

end Even

end Session

/-- What edits make of an even layout, and the account of them. -/
theorem Layout.Even.run {l : Layout} (h : l.Even) (edits : List Edit) :
    ∃ p, ((Session.onLayout l).runAll edits).2.target = .live p ∧
      l.EvenSince ((Session.onLayout l).runAll edits).2.changes p := by
  have hmove : ∀ (s : Session) (m : Move),
      (∃ p, s.target = .live p ∧ l.EvenSince s.changes p) → s.dataflow.Admits m →
        ∃ p, (s.after m).target = .live p ∧ l.EvenSince (s.after m).changes p := by
    rintro ⟨target, changes⟩ m ⟨p, rfl, hp⟩ hm
    exact ⟨(p.after m).2, rfl, hp.after h.sound.laid.numbered hm⟩
  refine Session.runAll_keeps (P := fun s => ∃ p, s.target = .live p ∧ l.EvenSince s.changes p) ?_
    ⟨l, rfl, .start h⟩ edits
  intro s e hs
  have heven : s.Even := by
    obtain ⟨p, hp, he⟩ := hs
    exact ⟨p, hp, he.even⟩
  exact Session.step_keeps hmove heven.anchored hs e

/-- Giving a session up is a turn as well. -/
theorem Layout.Sound.turns_edited {l : Layout} (h : l.Sound) (edits : List Edit) :
    Relation.ReflTransGen Session.Turn (.onLayout l) (.onLayout (l.edited edits)) := by
  obtain ⟨changes, hrun, _⟩ := h.edited edits
  have hturns : Relation.ReflTransGen Session.Turn (.onLayout l) ((Session.onLayout l).runAll edits).2 :=
    Session.runAll_keeps (P := Relation.ReflTransGen Session.Turn (.onLayout l))
      (fun _ e hs => hs.tail (.edit e)) .refl edits
  rw [hrun] at hturns
  exact hturns.tail .abandon

/-! ## Batches -/

/-- A batch that nothing ends early runs all of its edits. -/
theorem Batch.last_of_run_ok {b : Batch} {s : Session} (hok : (b.run s).result = .ok ()) :
    (b.run s).last = (s.runAll b.edits).2 := by
  obtain ⟨edits, stopAtFailure⟩ := b
  unfold Batch.run at hok ⊢
  dsimp only at hok ⊢
  induction edits generalizing s with
  | nil => rfl
  | cons e rest ih =>
    unfold Batch.runEdits at hok ⊢
    dsimp only at hok ⊢
    split at hok
    · cases hok
    · exact ih hok

/-- **A batch hands the deployer the rollout of its edits, or nothing.** -/
theorem Layout.world_modify {σ : Type} (l : Layout) (b : Batch) (deployer : Deployer σ) (world : σ) :
    (l.modify b deployer world).world = world ∨
      (l.modify b deployer world).world =
        (((Session.onLayout l).runAll b.edits).2.apply deployer world).world := by
  unfold Layout.modify
  dsimp only
  split
  · exact .inl rfl
  · split
    · exact .inl rfl
    · rename_i hok
      rw [Batch.last_of_run_ok hok]
      exact .inr rfl

/-! ## What depends on what -/

namespace Session

open Reachability

/-- **Instances depend on each other as their operators do.**  Take a layout of a plan that was built with
valid settings, what sessions and batches made of it, and one more session.  On the layout that it works
on, what depends on all the instances of some operators is all the instances of the operators that those
lead to in the graph that cycle checks look at, and wires run in no circle.  One rollout is what the end of
the session hands to the deployer, and what a batch of the same edits does if it hands over any.  In what
this starts, and in what the session has written down, the instances of an operator are all together or not
at all. -/
theorem dependents_follow_plan {d : Dataflow} (hd : d.Built false) (hconfig : d.config.validate = .ok ())
    {l₀ l : Layout} (hl₀ : Layout.materialize d = .ok l₀)
    (hturns : Relation.ReflTransGen Turn (.onLayout l₀) (.onLayout l)) (edits : List Edit) :
    let s := ((Session.onLayout l).runAll edits).2
    ∃ p r p', s.target = .live p ∧
      (∀ (names : List String) id, id ∈ p.dependents (.ofList (names.flatMap p.instancesOf)) ↔
        ∃ a ∈ names, ∃ b, Reaches p.dataflow.topology a b ∧ id ∈ p.instancesOf b) ∧
      Acyclic p.edges ∧
      (∀ {σ : Type} (deployer : Deployer σ) (world : σ), s.apply deployer world =
        ⟨(deployer r world).1.map fun _ => r, .live p', (deployer r world).2⟩) ∧
      (∀ {σ : Type} stopAtFailure (deployer : Deployer σ) (world : σ),
        (l.modify ⟨edits, stopAtFailure⟩ deployer world).world = world ∨
          (l.modify ⟨edits, stopAtFailure⟩ deployer world).world = (deployer r world).2) ∧
      ∀ name, Together (p.instancesOf name) (· ∈ r.started) ∧
        Together (p.instancesOf name) (· ∈ s.changes.added ∪ p.unplaced) ∧
        Together (p.instancesOf name) (· ∈ s.changes.added) ∧
        Together (p.instancesOf name) (· ∈ s.changes.affected) ∧
        Together (l.instancesOf name) (· ∈ s.changes.removed) := by
  have hstart : (Session.onLayout l₀).Even := ⟨l₀, rfl, Layout.even_materialize hd hconfig hl₀⟩
  have hl : l.Even := by
    obtain ⟨l', hl', heven⟩ := hstart.turns hturns
    cases hl'
    exact heven
  have hnum : l.Numbered := hl.sound.laid.numbered
  obtain ⟨p, htarget, hp⟩ := hl.run edits
  intro s
  have hsound : p.Sound := hp.even.sound
  have hlinks : p.dataflow.topology = p.dataflow.links := hp.even.forward.topology_eq hsound.laid.anchored
  obtain ⟨r, p', hr⟩ := Layout.exists_reconcile hsound.intact hp.edited.accounts.balances
  have happly : ∀ {σ : Type} (deployer : Deployer σ) (world : σ), s.apply deployer world =
      ⟨(deployer r world).1.map fun _ => r, .live p', (deployer r world).2⟩ := by
    intro σ deployer world
    have hs : s = ⟨.live p, s.changes⟩ := by rw [← htarget]
    rw [hs]
    exact apply_eq_of_reconcile deployer world hr
  refine ⟨p, r, p', htarget, fun names id => ?_, hsound.laid.acyclic_edges hp.even.forward.acyclic, happly,
    fun stopAtFailure deployer world => ?_, fun name => ?_⟩
  · rw [hlinks]
    exact Layout.mem_dependents_of_operators_iff hsound hp.even.staffed
  · have hworld := l.world_modify ⟨edits, stopAtFailure⟩ deployer world
    rw [happly deployer world] at hworld
    exact hworld
  · exact ⟨hp.together_started hnum hr name, hp.together_novel hnum name, hp.together_added hnum name,
      hp.affected name, hp.together_removed hnum name⟩

/-- The plan of `forking` with two partitions of the second operator. -/
def widened : Dataflow := (forking.dataflow.setPartitions "b" 2).toOption.getD forking.dataflow

theorem built_widened : widened.Built false := by
  have hbuilt : forking.dataflow.Built false := Dataflow.Built.runAll (.empty .default) _
  unfold widened
  cases hok : forking.dataflow.setPartitions "b" 2 with
  | error c => exact hbuilt
  | ok d => exact .call hbuilt (.setPartitions "b" 2 hok)

/-- The layout of that plan. -/
def wide : Layout := (Layout.materialize widened).toOption.getD (.ofDataflow widened)

theorem materialize_widened : Layout.materialize widened = .ok wide := by
  have hsome : (Layout.materialize widened).toOption.isSome = true := by decide +kernel
  unfold wide
  cases hl : Layout.materialize widened with
  | error c => rw [hl] at hsome; cases hsome
  | ok l => rfl

/-- What is left of it when a session that took the third operator away is given up. -/
def narrowed : Layout := wide.edited [.removeOperator "c"]

theorem turns_narrowed : Relation.ReflTransGen Turn (.onLayout wide) (.onLayout narrowed) :=
  (Layout.sound_materialize built_widened.anchored materialize_widened).turns_edited _

/-- A new operator feeds the first one. -/
def feedEdits : List Edit := [.addOperator "e" .relay, .addStream "ea" ⟨"e", "out"⟩ [⟨"a", "in"⟩]]

/-- Both instances of the second operator are started again, as it follows the first one. -/
theorem dependents_follow_plan_narrowed :
    let s := ((Session.onLayout narrowed).runAll feedEdits).2
    widened.Built false ∧ widened.config.validate = .ok () ∧ Layout.materialize widened = .ok wide ∧
      Relation.ReflTransGen Turn (.onLayout wide) (.onLayout narrowed) ∧
      ∃ p r, s.target = .live p ∧ (s.apply Deployer.accepting ()).result = .ok r ∧
        p.instancesOf "b" = [⟨2⟩, ⟨3⟩] ∧ r.started.toList = [⟨1⟩, ⟨2⟩, ⟨3⟩, ⟨6⟩] ∧
        Together (p.instancesOf "b") (· ∈ r.started) ∧
        ⟨3⟩ ∈ p.dependents (.ofList (["e"].flatMap p.instancesOf)) ∧ Acyclic p.edges := by
  have hconfig : widened.config.validate = .ok () := Config.validate_eq_ok_iff.2 (by decide +kernel)
  have hstarted : (((Session.onLayout narrowed).runAll feedEdits).2.apply
      Deployer.accepting ()).result.toOption.map (·.started.toList) = some [⟨1⟩, ⟨2⟩, ⟨3⟩, ⟨6⟩] := by
    decide +kernel
  have hb : (narrowed.edited feedEdits).instancesOf "b" = [⟨2⟩, ⟨3⟩] := by decide +kernel
  have htopology : (narrowed.edited feedEdits).dataflow.topology = [("a", "b"), ("e", "a")] := by
    decide +kernel
  obtain ⟨p, r, p', htarget, hdependents, hacyclic, happly, _, htogether⟩ :=
    dependents_follow_plan built_widened hconfig materialize_widened turns_narrowed feedEdits
  have hp : narrowed.edited feedEdits = p := by
    unfold Layout.edited
    rw [htarget]
  rw [hp] at hb htopology
  have hresult : (((Session.onLayout narrowed).runAll feedEdits).2.apply Deployer.accepting ()).result =
      .ok r := by
    rw [happly]
    rfl
  rw [hresult] at hstarted
  have hreach : Reaches p.dataflow.topology "e" "b" := by
    have hfirst : Reaches p.dataflow.topology "e" "a" := .single (by simp [htopology])
    exact hfirst.tail (by simp [htopology])
  have hdownstream := (hdependents ["e"] ⟨3⟩).2 ⟨"e", List.mem_cons_self, "b", hreach, by simp [hb]⟩
  exact ⟨built_widened, hconfig, materialize_widened, turns_narrowed, p, r, htarget, hresult, hb,
    Option.some.inj hstarted, (htogether "b").1, hdownstream, hacyclic⟩

end Session

end LiveDataflow
