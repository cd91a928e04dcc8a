import LiveDataflow.Proofs.OneByOne

/-!
# Attachments in any order

Whether a sink may be attached is decided on the plan that the attachments before it have left, and in
another order that plan has other links.  Still two attachments that are granted one after the other are
granted the other way round as well.  If the link of the second made a way back for the first, that way would
lead through it, and what leads up to it and away from it would be a way back for the second, through the link
of the first.  So neighbours can change places, and attachments can be made in any order.

## Results

* `Dataflow.Reordered`, `Layout.Reordered`, `Session.Reordered`: the same but for the order of sinks and wires.
* `Dataflow.Attachable.interchange`: the first of two sinks can be attached after the second.
* `Dataflow.admits_interchange`: two attachments are granted in both orders.
* `Session.Reordered.attach`: sessions that are the same but for an order stay so.
* `Session.attachments_perm`: attachments that are granted in one order are so in every other, and come to the
  same but for an order.
* `Session.Reachable.attach_in_any_order`: so do the edits that make them.
-/

set_option autoImplicit false

namespace LiveDataflow

open Reachability

/-! ## The same but for an order -/

/-- The same stream with its sinks in another order. -/
structure Stream.Reordered (s t : Stream) : Prop where
  name : t.name = s.name
  source : t.source = s.source
  sinks : s.sinks.Perm t.sinks

/-- The same plan with the sinks of each stream in another order. -/
structure Dataflow.Reordered (d d' : Dataflow) : Prop where
  stages : d'.stages = d.stages
  config : d'.config = d.config
  streams : ∀ name, Option.Rel Stream.Reordered (d.stream? name) (d'.stream? name)

/-- The same instances, containers and numbers, and the same set of wires. -/
structure Layout.Reordered (l l' : Layout) : Prop where
  dataflow : l.dataflow.Reordered l'.dataflow
  instances : l'.instances = l.instances
  byOperator : l'.byOperator = l.byOperator
  wires : ∀ w, w ∈ l'.wires ↔ w ∈ l.wires
  containers : l'.containers = l.containers
  lastInstance : l'.lastInstance = l.lastInstance
  lastContainer : l'.lastContainer = l.lastContainer

inductive Target.Reordered : Target → Target → Prop
  | plan {d d' : Dataflow} : d.Reordered d' → Reordered (.plan d) (.plan d')
  | live {l l' : Layout} : l.Reordered l' → Reordered (.live l) (.live l')

/-- The same session but for the order of sinks and wires. -/
structure Session.Reordered (s s' : Session) : Prop where
  target : s.target.Reordered s'.target
  changes : s'.changes = s.changes

namespace Stream.Reordered

variable {s t u : Stream}

theorem refl (s : Stream) : s.Reordered s := ⟨rfl, rfl, .refl _⟩

theorem trans (h : s.Reordered t) (h' : t.Reordered u) : s.Reordered u :=
  ⟨h'.name.trans h.name, h'.source.trans h.source, h.sinks.trans h'.sinks⟩

end Stream.Reordered

/-! ## Plans -/

namespace Dataflow

variable {d d' d'' : Dataflow} {stream other : String} {a b source : PortAddress} {p q : Port}
  {s t : Stream}

namespace Reordered

theorem of_streams (hstages : d'.stages = d.stages) (hconfig : d'.config = d.config)
    (hstream : ∀ name s, d.stream? name = some s → ∃ t, d'.stream? name = some t ∧ s.Reordered t)
    (hnone : ∀ name, d.stream? name = none → d'.stream? name = none) : d.Reordered d' := by
  refine ⟨hstages, hconfig, fun name => ?_⟩
  cases hs : d.stream? name with
  | none => rw [hnone name hs]; exact .none
  | some s =>
    obtain ⟨t, ht, hst⟩ := hstream name s hs
    rw [ht]
    exact .some hst

theorem exists_stream (h : d.Reordered d') (hs : d.stream? stream = some s) :
    ∃ t, d'.stream? stream = some t ∧ s.Reordered t := by
  have hrel := h.streams stream
  rw [hs] at hrel
  cases ht : d'.stream? stream with
  | none => rw [ht] at hrel; cases hrel
  | some t =>
    rw [ht] at hrel
    cases hrel with
    | some hst => exact ⟨t, rfl, hst⟩

theorem exists_stream' (h : d.Reordered d') (ht : d'.stream? stream = some t) :
    ∃ s, d.stream? stream = some s ∧ s.Reordered t := by
  have hrel := h.streams stream
  rw [ht] at hrel
  cases hs : d.stream? stream with
  | none => rw [hs] at hrel; cases hrel
  | some s =>
    rw [hs] at hrel
    cases hrel with
    | some hst => exact ⟨s, rfl, hst⟩

theorem stream?_eq_none (h : d.Reordered d') (hs : d.stream? stream = none) :
    d'.stream? stream = none := by
  cases ht : d'.stream? stream with
  | none => rfl
  | some t =>
    obtain ⟨s, hsome, _⟩ := h.exists_stream' ht
    rw [hs] at hsome
    cases hsome

theorem refl (d : Dataflow) : d.Reordered d :=
  of_streams rfl rfl (fun _ s hs => ⟨s, hs, .refl s⟩) fun _ hs => hs

theorem trans (h : d.Reordered d') (h' : d'.Reordered d'') : d.Reordered d'' := by
  refine of_streams (h'.stages.trans h.stages) (h'.config.trans h.config) (fun name s hs => ?_) fun name hs =>
    h'.stream?_eq_none (h.stream?_eq_none hs)
  obtain ⟨t, ht, hst⟩ := h.exists_stream hs
  obtain ⟨u, hu, htu⟩ := h'.exists_stream ht
  exact ⟨u, hu, hst.trans htu⟩

/-- The order of sinks does not matter to a sink that is attached. -/
theorem attachable (h : d.Reordered d') (ha : d.Attachable source p a) : d'.Attachable source p a := by
  refine ha.mono h.stages h.config fun name t ht b hb => .inl ?_
  obtain ⟨s, hs, hst⟩ := h.exists_stream' ht
  exact ⟨name, s, hs, hst.source.symm, hst.sinks.mem_iff.2 hb⟩

theorem admits (h : d.Reordered d') (hm : d.Admits (.attach stream a)) : d'.Admits (.attach stream a) := by
  obtain ⟨s, hs, hc⟩ := hm
  obtain ⟨t, ht, hst⟩ := h.exists_stream hs
  obtain ⟨p, hp, hnodup, hall⟩ := checkSinks_eq_ok_iff.1 hc
  refine ⟨t, ht, checkSinks_eq_ok_iff.2 ⟨p, ?_, hnodup, fun b hb => ?_⟩⟩
  · rw [hst.source, outputPort_congr h.stages]
    exact hp
  · rw [hst.source]
    exact h.attachable (hall b hb)

theorem attach (h : d.Reordered d') (stream : String) (a : PortAddress) :
    (d.attach stream a).Reordered (d'.attach stream a) := by
  refine ⟨h.stages, h.config, fun name => ?_⟩
  have hrel := h.streams name
  rw [stream?_attach, stream?_attach]
  generalize d.stream? name = before, d'.stream? name = after at hrel ⊢
  split
  · cases hrel with
    | none => exact .none
    | some hst => exact .some ⟨hst.name, hst.source, hst.sinks.append_right [a]⟩
  · exact hrel

end Reordered

/-- Two sinks can be put to their streams in any order. -/
theorem reordered_attach_attach (d : Dataflow) (stream other : String) (a b : PortAddress) :
    ((d.attach stream a).attach other b).Reordered ((d.attach other b).attach stream a) := by
  refine ⟨rfl, rfl, fun name => ?_⟩
  simp only [stream?_attach]
  cases hs : d.stream? name with
  | none => split <;> split <;> exact .none
  | some s =>
    by_cases hstream : stream = name <;> by_cases hother : other = name <;>
      simp only [hstream, hother, if_true, if_false, Option.map_some]
    · refine .some ⟨rfl, rfl, ?_⟩
      rw [List.append_assoc, List.append_assoc]
      exact (List.Perm.swap b a []).append_left s.sinks
    all_goals exact .some (.refl _)

/-! ## Two sinks -/

/-- **The first of two sinks can be attached after the second**, also if this belongs to another stream. -/
theorem Attachable.interchange (hs : d.stream? stream = some s) (ht : d.stream? other = some t)
    (ha : d.Attachable s.source p a) (hb : (d.attach stream a).Attachable t.source q b) :
    (d.attach other b).Attachable s.source p a := by
  have hne : b ≠ a := (hb.of_attach hs).2
  refine ⟨ha.declared, fun name u hu hmem => ?_, ha.other, ?_⟩
  · obtain ⟨u₀, hu₀, _, hold | ⟨_, heq⟩⟩ := WellWired.mem_sinks_attach hu hmem
    · exact ha.vacant name u₀ hu₀ hold
    · exact hne heq.symm
  · have hback := ha.ahead
    have hback' := hb.ahead
    rw [← Bool.not_eq_true, leadsTo_iff] at hback hback' ⊢
    rintro ⟨hla, hls, hreach⟩
    by_cases hlabels : t.source.operator ∈ d.labels ∧ b.operator ∈ d.labels
    · rcases hreach.of_edges_from (edge_of_mem_topology_attach ht) with hreach | ⟨hto, v, hv, hfrom⟩
      · exact hback ⟨hla, hls, hreach⟩
      · -- from the second sink to the source of the first, along its link, and on to the second source
        rw [List.mem_singleton.1 hv] at hfrom
        have hlink : (s.source.operator, a.operator) ∈ (d.attach stream a).topology :=
          mem_topology_iff.2 ⟨(mem_links_attach_iff hs).2 (.inr rfl), hls, hla⟩
        have hsub := topology_subset_attach (a := a) hs
        exact hback' ⟨hlabels.2, hlabels.1,
          ((hfrom.of_subset hsub).tail hlink).trans (hto.of_subset hsub)⟩
    · exact hback ⟨hla, hls, hreach.of_subset (topology_attach_subset ht hlabels)⟩

theorem admits_attach_iff :
    d.Admits (.attach stream a) ↔
      ∃ s p, d.stream? stream = some s ∧ d.outputPort s.source = .ok p ∧ d.Attachable s.source p a := by
  constructor
  · rintro ⟨s, hs, hc⟩
    obtain ⟨p, hp, _, hall⟩ := checkSinks_eq_ok_iff.1 hc
    exact ⟨s, p, hs, hp, hall a List.mem_cons_self⟩
  · rintro ⟨s, p, hs, hp, ha⟩
    refine ⟨s, hs, checkSinks_eq_ok_iff.2 ⟨p, hp, List.nodup_singleton a, fun b hb => ?_⟩⟩
    rw [List.mem_singleton.1 hb]
    exact ha

/-- **Two attachments that are granted one after the other are granted the other way round.** -/
theorem admits_interchange (hfirst : d.Admits (.attach stream a))
    (hsecond : (d.attach stream a).Admits (.attach other b)) :
    d.Admits (.attach other b) ∧ (d.attach other b).Admits (.attach stream a) := by
  obtain ⟨s, p, hs, hp, ha⟩ := admits_attach_iff.1 hfirst
  obtain ⟨t', q, ht', hq, hb⟩ := admits_attach_iff.1 hsecond
  obtain ⟨t, ht, hsource⟩ : ∃ t, d.stream? other = some t ∧ t'.source = t.source := by
    obtain ⟨t, ht, rfl | ⟨_, rfl⟩⟩ := exists_of_stream?_attach ht'
    · exact ⟨t', ht, rfl⟩
    · exact ⟨t, ht, rfl⟩
  rw [hsource] at hq hb
  obtain ⟨s', hs', _, hsource', _⟩ := exists_stream?_attach hs other b
  refine ⟨admits_attach_iff.2 ⟨t, q, ht, hq, (hb.of_attach hs).1⟩, admits_attach_iff.2 ⟨s', p, hs', ?_, ?_⟩⟩
  · rw [hsource']
    exact hp
  · rw [hsource']
    exact ha.interchange hs ht hb

end Dataflow

/-! ## Layouts -/

namespace Layout

variable {l l' l'' : Layout} {stream other : String} {a b : PortAddress} {s t : Stream} {w : Wire}

theorem mesh_congr (hinstances : l'.instances = l.instances) (hoperators : l'.byOperator = l.byOperator)
    (hname : t.name = s.name) (hsource : t.source = s.source) (sink : PortAddress) :
    l'.mesh t sink = l.mesh s sink := by
  unfold mesh presentOf instancesOf
  rw [hinstances, hoperators, hname, hsource]

/-- The stream's mesh for the sink is laid. -/
theorem mem_wires_after_attach (hs : l.dataflow.stream? stream = some s) :
    w ∈ (l.after (.attach stream a)).2.wires ↔ w ∈ l.wires ∨ w ∈ l.mesh s a := by
  rw [after_attach hs]
  exact mem_wires_wireSink

namespace Reordered

theorem refl (l : Layout) : l.Reordered l := ⟨.refl _, rfl, rfl, fun _ => .rfl, rfl, rfl, rfl⟩

theorem trans (h : l.Reordered l') (h' : l'.Reordered l'') : l.Reordered l'' :=
  ⟨h.dataflow.trans h'.dataflow, h'.instances.trans h.instances, h'.byOperator.trans h.byOperator,
    fun w => (h'.wires w).trans (h.wires w), h'.containers.trans h.containers,
    h'.lastInstance.trans h.lastInstance, h'.lastContainer.trans h.lastContainer⟩

theorem attach (h : l.Reordered l') (hs : l.dataflow.stream? stream = some s) (a : PortAddress) :
    (l.after (.attach stream a)).2.Reordered (l'.after (.attach stream a)).2 ∧
      (l'.after (.attach stream a)).1 = (l.after (.attach stream a)).1 := by
  obtain ⟨t, ht, hst⟩ := h.dataflow.exists_stream hs
  have hwires : ∀ w, w ∈ (l'.after (.attach stream a)).2.wires ↔ w ∈ (l.after (.attach stream a)).2.wires := by
    intro w
    rw [mem_wires_after_attach ht, mem_wires_after_attach hs, h.wires,
      mesh_congr h.instances h.byOperator hst.name hst.source]
  rw [after_attach hs, after_attach ht] at hwires ⊢
  refine ⟨⟨h.dataflow.attach stream a, h.instances, h.byOperator, hwires, h.containers, h.lastInstance,
    h.lastContainer⟩, ?_⟩
  unfold instancesOf
  rw [h.byOperator]

end Reordered

/-- Only the plan and the wires differ after a sink was attached. -/
theorem after_attach_eq (hs : l.dataflow.stream? stream = some s) (a : PortAddress) :
    (l.after (.attach stream a)).2 =
      { l with
        dataflow := l.dataflow.attach stream a
        wires := (l.after (.attach stream a)).2.wires } := by
  rw [after_attach hs]
  rfl

/-- Two sinks bring the meshes of both, and nothing else. -/
theorem after_attach_attach (hs : l.dataflow.stream? stream = some s)
    (ht : l.dataflow.stream? other = some t) (a b : PortAddress) :
    ∃ wires, (∀ w, w ∈ wires ↔ (w ∈ l.wires ∨ w ∈ l.mesh s a) ∨ w ∈ l.mesh t b) ∧
      ((l.after (.attach stream a)).2.after (.attach other b)).2 =
        { l with dataflow := (l.dataflow.attach stream a).attach other b, wires := wires } := by
  have hfirst := after_attach_eq hs a
  have hwires := fun w => mem_wires_after_attach (w := w) (a := a) hs
  generalize (l.after (.attach stream a)).2 = l₁ at hfirst hwires
  obtain ⟨t', ht', hname, hsource, _⟩ := Dataflow.exists_stream?_attach ht stream a
  have ht₁ : l₁.dataflow.stream? other = some t' := by rw [hfirst]; exact ht'
  have hinstances : l₁.instances = l.instances := by rw [hfirst]
  have hoperators : l₁.byOperator = l.byOperator := by rw [hfirst]
  refine ⟨(l₁.after (.attach other b)).2.wires, fun w => ?_, ?_⟩
  · rw [mem_wires_after_attach ht₁, hwires, mesh_congr hinstances hoperators hname hsource]
  · rw [after_attach_eq ht₁ b, hfirst]

/-- Two sinks can be wired in any order. -/
theorem reordered_attach_attach (hs : l.dataflow.stream? stream = some s)
    (ht : l.dataflow.stream? other = some t) (a b : PortAddress) :
    ((l.after (.attach stream a)).2.after (.attach other b)).2.Reordered
      ((l.after (.attach other b)).2.after (.attach stream a)).2 := by
  obtain ⟨wires, hwires, hone⟩ := after_attach_attach hs ht a b
  obtain ⟨wires', hwires', hother⟩ := after_attach_attach ht hs b a
  rw [hone, hother]
  refine ⟨Dataflow.reordered_attach_attach .., rfl, rfl, fun w => ?_, rfl, rfl, rfl⟩
  show w ∈ wires' ↔ w ∈ wires
  rw [hwires, hwires', or_right_comm]

/-- The instances that get wires do not depend on what was attached before. -/
theorem affected_attach_attach (hs : l.dataflow.stream? stream = some s)
    (ht : l.dataflow.stream? other = some t) (a b : PortAddress) :
    ((l.after (.attach stream a)).2.after (.attach other b)).1 = (l.after (.attach other b)).1 := by
  have hfirst := after_attach_eq hs a
  generalize (l.after (.attach stream a)).2 = l₁ at hfirst
  obtain ⟨t', ht', _⟩ := Dataflow.exists_stream?_attach ht stream a
  have ht₁ : l₁.dataflow.stream? other = some t' := by rw [hfirst]; exact ht'
  rw [after_attach ht₁, after_attach ht, hfirst]
  rfl

end Layout

/-! ## Sessions -/

theorem ChangeSet.ext {c c' : ChangeSet} (hadded : c.added = c'.added) (haffected : c.affected = c'.affected)
    (hremoved : c.removed = c'.removed) : c = c' := by
  obtain ⟨_, _, _⟩ := c
  obtain ⟨_, _, _⟩ := c'
  cases hadded
  cases haffected
  cases hremoved
  rfl

/-- Two lists of instances can be recorded in any order. -/
theorem ChangeSet.recordAffected_comm (c : ChangeSet) (first second : List InstanceId) :
    (c.recordAffected first).recordAffected second = (c.recordAffected second).recordAffected first := by
  obtain ⟨hadded₁, hremoved₁, haffected₁⟩ := recordAffected_eq c first
  obtain ⟨hadded₂, hremoved₂, haffected₂⟩ := recordAffected_eq c second
  obtain ⟨hadded, hremoved, haffected⟩ := recordAffected_eq (c.recordAffected first) second
  obtain ⟨hadded', hremoved', haffected'⟩ := recordAffected_eq (c.recordAffected second) first
  refine ext (by rw [hadded, hadded', hadded₁, hadded₂]) (SortedSet.ext_mem fun id => ?_)
    (by rw [hremoved, hremoved', hremoved₁, hremoved₂])
  rw [haffected, haffected', haffected₁, haffected₂, hadded₁, hadded₂, hremoved₁, hremoved₂, or_right_comm]

namespace Session

variable {s s' s'' : Session} {stream other : String} {a b : PortAddress}
  {pairs others : List (String × PortAddress)} {edits reordered : List Edit}

namespace Reordered

theorem refl (s : Session) : s.Reordered s := by
  obtain ⟨target, changes⟩ := s
  cases target with
  | plan d => exact ⟨.plan (.refl d), rfl⟩
  | live l => exact ⟨.live (.refl l), rfl⟩

theorem trans (h : s.Reordered s') (h' : s'.Reordered s'') : s.Reordered s'' := by
  obtain ⟨target, changes⟩ := s
  obtain ⟨target', changes'⟩ := s'
  obtain ⟨target'', changes''⟩ := s''
  obtain ⟨htarget, hchanges⟩ := h
  obtain ⟨htarget', hchanges'⟩ := h'
  refine ⟨?_, hchanges'.trans hchanges⟩
  cases htarget with
  | plan hd => cases htarget' with
    | plan hd' => exact .plan (hd.trans hd')
  | live hl => cases htarget' with
    | live hl' => exact .live (hl.trans hl')

theorem dataflow (h : s.Reordered s') : s.dataflow.Reordered s'.dataflow := by
  obtain ⟨target, changes⟩ := s
  obtain ⟨target', changes'⟩ := s'
  obtain ⟨htarget, _⟩ := h
  cases htarget with
  | plan hd => exact hd
  | live hl => exact hl.dataflow

/-- Sessions that are the same but for an order stay so. -/
theorem attach (h : s.Reordered s') (hm : s.dataflow.Admits (.attach stream a)) :
    (s.after (.attach stream a)).Reordered (s'.after (.attach stream a)) := by
  obtain ⟨target, changes⟩ := s
  obtain ⟨target', changes'⟩ := s'
  obtain ⟨htarget, hchanges⟩ := h
  cases hchanges
  cases htarget with
  | plan hd => exact ⟨.plan (hd.attach stream a), rfl⟩
  | live hl =>
    obtain ⟨t, ht, _⟩ := hm
    obtain ⟨hlayout, hids⟩ := hl.attach ht a
    exact ⟨.live hlayout, congrArg changes.recordAffected hids⟩

end Reordered

theorem reordered_attach_attach (hfirst : s.dataflow.Admits (.attach stream a))
    (hsecond : s.dataflow.Admits (.attach other b)) :
    ((s.after (.attach stream a)).after (.attach other b)).Reordered
      ((s.after (.attach other b)).after (.attach stream a)) := by
  obtain ⟨target, changes⟩ := s
  cases target with
  | plan d => exact ⟨.plan (Dataflow.reordered_attach_attach ..), rfl⟩
  | live l =>
    obtain ⟨t, ht, _⟩ := hfirst
    obtain ⟨u, hu, _⟩ := hsecond
    refine ⟨.live (Layout.reordered_attach_attach ht hu a b), ?_⟩
    show (changes.recordAffected _).recordAffected _ = (changes.recordAffected _).recordAffected _
    rw [Layout.affected_attach_attach ht hu, Layout.affected_attach_attach hu ht]
    exact ChangeSet.recordAffected_comm ..

/-! ## Attachments in any order -/

/-- Attachments that are granted to a session are granted to one that is the same but for an order. -/
theorem Reordered.attachments (h : s.Reordered s') (hall : s.dataflow.AdmitsAll (attachments pairs)) :
    s'.dataflow.AdmitsAll (attachments pairs) ∧
      (s.afterAll (attachments pairs)).Reordered (s'.afterAll (attachments pairs)) := by
  induction pairs generalizing s s' with
  | nil => exact ⟨trivial, h⟩
  | cons x rest ih =>
    obtain ⟨hone, hrest⟩ := admitsAll_cons.1 hall
    obtain ⟨hrest', hlast⟩ := ih (h.attach hone) hrest
    exact ⟨admitsAll_cons.2 ⟨h.dataflow.admits hone, hrest'⟩, hlast⟩

/-- **Attachments that are granted in one order are granted in every other**, and the sessions that they
lead to are the same but for an order. -/
theorem attachments_perm (hperm : pairs.Perm others) (hall : s.dataflow.AdmitsAll (attachments pairs)) :
    s.dataflow.AdmitsAll (attachments others) ∧
      (s.afterAll (attachments pairs)).Reordered (s.afterAll (attachments others)) := by
  induction hperm generalizing s with
  | nil => exact ⟨hall, .refl s⟩
  | cons x _ ih =>
    obtain ⟨hone, hrest⟩ := admitsAll_cons.1 hall
    obtain ⟨hrest', hlast⟩ := ih hrest
    exact ⟨admitsAll_cons.2 ⟨hone, hrest'⟩, hlast⟩
  | swap x y rest =>
    -- two neighbours change places, and the others follow on a session that is the same but for an order
    obtain ⟨hy, hyx⟩ := admitsAll_cons.1 hall
    obtain ⟨hx, hrest⟩ := admitsAll_cons.1 hyx
    rw [dataflow_after] at hx
    obtain ⟨hx', hy'⟩ := Dataflow.admits_interchange hy hx
    obtain ⟨hrest', hlast⟩ := (reordered_attach_attach hy hx').attachments hrest
    refine ⟨admitsAll_cons.2 ⟨hx', admitsAll_cons.2 ⟨?_, hrest'⟩⟩, hlast⟩
    rw [dataflow_after]
    exact hy'
  | trans _ _ ih ih' =>
    obtain ⟨hmid, hfirst⟩ := ih hall
    obtain ⟨hlast, hsecond⟩ := ih' hmid
    exact ⟨hlast, hfirst.trans hsecond⟩

/-- **Sinks can be attached in any order**: if none of the edits that attach them fails, none fails in
another order either, and the sessions are the same in the end but for the order of sinks and wires. -/
theorem Reachable.attach_in_any_order (h : s.Reachable) (hperm : pairs.Perm others)
    (hedits : List.Forall₂ Edit.AttachesOne edits pairs)
    (hreordered : List.Forall₂ Edit.AttachesOne reordered others) (hall : s.Completes edits) :
    s.Completes reordered ∧ (s.runAll edits).2.Reordered (s.runAll reordered).2 := by
  have hgranted := (completes_iff_admitsAll h.anchored hedits).1 hall
  obtain ⟨hothers, hsame⟩ := attachments_perm hperm hgranted
  have hall' := (completes_iff_admitsAll h.anchored hreordered).2 hothers
  refine ⟨hall', ?_⟩
  rw [runAll_of_completes h.anchored hedits hall, runAll_of_completes h.anchored hreordered hall']
  exact hsame

/-- The session with the fifth operator also adds a stream out of the fourth, without sinks. -/
def chaining : Session := (widening.step (.addStream "de" ⟨"d", "out"⟩ [])).after

theorem reachable_chaining : chaining.Reachable := .edit _ (.edit _ reachable_forked)

/-- The first operator gets the fourth for a sink, and this the fifth, in both orders. -/
theorem attach_in_any_order_chaining :
    let edits : List Edit := [.addSink "abc" ⟨"d", "in"⟩, .addSink "de" ⟨"e", "in"⟩]
    let reordered : List Edit := [.addSinks "de" [⟨"e", "in"⟩], .addSink "abc" ⟨"d", "in"⟩]
    chaining.Reachable ∧ chaining.Completes edits ∧ chaining.Completes reordered ∧
      (chaining.runAll edits).2.Reordered (chaining.runAll reordered).2 := by
  have hall : chaining.Completes [.addSink "abc" ⟨"d", "in"⟩, .addSink "de" ⟨"e", "in"⟩] :=
    completes_cons.2 ⟨⟨_, rfl⟩, completes_cons.2 ⟨⟨_, rfl⟩, fun _ h => nomatch h⟩⟩
  have hother := reachable_chaining.attach_in_any_order
    (.swap ("de", ⟨"e", "in"⟩) ("abc", ⟨"d", "in"⟩) [])
    (.cons (.addSink "abc" ⟨"d", "in"⟩) (.cons (.addSink "de" ⟨"e", "in"⟩) .nil))
    (.cons (.addSinks "de" ⟨"e", "in"⟩) (.cons (.addSink "abc" ⟨"d", "in"⟩) .nil)) hall
  exact ⟨reachable_chaining, hall, hother⟩

end Session

end LiveDataflow
