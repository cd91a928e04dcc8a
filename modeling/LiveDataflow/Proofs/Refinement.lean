import Mathlib.Data.List.Perm.Subperm
import LiveDataflow.Proofs.Intact

/-!
# Layouts refine their plans

A layout has instances for exactly the operators of its plan, and exactly the wires that its streams
ask for.  Laying out, taking away and wiring each keep this as long as the plan grants the change, so
it holds in every state of every live session.

## Results

* `Layout.Laid`: the wires are the ones that the plan asks for.
* `Layout.Laid.after`: what the plan grants, the layout follows.
* `Layout.sound_materialize`: the first layout of a plan is laid and covers it.
* `Session.Live.refines`: every layout refines its plan.
-/

set_option autoImplicit false

namespace LiveDataflow.Layout

variable {l l' : Layout} {d : Dataflow} {name stream : String} {source sink : PortAddress}
  {operator : Operator} {s : Stream} {w : Wire} {id : InstanceId} {ids : List InstanceId}

/-! ## The wires that a plan asks for -/

/-- The plan asks for a wire: one of a stream, into one of its sinks. -/
def Wanted (l : Layout) (w : Wire) : Prop :=
  ∃ s, l.dataflow.stream? w.stream = some s ∧ ∃ k ∈ s.sinks, w.port = k.port ∧
    w.source ∈ l.instancesOf s.source.operator ∧ w.target ∈ l.instancesOf k.operator

/-- A layout of those operators of its plan that it has laid out. -/
structure Laid (l : Layout) : Prop where
  numbered : l.Numbered
  anchored : l.dataflow.Anchored
  wired : ∀ w, w ∈ l.wires ↔ l.Wanted w
  once : l.wires.Nodup

/-- Exactly the operators of the plan are laid out. -/
def Covers (l : Layout) : Prop :=
  ∀ name, l.byOperator.contains name = (l.dataflow.stage? name).isSome

theorem contains_byOperator_insert {other : String} :
    (l.byOperator.insert name ids).contains other =
      (decide (name = other) || l.byOperator.contains other) := by
  unfold SortedMap.contains
  rw [SortedMap.get?_insert]
  by_cases h : name = other <;> simp [h]

theorem contains_byOperator_erase {other : String} :
    (l.byOperator.erase name).contains other =
      (!decide (name = other) && l.byOperator.contains other) := by
  unfold SortedMap.contains
  rw [SortedMap.get?_erase]
  by_cases h : name = other <;> simp [h]

namespace Laid

theorem ofDataflow (h : d.Anchored) : (Layout.ofDataflow d).Laid :=
  ⟨.ofDataflow d, h, fun _ => ⟨fun hw => (nomatch hw), fun ⟨_, _, _, _, _, ha, _⟩ => (nomatch ha)⟩,
    List.nodup_nil⟩

theorem alike (h : l.Laid) (ha : l.Alike l') : l'.Laid := by
  refine ⟨h.numbered.alike ha, ?_, fun w => ?_, ?_⟩
  · rw [ha.dataflow]; exact h.anchored
  · unfold Wanted instancesOf
    rw [ha.wires, ha.dataflow, ha.byOperator]
    exact h.wired w
  · rw [ha.wires]; exact h.once

theorem intact (h : l.Laid) : l.Intact := by
  refine ⟨h.numbered, fun w hw => ?_⟩
  obtain ⟨s, _, k, _, _, hsource, htarget⟩ := (h.wired w).1 hw
  exact ⟨h.numbered.present hsource, h.numbered.present htarget⟩

/-- The streams alone say which wires there are. -/
theorem withStages (h : l.Laid) (hstreams : d.streams = l.dataflow.streams) (hd : d.Anchored) :
    ({ l with dataflow := d } : Layout).Laid := by
  refine ⟨h.numbered.of_same rfl rfl rfl, hd, fun w => (h.wired w).trans ?_, h.once⟩
  have : ∀ stream, d.stream? stream = l.dataflow.stream? stream := fun stream => by
    unfold Dataflow.stream?; rw [hstreams]
  unfold Wanted
  simp only [this]
  exact Iff.rfl

/-! ## Operators -/

/-- What the plan asks for beyond the wires that are there touches the new operator. -/
theorem wanted_enter (h : l.Laid) (hname : l.instancesOf name = []) (partitions : Nat) :
    (l.enter name (l.freshInstances name partitions)).Wanted w ↔
      w ∈ l.wires ∨ ∃ s ∈ l.touching name, ∃ k ∈ s.sinks,
        w ∈ (l.enter name (l.freshInstances name partitions)).mesh s k := by
  have hnum := h.numbered.enter hname partitions
  constructor
  · rintro ⟨s, hs, k, hk, hport, ha, hb⟩
    by_cases htouch : s.source.operator = name ∨ k.operator = name
    · refine .inr ⟨s, List.mem_filter.2 ⟨SortedMap.mem_values_iff.2 ⟨_, hs⟩, ?_⟩, k, hk,
        hnum.mem_mesh_iff.2 ⟨ha, hb, (h.anchored.keyed _ _ hs).symm, hport⟩⟩
      rcases htouch with hsource | hsink
      · simp [hsource]
      · have : s.feeds name = true := List.any_eq_true.2 ⟨k, hk, by simpa using hsink⟩
        simp [this]
    · rw [not_or] at htouch
      rw [instancesOf_enter, if_neg (Ne.symm htouch.1)] at ha
      rw [instancesOf_enter, if_neg (Ne.symm htouch.2)] at hb
      exact .inl ((h.wired w).2 ⟨s, hs, k, hk, hport, ha, hb⟩)
  · rintro (hw | ⟨s, hs, k, hk, hm⟩)
    · obtain ⟨s, hs, k, hk, hport, ha, hb⟩ := (h.wired w).1 hw
      have hother : ∀ {op i}, i ∈ l.instancesOf op → name ≠ op := by
        rintro op i hi rfl
        rw [hname] at hi
        cases hi
      refine ⟨s, hs, k, hk, hport, ?_, ?_⟩ <;> rw [instancesOf_enter, if_neg (hother ‹_›)] <;>
        assumption
    · obtain ⟨key, hkey⟩ := SortedMap.mem_values_iff.1 (List.mem_filter.1 hs).1
      obtain ⟨ha, hb, hstream, hport⟩ := hnum.mem_mesh_iff.1 hm
      have hs' : l.dataflow.stream? w.stream = some s := by
        rw [hstream, h.anchored.keyed key s hkey]
        exact hkey
      exact ⟨s, hs', k, hk, hport, ha, hb⟩

theorem addOperator (h : l.Laid) (hok : l.addOperator name = .ok (ids, l')) : l'.Laid := by
  obtain ⟨stage, _, hno, _, rfl⟩ := addOperator_eq_ok_iff.1 hok
  have hname := instancesOf_of_absent hno
  have hnum := h.numbered.enter hname stage.partitions
  have hwires : ∀ w, w ∈ ((l.touching name).foldl wireStream
      (l.enter name (l.freshInstances name stage.partitions))).wires ↔
        (l.enter name (l.freshInstances name stage.partitions)).Wanted w := fun w =>
    mem_wires_foldl_wireStream.trans (h.wanted_enter hname stage.partitions).symm
  have honce : ((l.touching name).foldl wireStream
      (l.enter name (l.freshInstances name stage.partitions))).wires.Nodup :=
    nodup_wires_foldl_wireStream hnum.nodup_presentOf h.once
  obtain ⟨more, hmore⟩ := wires_only_foldl_wireStream (l.touching name)
    (l.enter name (l.freshInstances name stage.partitions))
  rw [hmore] at hwires honce ⊢
  exact ⟨hnum.of_same rfl rfl rfl, h.anchored, hwires, honce⟩

theorem removeStage (h : l.Laid) (hstage : (l.dataflow.stage? name).isSome = true) :
    (l.after (.removeStage name)).2.Laid := by
  have hnum := h.numbered
  have hw := without_after_removeStage hnum name
  have hof : ∀ other, (l.after (.removeStage name)).2.instancesOf other =
      if name = other then [] else l.instancesOf other := hw.instancesOf rfl
  have hchanged : ({ l with dataflow := l.dataflow.removeStage name } : Layout).Numbered :=
    hnum.of_same rfl rfl rfl
  refine ⟨hchanged.without (without_removeOperator _ name), ?_, fun w => ?_, ?_⟩
  · rw [hw.dataflow]; exact h.anchored.removeStage name
  · unfold Wanted
    simp only [hof]
    rw [hw.wires, hw.dataflow, List.mem_filter]
    simp only [Dataflow.stream?_removeStage hstage, Option.map_eq_some_iff,
      Option.filter_eq_some_iff, decide_eq_true_eq]
    constructor
    · rintro ⟨hmem, hsource, htarget⟩
      obtain ⟨s, hs, k, hk, hport, ha, hb⟩ := (h.wired w).1 hmem
      have hne : s.source.operator ≠ name := fun e => hsource (e ▸ ha)
      have hke : k.operator ≠ name := fun e => htarget (e ▸ hb)
      refine ⟨_, ⟨s, ⟨hs, hne⟩, rfl⟩, k, List.mem_filter.2 ⟨hk, by simpa using hke⟩, hport, ?_, ?_⟩
      · rw [if_neg (Ne.symm hne)]; exact ha
      · rw [if_neg (Ne.symm hke)]; exact hb
    · rintro ⟨_, ⟨s, ⟨hs, hne⟩, rfl⟩, k, hk, hport, ha, hb⟩
      obtain ⟨hk, hke⟩ := List.mem_filter.1 hk
      have hke : k.operator ≠ name := by simpa using hke
      rw [if_neg (Ne.symm hne)] at ha
      rw [if_neg (Ne.symm hke)] at hb
      exact ⟨(h.wired w).2 ⟨s, hs, k, hk, hport, ha, hb⟩, fun e => hne (hnum.operator_eq ha e),
        fun e => hke (hnum.operator_eq hb e)⟩
  · rw [hw.wires]
    exact h.once.filter _

/-! ## Streams -/

theorem addStream (h : l.Laid) (hname : l.dataflow.stream? stream = none)
    (hsource : (l.dataflow.stage? source.operator).isSome = true) :
    ({ l with dataflow := { l.dataflow with
        streams := l.dataflow.streams.insert stream ⟨stream, source, []⟩ } } : Layout).Laid := by
  refine ⟨h.numbered.of_same rfl rfl rfl, h.anchored.insertStream hsource, fun w => ?_, h.once⟩
  refine (h.wired w).trans ⟨fun ⟨s, hs, hrest⟩ => ⟨s, ?_, hrest⟩, fun ⟨s, hs, k, hk, hrest⟩ => ?_⟩
  · dsimp only
    rw [Dataflow.stream?_insert, if_neg]
    · exact hs
    · rintro rfl
      rw [hname] at hs
      cases hs
  · dsimp only at hs
    rw [Dataflow.stream?_insert] at hs
    split at hs
    · cases hs; cases hk
    · exact ⟨s, hs, k, hk, hrest⟩

theorem attach (h : l.Laid) (hs : l.dataflow.stream? stream = some s)
    (hsink : (l.dataflow.stage? sink.operator).isSome = true) :
    (({ l with dataflow := l.dataflow.attach stream sink } : Layout).wireSink
      { s with sinks := s.sinks ++ [sink] } sink).Laid := by
  have hnum : ({ l with dataflow := l.dataflow.attach stream sink } : Layout).Numbered :=
    h.numbered.of_same rfl rfl rfl
  have hname : s.name = stream := h.anchored.keyed stream s hs
  refine ⟨h.numbered.of_same rfl rfl rfl, h.anchored.attach hsink, fun w => ?_,
    nodup_wires_wireSink hnum.nodup_presentOf h.once⟩
  rw [mem_wires_wireSink, hnum.mem_mesh_iff]
  dsimp only
  rw [h.wired w]
  show l.Wanted w ∨ _ ↔ ∃ t, (l.dataflow.attach stream sink).stream? w.stream = some t ∧
    ∃ k ∈ t.sinks, w.port = k.port ∧ w.source ∈ l.instancesOf t.source.operator ∧
      w.target ∈ l.instancesOf k.operator
  rw [Dataflow.stream?_attach]
  by_cases hw : stream = w.stream
  · subst hw
    simp only [if_true, hs, Option.map_some, Option.some.injEq, exists_eq_left', hname]
    have hold : l.Wanted w ↔ ∃ k ∈ s.sinks, w.port = k.port ∧
        w.source ∈ l.instancesOf s.source.operator ∧ w.target ∈ l.instancesOf k.operator := by
      unfold Wanted
      simp only [hs, Option.some.injEq, exists_eq_left']
    rw [hold]
    simp only [List.mem_append, List.mem_singleton, or_and_right, exists_or, exists_eq_left]
    refine or_congr_right ⟨fun ⟨ha, hb, _, hport⟩ => ⟨hport, ha, hb⟩, fun ⟨hport, ha, hb⟩ =>
      ⟨ha, hb, trivial, hport⟩⟩
  · rw [if_neg hw]
    refine or_iff_left fun ⟨_, _, hstream, _⟩ => hw ?_
    rw [hstream, hname]

theorem removeStream (h : l.Laid) (stream : String) :
    ({ l with
      dataflow := l.dataflow.removeStream stream
      wires := l.wires.filter (·.stream ≠ stream) } : Layout).Laid := by
  refine ⟨h.numbered.of_same rfl rfl rfl, h.anchored.removeStream stream, fun w => ?_,
    h.once.filter _⟩
  rw [List.mem_filter, h.wired w]
  show _ ↔ ∃ t, (l.dataflow.removeStream stream).stream? w.stream = some t ∧
    ∃ k ∈ t.sinks, w.port = k.port ∧ w.source ∈ l.instancesOf t.source.operator ∧
      w.target ∈ l.instancesOf k.operator
  rw [Dataflow.stream?_removeStream]
  by_cases hw : stream = w.stream
  · subst hw
    simp
  · have hne : w.stream ≠ stream := fun e => hw e.symm
    simp only [if_neg hw, ne_eq, hne, not_false_eq_true, decide_true, and_true]
    exact Iff.rfl

end Laid

/-! ## Moves -/

theorem Covers.absent (h : l.Covers) {name : String} (hstage : l.dataflow.stage? name = none) :
    l.byOperator.contains name = false := by
  rw [h, hstage]; rfl

/-- What is laid out is an operator of the plan. -/
theorem Covers.exists_stage (h : l.Covers) {name : String} (hid : id ∈ l.instancesOf name) :
    ∃ stage, l.dataflow.stage? name = some stage := by
  cases hstage : l.dataflow.stage? name with
  | some stage => exact ⟨stage, rfl⟩
  | none =>
    rw [instancesOf_of_absent (h.absent hstage)] at hid
    cases hid

theorem Covers.of_same (h : l.Covers) (hoperators : l'.byOperator = l.byOperator)
    (hstages : ∀ name, (l'.dataflow.stage? name).isSome = (l.dataflow.stage? name).isSome) :
    l'.Covers := fun name => by
  rw [hoperators, hstages]
  exact h name

/-- **What the plan grants, the layout follows.** -/
theorem Laid.after (h : l.Laid) (hc : l.Covers) {m : Move} (hm : l.dataflow.Admits m) :
    (l.after m).2.Laid := by
  cases m with
  | addStage name operator =>
    have hno : l.byOperator.contains name = false := hc.absent hm
    have hnew : ({ l with dataflow := l.dataflow.after (.addStage name operator) } : Layout).Laid :=
      h.withStages rfl (h.anchored.insert _)
    exact hnew.addOperator (addOperator_after hno)
  | removeStage name => exact h.removeStage hm.1
  | setOperator name operator => exact h.withStages rfl (h.anchored.adjust _)
  | addStream stream source =>
    obtain ⟨hname, p, hp⟩ := hm
    exact h.addStream hname (Dataflow.stage?_isSome_of_findPort hp)
  | attach stream sink =>
    obtain ⟨s, hs, hcheck⟩ := hm
    rw [after_attach hs]
    exact h.attach hs (Dataflow.isSome_stage?_of_checkSinks hcheck sink List.mem_cons_self)
  | removeStream stream =>
    obtain ⟨s, hs⟩ := Option.isSome_iff_exists.1 hm
    rw [after_removeStream hs]
    exact h.removeStream stream

theorem Covers.after (h : l.Covers) {m : Move} (hm : l.dataflow.Admits m) : (l.after m).2.Covers := by
  cases m with
  | addStage name operator =>
    have hno : l.byOperator.contains name = false := h.absent hm
    intro other
    rw [byOperator_addOperator (addOperator_after hno), dataflow_after,
      contains_byOperator_insert]
    show (decide (name = other) || l.byOperator.contains other) =
      (({ l.dataflow with stages := _ } : Dataflow).stage? other).isSome
    rw [Dataflow.stage?_insert]
    by_cases hother : name = other
    · simp [hother]
    · simp [hother, h other]
  | removeStage name =>
    intro other
    have hw := without_removeOperator { l with dataflow := l.dataflow.removeStage name } name
    rw [dataflow_after]
    show (l.after (.removeStage name)).2.byOperator.contains other =
      ((l.dataflow.removeStage name).stage? other).isSome
    rw [show (l.after (.removeStage name)).2.byOperator = l.byOperator.erase name from hw.byOperator,
      contains_byOperator_erase, Dataflow.stage?_removeStage]
    by_cases hother : name = other
    · simp [hother]
    · simp [hother, h other]
  | setOperator name operator => exact h.of_same rfl fun _ => Dataflow.isSome_stage?_adjust
  | addStream stream source => exact h.of_same rfl fun _ => rfl
  | attach stream sink =>
    obtain ⟨s, hs, _⟩ := hm
    rw [after_attach hs]
    exact h.of_same rfl fun _ => rfl
  | removeStream stream =>
    obtain ⟨s, hs⟩ := Option.isSome_iff_exists.1 hm
    rw [after_removeStream hs]
    exact h.of_same rfl fun _ => rfl

/-! ## The first layout -/

theorem Laid.addOperators {names : List String} (h : l.Laid)
    (hok : l.addOperators names = .ok (ids, l')) : l'.Laid :=
  addOperators_keeps (fun hone h => h.addOperator hone) h hok

/-- Operators that are laid out one after the other are distinct operators of the plan. -/
theorem names_addOperators {names : List String} (hok : l.addOperators names = .ok (ids, l')) :
    names.Nodup ∧
      (∀ n ∈ names, l.byOperator.contains n = false ∧ (l.dataflow.stage? n).isSome = true) ∧
      ∀ n, l'.byOperator.contains n = (l.byOperator.contains n || decide (n ∈ names)) := by
  induction names generalizing l ids with
  | nil => cases hok; simp
  | cons name rest ih =>
    obtain ⟨first, l₁, more, hone, hrest, _⟩ := addOperators_cons_eq_ok_iff.1 hok
    obtain ⟨hnodup, hnew, hall⟩ := ih hrest
    obtain ⟨stage, hstage, hno, _, _⟩ := addOperator_eq_ok_iff.1 hone
    rw [dataflow_addOperator hone, byOperator_addOperator hone] at hnew
    rw [byOperator_addOperator hone] at hall
    simp only [contains_byOperator_insert, Bool.or_eq_false_iff, decide_eq_false_iff_not] at hnew hall
    refine ⟨List.nodup_cons.2 ⟨fun hmem => (hnew name hmem).1.1 rfl, hnodup⟩, fun n hn => ?_,
      fun n => ?_⟩
    · rcases List.mem_cons.1 hn with rfl | hn
      · exact ⟨hno, by rw [hstage]; rfl⟩
      · exact ⟨(hnew n hn).1.2, (hnew n hn).2⟩
    · rw [hall]
      by_cases hn : name = n
      · simp [hn]
      · simp [hn, Ne.symm hn]

/-- **A layout of its whole plan.** -/
structure Sound (l : Layout) : Prop where
  laid : l.Laid
  covers : l.Covers

theorem Sound.intact (h : l.Sound) : l.Intact := h.laid.intact

theorem Sound.alike (h : l.Sound) (ha : l.Alike l') : l'.Sound :=
  ⟨h.laid.alike ha, h.covers.of_same ha.byOperator fun name => by rw [ha.dataflow]⟩

/-- A new operator is laid out on its own: no stream knows of it yet. -/
theorem Sound.after_addStage (h : l.Sound) {name : String} {operator : Operator}
    (hstage : l.dataflow.stage? name = none) :
    l.after (.addStage name operator) =
      ((l.freshInstances name (l.dataflow.newStage name operator).partitions).map (·.id),
        ({ l with dataflow := l.dataflow.after (.addStage name operator) } : Layout).enter name
          (l.freshInstances name (l.dataflow.newStage name operator).partitions)) := by
  have htouching : ({ l with dataflow := l.dataflow.after (.addStage name operator) } :
      Layout).touching name = [] := by
    refine List.filter_eq_nil_iff.2 fun s hs => ?_
    obtain ⟨key, hkey⟩ := SortedMap.mem_values_iff.1 hs
    have hsource := h.laid.anchored.source key s hkey
    have hsinks := h.laid.anchored.sinks key s hkey
    have hne : ∀ {op}, (l.dataflow.stage? op).isSome = true → op ≠ name := by
      rintro op hop rfl
      rw [hstage] at hop
      cases hop
    have hfeeds : s.feeds name = false :=
      List.any_eq_false.2 fun k hk => by simpa using hne (hsinks k hk)
    simp [hne hsource, hfeeds]
  refine Layout.after_addStage (addOperator_eq_ok_iff.2
    ⟨l.dataflow.newStage name operator, ?_, h.covers.absent hstage, rfl, ?_⟩)
  · exact Dataflow.stage?_insert.trans (if_pos rfl)
  · rw [htouching]; rfl

theorem Sound.after (h : l.Sound) {m : Move} (hm : l.dataflow.Admits m) : (l.after m).2.Sound :=
  ⟨h.laid.after h.covers hm, h.covers.after hm⟩

/-- The labels that stages are shown by may have been changed.  If all of them can be laid out, they
are the names of the stages all the same. -/
theorem labels_perm_keys (hok : (Layout.ofDataflow d).addOperators d.labels = .ok (ids, l)) :
    d.labels.Perm d.stages.keys := by
  obtain ⟨hnodup, hstages, _⟩ := names_addOperators hok
  have hsub : d.labels ⊆ d.stages.keys := fun n hn => SortedMap.mem_keys_iff.2 (hstages n hn).2
  have hlength : d.stages.keys.length ≤ d.labels.length := by
    simp [Dataflow.labels, SortedMap.keys, SortedMap.values]
  exact (hnodup.subperm hsub).perm_of_length_le hlength

theorem sound_addOperators (hd : d.Anchored)
    (hok : (Layout.ofDataflow d).addOperators d.labels = .ok (ids, l)) : l.Sound := by
  refine ⟨(Laid.ofDataflow hd).addOperators hok, fun name => ?_⟩
  obtain ⟨_, _, hall⟩ := names_addOperators hok
  rw [hall, dataflow_addOperators hok]
  show (false || decide (name ∈ d.labels)) = (d.stages.get? name).isSome
  rw [Bool.false_or, Bool.eq_iff_iff, decide_eq_true_iff, (labels_perm_keys hok).mem_iff]
  exact SortedMap.mem_keys_iff

theorem sound_materialize (hd : d.Anchored) (hok : materialize d = .ok l) : l.Sound := by
  obtain ⟨ids, l₀, _, ha, hp⟩ := materialize_eq_ok_iff.1 hok
  exact (sound_addOperators hd ha).alike ((alike_place l₀ _).trans (primes_of_primeAll hp).alike)

end LiveDataflow.Layout

namespace LiveDataflow

/-! ## Live sessions -/

namespace Session

variable {s : Session}

/-- The session works on a layout of its whole plan. -/
def Sound (s : Session) : Prop := ∃ l, s.target = .live l ∧ l.Sound

theorem Sound.anchored (h : s.Sound) : s.dataflow.Anchored := by
  obtain ⟨l, hl, hs⟩ := h
  unfold Session.dataflow
  rw [hl]
  exact hs.laid.anchored

theorem Sound.after (h : s.Sound) {m : Move} (hm : s.dataflow.Admits m) : (s.after m).Sound := by
  obtain ⟨target, changes⟩ := s
  obtain ⟨l, rfl, hs⟩ := h
  exact ⟨(l.after m).2, rfl, hs.after hm⟩

theorem Sound.afterAll {moves : List Move} (h : s.Sound) (hm : s.dataflow.AdmitsAll moves) :
    (s.afterAll moves).Sound :=
  afterAll_keeps (fun _ _ hs hm => hs.after hm) h hm

theorem Sound.step (h : s.Sound) (e : Edit) : (s.step e).after.Sound :=
  step_keeps (fun _ _ hs hm => hs.after hm) h.anchored h e

theorem Sound.apply {σ : Type} (h : s.Sound) (deployer : Deployer σ) (world : σ) :
    Session.Sound ⟨(s.apply deployer world).target, ∅⟩ := by
  obtain ⟨target, changes⟩ := s
  obtain ⟨l, rfl, hs⟩ := h
  obtain ⟨l', htarget, halike⟩ := exists_alike_apply deployer world
  exact ⟨l', htarget, hs.alike halike⟩

theorem Live.sound (h : s.Live) : s.Sound :=
  h.keeps (fun hs hok => ⟨_, rfl, Layout.sound_materialize hs.anchored hok⟩) (fun e _ hs => hs.step e)
    (fun _ hs => hs) fun deployer world _ hs => hs.apply deployer world

theorem Live.layout_sound {l : Layout} (h : (Session.onLayout l).Live) : l.Sound := by
  obtain ⟨l', hl, hs⟩ := h.sound
  cases hl
  exact hs

end Session

/-- The layout is the one that its plan asks for: instances under the names of exactly the plan's
operators, and one wire for every stream, every sink of it, every instance of the source operator and
every instance of the sink's operator, and no other wire. -/
structure Layout.Refines (l : Layout) : Prop where
  names : l.byOperator.keys = l.dataflow.stages.keys
  instances : ∀ name id, id ∈ l.instancesOf name ↔ ∃ i, l.instance? id = some i ∧ i.operator = name
  wires : ∀ w, w ∈ l.wires ↔ ∃ s ∈ l.dataflow.streams.values, ∃ k ∈ s.sinks,
    w.stream = s.name ∧ w.port = k.port ∧
      w.source ∈ l.instancesOf s.source.operator ∧ w.target ∈ l.instancesOf k.operator
  once : l.wires.Nodup

theorem Layout.refines_of_sound {l : Layout} (h : l.Sound) : l.Refines := by
  refine ⟨?_, h.laid.numbered.indexed, fun w => (h.laid.wired w).trans ?_, h.laid.once⟩
  · refine l.byOperator.pairwise_keys.eq_of_mem_iff l.dataflow.stages.pairwise_keys fun name => ?_
    rw [SortedMap.mem_keys_iff, SortedMap.mem_keys_iff]
    exact iff_of_eq (congrArg (· = true) (h.covers name))
  · constructor
    · rintro ⟨s, hs, k, hk, hport, ha, hb⟩
      exact ⟨s, SortedMap.mem_values_iff.2 ⟨_, hs⟩, k, hk, (h.laid.anchored.keyed _ s hs).symm, hport,
        ha, hb⟩
    · rintro ⟨s, hs, k, hk, hstream, hport, ha, hb⟩
      obtain ⟨key, hkey⟩ := SortedMap.mem_values_iff.1 hs
      refine ⟨s, ?_, k, hk, hport, ha, hb⟩
      rw [hstream, h.laid.anchored.keyed key s hkey]
      exact hkey

/-- **In every state of every live session the layout refines its plan.** -/
theorem Session.Live.refines {s : Session} (h : s.Live) : ∃ l, s.target = .live l ∧ l.Refines := by
  obtain ⟨l, hl, hs⟩ := h.sound
  exact ⟨l, hl, Layout.refines_of_sound hs⟩

/-- A second operator is added to a layout, a stream between the two, and then one that does not
fit. -/
theorem Session.Live.refines_pair :
    let s := ((Session.onLayout .single).runAll
      [.addOperator "b" .relay, .addStream "ab" ⟨"a", "out"⟩ [⟨"b", "in"⟩],
        .addStream "ba" ⟨"b", "out"⟩ [⟨"a", "in"⟩]]).2
    s.Live ∧ ∃ l, s.target = .live l ∧ l.Refines := by
  have h := ((live_single.edit (.addOperator "b" .relay)).edit
    (.addStream "ab" ⟨"a", "out"⟩ [⟨"b", "in"⟩])).edit (.addStream "ba" ⟨"b", "out"⟩ [⟨"a", "in"⟩])
  exact ⟨h, refines h⟩

end LiveDataflow
