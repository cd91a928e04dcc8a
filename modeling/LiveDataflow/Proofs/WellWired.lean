import LiveDataflow.Proofs.Construction

/-!
# Streams are wired by the rules

A stream runs from a declared output port to declared input ports, an input port is the sink of one
stream at most, and where the plan is strict the two ends of an attachment agree on the type of the data.
Taking an operator away takes every stream end on it, so that one of the same name may come back with
other ports.

## Results

* `Dataflow.WellWired`: the invariant.
* `Dataflow.WellWired.of_pruned`: taking streams and sinks away keeps it.
* `Dataflow.WellWired.attach`: a sink that passes the check keeps it.
* `Dataflow.Built.well_wired`: every plan that can be built is wired by the rules.
-/

set_option autoImplicit false

namespace LiveDataflow

/-- Two ports fit if they do not declare different types. -/
theorem Port.fits_iff {p q : Port} :
    p.fits q = true ↔ ∀ t u, p.dataType = some t → q.dataType = some u → t = u := by
  unfold Port.fits
  cases p.dataType <;> cases q.dataType <;> simp

namespace Dataflow

variable {d d' : Dataflow} {name : String} {a sink source : PortAddress} {p : Port} {s : Stream}
  {table : PortTable → SortedMap String Port}

/-! ## Declared ports -/

theorem findPort_eq_ok_iff :
    d.findPort table a = .ok p ↔
      ∃ stage, d.stage? a.operator = some stage ∧ (table stage.ports).get? a.port = some p := by
  unfold findPort
  cases d.stage? a.operator with
  | none => simp
  | some stage => cases hp : (table stage.ports).get? a.port <;> simp [hp]

theorem findPort_insert (hname : d.stage? name = none) (stage : Stage)
    (h : d.findPort table a = .ok p) :
    ({ d with stages := d.stages.insert name stage } : Dataflow).findPort table a = .ok p := by
  obtain ⟨old, hold, hp⟩ := findPort_eq_ok_iff.1 h
  have hne : name ≠ a.operator := by
    rintro rfl
    rw [hname] at hold
    cases hold
  refine findPort_eq_ok_iff.2 ⟨old, ?_, hp⟩
  rw [stage?_insert, if_neg hne]
  exact hold

theorem findPort_adjust {f : Stage → Stage} (hports : ∀ stage, (f stage).ports = stage.ports)
    (h : d.findPort table a = .ok p) :
    ({ d with stages := d.stages.adjust name f } : Dataflow).findPort table a = .ok p := by
  obtain ⟨old, hold, hp⟩ := findPort_eq_ok_iff.1 h
  rw [findPort_eq_ok_iff]
  by_cases hname : name = a.operator
  · refine ⟨f old, ?_, by rw [hports]; exact hp⟩
    rw [stage?_adjust, if_pos hname, hold]
    rfl
  · refine ⟨old, ?_, hp⟩
    rw [stage?_adjust, if_neg hname]
    exact hold

theorem findPort_removeStage (hne : a.operator ≠ name) :
    (d.removeStage name).findPort table a = d.findPort table a := by
  unfold findPort
  rw [stage?_removeStage, if_neg (Ne.symm hne)]

/-! ## The invariant -/

/-- Whether the plan lets a stream run from the one port to the other. -/
def Joins (d : Dataflow) (source sink : PortAddress) : Prop :=
  ∃ p q, d.outputPort source = .ok p ∧ d.inputPort sink = .ok q ∧
    (d.config.strictTypes = true → p.fits q = true)

/-- Streams are wired by the rules. -/
structure WellWired (d : Dataflow) : Prop where
  declared : ∀ name s, d.stream? name = some s → ∃ p, d.outputPort s.source = .ok p
  joined : ∀ name s, d.stream? name = some s → ∀ a ∈ s.sinks, d.Joins s.source a
  once : ∀ name s, d.stream? name = some s → s.sinks.Nodup
  alone : ∀ name s other t, d.stream? name = some s → d.stream? other = some t →
    ∀ a ∈ s.sinks, a ∈ t.sinks → name = other

namespace WellWired

/-- **Taking streams and sinks away keeps the wiring**, as long as the ports that are still used stay. -/
theorem of_pruned (h : d.WellWired) (hpruned : d.Pruned d') (hconfig : d'.config = d.config)
    (hports : ∀ name s, d'.stream? name = some s → ∀ a, a = s.source ∨ a ∈ s.sinks →
      ∀ table p, d.findPort table a = .ok p → d'.findPort table a = .ok p) : d'.WellWired := by
  constructor
  · intro name s hs
    obtain ⟨t, ht, hsource, _⟩ := hpruned name s hs
    obtain ⟨p, hp⟩ := h.declared name t ht
    rw [← hsource] at hp
    exact ⟨p, hports name s hs s.source (.inl rfl) _ p hp⟩
  · intro name s hs a ha
    obtain ⟨t, ht, hsource, hsinks⟩ := hpruned name s hs
    obtain ⟨p, q, hp, hq, hfits⟩ := h.joined name t ht a (hsinks.subset ha)
    rw [← hsource] at hp
    refine ⟨p, q, hports name s hs s.source (.inl rfl) _ p hp, hports name s hs a (.inr ha) _ q hq, ?_⟩
    rw [hconfig]
    exact hfits
  · intro name s hs
    obtain ⟨t, ht, _, hsinks⟩ := hpruned name s hs
    exact (h.once name t ht).sublist hsinks
  · intro name s other t hs ht a has hat
    obtain ⟨s₀, hs₀, _, hsinks⟩ := hpruned name s hs
    obtain ⟨t₀, ht₀, _, htinks⟩ := hpruned other t ht
    exact h.alone name s₀ other t₀ hs₀ ht₀ a (hsinks.subset has) (htinks.subset hat)

/-- What is left after a removal has nothing to do with the stage that is gone. -/
theorem removeStage (h : d.WellWired) (hname : (d.stage? name).isSome = true) :
    (d.removeStage name).WellWired := by
  have hconfig : (d.removeStage name).config = d.config := by
    unfold Dataflow.removeStage
    split <;> rfl
  refine h.of_pruned (pruned_removeStage hname) hconfig fun stream s hs a ha table p hp => ?_
  obtain ⟨t, _, hsource, rfl⟩ := exists_of_stream?_removeStage hname hs
  rw [findPort_removeStage]
  · exact hp
  · rcases ha with rfl | ha
    · exact hsource
    · simpa using (List.mem_filter.1 ha).2

theorem insertStream (h : d.WellWired) (hp : d.outputPort source = .ok p) :
    ({ d with streams := d.streams.insert name ⟨name, source, []⟩ } : Dataflow).WellWired := by
  constructor
  · intro j s hs
    rcases eq_or_of_stream?_insert hs with ⟨_, rfl⟩ | hold
    · exact ⟨p, hp⟩
    · exact h.declared j s hold
  · intro j s hs a ha
    rcases eq_or_of_stream?_insert hs with ⟨_, rfl⟩ | hold
    · cases ha
    · exact h.joined j s hold a ha
  · intro j s hs
    rcases eq_or_of_stream?_insert hs with ⟨_, rfl⟩ | hold
    · exact List.nodup_nil
    · exact h.once j s hold
  · intro j s k t hs ht a has hat
    rcases eq_or_of_stream?_insert hs with ⟨_, rfl⟩ | holds
    · cases has
    · rcases eq_or_of_stream?_insert ht with ⟨_, rfl⟩ | holdt
      · cases hat
      · exact h.alone j s k t holds holdt a has hat

/-- Where a sink comes from after one was attached. -/
theorem mem_sinks_attach {stream : String} (hs : (d.attach stream sink).stream? name = some s)
    (ha : a ∈ s.sinks) :
    ∃ t, d.stream? name = some t ∧ s.source = t.source ∧ (a ∈ t.sinks ∨ (stream = name ∧ a = sink)) := by
  obtain ⟨t, ht, rfl | ⟨hname, rfl⟩⟩ := exists_of_stream?_attach hs
  · exact ⟨s, ht, rfl, .inl ha⟩
  · refine ⟨t, ht, rfl, ?_⟩
    rcases List.mem_append.1 ha with hold | hnew
    · exact .inl hold
    · exact .inr ⟨hname, List.mem_singleton.1 hnew⟩

/-- **A sink that passes the check keeps the wiring.** -/
theorem attach (h : d.WellWired) (hs : d.stream? name = some s)
    (hc : d.checkSinks s.source [sink] = .ok ()) : (d.attach name sink).WellWired := by
  obtain ⟨p, hp, _, hall⟩ := checkSinks_eq_ok_iff.1 hc
  obtain ⟨⟨q, hq, hfits⟩, hvacant, _, _⟩ := hall sink List.mem_cons_self
  constructor
  · intro j t' ht'
    obtain ⟨t, ht, rfl | ⟨_, rfl⟩⟩ := exists_of_stream?_attach ht'
    · exact h.declared j t' ht
    · exact h.declared j t ht
  · intro j t' ht' a ha
    obtain ⟨t, ht, hsource, hold | ⟨rfl, rfl⟩⟩ := mem_sinks_attach ht' ha
    · rw [hsource]
      exact h.joined j t ht a hold
    · rw [hs] at ht
      cases ht
      rw [hsource]
      exact ⟨p, q, hp, hq, hfits⟩
  · intro j t' ht'
    obtain ⟨t, ht, rfl | ⟨_, rfl⟩⟩ := exists_of_stream?_attach ht'
    · exact h.once j t' ht
    · refine List.nodup_append.2 ⟨h.once j t ht, List.nodup_singleton sink, fun a ha b hb => ?_⟩
      rintro rfl
      rw [List.mem_singleton.1 hb] at ha
      exact hvacant j t ht ha
  · intro j s' k t' hs' ht' a has hat
    obtain ⟨s₀, hs₀, _, hsa⟩ := mem_sinks_attach hs' has
    obtain ⟨t₀, ht₀, _, hta⟩ := mem_sinks_attach ht' hat
    rcases hsa with hsa | ⟨rfl, rfl⟩
    · rcases hta with hta | ⟨rfl, rfl⟩
      · exact h.alone j s₀ k t₀ hs₀ ht₀ a hsa hta
      · exact absurd hsa (hvacant j s₀ hs₀)
    · rcases hta with hta | ⟨rfl, _⟩
      · exact absurd hta (hvacant k t₀ ht₀)
      · rfl

/-- **Streams are wired by the rules, and every change keeps them so.** -/
theorem invariant : Invariant true WellWired where
  empty _ := ⟨fun _ _ h => (nomatch h), fun _ _ h => (nomatch h), fun _ _ h => (nomatch h),
    fun _ _ _ _ h => (nomatch h)⟩
  insert _ h hname := h.of_pruned (pruned_of_streams rfl) rfl
    fun _ _ _ _ _ _ _ hp => findPort_insert hname _ hp
  adjust _ h hports _ _ := h.of_pruned (pruned_of_streams rfl) rfl
    fun _ _ _ _ _ _ _ hp => findPort_adjust hports hp
  removeStage h hname := h.removeStage hname
  insertStream h _ hp := h.insertStream hp
  attach _ h hs hc := h.attach hs hc
  removeStream _ h := h.of_pruned pruned_removeStream rfl fun _ _ _ _ _ _ _ hp => hp

/-! ## What follows from it -/

/-- No input port is a sink twice, neither of one stream nor of two. -/
theorem nodup_sinks (h : d.WellWired) : (d.streams.values.flatMap (·.sinks)).Nodup := by
  rw [List.nodup_flatMap]
  constructor
  · intro s hs
    obtain ⟨name, hname⟩ := SortedMap.mem_values_iff.1 hs
    exact h.once name s hname
  · refine SortedMap.pairwise_values fun j k s t hs ht hlt a has hat => ?_
    have heq : j = k := h.alone j s k t hs ht a has hat
    exact KeyOrder.ne_of_lt hlt heq

/-- The stream into an input port is the only one. -/
theorem streamInto?_eq_some_iff (h : d.WellWired) :
    d.streamInto? a = some s ↔ s ∈ d.streams.values ∧ a ∈ s.sinks := by
  constructor
  · intro hs
    have hmem := List.mem_of_find?_eq_some hs
    have hsink := List.find?_some hs
    exact ⟨hmem, by simpa [Stream.hasSink] using hsink⟩
  · rintro ⟨hs, ha⟩
    obtain ⟨name, hname⟩ := SortedMap.mem_values_iff.1 hs
    cases hfind : d.streamInto? a with
    | none => exact absurd ha (streamInto?_eq_none_iff.1 hfind name s hname)
    | some t =>
      obtain ⟨other, hother⟩ := SortedMap.mem_values_iff.1 (List.mem_of_find?_eq_some hfind)
      have hat : a ∈ t.sinks := by simpa [Stream.hasSink] using List.find?_some hfind
      have heq : name = other := h.alone name s other t hname hother a ha hat
      subst heq
      have hother : d.stream? name = some t := hother
      rw [← hother]
      exact hname

end WellWired

/-- **Every plan that can be built is wired by the rules**: the source of a stream is a declared output
port and its sinks are declared input ports; over all streams no input port is a sink twice, so that the
stream into a port is the only one; and on a strict plan two ports that are joined do not declare
different types. -/
theorem Built.well_wired (h : d.Built true) :
    (∀ s ∈ d.streams.values, (∃ p, d.outputPort s.source = .ok p) ∧
      ∀ a ∈ s.sinks, ∃ q, d.inputPort a = .ok q) ∧
    (d.streams.values.flatMap (·.sinks)).Nodup ∧
    (∀ a s, d.streamInto? a = some s ↔ s ∈ d.streams.values ∧ a ∈ s.sinks) ∧
    (d.config.strictTypes = true → ∀ s ∈ d.streams.values, ∀ a ∈ s.sinks, ∀ p q,
      d.outputPort s.source = .ok p → d.inputPort a = .ok q →
        ∀ t u, p.dataType = some t → q.dataType = some u → t = u) := by
  have hwired : d.WellWired := WellWired.invariant.holds h
  refine ⟨fun s hs => ?_, hwired.nodup_sinks, fun a s => hwired.streamInto?_eq_some_iff, ?_⟩
  · obtain ⟨name, hname⟩ := SortedMap.mem_values_iff.1 hs
    refine ⟨hwired.declared name s hname, fun a ha => ?_⟩
    obtain ⟨_, q, _, hq, _⟩ := hwired.joined name s hname a ha
    exact ⟨q, hq⟩
  · intro hstrict s hs a ha p q hp hq
    obtain ⟨name, hname⟩ := SortedMap.mem_values_iff.1 hs
    obtain ⟨p', q', hp', hq', hfits⟩ := hwired.joined name s hname a ha
    rw [hp] at hp'
    rw [hq] at hq'
    cases hp'
    cases hq'
    exact Port.fits_iff.1 (hfits hstrict)

/-- A strict plan whose second operator was taken away and came back with other ports.  The stream does
not fit the first of these, and the label of the source makes no difference. -/
def returned : Dataflow :=
  let taker (ports : List Port) : Operator := ⟨"taker", .ofLists ports [], .fields ∅⟩
  let giver : Operator := ⟨"giver", .ofLists [] [⟨"out", some "int"⟩], .fields ∅⟩
  let first := (Session.onPlan (.empty .default)).runAll
    [.addOperator "a" giver, .addOperator "b" (taker [⟨"in", some "int"⟩]),
      .addStream "ab" ⟨"a", "out"⟩ [⟨"b", "in"⟩]]
  let last := (Session.onPlan ((first.2.dataflow.removeStage "b").relabel "a" "c")).runAll
    [.addOperator "b" (taker [⟨"in", some "text"⟩, ⟨"more", some "int"⟩]), .addSink "ab" ⟨"b", "in"⟩,
      .addSink "ab" ⟨"b", "more"⟩]
  last.2.dataflow

theorem well_wired_returned :
    returned.Built true ∧ returned.config.strictTypes = true ∧
      returned.streams.values = [⟨"ab", ⟨"a", "out"⟩, [⟨"b", "more"⟩]⟩] ∧
      (∃ q, returned.inputPort ⟨"b", "more"⟩ = .ok q) ∧
      returned.streamInto? ⟨"b", "more"⟩ = some ⟨"ab", ⟨"a", "out"⟩, [⟨"b", "more"⟩]⟩ := by
  have hbuilt : returned.Built true :=
    Built.runAll (s := Session.onPlan _) (.call (.call (Built.runAll (.empty .default) _)
      (.removeStage "b")) (.relabel "a" "c" rfl)) _
  have hstreams : returned.streams.values = [⟨"ab", ⟨"a", "out"⟩, [⟨"b", "more"⟩]⟩] := rfl
  have hmem : (⟨"ab", ⟨"a", "out"⟩, [⟨"b", "more"⟩]⟩ : Stream) ∈ returned.streams.values := by
    rw [hstreams]
    exact List.mem_cons_self
  obtain ⟨hdeclared, _, hinto, _⟩ := Built.well_wired hbuilt
  exact ⟨hbuilt, rfl, hstreams, (hdeclared _ hmem).2 _ List.mem_cons_self,
    (hinto _ _).2 ⟨hmem, List.mem_cons_self⟩⟩

end Dataflow

end LiveDataflow
