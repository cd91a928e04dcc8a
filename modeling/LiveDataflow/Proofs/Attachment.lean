import LiveDataflow.Dataflow.Change
import LiveDataflow.Proofs.Reachability

/-!
# Attaching sinks

`checkSinks` looks at every sink of a batch before the first one is attached.  A sink that passes
may still be attached after the others of its batch: they take ports of their own, and what they add
to the operator graph are edges out of the source operator, which no path *to* the source operator
needs.

## Results

* `Dataflow.Attachable`: what a sink has to fulfil, apart from the rest of its batch.
* `Dataflow.checkSinks_eq_ok_iff`: a batch passes if and only if its sinks are different and each of
  them is attachable.
* `Dataflow.Attachable.mono`: a sink stays attachable as long as only other sinks are attached to
  streams from the same source.
* `Dataflow.checkSinks_attach`: attaching the first sink of a batch lets the rest of it pass.
-/

set_option autoImplicit false

namespace LiveDataflow.Dataflow

open Reachability

variable {d d' : Dataflow} {source a b : PortAddress} {p : Port} {stream : String} {s : Stream}

/-! ## Look-ups in the lists that a plan is made of -/

theorem mem_links_iff {e : String × String} :
    e ∈ d.links ↔ ∃ name s, d.stream? name = some s ∧
      ∃ a ∈ s.sinks, e = (s.source.operator, a.operator) := by
  unfold links stream?
  simp only [List.mem_flatMap, List.mem_map, SortedMap.mem_values_iff]
  constructor
  · rintro ⟨s, ⟨name, hs⟩, a, ha, rfl⟩
    exact ⟨name, s, hs, a, ha, rfl⟩
  · rintro ⟨name, s, hs, a, ha, rfl⟩
    exact ⟨s, ⟨name, hs⟩, a, ha, rfl⟩

theorem mem_topology_iff {e : String × String} :
    e ∈ d.topology ↔ e ∈ d.links ∧ e.1 ∈ d.labels ∧ e.2 ∈ d.labels := by
  unfold topology
  rw [List.mem_filter, decide_eq_true_eq]

theorem streamInto?_eq_none_iff :
    d.streamInto? a = none ↔ ∀ name s, d.stream? name = some s → a ∉ s.sinks := by
  unfold streamInto? stream?
  rw [List.find?_eq_none]
  constructor
  · intro h name s hs
    have := h s (SortedMap.mem_values_iff.2 ⟨name, hs⟩)
    simpa [Stream.hasSink] using this
  · intro h s hs
    obtain ⟨name, hname⟩ := SortedMap.mem_values_iff.1 hs
    simpa [Stream.hasSink] using h name s hname

/-! ## What a batch has to fulfil -/

/-- What a sink has to fulfil, apart from the rest of its batch. -/
structure Attachable (d : Dataflow) (source : PortAddress) (p : Port) (a : PortAddress) : Prop where
  declared : ∃ q, d.inputPort a = .ok q ∧ (d.config.strictTypes = true → p.fits q = true)
  vacant : ∀ name s, d.stream? name = some s → a ∉ s.sinks
  other : a.operator ≠ source.operator
  ahead : d.leadsTo a.operator source.operator = false

theorem checkSink_eq_ok_iff {seen : List PortAddress} :
    d.checkSink source p seen a = .ok () ↔ a ∉ seen ∧ d.Attachable source p a := by
  unfold checkSink
  constructor
  · intro h
    cases hq : d.inputPort a with
    | error c => simp [hq, bind, Except.bind] at h
    | ok q =>
      by_cases hseen : a ∈ seen
      · simp [hq, hseen, bind, Except.bind, throw, throwThe, MonadExceptOf.throw] at h
      cases hinto : d.streamInto? a with
      | some s =>
        simp [hq, hseen, hinto, bind, Except.bind, throw, throwThe, MonadExceptOf.throw] at h
      | none =>
        simp [hq, hseen, hinto, bind, Except.bind, throw, throwThe, MonadExceptOf.throw] at h
        split at h
        · cases h
        rename_i htypes
        split at h
        · cases h
        rename_i hcycle
        rw [not_or] at hcycle
        refine ⟨hseen, ⟨q, hq, ?_⟩, streamInto?_eq_none_iff.1 hinto, hcycle.1, by simpa using hcycle.2⟩
        intro hstrict
        simpa [hstrict] using htypes
  · rintro ⟨hseen, ⟨q, hq, htypes⟩, hfree, hother, hahead⟩
    have hinto := streamInto?_eq_none_iff.2 hfree
    have hfits : ¬ (d.config.strictTypes = true ∧ p.fits q = false) := by
      rintro ⟨hstrict, hno⟩
      rw [htypes hstrict] at hno; cases hno
    simp [hq, hseen, hinto, hfits, hother, hahead, bind, Except.bind]
    rfl

theorem checkEach_eq_ok_iff {seen sinks : List PortAddress} :
    d.checkEach source p seen sinks = .ok () ↔
      sinks.Nodup ∧ ∀ a ∈ sinks, a ∉ seen ∧ d.Attachable source p a := by
  induction sinks generalizing seen with
  | nil => simp [checkEach]
  | cons a rest ih =>
    have hstep : d.checkEach source p seen (a :: rest) = .ok () ↔
        d.checkSink source p seen a = .ok () ∧ d.checkEach source p (a :: seen) rest = .ok () := by
      rw [checkEach]
      cases d.checkSink source p seen a with
      | error c => simp [bind, Except.bind]
      | ok u => simp [bind, Except.bind]
    rw [hstep, checkSink_eq_ok_iff, ih, List.nodup_cons, List.forall_mem_cons]
    constructor
    · rintro ⟨ha, hnd, hrest⟩
      refine ⟨⟨fun hmem => (hrest a hmem).1 List.mem_cons_self, hnd⟩, ha, fun b hb => ?_⟩
      exact ⟨fun hseen => (hrest b hb).1 (List.mem_cons_of_mem _ hseen), (hrest b hb).2⟩
    · rintro ⟨⟨hnot, hnd⟩, ha, hrest⟩
      refine ⟨ha, hnd, fun b hb => ⟨fun hseen => ?_, (hrest b hb).2⟩⟩
      rcases List.mem_cons.1 hseen with rfl | hseen
      · exact hnot hb
      · exact (hrest b hb).1 hseen

/-- **A batch passes if and only if its sinks are different and each of them is attachable.** -/
theorem checkSinks_eq_ok_iff {sinks : List PortAddress} :
    d.checkSinks source sinks = .ok () ↔
      ∃ p, d.outputPort source = .ok p ∧ sinks.Nodup ∧ ∀ a ∈ sinks, d.Attachable source p a := by
  unfold checkSinks
  cases hp : d.outputPort source with
  | error c => simp [bind, Except.bind]
  | ok p =>
    have hcheck : d.checkEach source p [] sinks = .ok () ↔
        sinks.Nodup ∧ ∀ a ∈ sinks, a ∉ ([] : List PortAddress) ∧ d.Attachable source p a :=
      checkEach_eq_ok_iff
    simpa [bind, Except.bind] using hcheck

/-! ## What a batch leaves to the others -/

/-- A sink stays attachable as long as only other sinks are attached to streams from the same
source. -/
theorem Attachable.mono (h : d.Attachable source p a) (hstages : d'.stages = d.stages)
    (hconfig : d'.config = d.config)
    (hnew : ∀ name s, d'.stream? name = some s → ∀ b ∈ s.sinks,
      (∃ name' s', d.stream? name' = some s' ∧ s'.source = s.source ∧ b ∈ s'.sinks) ∨
        (s.source = source ∧ b ≠ a)) :
    d'.Attachable source p a := by
  have hlabels : d'.labels = d.labels := by unfold labels; rw [hstages]
  obtain ⟨q, hq, htypes⟩ := h.declared
  refine ⟨⟨q, ?_, ?_⟩, ?_, h.other, ?_⟩
  · rw [← hq]
    unfold inputPort findPort stage?
    rw [hstages]
  · rw [hconfig]; exact htypes
  · intro name s hs hmem
    rcases hnew name s hs a hmem with ⟨name', s', hs', _, hmem'⟩ | ⟨_, hne⟩
    · exact h.vacant name' s' hs' hmem'
    · exact hne rfl
  · have hno := h.ahead
    rw [← Bool.not_eq_true, leadsTo_iff] at hno ⊢
    rw [hlabels]
    rintro ⟨ha, hb, hreach⟩
    refine hno ⟨ha, hb, hreach.of_edges_out fun e he => ?_⟩
    rw [mem_topology_iff, hlabels] at he
    obtain ⟨hlink, h1, h2⟩ := he
    obtain ⟨name, s, hs, b, hbs, rfl⟩ := mem_links_iff.1 hlink
    rcases hnew name s hs b hbs with ⟨name', s', hs', hsrc, hb'⟩ | ⟨hsrc, _⟩
    · refine .inl (mem_topology_iff.2 ⟨mem_links_iff.2 ⟨name', s', hs', b, hb', ?_⟩, h1, h2⟩)
      rw [hsrc]
    · exact .inr (congrArg PortAddress.operator hsrc)

theorem stream?_attach {name : String} :
    (d.attach stream a).stream? name =
      if stream = name then (d.stream? name).map fun s => { s with sinks := s.sinks ++ [a] }
      else d.stream? name :=
  SortedMap.get?_adjust ..

theorem outputPort_congr (hstages : d'.stages = d.stages) : d'.outputPort a = d.outputPort a := by
  unfold outputPort findPort stage?
  rw [hstages]

/-- **Attaching the first sink of a batch lets the rest of it pass.** -/
theorem checkSinks_attach {rest : List PortAddress} (hs : d.stream? stream = some s)
    (h : d.checkSinks s.source (a :: rest) = .ok ()) :
    (d.attach stream a).checkSinks s.source rest = .ok () := by
  obtain ⟨p, hp, hnd, hall⟩ := checkSinks_eq_ok_iff.1 h
  obtain ⟨hnot, hnd⟩ := List.nodup_cons.1 hnd
  refine checkSinks_eq_ok_iff.2 ⟨p, (outputPort_congr rfl).trans hp, hnd, fun b hb => ?_⟩
  refine (hall b (List.mem_cons_of_mem _ hb)).mono rfl rfl fun name t ht c hc => ?_
  rw [stream?_attach] at ht
  split at ht
  · rename_i hname
    subst hname
    rw [hs] at ht
    cases ht
    rcases List.mem_append.1 hc with hc | hc
    · exact .inl ⟨stream, s, hs, rfl, hc⟩
    · refine .inr ⟨rfl, fun e => hnot ?_⟩
      rw [← List.mem_singleton.1 hc, e]; exact hb
  · exact .inl ⟨name, t, ht, rfl, hc⟩

/-- The first sink of a batch passes alone. -/
theorem checkSinks_singleton {rest : List PortAddress}
    (h : d.checkSinks source (a :: rest) = .ok ()) : d.checkSinks source [a] = .ok () := by
  obtain ⟨p, hp, _, hall⟩ := checkSinks_eq_ok_iff.1 h
  refine checkSinks_eq_ok_iff.2 ⟨p, hp, by simp, fun b hb => hall b ?_⟩
  rw [List.mem_singleton.1 hb]; exact List.mem_cons_self

/-- A batch that passes still does so after its stream is there. -/
theorem checkSinks_insert {sinks : List PortAddress}
    (h : d.checkSinks source sinks = .ok ()) :
    ({ d with streams := d.streams.insert stream ⟨stream, source, []⟩ } : Dataflow).checkSinks
      source sinks = .ok () := by
  obtain ⟨p, hp, hnd, hall⟩ := checkSinks_eq_ok_iff.1 h
  refine checkSinks_eq_ok_iff.2 ⟨p, (outputPort_congr rfl).trans hp, hnd, fun b hb => ?_⟩
  refine (hall b hb).mono rfl rfl fun name t ht c hc => ?_
  have hget : (d.streams.insert stream ⟨stream, source, []⟩).get? name = some t := ht
  rw [SortedMap.get?_insert] at hget
  split at hget
  · cases hget; cases hc
  · exact .inl ⟨name, t, hget, rfl, hc⟩

end LiveDataflow.Dataflow
