import LiveDataflow.Proofs.OneByOne

/-!
# No stream loses its last consumer

An operator can be taken away while it consumes streams, if each of them has another consumer.  It may have
several sinks of one stream, which go with it, and what counts is whether one of another operator is left.
Nothing else takes sinks from a stream that stays.  Streams without a sink come about only where one is added
by itself, so on a valid plan every edit but that leaves a valid plan.

## Results

* `Dataflow.Consumed`: a stream that has a sink.
* `Dataflow.Consumed.after`: no move but its own removal takes the last sink of a stream.
* `Dataflow.AllConsumed.after`, `Dataflow.AllConsumed.after_addStream`: no stream is left without a sink.
* `Dataflow.acyclic_after`: no move closes a cycle, whatever the labels of the stages.
* `Session.resolve_shape`: which edits remove a stream, and which add one.
* `Session.Reachable.streams_stay_consumed`: when an operator can be taken away, that streams keep a sink, and
  that a plan stays valid.
-/

set_option autoImplicit false

namespace LiveDataflow

open Reachability

namespace Dataflow

variable {d d' : Dataflow} {name stream : String} {source a : PortAddress} {t : Stream} {m : Move}
  {moves : List Move}

/-- What moves of some kind keep one by one, all of them keep. -/
theorem foldl_after_keeps {P : Dataflow → Prop} {Q : Move → Prop}
    (hmove : ∀ d m, P d → d.Admits m → Q m → P (d.after m)) (h : P d) (hall : d.AdmitsAll moves)
    (hkind : ∀ m ∈ moves, Q m) : P (moves.foldl Dataflow.after d) := by
  induction moves generalizing d with
  | nil => exact h
  | cons m rest ih =>
    obtain ⟨hone, hrest⟩ := hall
    obtain ⟨hm, hkinds⟩ := List.forall_mem_cons.1 hkind
    exact ih (hmove d m h hone hm) hrest hkinds

/-- An operator can be taken away if it is the source of no stream and each stream it consumes has a sink
elsewhere. -/
theorem admits_removeStage_iff :
    d.Admits (.removeStage name) ↔ (d.stage? name).isSome = true ∧
      (∀ t ∈ d.streams.values, t.source.operator ≠ name) ∧
      ∀ t ∈ d.streams.values, (∃ a ∈ t.sinks, a.operator = name) → ∃ a ∈ t.sinks, a.operator ≠ name := by
  simp [Admits, outputStreams, inputStreams, Stream.feeds, List.filter_eq_nil_iff]

/-! ## Streams with a sink -/

/-- The stream is there and has a sink. -/
def Consumed (d : Dataflow) (stream : String) : Prop := ∃ t, d.stream? stream = some t ∧ t.sinks ≠ []

theorem Consumed.removeStage (h : d.Consumed stream) (hm : d.Admits (.removeStage name)) :
    (d.removeStage name).Consumed stream := by
  obtain ⟨t, ht, hsinks⟩ := h
  obtain ⟨hname, hsource, helsewhere⟩ := admits_removeStage_iff.1 hm
  have hmem : t ∈ d.streams.values := SortedMap.mem_values_iff.2 ⟨stream, ht⟩
  have hleft : ∃ a ∈ t.sinks, a.operator ≠ name := by
    by_cases hfed : ∃ a ∈ t.sinks, a.operator = name
    · exact helsewhere t hmem hfed
    · obtain ⟨a, ha⟩ := List.exists_mem_of_ne_nil _ hsinks
      exact ⟨a, ha, fun heq => hfed ⟨a, ha, heq⟩⟩
  refine ⟨{ t with sinks := t.sinks.filter (·.operator ≠ name) }, ?_, ?_⟩
  · rw [stream?_removeStage hname, ht, Option.filter_some, if_pos (by simpa using hsource t hmem)]
    rfl
  · obtain ⟨a, ha, hne⟩ := hleft
    exact List.ne_nil_of_mem (List.mem_filter.2 ⟨ha, by simpa using hne⟩)

/-- **No move but its own removal takes the last sink of a stream.** -/
theorem Consumed.after (h : d.Consumed stream) (hm : d.Admits m) (hkeep : m ≠ .removeStream stream) :
    (d.after m).Consumed stream := by
  cases m with
  | addStage name operator => exact h
  | setOperator name operator => exact h
  | removeStage name => exact h.removeStage hm
  | addStream new source =>
    obtain ⟨t, ht, hsinks⟩ := h
    have hne : new ≠ stream := by
      rintro rfl
      rw [hm.1] at ht
      cases ht
    exact ⟨t, by rw [Dataflow.after, stream?_insert, if_neg hne]; exact ht, hsinks⟩
  | attach other a =>
    obtain ⟨t, ht, hsinks⟩ := h
    obtain ⟨t', ht', _, _, hsub⟩ := exists_stream?_attach ht other a
    exact ⟨t', ht', fun hnil => hsinks (List.eq_nil_of_subset_nil (hnil ▸ hsub))⟩
  | removeStream other =>
    obtain ⟨t, ht, hsinks⟩ := h
    have hne : other ≠ stream := fun heq => hkeep (congrArg _ heq)
    exact ⟨t, by rw [Dataflow.after, stream?_removeStream, if_neg hne]; exact ht, hsinks⟩

/-! ## Plans without a dangling stream -/

/-- Every stream has a sink. -/
def AllConsumed (d : Dataflow) : Prop := ∀ stream t, d.stream? stream = some t → t.sinks ≠ []

/-- A stream that is there after a move was there, unless the move has added it. -/
theorem exists_of_stream?_after (hm : d.Admits m) (hnew : ∀ source, m ≠ .addStream stream source)
    (ht : (d.after m).stream? stream = some t) : ∃ t₀, d.stream? stream = some t₀ := by
  cases m with
  | addStage name operator => exact ⟨t, ht⟩
  | setOperator name operator => exact ⟨t, ht⟩
  | removeStage name =>
    obtain ⟨t₀, ht₀, _⟩ := exists_of_stream?_removeStage hm.1 ht
    exact ⟨t₀, ht₀⟩
  | addStream new source =>
    rcases eq_or_of_stream?_insert ht with ⟨rfl, _⟩ | hold
    · exact absurd rfl (hnew source)
    · exact ⟨t, hold⟩
  | attach other a =>
    obtain ⟨t₀, ht₀, _⟩ := exists_of_stream?_attach ht
    exact ⟨t₀, ht₀⟩
  | removeStream other =>
    rw [Dataflow.after, stream?_removeStream] at ht
    split at ht
    · cases ht
    · exact ⟨t, ht⟩

/-- **No stream is left without a sink** by a move that adds none. -/
theorem AllConsumed.after (h : d.AllConsumed) (hm : d.Admits m)
    (hnew : ∀ stream source, m ≠ .addStream stream source) : (d.after m).AllConsumed := by
  intro stream t ht
  obtain ⟨t₀, ht₀⟩ := exists_of_stream?_after hm (hnew stream) ht
  have hkeep : m ≠ .removeStream stream := by
    rintro rfl
    rw [Dataflow.after, stream?_removeStream, if_pos rfl] at ht
    cases ht
  obtain ⟨t', ht', hsinks⟩ := Consumed.after ⟨t₀, ht₀, h stream t₀ ht₀⟩ hm hkeep
  rw [ht] at ht'
  cases ht'
  exact hsinks

/-- A stream that is added gets its first sink next. -/
theorem AllConsumed.after_addStream (h : d.AllConsumed) (stream : String) (source a : PortAddress) :
    ((d.after (.addStream stream source)).after (.attach stream a)).AllConsumed := by
  intro name t ht
  have hnew : (d.after (.addStream stream source)).stream? stream = some ⟨stream, source, []⟩ :=
    stream?_insert.trans (if_pos rfl)
  obtain ⟨t', ht', _, hmem⟩ := exists_stream?_attach_self hnew a
  by_cases hname : stream = name
  · subst hname
    have hsame : t = t' := Option.some.inj (ht.symm.trans ht')
    rw [hsame]
    exact List.ne_nil_of_mem hmem
  · obtain ⟨t₀, ht₀, rfl | ⟨heq, _⟩⟩ := exists_of_stream?_attach ht
    · rcases eq_or_of_stream?_insert ht₀ with ⟨heq, _⟩ | hold
      · exact absurd heq hname
      · exact h name t hold
    · exact absurd heq hname

/-! ## Plans without a cycle -/

theorem mem_labels_iff {label : String} :
    label ∈ d.labels ↔ ∃ name stage, d.stage? name = some stage ∧ stage.label = label := by
  unfold labels
  rw [List.mem_map]
  constructor
  · rintro ⟨stage, hstage, hlabel⟩
    obtain ⟨name, hname⟩ := SortedMap.mem_values_iff.1 hstage
    exact ⟨name, stage, hname, hlabel⟩
  · rintro ⟨name, stage, hstage, hlabel⟩
    exact ⟨stage, SortedMap.mem_values_iff.2 ⟨name, hstage⟩, hlabel⟩

/-- The operator graph only shrinks if links are lost and no stage of the plan is named by a new label. -/
theorem Anchored.topology_subset (h : d.Anchored) (hlinks : d'.links ⊆ d.links)
    (hlabels : ∀ x, (d.stage? x).isSome = true → x ∈ d'.labels → x ∈ d.labels) :
    d'.topology ⊆ d.topology := by
  intro e he
  obtain ⟨hlink, hsource, hsink⟩ := mem_topology_iff.1 he
  have hold := hlinks hlink
  obtain ⟨name, s, hs, a, ha, rfl⟩ := mem_links_iff.1 hold
  exact mem_topology_iff.2
    ⟨hold, hlabels _ (h.source name s hs) hsource, hlabels _ (h.sinks name s hs a ha) hsink⟩

/-- A move other than an attachment brings no new edge of the operator graph. -/
theorem topology_after_subset (ha : d.Anchored) (hm : d.Admits m)
    (hother : ∀ stream a, m ≠ .attach stream a) : (d.after m).topology ⊆ d.topology := by
  cases m with
  | addStage name operator =>
    refine ha.topology_subset (List.Subset.refl _) fun x hx hlabel => ?_
    obtain ⟨key, stage, hstage, rfl⟩ := mem_labels_iff.1 hlabel
    rw [after, stage?_insert] at hstage
    split at hstage
    · cases hstage
      have hnone : d.stage? name = none := hm
      have hsome : (d.stage? name).isSome = true := hx
      rw [hnone] at hsome
      cases hsome
    · exact mem_labels_iff.2 ⟨key, stage, hstage, rfl⟩
  | removeStage name =>
    refine ha.topology_subset (pruned_removeStage hm.1).links_subset fun x _ hlabel => ?_
    obtain ⟨key, stage, hstage, rfl⟩ := mem_labels_iff.1 hlabel
    rw [after, stage?_removeStage] at hstage
    split at hstage
    · cases hstage
    · exact mem_labels_iff.2 ⟨key, stage, hstage, rfl⟩
  | setOperator name operator =>
    refine ha.topology_subset (List.Subset.refl _) fun x _ hlabel => ?_
    obtain ⟨key, stage, hstage, rfl⟩ := mem_labels_iff.1 hlabel
    rw [after, setOperator, stage?_adjust] at hstage
    split at hstage
    · obtain ⟨old, hold, rfl⟩ := Option.map_eq_some_iff.1 hstage
      exact mem_labels_iff.2 ⟨key, old, hold, rfl⟩
    · exact mem_labels_iff.2 ⟨key, stage, hstage, rfl⟩
  | addStream stream source => exact ha.topology_subset Forward.links_insertStream_subset fun _ _ h => h
  | attach stream a => exact absurd rfl (hother stream a)
  | removeStream stream => exact ha.topology_subset pruned_removeStream.links_subset fun _ _ h => h

/-- **No move closes a cycle**, whatever the labels of the stages. -/
theorem acyclic_after (ha : d.Anchored) (h : Acyclic d.topology) (hm : d.Admits m) :
    Acyclic (d.after m).topology := by
  by_cases hattach : ∃ stream a, m = .attach stream a
  · obtain ⟨stream, a, rfl⟩ := hattach
    obtain ⟨s, hs, hc⟩ := hm
    obtain ⟨p, _, _, hall⟩ := checkSinks_eq_ok_iff.1 hc
    have hahead := (hall a List.mem_cons_self).ahead
    rw [← Bool.not_eq_true, leadsTo_iff] at hahead
    by_cases hlabels : s.source.operator ∈ d.labels ∧ a.operator ∈ d.labels
    · have hback : ∀ v ∈ [a.operator], ¬ Reaches d.topology v s.source.operator := by
        intro v hv hreach
        rw [List.mem_singleton.1 hv] at hreach
        exact hahead ⟨hlabels.2, hlabels.1, hreach⟩
      exact h.of_edges_from hback (edge_of_mem_topology_attach hs)
    · exact h.of_subset (topology_attach_subset hs hlabels)
  · exact h.of_subset (topology_after_subset ha hm fun stream a heq => hattach ⟨stream, a, heq⟩)

theorem validate_eq_ok_iff_allConsumed :
    d.validate = .ok () ↔ d.AllConsumed ∧ Acyclic d.topology := by
  rw [validate_eq_ok_iff]
  refine and_congr ⟨fun h stream t ht => ?_, fun h t ht => ?_⟩ ⟨fun h e he hback => ?_, fun h => ?_⟩
  · exact h t (SortedMap.mem_values_iff.2 ⟨stream, ht⟩)
  · obtain ⟨stream, hstream⟩ := SortedMap.mem_values_iff.1 ht
    exact h stream t hstream
  · exact h ⟨e, he, hback⟩
  · rintro ⟨e, he, hback⟩
    exact h e he hback

end Dataflow

/-! ## Edits -/

namespace Session

variable {s : Session} {e : Edit} {moves : List Move} {stream : String} {source : PortAddress}
  {sinks : List PortAddress} {name : String}

/-- A move that adds no stream, and removes one only if the edit is there to remove it. -/
def Spares (e : Edit) (m : Move) : Prop :=
  (∀ stream source, m ≠ .addStream stream source) ∧ ∀ stream, m = .removeStream stream → e = .removeStream stream

theorem spares_of_resolveSinks (h : s.dataflow.resolveSinks stream sinks = .ok moves) (e : Edit) :
    ∀ m ∈ moves, Spares e m := by
  intro m hm
  obtain ⟨_, _, _, rfl⟩ := Dataflow.resolveSinks_eq_ok_iff.1 h
  obtain ⟨a, _, rfl⟩ := List.mem_map.1 hm
  exact ⟨nofun, nofun⟩

theorem spares_of_resolveStream (h : s.dataflow.resolveStream stream source sinks = .ok moves) (e : Edit) :
    (∀ m ∈ moves, Spares e m) ∨ moves = .addStream stream source :: sinks.map (.attach stream) := by
  rcases Dataflow.resolveStream_eq_ok_iff.1 h with ⟨_, _, _, hok⟩ | ⟨_, _, hmoves⟩
  · exact .inl (spares_of_resolveSinks hok e)
  · exact .inr hmoves

/-- **Which edits remove a stream, and which add one**: it gets the sinks that the edit names next. -/
theorem resolve_shape (h : s.resolve e = .ok moves) :
    (∀ m ∈ moves, Spares e m) ∨
    ∃ stream source sinks, moves = .addStream stream source :: sinks.map (.attach stream) ∧
      (sinks = [] → e = .addStream stream source []) := by
  cases e with
  | addOperator name operator =>
    obtain ⟨_, rfl⟩ := resolve_addOperator_eq_ok h
    exact .inl fun m hm => by rw [List.mem_singleton.1 hm]; exact ⟨nofun, nofun⟩
  | removeOperator name =>
    rcases resolve_removeOperator_eq_ok h with ⟨_, rfl⟩ | ⟨_, rfl⟩
    · exact .inl nofun
    · exact .inl fun m hm => by rw [List.mem_singleton.1 hm]; exact ⟨nofun, nofun⟩
  | addStream stream source sinks =>
    exact (spares_of_resolveStream h _).imp_right fun hmoves =>
      ⟨stream, source, sinks, hmoves, fun hnil => hnil ▸ rfl⟩
  | addSinks stream sinks => exact .inl (spares_of_resolveSinks h _)
  | addStreamBetween stream source sink =>
    exact (spares_of_resolveStream (resolve_addStreamBetween_eq_ok h) _).imp_right fun hmoves =>
      ⟨stream, source, [sink], hmoves, nofun⟩
  | addSink stream sink => exact .inl (spares_of_resolveSinks (resolve_addSink_eq_ok h) _)
  | removeStream stream =>
    rcases resolve_removeStream_eq_ok h with rfl | ⟨_, rfl⟩
    · exact .inl nofun
    · refine .inl fun m hm => ?_
      rw [List.mem_singleton.1 hm]
      exact ⟨nofun, fun other heq => by cases heq; rfl⟩
  | setProperty name property value =>
    obtain ⟨_, _, rfl⟩ := resolve_setProperty_eq_ok h
    exact .inl fun m hm => by rw [List.mem_singleton.1 hm]; exact ⟨nofun, nofun⟩

theorem removeOperator_resolves_iff (hname : (s.dataflow.stage? name).isSome = true) :
    (∃ moves, s.resolve (.removeOperator name) = .ok moves) ↔ s.dataflow.Admits (.removeStage name) := by
  constructor
  · rintro ⟨moves, hok⟩
    rcases resolve_removeOperator_eq_ok hok with ⟨hnone, _⟩ | ⟨hm, _⟩
    · rw [hnone] at hname
      cases hname
    · exact hm
  · rintro ⟨_, houtputs, hinputs⟩
    refine ⟨[.removeStage name], ?_⟩
    have hsome : (s.dataflow.stage? name).isNone = false := by rw [← Option.not_isSome, hname]; rfl
    have hnone : ((s.dataflow.inputStreams name).any fun t => t.sinks.all (·.operator = name)) = false := by
      rw [List.any_eq_false]
      intro t ht hall
      obtain ⟨a, ha, hne⟩ := hinputs t ht
      exact hne (by simpa using List.all_eq_true.1 hall a ha)
    simp [resolve, hsome, hnone, houtputs]

/-- A stream that has a sink is removed as such, or has one after the edit. -/
theorem consumed_step (h : s.dataflow.Anchored) (hs : s.dataflow.Consumed stream) (e : Edit) :
    e = .removeStream stream ∨ (s.step e).after.dataflow.Consumed stream := by
  cases hr : s.resolve e with
  | error c =>
    rw [step_of_refused h hr]
    exact .inr hs
  | ok moves =>
    by_cases hmem : .removeStream stream ∈ moves
    · rcases resolve_shape hr with hkinds | ⟨_, _, _, rfl, _⟩
      · exact .inl ((hkinds _ hmem).2 stream rfl)
      · simp at hmem
    · rw [step_of_resolved h hr]
      show _ ∨ (s.afterAll moves).dataflow.Consumed stream
      rw [dataflow_afterAll]
      exact .inr (Dataflow.foldl_after_keeps (fun _ _ hd hm hne => Dataflow.Consumed.after hd hm hne) hs
        (admitsAll_of_resolve hr) fun m hm heq => hmem (heq ▸ hm))

theorem allConsumed_step (h : s.dataflow.Anchored) (hs : s.dataflow.AllConsumed)
    (he : ∀ stream source, e ≠ .addStream stream source []) : (s.step e).after.dataflow.AllConsumed := by
  cases hr : s.resolve e with
  | error c =>
    rw [step_of_refused h hr]
    exact hs
  | ok moves =>
    have hgranted := admitsAll_of_resolve hr
    rw [step_of_resolved h hr]
    show (s.afterAll moves).dataflow.AllConsumed
    rw [dataflow_afterAll]
    have hrest : ∀ {d : Dataflow} {moves : List Move}, d.AllConsumed → d.AdmitsAll moves →
        (∀ m ∈ moves, ∀ stream source, m ≠ .addStream stream source) →
          (moves.foldl Dataflow.after d).AllConsumed :=
      Dataflow.foldl_after_keeps fun _ _ hd hm hnew => hd.after hm hnew
    rcases resolve_shape hr with hkinds | ⟨stream, source, sinks, rfl, hnil⟩
    · exact hrest hs hgranted fun m hm => (hkinds m hm).1
    · cases sinks with
      | nil => exact absurd (hnil rfl) (he stream source)
      | cons a rest =>
        -- the new stream has no sink only until the first one is attached
        show ((rest.map (.attach stream)).foldl Dataflow.after
          ((s.dataflow.after (.addStream stream source)).after (.attach stream a))).AllConsumed
        refine hrest (hs.after_addStream stream source a) hgranted.2.2 fun m hm => ?_
        obtain ⟨b, _, rfl⟩ := List.mem_map.1 hm
        nofun

/-- No edit closes a cycle. -/
theorem acyclic_step (h : s.dataflow.Anchored) (hs : Acyclic s.dataflow.topology) (e : Edit) :
    Acyclic (s.step e).after.dataflow.topology := by
  refine (step_keeps (P := fun s => s.dataflow.Anchored ∧ Acyclic s.dataflow.topology) ?_ h ⟨h, hs⟩ e).2
  intro s m hs hm
  rw [dataflow_after]
  exact ⟨hs.1.after hm, Dataflow.acyclic_after hs.1 hs.2 hm⟩

/-- Every edit but a stream without sinks leaves a valid plan valid. -/
theorem validate_step (h : s.dataflow.Anchored) (hs : s.dataflow.validate = .ok ())
    (he : ∀ stream source, e ≠ .addStream stream source []) :
    (s.step e).after.dataflow.validate = .ok () := by
  obtain ⟨hconsumed, hacyclic⟩ := Dataflow.validate_eq_ok_iff_allConsumed.1 hs
  exact Dataflow.validate_eq_ok_iff_allConsumed.2
    ⟨allConsumed_step h hconsumed he, acyclic_step h hacyclic e⟩

/-- So does a run of such edits, after every one of them. -/
theorem validate_runAll (h : s.dataflow.Anchored) (hs : s.dataflow.validate = .ok ()) {edits : List Edit}
    (hedits : ∀ e ∈ edits, ∀ stream source, e ≠ .addStream stream source []) :
    ∀ step ∈ (s.runAll edits).1, step.after.dataflow.validate = .ok () := by
  induction edits generalizing s with
  | nil => exact fun _ hstep => nomatch hstep
  | cons e rest ih =>
    obtain ⟨he, hrest⟩ := List.forall_mem_cons.1 hedits
    have hone := validate_step h hs he
    exact List.forall_mem_cons.2 ⟨hone, ih (anchored_step e h) hone hrest⟩

/-- **No stream loses its last consumer**, in any session that comes about.  An operator that is there can be
taken away exactly if it is the source of no stream and each stream it consumes has a sink on another
operator.  A stream with a sink still has one after every edit but its own removal.  So after edits that add
no stream without sinks a valid plan stays valid, after every single one of them. -/
theorem Reachable.streams_stay_consumed (h : s.Reachable) :
    (∀ name, (s.dataflow.stage? name).isSome = true →
      ((∃ answer, (s.step (.removeOperator name)).result = .ok answer) ↔
        (∀ t ∈ s.dataflow.streams.values, t.source.operator ≠ name) ∧
        ∀ t ∈ s.dataflow.streams.values,
          (∃ a ∈ t.sinks, a.operator = name) → ∃ a ∈ t.sinks, a.operator ≠ name)) ∧
    (∀ e stream t, s.dataflow.stream? stream = some t → t.sinks ≠ [] →
      e = .removeStream stream ∨
        ∃ t', (s.step e).after.dataflow.stream? stream = some t' ∧ t'.sinks ≠ []) ∧
    (s.dataflow.validate = .ok () →
      ∀ edits : List Edit, (∀ stream source, .addStream stream source [] ∉ edits) →
        ∀ step ∈ (s.runAll edits).1, step.after.dataflow.validate = .ok ()) := by
  refine ⟨fun name hname => ?_, fun e stream t ht hsinks => ?_, fun hvalid edits hedits => ?_⟩
  · rw [succeeds_iff h.anchored, removeOperator_resolves_iff hname, Dataflow.admits_removeStage_iff]
    exact and_iff_right hname
  · exact consumed_step h.anchored ⟨t, ht, hsinks⟩ e
  · exact validate_runAll h.anchored hvalid fun e he stream source heq => hedits stream source (heq ▸ he)

/-- One of two consumers can be taken away, and the source cannot. -/
theorem streams_stay_consumed_forked :
    let s := Session.onLayout forked
    s.Reachable ∧ (∃ answer, (s.step (.removeOperator "c")).result = .ok answer) ∧
      (¬ ∃ answer, (s.step (.removeOperator "a")).result = .ok answer) ∧
      (∃ t, (s.step (.removeOperator "c")).after.dataflow.stream? "abc" = some t ∧ t.sinks ≠ []) ∧
      s.dataflow.validate = .ok () ∧
      ∀ step ∈ (s.runAll forkEdits).1, step.after.dataflow.validate = .ok () := by
  obtain ⟨hremovable, hkept, hvalid⟩ := Reachable.streams_stay_consumed reachable_forked
  have hconsumed := hkept (.removeOperator "c") "abc" ⟨"abc", ⟨"a", "out"⟩, [⟨"b", "in"⟩, ⟨"c", "in"⟩]⟩ rfl nofun
  have hstart : (Session.onLayout forked).dataflow.validate = .ok () := rfl
  refine ⟨reachable_forked, (hremovable "c" (by decide +kernel)).2 (by decide +kernel), fun hremoved => ?_,
    hconsumed.resolve_left nofun, hstart, hvalid hstart forkEdits (by simp [forkEdits])⟩
  have hsource := ((hremovable "a" (by decide +kernel)).1 hremoved).1
  exact absurd hsource (by decide +kernel)

end Session

end LiveDataflow
