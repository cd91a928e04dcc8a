import LiveDataflow.Proofs.Acyclic
import LiveDataflow.Proofs.Reconciliation
import LiveDataflow.Proofs.WellWired

/-!
# Sinks one by one

The sinks of a batch are checked together, on the plan before the first of them is attached.  Attached by
themselves, each of them is checked on the plan that those before it have left, with their links in it and
their ports taken.  The two come to the same: the first sink of a batch takes a port from none of the
others, and its link makes no way back to the source of the stream that was not there before.

## Results

* `Dataflow.Attachable.of_attach`: a sink that can be attached after another one could be so before it.
* `Dataflow.checkSinks_cons_iff`: a batch passes exactly if its first sink does, and the others do after it.
* `Session.Completes`: a run of edits none of which fails.
* `Session.completes_iff_admitsAll`: edits that attach single sinks go through exactly if the moves that they
  stand for are granted, and then make these moves.
* `Session.batch_iff_one_by_one`: a batch goes through exactly if its sinks do one by one, and leaves the same
  session.
-/

set_option autoImplicit false

namespace LiveDataflow

namespace Dataflow

variable {d : Dataflow} {name stream : String} {source a b : PortAddress} {p : Port} {s : Stream}
  {sinks : List PortAddress}

/-! ## The plan with one more sink -/

/-- A stream keeps its name, its source and its sinks when one is attached, to it or to another stream. -/
theorem exists_stream?_attach (hs : d.stream? name = some s) (stream : String) (a : PortAddress) :
    ∃ t, (d.attach stream a).stream? name = some t ∧
      t.name = s.name ∧ t.source = s.source ∧ s.sinks ⊆ t.sinks := by
  rw [stream?_attach, hs]
  split
  · exact ⟨_, rfl, rfl, rfl, List.subset_append_left _ _⟩
  · exact ⟨s, rfl, rfl, rfl, List.Subset.refl _⟩

/-- The sink is attached to the stream. -/
theorem exists_stream?_attach_self (hs : d.stream? stream = some s) (a : PortAddress) :
    ∃ t, (d.attach stream a).stream? stream = some t ∧ t.source = s.source ∧ a ∈ t.sinks := by
  refine ⟨{ s with sinks := s.sinks ++ [a] }, ?_, rfl, by simp⟩
  rw [stream?_attach, if_pos rfl, hs]
  rfl

/-- Exactly one link is new. -/
theorem mem_links_attach_iff (hs : d.stream? stream = some s) {e : String × String} :
    e ∈ (d.attach stream a).links ↔ e ∈ d.links ∨ e = (s.source.operator, a.operator) := by
  refine ⟨Forward.mem_links_attach hs, ?_⟩
  rintro (hold | rfl)
  · obtain ⟨name, t, ht, b, hb, rfl⟩ := mem_links_iff.1 hold
    obtain ⟨t', ht', _, hsource, hsinks⟩ := exists_stream?_attach ht stream a
    exact mem_links_iff.2 ⟨name, t', ht', b, hsinks hb, by rw [hsource]⟩
  · obtain ⟨t, ht, hsource, ha⟩ := exists_stream?_attach_self hs a
    exact mem_links_iff.2 ⟨stream, t, ht, a, ha, by rw [hsource]⟩

theorem topology_subset_attach (hs : d.stream? stream = some s) :
    d.topology ⊆ (d.attach stream a).topology := by
  intro e he
  obtain ⟨hlink, hlabels⟩ := mem_topology_iff.1 he
  exact mem_topology_iff.2 ⟨(mem_links_attach_iff hs).2 (.inl hlink), hlabels⟩

theorem mem_topology_attach (hs : d.stream? stream = some s) {e : String × String}
    (he : e ∈ (d.attach stream a).topology) :
    e ∈ d.topology ∨
      (e = (s.source.operator, a.operator) ∧ s.source.operator ∈ d.labels ∧ a.operator ∈ d.labels) := by
  obtain ⟨hlink, hlabels⟩ := mem_topology_iff.1 he
  rcases (mem_links_attach_iff hs).1 hlink with hold | rfl
  · exact .inl (mem_topology_iff.2 ⟨hold, hlabels⟩)
  · exact .inr ⟨rfl, hlabels⟩

/-- What is new in the operator graph leads from the source of the stream to the sink. -/
theorem edge_of_mem_topology_attach (hs : d.stream? stream = some s) :
    ∀ e ∈ (d.attach stream a).topology,
      e ∈ d.topology ∨ (e.1 = s.source.operator ∧ e.2 ∈ [a.operator]) :=
  fun _ he => (mem_topology_attach hs he).imp_right fun hnew => by simp [hnew.1]

/-- An operator that is no label gets no edge. -/
theorem topology_attach_subset (hs : d.stream? stream = some s)
    (hlabels : ¬ (s.source.operator ∈ d.labels ∧ a.operator ∈ d.labels)) :
    (d.attach stream a).topology ⊆ d.topology :=
  fun _ he => (mem_topology_attach hs he).resolve_right fun hnew => hlabels hnew.2

/-! ## Sinks that are checked in turn -/

/-- **A sink that can be attached after another one could be so before it.** -/
theorem Attachable.of_attach (hs : d.stream? stream = some s)
    (h : (d.attach stream a).Attachable source p b) : d.Attachable source p b ∧ b ≠ a := by
  refine ⟨⟨h.declared, fun name t ht hb => ?_, h.other, ?_⟩, ?_⟩
  · obtain ⟨t', ht', _, _, hsinks⟩ := exists_stream?_attach ht stream a
    exact h.vacant name t' ht' (hsinks hb)
  · have hno := h.ahead
    rw [← Bool.not_eq_true, leadsTo_iff] at hno ⊢
    rintro ⟨hb, hsource, hreach⟩
    exact hno ⟨hb, hsource, hreach.of_subset (topology_subset_attach hs)⟩
  · rintro rfl
    obtain ⟨t, ht, _, hb⟩ := exists_stream?_attach_self hs b
    exact h.vacant stream t ht hb

/-- **A batch passes exactly if its first sink does, and the others do after it.** -/
theorem checkSinks_cons_iff {rest : List PortAddress} (hs : d.stream? stream = some s) :
    d.checkSinks s.source (a :: rest) = .ok () ↔
      d.checkSinks s.source [a] = .ok () ∧ (d.attach stream a).checkSinks s.source rest = .ok () := by
  refine ⟨fun h => ⟨checkSinks_singleton h, checkSinks_attach hs h⟩, ?_⟩
  rintro ⟨hfirst, hrest⟩
  obtain ⟨p, hp, _, ha⟩ := checkSinks_eq_ok_iff.1 hfirst
  obtain ⟨p', hp', hnodup, hall⟩ := checkSinks_eq_ok_iff.1 hrest
  have hsame : p' = p := Except.ok.inj (hp'.symm.trans hp)
  subst hsame
  have hbefore : ∀ b ∈ rest, d.Attachable s.source p' b ∧ b ≠ a := fun b hb => (hall b hb).of_attach hs
  refine checkSinks_eq_ok_iff.2 ⟨p', hp, List.nodup_cons.2 ⟨fun hmem => (hbefore a hmem).2 rfl, hnodup⟩, ?_⟩
  rintro b (_ | ⟨_, hb⟩)
  · exact ha a List.mem_cons_self
  · exact (hbefore b hb).1

/-- A batch for a stream whose source port is declared passes exactly if the plan grants its sinks in turn. -/
theorem admitsAll_attach_iff (hs : d.stream? stream = some s) (hp : ∃ p, d.outputPort s.source = .ok p) :
    d.AdmitsAll (sinks.map (.attach stream)) ↔ d.checkSinks s.source sinks = .ok () := by
  refine ⟨fun h => ?_, admitsAll_attach hs⟩
  induction sinks generalizing d s with
  | nil =>
    obtain ⟨p, hp⟩ := hp
    exact checkSinks_eq_ok_iff.2 ⟨p, hp, List.nodup_nil, fun _ hb => nomatch hb⟩
  | cons a rest ih =>
    obtain ⟨⟨t, ht, hfirst⟩, hrest⟩ := h
    rw [hs] at ht
    cases ht
    have hafter : (d.attach stream a).stream? stream = some { s with sinks := s.sinks ++ [a] } := by
      rw [stream?_attach, if_pos rfl, hs]
      rfl
    exact (checkSinks_cons_iff hs).2 ⟨hfirst, ih (s := { s with sinks := s.sinks ++ [a] }) hafter hp hrest⟩

end Dataflow

/-! ## Edits that attach single sinks -/

/-- An edit that attaches one sink to a stream. -/
inductive Edit.AttachesOne : Edit → String × PortAddress → Prop
  | addSink (stream : String) (a : PortAddress) : AttachesOne (.addSink stream a) (stream, a)
  | addSinks (stream : String) (a : PortAddress) : AttachesOne (.addSinks stream [a]) (stream, a)

/-- The moves of attachments, each to its stream. -/
def attachments (pairs : List (String × PortAddress)) : List Move :=
  pairs.map fun x => .attach x.1 x.2

namespace Session

variable {s : Session} {e : Edit} {edits : List Edit} {x : String × PortAddress}
  {pairs : List (String × PortAddress)} {moves : List Move}

/-- A run of edits none of which fails. -/
def Completes (s : Session) (edits : List Edit) : Prop :=
  ∀ step ∈ (s.runAll edits).1, ∃ answer, step.result = .ok answer

theorem completes_cons :
    s.Completes (e :: edits) ↔
      (∃ answer, (s.step e).result = .ok answer) ∧ (s.step e).after.Completes edits :=
  List.forall_mem_cons

theorem admitsAll_cons {m : Move} :
    s.dataflow.AdmitsAll (m :: moves) ↔ s.dataflow.Admits m ∧ (s.after m).dataflow.AdmitsAll moves := by
  rw [dataflow_after]
  rfl

theorem succeeds_iff (h : s.dataflow.Anchored) :
    (∃ answer, (s.step e).result = .ok answer) ↔ ∃ moves, s.resolve e = .ok moves := by
  cases hr : s.resolve e with
  | error c => simp [step_of_refused h hr]
  | ok moves => simp [step_of_resolved h hr]

theorem resolve_of_attachesOne (he : e.AttachesOne x) :
    s.resolve e = .ok moves ↔ s.dataflow.Admits (.attach x.1 x.2) ∧ moves = [.attach x.1 x.2] := by
  have hsinks : s.dataflow.resolveSinks x.1 [x.2] = .ok moves ↔
      s.dataflow.Admits (.attach x.1 x.2) ∧ moves = [.attach x.1 x.2] := by
    rw [Dataflow.resolveSinks_eq_ok_iff]
    constructor
    · rintro ⟨t, ht, hc, hmoves⟩
      exact ⟨⟨t, ht, hc⟩, hmoves⟩
    · rintro ⟨⟨t, ht, hc⟩, hmoves⟩
      exact ⟨t, ht, hc, hmoves⟩
  cases he with
  | addSinks stream a => exact hsinks
  | addSink stream a =>
    refine ⟨fun h => hsinks.1 (resolve_addSink_eq_ok h), fun h => ?_⟩
    obtain ⟨t, _, hc⟩ := h.1
    obtain ⟨_, _, _, hall⟩ := Dataflow.checkSinks_eq_ok_iff.1 hc
    obtain ⟨q, hq, _⟩ := (hall a List.mem_cons_self).declared
    show (s.dataflow.inputPort a >>= fun _ => s.dataflow.resolveSinks stream [a]) = .ok moves
    rw [hq]
    exact hsinks.2 h

/-- An edit that attaches one sink succeeds exactly if the plan grants the attachment. -/
theorem succeeds_iff_of_attachesOne (h : s.dataflow.Anchored) (he : e.AttachesOne x) :
    (∃ answer, (s.step e).result = .ok answer) ↔ s.dataflow.Admits (.attach x.1 x.2) := by
  rw [succeeds_iff h]
  simp only [resolve_of_attachesOne he, exists_and_left, exists_eq, and_true]

theorem after_of_attachesOne (h : s.dataflow.Anchored) (he : e.AttachesOne x)
    (hm : s.dataflow.Admits (.attach x.1 x.2)) : (s.step e).after = s.after (.attach x.1 x.2) := by
  rw [step_of_resolved h ((resolve_of_attachesOne he).2 ⟨hm, rfl⟩)]
  rfl

/-- **Edits that attach single sinks go through exactly if their moves are granted.** -/
theorem completes_iff_admitsAll (h : s.dataflow.Anchored)
    (hedits : List.Forall₂ Edit.AttachesOne edits pairs) :
    s.Completes edits ↔ s.dataflow.AdmitsAll (attachments pairs) := by
  induction hedits generalizing s with
  | nil => simp [Completes, runAll, attachments, Dataflow.AdmitsAll]
  | @cons e x edits pairs he _ ih =>
    rw [completes_cons, succeeds_iff_of_attachesOne h he]
    refine and_congr_right fun hm => ?_
    rw [after_of_attachesOne h he hm, ih (by rw [dataflow_after]; exact h.after hm), dataflow_after]
    rfl

/-- Edits that go through make their moves. -/
theorem runAll_of_completes (h : s.dataflow.Anchored)
    (hedits : List.Forall₂ Edit.AttachesOne edits pairs) (hall : s.Completes edits) :
    (s.runAll edits).2 = s.afterAll (attachments pairs) := by
  induction hedits generalizing s with
  | nil => rfl
  | @cons e x edits pairs he _ ih =>
    obtain ⟨hfirst, hrest⟩ := completes_cons.1 hall
    have hm := (succeeds_iff_of_attachesOne h he).1 hfirst
    have hafter := after_of_attachesOne h he hm
    rw [hafter] at hrest
    show ((s.step e).after.runAll edits).2 = (s.after (.attach x.1 x.2)).afterAll (attachments pairs)
    rw [hafter]
    exact ih (by rw [dataflow_after]; exact h.after hm) hrest

/-! ## Batches -/

/-- **A batch of sinks goes through exactly if its sinks do one by one, and leaves the same session**: the
plan, the layout and the account of what was changed. -/
theorem batch_iff_one_by_one {stream : String} (h : s.dataflow.Built true)
    (hstream : (s.dataflow.stream? stream).isSome = true) (sinks : List PortAddress)
    (hedits : List.Forall₂ Edit.AttachesOne edits (sinks.map fun a => (stream, a))) :
    ((∃ answer, (s.step (.addSinks stream sinks)).result = .ok answer) ↔ s.Completes edits) ∧
      (s.Completes edits → (s.runAll edits).2 = (s.step (.addSinks stream sinks)).after) := by
  obtain ⟨t, ht⟩ := Option.isSome_iff_exists.1 hstream
  have hdeclared := (Dataflow.WellWired.invariant.holds h).declared stream t ht
  have hmoves : attachments (sinks.map fun a => (stream, a)) = sinks.map (.attach stream) := by
    rw [attachments, List.map_map]
    rfl
  have hone : s.Completes edits ↔ s.dataflow.checkSinks t.source sinks = .ok () := by
    rw [completes_iff_admitsAll h.anchored hedits, hmoves, Dataflow.admitsAll_attach_iff ht hdeclared]
  have hbatch : ∀ moves, s.resolve (.addSinks stream sinks) = .ok moves ↔
      s.dataflow.checkSinks t.source sinks = .ok () ∧ moves = sinks.map (.attach stream) := by
    intro moves
    show s.dataflow.resolveSinks stream sinks = .ok moves ↔ _
    rw [Dataflow.resolveSinks_eq_ok_iff, ht]
    simp
  constructor
  · rw [hone, succeeds_iff h.anchored]
    simp only [hbatch, exists_and_left, exists_eq, and_true]
  · intro hall
    rw [runAll_of_completes h.anchored hedits hall, hmoves,
      step_of_resolved h.anchored ((hbatch _).2 ⟨hone.1 hall, rfl⟩)]

/-- A session on the layout of `forking` that adds a fifth operator. -/
def widening : Session := ((Session.onLayout forked).step (.addOperator "e" .relay)).after

theorem built_widening : widening.dataflow.Built true := by
  refine .edit _ ?_
  have hplan : (Session.onLayout forked).dataflow = forking.dataflow :=
    Layout.dataflow_materialize materialize_forking
  rw [hplan]
  exact Dataflow.Built.runAll (.empty .default) _

/-- The stream gets the last two operators for sinks, by one edit or by two. -/
theorem batch_iff_one_by_one_widening :
    let edits : List Edit := [.addSink "abc" ⟨"d", "in"⟩, .addSinks "abc" [⟨"e", "in"⟩]]
    widening.dataflow.Built true ∧ (widening.dataflow.stream? "abc").isSome = true ∧
      widening.Completes edits ∧
      (widening.runAll edits).2 = (widening.step (.addSinks "abc" [⟨"d", "in"⟩, ⟨"e", "in"⟩])).after := by
  have hstream : (widening.dataflow.stream? "abc").isSome = true := by decide +kernel
  have hpasses : ∃ answer,
      (widening.step (.addSinks "abc" [⟨"d", "in"⟩, ⟨"e", "in"⟩])).result = .ok answer := ⟨_, rfl⟩
  obtain ⟨hiff, hsame⟩ := batch_iff_one_by_one built_widening hstream [⟨"d", "in"⟩, ⟨"e", "in"⟩]
    (.cons (.addSink "abc" ⟨"d", "in"⟩) (.cons (.addSinks "abc" ⟨"e", "in"⟩) .nil))
  exact ⟨built_widening, hstream, hiff.1 hpasses, hsame (hiff.1 hpasses)⟩

end Session

end LiveDataflow
