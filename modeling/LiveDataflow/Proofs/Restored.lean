import LiveDataflow.Proofs.Consumers
import LiveDataflow.Proofs.Evolution
import LiveDataflow.Proofs.Interchange
import LiveDataflow.Proofs.Outcome

/-!
# A stream that is taken away can be put back

Whoever takes a stream away and adds it again with its source and its sinks is never refused.  The ports
are still declared and fit each other, no other stream has taken them, and a way back from a sink to the
source would have made a cycle together with the stream.  The plan is the one from before, the order of
the sinks included, so the layout is to have the wires from before as well.

## Results

* `Dataflow.checkSinks_removeStream`: the sinks of a stream pass the check once it is gone.
* `Dataflow.readded`: taken away and added again, a stream is as it was.
* `Layout.exists_afterAll_attach`: what attaching sinks does to a layout, and what is written down.
* `Session.OnBuilt`: a session on a layout of a plan that was built; sessions and batches keep it so.
* `Session.stream_readded`: the edits succeed, and restore all but the account.
-/

set_option autoImplicit false

namespace LiveDataflow

open Reachability

/-! ## Plans -/

namespace Dataflow

variable {d : Dataflow} {name stream : String} {t : Stream} {sinks : List PortAddress}

/-- No stream leads from an operator to itself. -/
def Loopless (d : Dataflow) : Prop := ∀ e ∈ d.links, e.1 ≠ e.2

/-- **No stream leads from an operator to itself, and every change keeps it so**, whatever the labels. -/
theorem Loopless.invariant : Invariant true Loopless where
  empty _ := fun _ he => nomatch he
  insert _ h _ := h
  adjust _ h _ _ _ := h
  removeStage h hname := fun e he => h e ((pruned_removeStage hname).links_subset he)
  insertStream h _ _ := fun e he => h e (Forward.links_insertStream_subset he)
  attach _ h hs hc := by
    obtain ⟨p, _, _, hall⟩ := checkSinks_eq_ok_iff.1 hc
    intro e he
    rcases Forward.mem_links_attach hs he with hold | rfl
    · exact h e hold
    · exact (hall _ List.mem_cons_self).other.symm
  removeStream _ h := fun e he => h e (pruned_removeStream.links_subset he)

/-- **The sinks of a stream pass the check once it is gone.** -/
theorem checkSinks_removeStream (hd : d.Anchored) (hw : d.WellWired) (hl : d.Loopless)
    (ha : Acyclic d.topology) (ht : d.stream? name = some t) :
    (d.removeStream name).checkSinks t.source t.sinks = .ok () := by
  obtain ⟨p, hp⟩ := hw.declared name t ht
  refine checkSinks_eq_ok_iff.2 ⟨p, hp, hw.once name t ht, fun a hat => ?_⟩
  obtain ⟨p', q, hp', hq, hfits⟩ := hw.joined name t ht a hat
  have hlink : (t.source.operator, a.operator) ∈ d.links := mem_links_iff.2 ⟨name, t, ht, a, hat, rfl⟩
  rw [hp] at hp'
  cases hp'
  refine ⟨⟨q, hq, hfits⟩, fun other u hu hau => ?_, (hl _ hlink).symm, ?_⟩
  · -- the port belongs to the stream alone, and this is gone
    rw [stream?_removeStream] at hu
    split at hu
    · cases hu
    · rename_i hne
      exact hne (hw.alone name t other u ht hu a hat hau)
  · -- a way back would close a cycle with the stream
    rw [← Bool.not_eq_true, leadsTo_iff]
    rintro ⟨hsink, hsource, hback⟩
    have hadmits : d.Admits (.removeStream name) := by
      show (d.stream? name).isSome = true
      rw [ht]
      rfl
    exact ha (t.source.operator, a.operator) (mem_topology_iff.2 ⟨hlink, hsource, hsink⟩)
      (hback.of_subset (topology_after_subset hd hadmits nofun))

/-- Sinks that are attached in turn stand in their order behind those of the stream. -/
theorem foldl_attach (d : Dataflow) (stream : String) (sinks : List PortAddress) :
    (sinks.map (.attach stream)).foldl Dataflow.after d =
      { d with streams := d.streams.adjust stream fun s => { s with sinks := s.sinks ++ sinks } } := by
  induction sinks generalizing d with
  | nil =>
    have hsame : d.streams = d.streams.adjust stream fun s => { s with sinks := s.sinks ++ [] } :=
      SortedMap.ext_get? fun name => by
        rw [SortedMap.get?_adjust]
        cases d.streams.get? name <;> simp
    rw [← hsame]
    rfl
  | cons a rest ih =>
    rw [List.map_cons, List.foldl_cons, ih]
    have hsame : ((d.after (.attach stream a)).streams.adjust stream fun s =>
          { s with sinks := s.sinks ++ rest }) =
        d.streams.adjust stream fun s => { s with sinks := s.sinks ++ a :: rest } :=
      SortedMap.ext_get? fun name => by
        simp only [after, attach, SortedMap.get?_adjust]
        split <;> cases d.streams.get? name <;> simp
    rw [hsame]
    rfl

/-- **Taken away and added again, a stream is as it was.** -/
theorem readded (ha : d.Anchored) (ht : d.stream? name = some t) :
    (t.sinks.map (.attach name)).foldl Dataflow.after
      ((d.removeStream name).after (.addStream name t.source)) = d := by
  obtain rfl : t.name = name := ha.keyed name t ht
  rw [foldl_attach]
  have hsame : ((((d.removeStream t.name).after (.addStream t.name t.source)).streams.adjust t.name fun s =>
      { s with sinks := s.sinks ++ t.sinks }) : SortedMap String Stream) = d.streams :=
    SortedMap.ext_get? fun other => by
      simp only [after, removeStream, SortedMap.get?_adjust, SortedMap.get?_insert, SortedMap.get?_erase]
      split
      · rename_i heq
        subst heq
        rw [Option.map_some, List.nil_append]
        exact ht.symm
      · rfl
  rw [hsame]
  rfl

end Dataflow

/-! ## Layouts -/

/-- The instances at both ends of a stream. -/
def Layout.ends (l : Layout) (stream : Stream) : List InstanceId :=
  (stream.source.operator :: stream.sinks.map (·.operator)).flatMap l.instancesOf

/-- **Attaching sinks changes the plan and the wires only**, and the instances of each sink are written
down. -/
theorem Layout.exists_afterAll_attach {l : Layout} {stream : String} {s : Stream}
    (hs : l.dataflow.stream? stream = some s) (c : ChangeSet) (sinks : List PortAddress) :
    ∃ wires, (Session.mk (.live l) c).afterAll (sinks.map (.attach stream)) =
      ⟨.live { l with
          dataflow := (sinks.map (.attach stream)).foldl Dataflow.after l.dataflow
          wires := wires },
        c.recordAffected (sinks.flatMap fun a => (SortedSet.ofList (l.instancesOf a.operator)).toList)⟩ := by
  induction sinks generalizing l s c with
  | nil => exact ⟨l.wires, rfl⟩
  | cons a rest ih =>
    have hids : (l.after (.attach stream a)).1 = (SortedSet.ofList (l.instancesOf a.operator)).toList := by
      rw [after_attach hs]
    have hafter := after_attach_eq hs a
    generalize (l.after (.attach stream a)).2.wires = wires at hafter
    obtain ⟨s', hs', _⟩ := Dataflow.exists_stream?_attach_self hs a
    obtain ⟨more, hmore⟩ := ih (l := { l with dataflow := l.dataflow.attach stream a, wires := wires }) hs'
      (c.recordAffected (SortedSet.ofList (l.instancesOf a.operator)).toList)
    refine ⟨more, ?_⟩
    show (Session.mk (.live (l.after (.attach stream a)).2)
      (c.recordAffected (l.after (.attach stream a)).1)).afterAll (rest.map (.attach stream)) = _
    rw [hids, hafter, hmore, List.flatMap_cons]
    unfold ChangeSet.recordAffected
    rw [List.foldl_append]
    rfl

/-- What is recorded already changes nothing. -/
theorem ChangeSet.recordAffected_of_subset (c : ChangeSet) {ids more : List InstanceId} (h : more ⊆ ids) :
    (c.recordAffected ids).recordAffected more = c.recordAffected ids := by
  obtain ⟨hadded, hremoved, haffected⟩ := recordAffected_eq c ids
  obtain ⟨hadded', hremoved', haffected'⟩ := recordAffected_eq (c.recordAffected ids) more
  refine ext hadded' (SortedSet.ext_mem fun id => ?_) hremoved'
  rw [haffected', hadded, hremoved]
  refine or_iff_left_of_imp fun hid => (haffected id).2 (.inr ⟨h hid.1, hid.2⟩)

/-- Two layouts of one plan with the same instances have the same wires. -/
theorem Layout.Laid.perm_wires {l : Layout} {wires : List Wire} (h : l.Laid)
    (h' : ({ l with wires := wires } : Layout).Laid) : wires.Perm l.wires :=
  (List.perm_ext_iff_of_nodup h'.once h.once).2 fun w => (h'.wired w).trans (h.wired w).symm

/-! ## Sessions -/

namespace Session

variable {s t : Session}

/-- A session that was begun on some layout, and whose plan was built and has no cycle. -/
structure OnBuilt (s : Session) : Prop where
  begun : ∃ l₀, s.BegunOn l₀
  built : s.dataflow.Built true
  acyclic : Acyclic s.dataflow.topology

namespace OnBuilt

theorem materialize {d : Dataflow} (hd : d.Built true) {l : Layout} (hok : Layout.materialize d = .ok l) :
    (Session.onLayout l).OnBuilt := by
  have hplan : (Session.onLayout l).dataflow = d := Layout.dataflow_materialize hok
  obtain ⟨_, _, hvalid, _⟩ := Layout.materialize_eq_ok_iff.1 hok
  refine ⟨begunOn_of_sound ⟨l, rfl, Layout.sound_materialize hd.anchored hok⟩, ?_, ?_⟩ <;> rw [hplan]
  · exact hd
  · exact (Dataflow.validate_eq_ok_iff_allConsumed.1 hvalid).2

theorem step (h : s.OnBuilt) (e : Edit) : (s.step e).after.OnBuilt :=
  ⟨h.begun.imp fun _ hs => hs.step e, .edit e h.built, acyclic_step h.built.anchored h.acyclic e⟩

theorem restart (h : s.OnBuilt) {target : Target} (hsound : Session.Sound ⟨target, ∅⟩)
    (hplan : target.dataflow = s.dataflow) : OnBuilt ⟨target, ∅⟩ := by
  have hplan : Session.dataflow ⟨target, ∅⟩ = s.dataflow := hplan
  refine ⟨begunOn_of_sound hsound, ?_, ?_⟩ <;> rw [hplan]
  · exact h.built
  · exact h.acyclic

/-- **Sessions and batches keep it so.** -/
theorem turns (h : s.OnBuilt) (hts : Relation.ReflTransGen Turn s t) : t.OnBuilt := by
  refine turns_keep (fun s e hs => hs.step e) (fun s hs => ?_) (fun deployer s world hs => ?_) h hts
  · obtain ⟨_, hbegun⟩ := hs.begun
    exact hs.restart hbegun.sound rfl
  · obtain ⟨_, hbegun⟩ := hs.begun
    exact hs.restart (hbegun.sound.apply deployer world) (dataflow_apply s deployer world)

end OnBuilt

variable {l : Layout} {c : ChangeSet} {name : String} {stream : Stream}

/-- The edits that take a stream away and add it again. -/
def readding (name : String) (stream : Stream) : List Edit :=
  [.removeStream name, .addStream name stream.source stream.sinks]

/-- The session after the moves of these edits. -/
def afterReadding (s : Session) (name : String) (stream : Stream) : Session :=
  (s.after (.removeStream name)).afterAll
    (.addStream name stream.source :: stream.sinks.map (.attach name))

theorem dataflow_afterReadding (ha : s.dataflow.Anchored) (hs : s.dataflow.stream? name = some stream) :
    (s.afterReadding name stream).dataflow = s.dataflow := by
  unfold afterReadding
  rw [dataflow_afterAll, dataflow_after]
  exact Dataflow.readded ha hs

/-- **Both edits go through**, and the second one answers the stream as it was. -/
theorem OnBuilt.runAll_readding (h : s.OnBuilt) (hs : s.dataflow.stream? name = some stream) :
    s.runAll (readding name stream) =
      ([⟨.ok none, s.after (.removeStream name)⟩, ⟨.ok (some stream), s.afterReadding name stream⟩],
        s.afterReadding name stream) := by
  have ha := h.built.anchored
  have hremove : s.resolve (.removeStream name) = .ok [.removeStream name] := by
    simp only [resolve, hs, Option.isSome_some, if_true]
  have hplan : (s.after (.removeStream name)).dataflow = s.dataflow.removeStream name := s.dataflow_after _
  have hadd : (s.after (.removeStream name)).resolve (.addStream name stream.source stream.sinks) =
      .ok (.addStream name stream.source :: stream.sinks.map (.attach name)) := by
    refine Dataflow.resolveStream_eq_ok_iff.2 (.inr ?_)
    rw [hplan]
    exact ⟨Dataflow.stream?_removeStream.trans (if_pos rfl), Dataflow.checkSinks_removeStream ha
      (Dataflow.WellWired.invariant.holds h.built) (Dataflow.Loopless.invariant.holds h.built) h.acyclic hs,
      rfl⟩
  have hanswer : (s.afterReadding name stream).dataflow.stream? name = some stream := by
    rw [dataflow_afterReadding ha hs]
    exact hs
  have hfirst := step_of_resolved ha hremove
  have hsecond := step_of_resolved (by rw [hplan]; exact ha.removeStream name) hadd
  show ([s.step _, (s.step _).after.step _], ((s.step _).after.step _).after) = _
  rw [hfirst]
  show ([_, (s.after _).step _], ((s.after _).step _).after) = _
  rw [hsecond]
  show ([_, Step.mk (.ok ((s.afterReadding name stream).dataflow.stream? name)) _], _) = _
  rw [hanswer]
  rfl

/-- **Only the wires of the layout can differ**, and the instances at both ends are written down. -/
theorem exists_afterReadding (ha : l.dataflow.Anchored) (hs : l.dataflow.stream? name = some stream) :
    ∃ wires, afterReadding ⟨.live l, c⟩ name stream =
      ⟨.live { l with wires := wires }, c.recordAffected (SortedSet.ofList (l.ends stream)).toList⟩ := by
  -- the stream is there again, without sinks
  have hnew : ((l.dataflow.removeStream name).after (.addStream name stream.source)).stream? name =
      some ⟨name, stream.source, []⟩ := Dataflow.stream?_insert.trans (if_pos rfl)
  obtain ⟨wires, hwires⟩ := Layout.exists_afterAll_attach
    (l := { l with
      dataflow := (l.dataflow.removeStream name).after (.addStream name stream.source)
      wires := l.wires.filter (·.stream ≠ name) }) hnew
    (c.recordAffected (SortedSet.ofList (l.ends stream)).toList) stream.sinks
  have hsinks : (stream.sinks.flatMap fun a => (SortedSet.ofList (l.instancesOf a.operator)).toList) ⊆
      (SortedSet.ofList (l.ends stream)).toList := by
    intro id hid
    obtain ⟨a, ha, hid⟩ := List.mem_flatMap.1 hid
    refine SortedSet.mem_ofList.2 (List.mem_flatMap.2 ⟨a.operator, ?_, SortedSet.mem_ofList.1 hid⟩)
    exact List.mem_cons_of_mem _ (List.mem_map_of_mem ha)
  have hrecorded : (c.recordAffected (SortedSet.ofList (l.ends stream)).toList).recordAffected
      (stream.sinks.flatMap fun a => (SortedSet.ofList (l.instancesOf a.operator)).toList) =
        c.recordAffected (SortedSet.ofList (l.ends stream)).toList := c.recordAffected_of_subset hsinks
  refine ⟨wires, ?_⟩
  rw [← hrecorded]
  dsimp only at hwires
  rw [Dataflow.readded ha hs] at hwires
  unfold afterReadding
  simp only [after, Layout.after_removeStream hs]
  exact hwires

/-- **A stream that is taken away can be put back.**  In every session on a layout of a plan that was built,
whatever sessions and batches have made of it, any stream can be taken away and added again with its source
and its sinks.  Neither edit fails, and the second one answers the stream as it was.  The plan, the
instances, the containers and the numbers that were given are the ones from before, and so are the wires but
for their order.  The account gains nothing but the instances at both ends of the stream that are not new:
these are affected. -/
theorem stream_readded {d : Dataflow} (hd : d.Built true) {l₀ : Layout}
    (hl₀ : Layout.materialize d = .ok l₀) {s : Session}
    (hturns : Relation.ReflTransGen Turn (.onLayout l₀) s) :
    ∃ l, s.target = .live l ∧ ∀ name stream, l.dataflow.stream? name = some stream →
      let edits : List Edit := [.removeStream name, .addStream name stream.source stream.sinks]
      (s.runAll edits).1.map (·.result) = [.ok none, .ok (some stream)] ∧
      ∃ wires changes, (s.runAll edits).2 = ⟨.live { l with wires := wires }, changes⟩ ∧
        wires.Perm l.wires ∧ changes.added = s.changes.added ∧ changes.removed = s.changes.removed ∧
        ∀ id, id ∈ changes.affected ↔ id ∈ s.changes.affected ∨ (id ∉ s.changes.added ∧
          ∃ operator ∈ stream.source.operator :: stream.sinks.map (·.operator),
            id ∈ l.instancesOf operator) := by
  have h : s.OnBuilt := (OnBuilt.materialize hd hl₀).turns hturns
  obtain ⟨l₁, hbegun⟩ := h.begun
  obtain ⟨target, c⟩ := s
  obtain ⟨l, rfl, hedited⟩ := id hbegun
  refine ⟨l, rfl, fun name stream hs => ?_⟩
  have hlaid : l.Laid := hedited.sound.laid
  obtain ⟨wires, hafter⟩ := exists_afterReadding (c := c) hlaid.anchored hs
  have hrun := h.runAll_readding hs
  rw [hafter] at hrun
  obtain ⟨hadded, hremoved, haffected⟩ :=
    ChangeSet.recordAffected_eq c (SortedSet.ofList (l.ends stream)).toList
  have hperm : wires.Perm l.wires := by
    have hlast := hbegun.runAll (readding name stream)
    rw [hrun] at hlast
    obtain ⟨l', hl', hedited'⟩ := hlast
    cases hl'
    exact hlaid.perm_wires hedited'.sound.laid
  refine ⟨congrArg (fun run => run.1.map (·.result)) hrun, wires, _, congrArg Prod.snd hrun, hperm, hadded,
    hremoved, fun id => ?_⟩
  rw [haffected]
  refine or_congr_right ⟨fun hid => ⟨hid.2.1, ?_⟩, fun hid => ⟨?_, hid.1, ?_⟩⟩
  · exact List.mem_flatMap.1 (SortedSet.mem_ofList.1 hid.1)
  · exact SortedSet.mem_ofList.2 (List.mem_flatMap.2 hid.2)
  · -- what is there is not gone
    obtain ⟨operator, _, hof⟩ := hid.2
    exact fun hgone => ((hedited.accounts.balances id).removed.1 hgone).2 (hlaid.numbered.present hof)

/-- A session has put a new operator in the place of one of two consumers. -/
def rerouted : Session :=
  ((Session.onLayout forked).runAll
    [.removeOperator "c", .addOperator "e" .relay, .addSink "abc" ⟨"e", "in"⟩]).2

theorem turns_rerouted : Relation.ReflTransGen Turn (.onLayout forked) rerouted :=
  Session.runAll_keeps (P := Relation.ReflTransGen Turn (.onLayout forked))
    (fun _ e hs => hs.tail (.edit e)) .refl _

/-- The source and the old consumer are affected, and the new consumer is not. -/
theorem stream_readded_rerouted :
    let stream : Stream := ⟨"abc", ⟨"a", "out"⟩, [⟨"b", "in"⟩, ⟨"e", "in"⟩]⟩
    let edits : List Edit := [.removeStream "abc", .addStream "abc" stream.source stream.sinks]
    forking.dataflow.Built true ∧ Layout.materialize forking.dataflow = .ok forked ∧
      Relation.ReflTransGen Turn (.onLayout forked) rerouted ∧ rerouted.changes.affected = ∅ ∧
      ∃ l, rerouted.target = .live l ∧ l.dataflow.stream? "abc" = some stream ∧
        (rerouted.runAll edits).1.map (·.result) = [.ok none, .ok (some stream)] ∧
        ∃ wires changes, (rerouted.runAll edits).2 = ⟨.live { l with wires := wires }, changes⟩ ∧
          wires.Perm l.wires ∧ changes.affected.toList = [⟨1⟩, ⟨2⟩] := by
  intro stream edits
  have hbuilt : forking.dataflow.Built true := Dataflow.Built.runAll (.empty .default) _
  have hs : rerouted.dataflow.stream? "abc" = some stream := by decide +kernel
  have haffected : (rerouted.runAll edits).2.changes.affected.toList = [⟨1⟩, ⟨2⟩] := by decide +kernel
  obtain ⟨l, hl, hreadded⟩ := stream_readded hbuilt materialize_forking turns_rerouted
  have hplan : rerouted.dataflow = l.dataflow := congrArg Target.dataflow hl
  rw [hplan] at hs
  obtain ⟨hresults, wires, changes, hlast, hperm, _⟩ := hreadded "abc" stream hs
  have hlast : (rerouted.runAll edits).2 = ⟨.live { l with wires := wires }, changes⟩ := hlast
  rw [hlast] at haffected
  exact ⟨hbuilt, materialize_forking, turns_rerouted, by decide +kernel, l, hl, hs, hresults, wires, changes,
    hlast, hperm, haffected⟩

end Session

end LiveDataflow
