import LiveDataflow.Proofs.Anchored
import LiveDataflow.Proofs.Editing
import LiveDataflow.Proofs.Wiring

/-!
# Edits as moves

An edit is a check followed by a list of moves.  A move changes the dataflow in one place, and a live
session has its layout follow at once and keeps account of it.

## Results

* `Session.resolve`: the moves that an edit comes to in a session, or why it is refused.
* `Dataflow.Admits`: what a plan grants a move.
* `Dataflow.resolveSinks_eq_ok_iff`, `Session.resolve_removeOperator_eq_ok` and their like: what an
  edit that is not refused comes to.
* `Layout.dataflow_after`: the layout after a move is one of the plan after it.
* `Layout.after_keeps`: what changing the plan and each change of a layout keep, every move keeps.
* `Dataflow.Anchored.after`: a move that is granted keeps the streams anchored.
* `Session.admitsAll_of_resolve`: each move of an edit is granted by the plan it is made on.
-/

set_option autoImplicit false

namespace LiveDataflow

/-- The changes that edits are made of. -/
inductive Move where
  | addStage (name : String) (operator : Operator)
  | removeStage (name : String)
  | setOperator (name : String) (operator : Operator)
  | addStream (stream : String) (source : PortAddress)
  | attach (stream : String) (sink : PortAddress)
  | removeStream (stream : String)

/-- The operator whose stage a move changes. -/
def Move.stage? : Move → Option String
  | .addStage name _ | .removeStage name | .setOperator name _ => some name
  | .addStream _ _ | .attach _ _ | .removeStream _ => none

/-- The plan after a move. -/
def Dataflow.after (d : Dataflow) : Move → Dataflow
  | .addStage name operator => { d with stages := d.stages.insert name (d.newStage name operator) }
  | .removeStage name => d.removeStage name
  | .addStream stream source => { d with streams := d.streams.insert stream ⟨stream, source, []⟩ }
  | .attach stream sink => d.attach stream sink
  | .removeStream stream => d.removeStream stream
  | .setOperator name operator => d.setOperator name operator

/-- The layout after a move, and the instances that the move is recorded for. -/
def Layout.after (l : Layout) (m : Move) : List InstanceId × Layout :=
  let changed : Layout := { l with dataflow := l.dataflow.after m }
  match m with
  | .addStage name _ => (changed.addOperator name).toOption.getD ([], changed)
  | .removeStage name => ((changed.removeOperator name).1.toList, (changed.removeOperator name).2)
  | .attach stream sink =>
    match (changed.connectSink stream sink) with
    | .ok (ids, l) => (ids.toList, l)
    | .error _ => ([], changed)
  | .removeStream stream =>
    match l.dropStream stream with
    | .ok (ids, l) => (ids.toList, { l with dataflow := changed.dataflow })
    | .error _ => ([], changed)
  | .addStream _ _ | .setOperator _ _ => ([], changed)

/-- What a session writes down about a move. -/
def ChangeSet.after (c : ChangeSet) (ids : List InstanceId) : Move → ChangeSet
  | .addStage _ _ => c.recordAdded ids
  | .removeStage _ => c.recordRemoved ids
  | .attach _ _ | .removeStream _ => c.recordAffected ids
  | .addStream _ _ | .setOperator _ _ => c

/-- What a plan grants a move. -/
def Dataflow.Admits (d : Dataflow) : Move → Prop
  | .addStage name _ => d.stage? name = none
  | .removeStage name => (d.stage? name).isSome = true ∧ d.outputStreams name = [] ∧
      ∀ s ∈ d.inputStreams name, ∃ a ∈ s.sinks, a.operator ≠ name
  | .addStream stream source => d.stream? stream = none ∧ ∃ p, d.outputPort source = .ok p
  | .attach stream sink =>
      ∃ s, d.stream? stream = some s ∧ d.checkSinks s.source [sink] = .ok ()
  | .removeStream stream => (d.stream? stream).isSome = true
  | .setOperator name operator => ∃ stage properties, d.stage? name = some stage ∧
      stage.operator.setProperties properties = .ok operator

/-- Moves that are granted one after the other. -/
def Dataflow.AdmitsAll (d : Dataflow) : List Move → Prop
  | [] => True
  | m :: rest => d.Admits m ∧ (d.after m).AdmitsAll rest

namespace Session

/-- The session after a move. -/
def after (s : Session) (m : Move) : Session :=
  match s.target with
  | .plan d => ⟨.plan (d.after m), s.changes⟩
  | .live l => ⟨.live (l.after m).2, s.changes.after (l.after m).1 m⟩

def afterAll (s : Session) (moves : List Move) : Session := moves.foldl after s

/-- Whether a live session has laid out an operator of this name. -/
def hasLaidOut (s : Session) (name : String) : Bool :=
  match s.target with
  | .plan _ => false
  | .live l => l.byOperator.contains name

end Session

namespace Dataflow

/-- The moves of attaching sinks to a stream that is there. -/
def resolveSinks (d : Dataflow) (stream : String) (sinks : List PortAddress) :
    Except Cause (List Move) :=
  match d.stream? stream with
  | none => .error (.unknownStream stream)
  | some s => (d.checkSinks s.source sinks).map fun _ => sinks.map (.attach stream)

/-- The moves of adding a stream, or of attaching sinks to the one that is there. -/
def resolveStream (d : Dataflow) (stream : String) (source : PortAddress)
    (sinks : List PortAddress) : Except Cause (List Move) :=
  match d.stream? stream with
  | some s =>
    if s.source ≠ source then .error (.otherSource stream s.source)
    else d.resolveSinks stream sinks
  | none =>
    (d.checkSinks source sinks).map fun _ => .addStream stream source :: sinks.map (.attach stream)

end Dataflow

/-- The moves that an edit comes to, or why it is refused. -/
def Session.resolve (s : Session) : Edit → Except Cause (List Move)
  | .addOperator name operator =>
    if (s.dataflow.stage? name).isSome then .error (.operatorExists name)
    else if s.hasLaidOut name then .error (.alreadyMaterialized name)
    else .ok [.addStage name operator]
  | .removeOperator name =>
    if (s.dataflow.stage? name).isNone then .ok []
    else if (s.dataflow.inputStreams name).any fun t => t.sinks.all (·.operator = name) then
      .error (.onlyConsumer name ((s.dataflow.inputStreams name).map (·.name)))
    else if !(s.dataflow.outputStreams name).isEmpty then
      .error (.hasOutputs name ((s.dataflow.outputStreams name).map (·.name)))
    else .ok [.removeStage name]
  | .addStream stream source sinks => s.dataflow.resolveStream stream source sinks
  | .addSinks stream sinks => s.dataflow.resolveSinks stream sinks
  | .addStreamBetween stream source sink =>
    match s.dataflow.stage? source.operator with
    | none => .error (.unknownSource source.operator)
    | some stage =>
      if !stage.ports.outputs.contains source.port then
        .error (.unknownPort source.port stage.label)
      else do
        let _ ← s.dataflow.inputPort sink
        s.dataflow.resolveStream stream source [sink]
  | .addSink stream sink => do
    let _ ← s.dataflow.inputPort sink
    s.dataflow.resolveSinks stream [sink]
  | .removeStream stream => .ok (if (s.dataflow.stream? stream).isSome then [.removeStream stream] else [])
  | .setProperty operator property value =>
    match s.dataflow.stage? operator with
    | none => .error (.unknownOperator operator)
    | some stage =>
      if !Editing.isConfigurable s operator then .error (.notNew operator property value)
      else
        (stage.operator.setProperties (.ofList [(property, value)])).map fun o =>
          [.setOperator operator o]

/-- What an edit answers: the stream that it attached sinks to. -/
def Edit.answer (d : Dataflow) : Edit → Option Stream
  | .addStream stream _ _ | .addSinks stream _ => d.stream? stream
  | _ => none

/-! ## What edits come to -/

section Inversion

variable {d : Dataflow} {s : Session} {name stream : String} {operator : Operator}
  {source sink : PortAddress} {sinks : List PortAddress} {moves : List Move}

theorem Dataflow.resolveSinks_eq_ok_iff :
    d.resolveSinks stream sinks = .ok moves ↔
      ∃ s, d.stream? stream = some s ∧ d.checkSinks s.source sinks = .ok () ∧
        moves = sinks.map (.attach stream) := by
  unfold resolveSinks
  cases d.stream? stream with
  | none => simp
  | some s =>
    cases hc : d.checkSinks s.source sinks with
    | error c => simp [hc, Except.map]
    | ok u => simp [hc, Except.map, eq_comm]

/-- A stream that is there gets the sinks; a new one is added first. -/
theorem Dataflow.resolveStream_eq_ok_iff :
    d.resolveStream stream source sinks = .ok moves ↔
      (∃ s, d.stream? stream = some s ∧ s.source = source ∧ d.resolveSinks stream sinks = .ok moves) ∨
      (d.stream? stream = none ∧ d.checkSinks source sinks = .ok () ∧
        moves = .addStream stream source :: sinks.map (.attach stream)) := by
  unfold resolveStream
  cases d.stream? stream with
  | none =>
    cases hc : d.checkSinks source sinks with
    | error c => simp [Except.map]
    | ok u => simp [Except.map, eq_comm]
  | some s => by_cases hs : s.source = source <;> simp [hs]

namespace Session

theorem resolve_addOperator_eq_ok (h : s.resolve (.addOperator name operator) = .ok moves) :
    s.dataflow.stage? name = none ∧ moves = [.addStage name operator] := by
  simp only [resolve] at h
  split at h
  · cases h
  · rename_i hname
    split at h
    · cases h
    · cases h
      exact ⟨Option.not_isSome_iff_eq_none.1 hname, rfl⟩

theorem resolve_removeOperator_eq_ok (h : s.resolve (.removeOperator name) = .ok moves) :
    (s.dataflow.stage? name = none ∧ moves = []) ∨
      (s.dataflow.Admits (.removeStage name) ∧ moves = [.removeStage name]) := by
  simp only [resolve] at h
  cases hstage : s.dataflow.stage? name with
  | none =>
    rw [hstage] at h
    cases h
    exact .inl ⟨rfl, rfl⟩
  | some stage =>
    rw [hstage] at h
    simp only [Option.isNone_some, Bool.false_eq_true, if_false] at h
    split at h
    · cases h
    · rename_i hinputs
      split at h
      · cases h
      · rename_i houtputs
        cases h
        refine .inr ⟨⟨by rw [hstage]; rfl, by simpa using houtputs, fun t ht => ?_⟩, rfl⟩
        have hnot : ¬ t.sinks.all (·.operator = name) = true := fun hall =>
          hinputs (List.any_eq_true.2 ⟨t, ht, hall⟩)
        simpa using hnot

theorem resolve_addStreamBetween_eq_ok
    (h : s.resolve (.addStreamBetween stream source sink) = .ok moves) :
    s.dataflow.resolveStream stream source [sink] = .ok moves := by
  simp only [resolve] at h
  split at h
  · cases h
  · split at h
    · cases h
    · cases hp : s.dataflow.inputPort sink with
      | error c => rw [hp] at h; cases h
      | ok p => rw [hp] at h; exact h

theorem resolve_addSink_eq_ok (h : s.resolve (.addSink stream sink) = .ok moves) :
    s.dataflow.resolveSinks stream [sink] = .ok moves := by
  simp only [resolve] at h
  cases hp : s.dataflow.inputPort sink with
  | error c => rw [hp] at h; cases h
  | ok p => rw [hp] at h; exact h

theorem resolve_removeStream_eq_ok (h : s.resolve (.removeStream stream) = .ok moves) :
    moves = [] ∨ (s.dataflow.Admits (.removeStream stream) ∧ moves = [.removeStream stream]) := by
  simp only [resolve] at h
  cases h
  split
  · rename_i hs; exact .inr ⟨hs, rfl⟩
  · exact .inl rfl

theorem resolve_setProperty_eq_ok {property value : String}
    (h : s.resolve (.setProperty name property value) = .ok moves) :
    ∃ o, s.dataflow.Admits (.setOperator name o) ∧ moves = [.setOperator name o] := by
  simp only [resolve] at h
  split at h
  · cases h
  · rename_i stage hstage
    split at h
    · cases h
    · cases ho : stage.operator.setProperties (.ofList [(property, value)]) with
      | error c => rw [ho] at h; cases h
      | ok o => rw [ho] at h; cases h; exact ⟨o, ⟨stage, _, hstage, ho⟩, rfl⟩

end Session

end Inversion

/-! ## The layout after a move -/

namespace Layout

variable {l : Layout} {name stream : String} {operator : Operator} {sink : PortAddress} {s : Stream}

theorem connectSink_attach (hs : l.dataflow.stream? stream = some s) :
    ({ l with dataflow := l.dataflow.attach stream sink } : Layout).connectSink stream sink =
      .ok (.ofList (l.instancesOf sink.operator),
        ({ l with dataflow := l.dataflow.attach stream sink } : Layout).wireSink
          { s with sinks := s.sinks ++ [sink] } sink) := by
  refine connectSink_eq_ok_iff.2 ⟨{ s with sinks := s.sinks ++ [sink] }, ?_, by simp, rfl, rfl⟩
  show (l.dataflow.attach stream sink).stream? stream = _
  rw [Dataflow.stream?_attach, if_pos rfl, hs]
  rfl

theorem after_attach (hs : l.dataflow.stream? stream = some s) :
    l.after (.attach stream sink) =
      ((SortedSet.ofList (l.instancesOf sink.operator)).toList,
        ({ l with dataflow := l.dataflow.attach stream sink } : Layout).wireSink
          { s with sinks := s.sinks ++ [sink] } sink) := by
  simp only [after, Dataflow.after, connectSink_attach hs]

theorem after_addStage {r : List InstanceId × Layout}
    (h : ({ l with dataflow := l.dataflow.after (.addStage name operator) } : Layout).addOperator
      name = .ok r) : l.after (.addStage name operator) = r := by
  simp only [after, h]
  rfl

/-- A new operator can be laid out if it is not laid out yet. -/
theorem addOperator_after (h : l.byOperator.contains name = false) :
    ({ l with dataflow := l.dataflow.after (.addStage name operator) } : Layout).addOperator name =
      .ok ((l.after (.addStage name operator)).1, (l.after (.addStage name operator)).2) := by
  have hok : ∃ r, ({ l with dataflow := l.dataflow.after (.addStage name operator) } :
      Layout).addOperator name = .ok r :=
    ⟨(_, _), addOperator_eq_ok_iff.2 ⟨l.dataflow.newStage name operator,
      Dataflow.stage?_insert.trans (if_pos rfl), h, rfl, rfl⟩⟩
  obtain ⟨r, hr⟩ := hok
  rw [after_addStage hr]
  exact hr

theorem dropStream_of_stream? (hs : l.dataflow.stream? stream = some s) :
    l.dropStream stream =
      .ok (.ofList ((s.source.operator :: s.sinks.map (·.operator)).flatMap l.instancesOf),
        { l with wires := l.wires.filter (·.stream ≠ stream) }) :=
  dropStream_eq_ok_iff.2 ⟨s, hs, rfl, rfl⟩

theorem after_removeStream (hs : l.dataflow.stream? stream = some s) :
    l.after (.removeStream stream) =
      ((SortedSet.ofList
          ((s.source.operator :: s.sinks.map (·.operator)).flatMap l.instancesOf)).toList,
        { l with
          dataflow := l.dataflow.removeStream stream
          wires := l.wires.filter (·.stream ≠ stream) }) := by
  simp only [after, Dataflow.after, dropStream_of_stream? hs]

end Layout

/-! ## The dataflow after a move -/

theorem Layout.dataflow_addOperator {l l' : Layout} {name : String} {ids : List InstanceId}
    (h : l.addOperator name = .ok (ids, l')) : l'.dataflow = l.dataflow := by
  obtain ⟨partitions, wires, _, rfl⟩ := wires_only_addOperator h
  rfl

theorem Layout.dataflow_after (l : Layout) (m : Move) :
    (l.after m).2.dataflow = l.dataflow.after m := by
  cases m with
  | addStage name operator =>
    simp only [after]
    cases h : ({ l with dataflow := l.dataflow.after (.addStage name operator) } : Layout).addOperator
        name with
    | error c => rfl
    | ok r => exact dataflow_addOperator h
  | removeStage name => exact (without_removeOperator _ name).dataflow
  | setOperator name operator => rfl
  | addStream stream source => rfl
  | attach stream sink =>
    simp only [after]
    split
    · rename_i h
      obtain ⟨s, _, _, _, rfl⟩ := connectSink_eq_ok_iff.1 h
      rfl
    · rfl
  | removeStream stream =>
    simp only [after]
    split <;> rfl

/-- **What changing the plan and each change of a layout keep, every move keeps.** -/
theorem Layout.after_keeps {P : Layout → Prop} {m : Move} {l : Layout}
    (hplan : ∀ {l : Layout}, P l → P { l with dataflow := l.dataflow.after m })
    (hadd : ∀ {l l' : Layout} {name : String} {ids : List InstanceId},
      l.addOperator name = .ok (ids, l') → P l → P l')
    (hremove : ∀ {l : Layout} (name : String), P l → P (l.removeOperator name).2)
    (hconnect : ∀ {l l' : Layout} {stream : String} {sink : PortAddress} {ids : SortedSet InstanceId},
      l.connectSink stream sink = .ok (ids, l') → P l → P l')
    (hdrop : ∀ {l l' : Layout} {stream : String} {ids : SortedSet InstanceId},
      l.dropStream stream = .ok (ids, l') → P l → P l')
    (h : P l) : P (l.after m).2 := by
  cases m with
  | addStage name operator =>
    simp only [after]
    cases hok : ({ l with dataflow := l.dataflow.after (.addStage name operator) } : Layout).addOperator
        name with
    | error c => exact hplan h
    | ok r => exact hadd hok (hplan h)
  | removeStage name => exact hremove name (hplan h)
  | setOperator name operator => exact hplan h
  | addStream stream source => exact hplan h
  | attach stream sink =>
    simp only [after]
    split
    · rename_i hok
      exact hconnect hok (hplan h)
    · exact hplan h
  | removeStream stream =>
    simp only [after]
    split
    · -- the wires go first here, while the plan still has the stream
      rename_i hok
      have hlast := hplan (hdrop hok h)
      obtain ⟨s, _, _, rfl⟩ := dropStream_eq_ok_iff.1 hok
      exact hlast
    · exact hplan h

theorem Session.dataflow_after (s : Session) (m : Move) :
    (s.after m).dataflow = s.dataflow.after m := by
  obtain ⟨target, changes⟩ := s
  cases target with
  | plan d => rfl
  | live l => exact l.dataflow_after m

theorem Session.dataflow_afterAll (s : Session) (moves : List Move) :
    (s.afterAll moves).dataflow = moves.foldl Dataflow.after s.dataflow := by
  induction moves generalizing s with
  | nil => rfl
  | cons m rest ih => rw [List.foldl_cons, ← dataflow_after]; exact ih (s.after m)

/-- A move leaves the stages of other operators alone. -/
theorem Dataflow.stage?_after_of_ne {d : Dataflow} {m : Move} {name : String} (h : m.stage? ≠ some name) :
    (d.after m).stage? name = d.stage? name := by
  cases m with
  | addStage other operator => exact stage?_insert.trans (if_neg fun e => h (congrArg some e))
  | removeStage other => exact stage?_removeStage.trans (if_neg fun e => h (congrArg some e))
  | setOperator other operator => exact stage?_adjust.trans (if_neg fun e => h (congrArg some e))
  | addStream stream source => rfl
  | attach stream sink => rfl
  | removeStream stream => rfl

/-- Attaching sinks changes no stage. -/
theorem Dataflow.stage?_of_mem_resolveSinks {d : Dataflow} {stream : String} {sinks : List PortAddress}
    {moves : List Move} {m : Move} (hr : d.resolveSinks stream sinks = .ok moves) (hm : m ∈ moves) :
    m.stage? = none := by
  obtain ⟨_, _, _, rfl⟩ := resolveSinks_eq_ok_iff.1 hr
  obtain ⟨sink, _, rfl⟩ := List.mem_map.1 hm
  rfl

theorem Dataflow.stage?_of_mem_resolveStream {d : Dataflow} {stream : String} {source : PortAddress}
    {sinks : List PortAddress} {moves : List Move} {m : Move}
    (hr : d.resolveStream stream source sinks = .ok moves) (hm : m ∈ moves) : m.stage? = none := by
  rcases resolveStream_eq_ok_iff.1 hr with ⟨_, _, _, hsinks⟩ | ⟨_, _, rfl⟩
  · exact stage?_of_mem_resolveSinks hsinks hm
  · rcases List.mem_cons.1 hm with rfl | hm
    · rfl
    · obtain ⟨sink, _, rfl⟩ := List.mem_map.1 hm
      rfl

/-! ## Moves that are granted -/

namespace Dataflow

variable {d : Dataflow}

/-- A move that is granted keeps the streams anchored. -/
theorem Anchored.after (h : d.Anchored) {m : Move} (hm : d.Admits m) : (d.after m).Anchored := by
  cases m with
  | addStage name operator => exact h.insert _
  | removeStage name => exact h.removeStage name
  | setOperator name operator => exact h.adjust _
  | addStream stream source =>
    obtain ⟨_, p, hp⟩ := hm
    exact h.insertStream (stage?_isSome_of_findPort hp)
  | attach stream sink =>
    obtain ⟨s, hs, hc⟩ := hm
    exact h.attach (isSome_stage?_of_checkSinks hc sink List.mem_cons_self)
  | removeStream stream => exact h.removeStream stream

theorem admitsAll_attach {stream : String} {s : Stream} {sinks : List PortAddress}
    (hs : d.stream? stream = some s) (hc : d.checkSinks s.source sinks = .ok ()) :
    d.AdmitsAll (sinks.map (.attach stream)) := by
  induction sinks generalizing d s with
  | nil => trivial
  | cons a rest ih =>
    have hafter : (d.attach stream a).stream? stream = some { s with sinks := s.sinks ++ [a] } := by
      rw [stream?_attach, if_pos rfl, hs]; rfl
    have hrest : (d.attach stream a).checkSinks s.source rest = .ok () := checkSinks_attach hs hc
    exact ⟨⟨s, hs, checkSinks_singleton hc⟩, ih hafter hrest⟩

theorem admitsAll_of_resolveSinks {stream : String} {sinks : List PortAddress} {moves : List Move}
    (h : d.resolveSinks stream sinks = .ok moves) : d.AdmitsAll moves := by
  obtain ⟨s, hs, hc, rfl⟩ := resolveSinks_eq_ok_iff.1 h
  exact admitsAll_attach hs hc

theorem admitsAll_of_resolveStream {stream : String} {source : PortAddress}
    {sinks : List PortAddress} {moves : List Move}
    (h : d.resolveStream stream source sinks = .ok moves) : d.AdmitsAll moves := by
  rcases resolveStream_eq_ok_iff.1 h with ⟨_, _, _, hsinks⟩ | ⟨hs, hc, rfl⟩
  · exact admitsAll_of_resolveSinks hsinks
  · obtain ⟨p, hp, _⟩ := checkSinks_eq_ok_iff.1 hc
    refine ⟨⟨hs, p, hp⟩, ?_⟩
    refine admitsAll_attach (s := ⟨stream, source, []⟩) ?_ (checkSinks_insert hc)
    show Dataflow.stream? { d with streams := _ } stream = _
    rw [stream?_insert, if_pos rfl]

end Dataflow

/-- **Each move of an edit is granted by the plan that it is made on.** -/
theorem Session.admitsAll_of_resolve {s : Session} {e : Edit} {moves : List Move}
    (h : s.resolve e = .ok moves) : s.dataflow.AdmitsAll moves := by
  cases e with
  | addOperator name operator =>
    obtain ⟨hname, rfl⟩ := resolve_addOperator_eq_ok h
    exact ⟨hname, trivial⟩
  | removeOperator name =>
    rcases resolve_removeOperator_eq_ok h with ⟨_, rfl⟩ | ⟨hm, rfl⟩
    · trivial
    · exact ⟨hm, trivial⟩
  | addStream stream source sinks => exact Dataflow.admitsAll_of_resolveStream h
  | addSinks stream sinks => exact Dataflow.admitsAll_of_resolveSinks h
  | addStreamBetween stream source sink =>
    exact Dataflow.admitsAll_of_resolveStream (resolve_addStreamBetween_eq_ok h)
  | addSink stream sink => exact Dataflow.admitsAll_of_resolveSinks (resolve_addSink_eq_ok h)
  | removeStream stream =>
    rcases resolve_removeStream_eq_ok h with rfl | ⟨hm, rfl⟩
    · trivial
    · exact ⟨hm, trivial⟩
  | setProperty operator property value =>
    obtain ⟨o, hm, rfl⟩ := resolve_setProperty_eq_ok h
    exact ⟨hm, trivial⟩

end LiveDataflow
