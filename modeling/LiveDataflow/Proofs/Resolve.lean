import LiveDataflow.Proofs.Move

/-!
# Edits make their moves

The edits check and change in turns.  On a plan whose streams are anchored none of the later checks
fails after a change, so an edit is either refused on the session as it is or makes all its moves.

## Results

* `Editing.on_attachSinks`: sinks that pass the check together can all be attached.
* `Editing.follows_addOperator`: an operator that cannot be laid out is taken out without a trace.
* `Session.step_eq`: an edit is refused and leaves the session alone, or makes all its moves.
* `Session.step_keeps`: what every move that is granted keeps, an edit keeps.
-/

set_option autoImplicit false

namespace LiveDataflow.Editing

variable {s : Session} {stream : String} {sink : PortAddress} {sinks : List PortAddress} {t : Stream}

/-! ## Streams -/

theorem on_requireStream_some (h : s.dataflow.stream? stream = some t) :
    (requireStream stream).on s = (.ok t, s) := by
  unfold requireStream
  rw [on_bind_ok (on_currentDataflow s), h]
  rfl

theorem on_requireStream_none (h : s.dataflow.stream? stream = none) :
    (requireStream stream).on s = (.error (.unknownStream stream), s) := by
  unfold requireStream
  rw [on_bind_ok (on_currentDataflow s), h]
  rfl

theorem on_attachSink (ht : s.dataflow.stream? stream = some t)
    (hc : s.dataflow.checkSinks t.source [sink] = .ok ()) :
    (attachSink stream sink).on s = (.ok (), s.after (.attach stream sink)) := by
  obtain ⟨target, changes⟩ := s
  unfold attachSink
  rw [on_bind_ok (on_changeDataflow_ok (Dataflow.addSink_eq_ok_iff.2 ⟨t, ht, hc, rfl⟩))]
  cases target with
  | plan d => rfl
  | live l =>
    refine (on_changeLayout_ok (congrArg (Except.map _) (Layout.connectSink_attach ht))).trans ?_
    simp only [Session.after, Layout.after_attach ht]
    rfl

theorem on_attachSinks (ht : s.dataflow.stream? stream = some t)
    (hc : s.dataflow.checkSinks t.source sinks = .ok ()) :
    (attachSinks stream sinks).on s = (.ok (), s.afterAll (sinks.map (.attach stream))) := by
  induction sinks generalizing s t with
  | nil => rfl
  | cons a rest ih =>
    have hafter : (s.after (.attach stream a)).dataflow = s.dataflow.attach stream a :=
      s.dataflow_after _
    have ht' : (s.after (.attach stream a)).dataflow.stream? stream =
        some { t with sinks := t.sinks ++ [a] } := by
      rw [hafter, Dataflow.stream?_attach, if_pos rfl, ht]; rfl
    have hrest : (s.after (.attach stream a)).dataflow.checkSinks t.source rest = .ok () := by
      rw [hafter]; exact Dataflow.checkSinks_attach ht hc
    unfold attachSinks
    rw [on_bind_ok (on_attachSink ht (Dataflow.checkSinks_singleton hc))]
    exact ih ht' hrest

/-- The stream is still there after its sinks are attached. -/
theorem stream?_afterAll_attach (ht : s.dataflow.stream? stream = some t) :
    ∃ u, (s.afterAll (sinks.map (.attach stream))).dataflow.stream? stream = some u := by
  induction sinks generalizing s t with
  | nil => exact ⟨t, ht⟩
  | cons a rest ih =>
    refine ih (s := s.after (.attach stream a)) (t := { t with sinks := t.sinks ++ [a] }) ?_
    rw [s.dataflow_after]
    show (s.dataflow.attach stream a).stream? stream = _
    rw [Dataflow.stream?_attach, if_pos rfl, ht]
    rfl

theorem on_addSinks_error {c : Cause} (h : s.dataflow.resolveSinks stream sinks = .error c) :
    (addSinks stream sinks).on s = (.error c, s) := by
  unfold Dataflow.resolveSinks at h
  unfold addSinks
  cases ht : s.dataflow.stream? stream with
  | none =>
    rw [ht] at h
    cases h
    exact on_bind_error (on_requireStream_none ht)
  | some t =>
    rw [ht] at h
    dsimp only at h
    rw [on_bind_ok (on_requireStream_some ht), on_bind_ok (on_currentDataflow s)]
    cases hc : s.dataflow.checkSinks t.source sinks with
    | ok u => rw [hc] at h; cases h
    | error c' =>
      rw [hc] at h
      cases h
      exact on_bind_error (on_check _ s)

theorem on_addSinks_ok {moves : List Move} (h : s.dataflow.resolveSinks stream sinks = .ok moves) :
    ∃ t, (s.afterAll moves).dataflow.stream? stream = some t ∧
      (addSinks stream sinks).on s = (.ok t, s.afterAll moves) := by
  obtain ⟨t, ht, hc, rfl⟩ := Dataflow.resolveSinks_eq_ok_iff.1 h
  obtain ⟨u, hu⟩ : ∃ u, (s.afterAll (sinks.map (.attach stream))).dataflow.stream? stream =
      some u := stream?_afterAll_attach ht
  refine ⟨u, hu, ?_⟩
  unfold addSinks
  rw [on_bind_ok (on_requireStream_some ht), on_bind_ok (on_currentDataflow s), hc,
    on_bind_ok (on_check _ s), on_bind_ok (on_attachSinks ht hc)]
  exact on_requireStream_some hu

theorem on_addStream_error {source : PortAddress} {c : Cause}
    (h : s.dataflow.resolveStream stream source sinks = .error c) :
    (addStream stream source sinks).on s = (.error c, s) := by
  unfold Dataflow.resolveStream at h
  unfold addStream
  rw [on_bind_ok (on_currentDataflow s)]
  cases ht : s.dataflow.stream? stream with
  | some t =>
    rw [ht] at h
    dsimp only at h ⊢
    split at h
    · rename_i hsource
      cases h
      rw [if_pos hsource]
      rfl
    · rename_i hsource
      rw [if_neg hsource]
      exact on_addSinks_error h
  | none =>
    rw [ht] at h
    dsimp only at h ⊢
    rw [on_bind_ok (on_currentDataflow s)]
    cases hc : s.dataflow.checkSinks source sinks with
    | ok u => rw [hc] at h; cases h
    | error c' =>
      rw [hc] at h
      cases h
      exact on_bind_error (on_check _ s)

/-- A new stream takes its sinks as soon as it is there. -/
theorem on_addStream_new {source : PortAddress} (ht : s.dataflow.stream? stream = none)
    (hc : s.dataflow.checkSinks source sinks = .ok ()) :
    ∃ u, ((s.after (.addStream stream source)).afterAll
        (sinks.map (.attach stream))).dataflow.stream? stream = some u ∧
      (addStream stream source sinks).on s =
        (.ok u, (s.after (.addStream stream source)).afterAll (sinks.map (.attach stream))) := by
  obtain ⟨p, hp, _⟩ := Dataflow.checkSinks_eq_ok_iff.1 hc
  have hadd : s.dataflow.addStream stream source =
      .ok { s.dataflow with streams := s.dataflow.streams.insert stream ⟨stream, source, []⟩ } :=
    Dataflow.addStream_eq_ok_iff.2 ⟨ht, ⟨p, hp⟩, rfl⟩
  have hafter : (s.after (.addStream stream source)).dataflow =
      { s.dataflow with streams := s.dataflow.streams.insert stream ⟨stream, source, []⟩ } :=
    s.dataflow_after _
  have hnew : (s.after (.addStream stream source)).dataflow.stream? stream =
      some ⟨stream, source, []⟩ := by
    rw [hafter, Dataflow.stream?_insert, if_pos rfl]
  have hsinks : (s.after (.addStream stream source)).dataflow.resolveSinks stream sinks =
      .ok (sinks.map (.attach stream)) :=
    Dataflow.resolveSinks_eq_ok_iff.2 ⟨_, hnew, by rw [hafter]; exact Dataflow.checkSinks_insert hc, rfl⟩
  obtain ⟨u, hu, hon⟩ := on_addSinks_ok hsinks
  refine ⟨u, hu, ?_⟩
  rw [← hon]
  unfold addStream
  rw [on_bind_ok (on_currentDataflow s), ht]
  dsimp only
  rw [on_bind_ok (on_currentDataflow s), hc]
  have hfirst : (check (.ok ()) >>= fun _ => changeDataflow (·.addStream stream source)).on s =
      (.ok (), s.after (.addStream stream source)) := by
    rw [on_bind_ok (on_check _ s), on_changeDataflow_ok hadd]
    obtain ⟨target, changes⟩ := s
    cases target <;> rfl
  exact on_bind_ok hfirst

theorem on_addStream_ok {source : PortAddress} {moves : List Move}
    (h : s.dataflow.resolveStream stream source sinks = .ok moves) :
    ∃ u, (s.afterAll moves).dataflow.stream? stream = some u ∧
      (addStream stream source sinks).on s = (.ok u, s.afterAll moves) := by
  rcases Dataflow.resolveStream_eq_ok_iff.1 h with ⟨t, ht, rfl, hsinks⟩ | ⟨ht, hc, rfl⟩
  · obtain ⟨u, hu, hon⟩ := on_addSinks_ok hsinks
    refine ⟨u, hu, ?_⟩
    unfold addStream
    rw [on_bind_ok (on_currentDataflow s), ht]
    dsimp only
    rw [if_neg (not_not_intro rfl)]
    exact hon
  · exact on_addStream_new ht hc

theorem on_requireInput_ok {p : Port} (h : s.dataflow.inputPort sink = .ok p) :
    (requireInput sink).on s = (.ok (), s) := by
  unfold requireInput
  rw [on_bind_ok (on_currentDataflow s), h]
  rfl

theorem on_requireInput_error {c : Cause} (h : s.dataflow.inputPort sink = .error c) :
    (requireInput sink).on s = (.error c, s) := by
  unfold requireInput
  rw [on_bind_ok (on_currentDataflow s), h]
  rfl

/-- A computation is refused and leaves the session alone, or makes all its moves. -/
def Follows (x : Editing Unit) (s : Session) (moves : Except Cause (List Move)) : Prop :=
  x.on s = match moves with
    | .error c => (.error c, s)
    | .ok moves => (.ok (), s.afterAll moves)

theorem follows_addStreamBetween {source : PortAddress} :
    Follows (addStreamBetween stream source sink) s
      (s.resolve (.addStreamBetween stream source sink)) := by
  unfold Follows addStreamBetween
  dsimp only [Session.resolve]
  rw [on_bind_ok (on_currentDataflow s)]
  cases hstage : s.dataflow.stage? source.operator with
  | none => rfl
  | some stage =>
    dsimp only
    cases houtput : stage.ports.outputs.contains source.port with
    | false => rfl
    | true =>
      simp only [Bool.not_true, Bool.false_eq_true, if_false]
      cases hinput : s.dataflow.inputPort sink with
      | error c => exact on_bind_error (on_requireInput_error hinput)
      | ok p =>
        rw [on_bind_ok (on_requireInput_ok hinput)]
        show _ = match s.dataflow.resolveStream stream source [sink] with
          | .error c => (Except.error c, s)
          | .ok moves => (.ok (), s.afterAll moves)
        cases hmoves : s.dataflow.resolveStream stream source [sink] with
        | error c => exact on_bind_error (on_addStream_error hmoves)
        | ok moves =>
          obtain ⟨u, _, hon⟩ := on_addStream_ok hmoves
          exact on_bind_ok hon

theorem follows_addSink :
    Follows (addSink stream sink) s (s.resolve (.addSink stream sink)) := by
  unfold Follows addSink
  dsimp only [Session.resolve]
  cases hinput : s.dataflow.inputPort sink with
  | error c => exact on_bind_error (on_requireInput_error hinput)
  | ok p =>
    rw [on_bind_ok (on_requireInput_ok hinput)]
    show _ = match s.dataflow.resolveSinks stream [sink] with
      | .error c => (Except.error c, s)
      | .ok moves => (.ok (), s.afterAll moves)
    cases hmoves : s.dataflow.resolveSinks stream [sink] with
    | error c => exact on_bind_error (on_addSinks_error hmoves)
    | ok moves =>
      obtain ⟨u, _, hon⟩ := on_addSinks_ok hmoves
      exact on_bind_ok hon

theorem follows_removeStream :
    Follows (removeStream stream) s (s.resolve (.removeStream stream)) := by
  obtain ⟨target, changes⟩ := s
  unfold Follows removeStream
  dsimp only [Session.resolve]
  rw [on_bind_ok (on_currentDataflow _)]
  cases hs : (Session.mk target changes).dataflow.stream? stream with
  | none => rfl
  | some t =>
    simp only [Option.isSome_some, if_true]
    cases target with
    | plan d => rfl
    | live l =>
      have hdrop := Layout.dropStream_of_stream? (l := l) hs
      rw [on_bind_ok (on_changeLayout_ok (congrArg (Except.map _) hdrop))]
      rw [on_changeDataflow_total]
      simp only [Session.afterAll, List.foldl_cons, List.foldl_nil, Session.after,
        Layout.after_removeStream (l := l) hs]
      rfl

/-! ## Operators -/

variable {name : String} {operator : Operator}

theorem follows_addOperator (h : s.dataflow.Anchored) :
    Follows (addOperator name operator) s (s.resolve (.addOperator name operator)) := by
  obtain ⟨target, changes⟩ := s
  unfold Follows addOperator
  dsimp only [Session.resolve]
  cases hstage : (Session.mk target changes).dataflow.stage? name with
  | some stage =>
    have hno : (Session.mk target changes).dataflow.addStage name operator =
        .error (.operatorExists name) := by
      unfold Dataflow.addStage
      rw [if_pos (by rw [Dataflow.contains_stages, hstage]; rfl)]
    exact on_bind_error (on_changeDataflow_error hno)
  | none =>
    rw [on_bind_ok (on_changeDataflow_ok (Dataflow.addStage_eq_ok_iff.2 ⟨hstage, rfl⟩))]
    simp only [Option.isSome_none, Bool.false_eq_true, if_false]
    cases target with
    | plan d => exact on_tryCatch_ok (on_changeLayout_plan _)
    | live l =>
      let d := { l.dataflow with
        stages := l.dataflow.stages.insert name (l.dataflow.newStage name operator) }
      have hnew : d.stage? name = some (l.dataflow.newStage name operator) := by
        rw [Dataflow.stage?_insert, if_pos rfl]
      have hlaid : Session.hasLaidOut ⟨.live l, changes⟩ name = l.byOperator.contains name := rfl
      rw [hlaid]
      cases hthere : l.byOperator.contains name with
      | false =>
        exact on_tryCatch_ok (on_changeLayout_ok (Layout.addOperator_after hthere))
      | true =>
        have hlayout : ({ l with dataflow := d } : Layout).addOperator name =
            .error (.alreadyMaterialized name) := by
          unfold Layout.addOperator
          dsimp only
          rw [hnew]
          exact if_pos hthere
        refine (on_tryCatch_error (on_changeLayout_error hlayout)).trans ?_
        rw [on_bind_ok (on_changeDataflow_total _ _)]
        -- the stage is taken out again, which leaves the plan as it was
        have hback : d.removeStage name = l.dataflow := h.removeStage_insert hstage _
        show (_, (Session.mk (.live { l with dataflow := d.removeStage name }) changes)) = _
        rw [hback]
        rfl

theorem follows_removeOperator :
    Follows (removeOperator name) s (s.resolve (.removeOperator name)) := by
  obtain ⟨target, changes⟩ := s
  unfold Follows removeOperator
  dsimp only [Session.resolve]
  rw [on_bind_ok (on_currentDataflow _)]
  cases hstage : (Session.mk target changes).dataflow.stage? name with
  | none => rfl
  | some stage =>
    simp only [Option.isSome_some, Option.isNone_some, Bool.false_eq_true, if_true, if_false]
    split
    · rfl
    · split
      · rfl
      · cases target with
        | plan d => rfl
        | live l =>
          refine (on_bind_ok (on_changeDataflow_total _ _)).trans ?_
          exact on_changeLayout_ok rfl

theorem follows_setProperty {property value : String} :
    Follows (setProperty name property value) s (s.resolve (.setProperty name property value)) := by
  obtain ⟨target, changes⟩ := s
  unfold Follows setProperty
  dsimp only [Session.resolve]
  rw [on_bind_ok (on_get _)]
  cases hstage : (Session.mk target changes).dataflow.stage? name with
  | none => rfl
  | some stage =>
    simp only [Option.isNone_some, Bool.false_eq_true, if_false]
    cases isConfigurable ⟨target, changes⟩ name with
    | false => rfl
    | true =>
      simp only [Bool.not_true, Bool.false_eq_true, if_false]
      have hset : (Session.mk target changes).dataflow.setProperties name (.ofList [(property, value)]) =
          (stage.operator.setProperties (.ofList [(property, value)])).map
            ((Session.mk target changes).dataflow.setOperator name) := by
        unfold Dataflow.setProperties
        rw [hstage]
      cases ho : stage.operator.setProperties (.ofList [(property, value)]) with
      | error c =>
        rw [ho] at hset
        exact on_changeDataflow_error hset
      | ok o =>
        rw [ho] at hset
        refine (on_changeDataflow_ok hset).trans ?_
        cases target <;> rfl

end LiveDataflow.Editing

namespace LiveDataflow.Session

open Editing

variable {s : Session}

/-- An edit that answers nothing is carried out as its computation is. -/
theorem step_of_follows (e : Edit) {x : Editing Unit}
    (hperform : e.perform = (do x; return none)) (hanswer : ∀ d, e.answer d = none)
    (h : Follows x s (s.resolve e)) :
    s.step e = match s.resolve e with
      | .error c => ⟨.error c, s⟩
      | .ok moves => ⟨.ok (e.answer (s.afterAll moves).dataflow), s.afterAll moves⟩ := by
  have hstep : s.step e = ⟨(e.perform.on s).1, (e.perform.on s).2⟩ := rfl
  rw [hstep, hperform]
  unfold Follows at h
  cases hmoves : s.resolve e with
  | error c =>
    rw [hmoves] at h
    rw [on_bind_error h]
  | ok moves =>
    rw [hmoves] at h
    rw [on_bind_ok h]
    dsimp only
    rw [hanswer]
    rfl

/-- **An edit is refused and leaves the session alone, or makes all its moves.** -/
theorem step_eq (h : s.dataflow.Anchored) (e : Edit) :
    s.step e = match s.resolve e with
      | .error c => ⟨.error c, s⟩
      | .ok moves => ⟨.ok (e.answer (s.afterAll moves).dataflow), s.afterAll moves⟩ := by
  have hstep : s.step e = ⟨(e.perform.on s).1, (e.perform.on s).2⟩ := rfl
  cases e with
  | addOperator name operator => exact step_of_follows _ rfl (fun _ => rfl) (follows_addOperator h)
  | removeOperator name => exact step_of_follows _ rfl (fun _ => rfl) follows_removeOperator
  | addStream stream source sinks =>
    rw [hstep]
    dsimp only [Edit.perform, resolve]
    cases hmoves : s.dataflow.resolveStream stream source sinks with
    | error c => rw [on_bind_error (on_addStream_error hmoves)]
    | ok moves =>
      obtain ⟨u, hu, hon⟩ := on_addStream_ok hmoves
      rw [on_bind_ok hon]
      dsimp only [Edit.answer]
      rw [hu]; rfl
  | addSinks stream sinks =>
    rw [hstep]
    dsimp only [Edit.perform, resolve]
    cases hmoves : s.dataflow.resolveSinks stream sinks with
    | error c => rw [on_bind_error (on_addSinks_error hmoves)]
    | ok moves =>
      obtain ⟨u, hu, hon⟩ := on_addSinks_ok hmoves
      rw [on_bind_ok hon]
      dsimp only [Edit.answer]
      rw [hu]; rfl
  | addStreamBetween stream source sink =>
    exact step_of_follows _ rfl (fun _ => rfl) follows_addStreamBetween
  | addSink stream sink => exact step_of_follows _ rfl (fun _ => rfl) follows_addSink
  | removeStream stream => exact step_of_follows _ rfl (fun _ => rfl) follows_removeStream
  | setProperty operator property value =>
    exact step_of_follows _ rfl (fun _ => rfl) follows_setProperty

theorem step_of_refused (h : s.dataflow.Anchored) {e : Edit} {c : Cause}
    (hr : s.resolve e = .error c) : s.step e = ⟨.error c, s⟩ := by
  rw [step_eq h, hr]

theorem step_of_resolved (h : s.dataflow.Anchored) {e : Edit} {moves : List Move}
    (hr : s.resolve e = .ok moves) :
    s.step e = ⟨.ok (e.answer (s.afterAll moves).dataflow), s.afterAll moves⟩ := by
  rw [step_eq h, hr]

/-! ## What edits keep -/

section Keeps

variable {P : Session → Prop} (hmove : ∀ s m, P s → s.dataflow.Admits m → P (s.after m))

include hmove

theorem afterAll_keeps {moves : List Move} (hs : P s) (hm : s.dataflow.AdmitsAll moves) :
    P (s.afterAll moves) := by
  induction moves generalizing s with
  | nil => exact hs
  | cons m rest ih =>
    obtain ⟨hone, hrest⟩ := hm
    rw [← dataflow_after] at hrest
    exact ih (hmove s m hs hone) hrest

/-- **What every move that is granted keeps, an edit keeps**, whether it is refused or not. -/
theorem step_keeps (h : s.dataflow.Anchored) (hs : P s) (e : Edit) : P (s.step e).after := by
  cases hr : s.resolve e with
  | error c =>
    rw [step_of_refused h hr]
    exact hs
  | ok moves =>
    rw [step_of_resolved h hr]
    exact afterAll_keeps hmove hs (admitsAll_of_resolve hr)

end Keeps

/-- What every edit keeps, a run of edits keeps. -/
theorem runAll_keeps {P : Session → Prop} (hstep : ∀ s e, P s → P (s.step e).after) (hs : P s)
    (edits : List Edit) : P (s.runAll edits).2 := by
  induction edits generalizing s with
  | nil => exact hs
  | cons e rest ih => exact ih (hstep s e hs)

end LiveDataflow.Session
