import LiveDataflow.Proofs.Outcome
import LiveDataflow.Proofs.Trial

/-!
# What runs is never configured

A session configures an operator only if all its instances are its own, but what it writes to is the entry
of that name in the plan.  The two belong together: an entry is made, changed or taken away only under a name
that may be configured, before or after, and once a name may be configured this stays so.  An operator that
the session found, and did not take away, may not be configured at its end, so its entry was the same all
along.

## Results

* `Session.stage?_step_of_not_configurable`: an edit leaves the entry alone if the operator may not be
  configured after it.
* `Session.stage?_runAll_of_not_configurable`: so does a run of edits.
* `Session.BegunOn.mem_instancesOf`: what a session found and did not take away is where it was.
* `Session.Live.standing_unconfigured`: what runs keeps its entry, and what is new may be configured.
-/

set_option autoImplicit false

namespace LiveDataflow.Session

variable {s : Session} {e : Edit} {name : String} {l l₀ : Layout} {id : InstanceId} {moves : List Move}
  {m : Move}

/-! ## Entries that stay -/

/-- Only taking it away changes the entry of an operator that may not be configured. -/
theorem stage?_ne_of_mem_resolve (h : s.Sound) (hno : Editing.isConfigurable s name = false)
    (hr : s.resolve e = .ok moves) (hkept : .removeStage name ∉ moves) (hm : m ∈ moves) :
    m.stage? ≠ some name := by
  intro hstage
  cases e with
  | addOperator other operator =>
    obtain ⟨habsent, rfl⟩ := resolve_addOperator_eq_ok hr
    cases List.mem_singleton.1 hm
    cases hstage
    rw [h.configurable_of_absent habsent] at hno
    cases hno
  | removeOperator other =>
    rcases resolve_removeOperator_eq_ok hr with ⟨_, rfl⟩ | ⟨_, rfl⟩
    · cases hm
    · cases List.mem_singleton.1 hm
      cases hstage
      exact hkept List.mem_cons_self
  | setProperty operator property value =>
    obtain ⟨o, _, rfl⟩ := resolve_setProperty_eq_ok hr
    cases List.mem_singleton.1 hm
    cases hstage
    obtain ⟨c, hc⟩ := resolve_of_not_configurable h property value hno
    rw [hr] at hc
    cases hc
  | addStream stream source sinks =>
    rw [Dataflow.stage?_of_mem_resolveStream hr hm] at hstage
    cases hstage
  | addSinks stream sinks =>
    rw [Dataflow.stage?_of_mem_resolveSinks hr hm] at hstage
    cases hstage
  | addStreamBetween stream source sink =>
    rw [Dataflow.stage?_of_mem_resolveStream (resolve_addStreamBetween_eq_ok hr) hm] at hstage
    cases hstage
  | addSink stream sink =>
    rw [Dataflow.stage?_of_mem_resolveSinks (resolve_addSink_eq_ok hr) hm] at hstage
    cases hstage
  | removeStream stream =>
    rcases resolve_removeStream_eq_ok hr with rfl | ⟨_, rfl⟩
    · cases hm
    · cases List.mem_singleton.1 hm
      cases hstage

theorem stage?_afterAll_of_ne (h : ∀ m ∈ moves, m.stage? ≠ some name) :
    (s.afterAll moves).dataflow.stage? name = s.dataflow.stage? name := by
  induction moves generalizing s with
  | nil => rfl
  | cons m rest ih =>
    have hrest := ih (s := s.after m) fun m' hm' => h m' (List.mem_cons_of_mem _ hm')
    refine hrest.trans ?_
    rw [dataflow_after]
    exact Dataflow.stage?_after_of_ne (h m List.mem_cons_self)

/-- **An edit leaves the entry of an operator alone that may not be configured after it.** -/
theorem stage?_step_of_not_configurable (h : s.Sound)
    (hno : Editing.isConfigurable (s.step e).after name = false) :
    (s.step e).after.dataflow.stage? name = s.dataflow.stage? name := by
  cases hr : s.resolve e with
  | error c => rw [step_of_refused h.anchored hr]
  | ok moves =>
    rw [step_of_resolved h.anchored hr] at hno ⊢
    rw [← Bool.not_eq_true, isConfigurable_afterAll h (admitsAll_of_resolve hr), not_or,
      Bool.not_eq_true] at hno
    exact stage?_afterAll_of_ne fun m hm => stage?_ne_of_mem_resolve h hno.2 hr hno.1 hm

/-- **So does a run of edits.**  The induction is on the length of the run: an operator that may not be
configured at the end of it may not be configured before. -/
theorem stage?_runAll_of_not_configurable (h : s.Sound) {edits : List Edit}
    (hno : Editing.isConfigurable (s.runAll edits).2 name = false) :
    (s.runAll edits).2.dataflow.stage? name = s.dataflow.stage? name := by
  induction edits using List.reverseRecOn with
  | nil => rfl
  | append_singleton edits e ih =>
    rw [runAll_concat] at hno ⊢
    have hsound : (s.runAll edits).2.Sound := runAll_keeps (fun _ e hs => hs.step e) h edits
    have hbefore : Editing.isConfigurable (s.runAll edits).2 name = false := by
      by_contra hyes
      rw [isConfigurable_step hsound (Bool.not_eq_false _ ▸ hyes)] at hno
      cases hno
    exact (stage?_step_of_not_configurable hsound hno).trans (ih hbefore)

/-! ## Operators that stand -/

/-- What a session found and did not take away is where it was. -/
theorem BegunOn.mem_instancesOf (h : s.BegunOn l₀) (hn : l₀.Numbered) (hl : s.target = .live l)
    (hid : id ∈ l₀.instancesOf name) (hkept : id ∉ s.changes.removed) :
    id ∈ l.instancesOf name ∧ id ∉ s.changes.added := by
  obtain ⟨l', hl', he⟩ := h
  rw [hl] at hl'
  cases hl'
  have htracks := he.accounts.tracks id
  have hbefore : l₀.Present id := hn.present hid
  have hnow : l.Present id := by
    by_contra hgone
    exact hkept (htracks.removed.2 ⟨hbefore, hgone⟩)
  refine ⟨?_, fun hadded => (htracks.added.1 hadded).2 hbefore⟩
  rw [he.sound.laid.numbered.indexed, htracks.kept hbefore hnow]
  exact (hn.indexed name id).1 hid

/-! ## Setting properties -/

section Properties

variable {stage : Stage} {property value : String} {operator : Operator}

theorem step_setProperty_of_not_configurable (h : s.Sound) (hname : s.dataflow.stage? name = some stage)
    (hno : Editing.isConfigurable s name = false) :
    s.step (.setProperty name property value) = ⟨.error (.notNew name property value), s⟩ := by
  refine step_of_refused h.anchored ?_
  simp only [resolve, hname, hno]
  rfl

theorem step_setProperty_of_configurable (h : s.Sound) (hname : s.dataflow.stage? name = some stage)
    (hyes : Editing.isConfigurable s name = true)
    (hset : stage.operator.setProperties (.ofList [(property, value)]) = .ok operator) :
    s.step (.setProperty name property value) = ⟨.ok none, s.after (.setOperator name operator)⟩ := by
  have hresolve : s.resolve (.setProperty name property value) = .ok [.setOperator name operator] := by
    simp only [resolve, hname, hyes, hset]
    rfl
  exact step_of_resolved h.anchored hresolve

theorem stage?_after_setOperator (hname : s.dataflow.stage? name = some stage) :
    (s.after (.setOperator name operator)).dataflow.stage? name = some { stage with operator := operator } := by
  rw [dataflow_after]
  refine Dataflow.stage?_adjust.trans ?_
  rw [if_pos rfl, hname]
  rfl

end Properties

/-- **A live session never configures an operator that it found.**  As long as an instance of it is not taken
away, its entry is the same after every run of edits, failing ones included: its label, its operator with
ports and configuration, and its partitions.  Every attempt to set a property of it is refused and changes
nothing.  An operator whose instances are all of the session itself is configured as it accepts it. -/
theorem Live.standing_unconfigured (h : (Session.onLayout l).Live) (edits : List Edit) :
    let s := ((Session.onLayout l).runAll edits).2
    ∃ p, s.target = .live p ∧
      (∀ name id, id ∈ l.instancesOf name → id ∉ s.changes.removed →
        ∃ stage, l.dataflow.stage? name = some stage ∧ p.dataflow.stage? name = some stage ∧
          ∀ property value, s.step (.setProperty name property value) =
            ⟨.error (.notNew name property value), s⟩) ∧
      ∀ name stage, p.dataflow.stage? name = some stage →
        (∀ id ∈ p.instancesOf name, id ∈ s.changes.added) →
          ∀ property value operator,
            stage.operator.setProperties (.ofList [(property, value)]) = .ok operator →
              (s.step (.setProperty name property value)).result = .ok none ∧
              (s.step (.setProperty name property value)).after.dataflow.stage? name =
                some { stage with operator := operator } := by
  have hsound := h.layout_sound
  have hstart : (Session.onLayout l).BegunOn l := ⟨l, rfl, .start hsound⟩
  have hbegun := hstart.runAll edits
  have hsame : ∀ name, Editing.isConfigurable ((Session.onLayout l).runAll edits).2 name = false →
      ((Session.onLayout l).runAll edits).2.dataflow.stage? name = l.dataflow.stage? name :=
    fun _ hno => stage?_runAll_of_not_configurable h.sound hno
  generalize ((Session.onLayout l).runAll edits).2 = s at hbegun hsame ⊢
  obtain ⟨target, changes⟩ := s
  obtain ⟨p, rfl, he⟩ := id hbegun
  refine ⟨p, rfl, fun name id hid hkept => ?_, fun name stage hname hown property value operator hset => ?_⟩
  · obtain ⟨hnow, hold⟩ := hbegun.mem_instancesOf hsound.laid.numbered rfl hid hkept
    have hno : Editing.isConfigurable ⟨.live p, changes⟩ name = false := by
      rw [← Bool.not_eq_true, isConfigurable_live]
      exact fun hall => hold (hall id hnow)
    obtain ⟨stage, hstage⟩ := he.sound.covers.exists_stage hnow
    exact ⟨stage, (hsame name hno).symm.trans hstage, hstage, fun property value =>
      step_setProperty_of_not_configurable hbegun.sound hstage hno⟩
  · rw [step_setProperty_of_configurable hbegun.sound hname (isConfigurable_live.2 hown) hset]
    exact ⟨rfl, stage?_after_setOperator hname⟩

/-- Properties are set on the first operator, on a new one, and on the third one after it was taken away and
added again. -/
def standingEdits : List Edit :=
  [.setProperty "a" "x" "1", .addOperator "e" .relay, .setProperty "e" "x" "1", .removeOperator "c",
    .addOperator "c" .relay, .setProperty "c" "x" "1", .setProperty "a" "x" "1"]

/-- The first operator keeps its entry and the other two are configured. -/
theorem standing_unconfigured_forked :
    let run := (Session.onLayout forked).runAll standingEdits
    (Session.onLayout forked).Live ∧ ⟨1⟩ ∈ forked.instancesOf "a" ∧ ⟨1⟩ ∉ run.2.changes.removed ∧
      ⟨3⟩ ∈ run.2.changes.removed ∧
      run.1.map (fun step => step.result.toOption.isSome) = [false, true, true, true, true, true, false] ∧
      ∃ p stage, run.2.target = .live p ∧ forked.dataflow.stage? "a" = some stage ∧
        p.dataflow.stage? "a" = some stage ∧
        run.2.step (.setProperty "a" "x" "2") = ⟨.error (.notNew "a" "x" "2"), run.2⟩ ∧
        (run.2.step (.setProperty "e" "y" "2")).result = .ok none := by
  have hlive : (Session.onLayout forked).Live := .materialize reachable_forking materialize_forking
  have hfound : (⟨1⟩ : InstanceId) ∈ forked.instancesOf "a" := by decide +kernel
  have hkept : (⟨1⟩ : InstanceId) ∉ ((Session.onLayout forked).runAll standingEdits).2.changes.removed := by
    decide +kernel
  obtain ⟨p, hp, hstanding, hown⟩ := Live.standing_unconfigured hlive standingEdits
  obtain ⟨stage, hbefore, hnow, hrefused⟩ := hstanding "a" ⟨1⟩ hfound hkept
  have hedited : forked.edited standingEdits = p := by
    unfold Layout.edited
    rw [hp]
  have hset : (((forked.edited standingEdits).dataflow.stage? "e").bind fun entry =>
      (entry.operator.setProperties (.ofList [("y", "2")])).toOption).isSome = true := by decide +kernel
  have hall : ∀ id ∈ (forked.edited standingEdits).instancesOf "e",
      id ∈ ((Session.onLayout forked).runAll standingEdits).2.changes.added := by decide +kernel
  rw [hedited] at hset hall
  obtain ⟨operator, hoperator⟩ := Option.isSome_iff_exists.1 hset
  obtain ⟨entry, hentry, hoperator⟩ := Option.bind_eq_some_iff.1 hoperator
  have hok : entry.operator.setProperties (.ofList [("y", "2")]) = .ok operator := by
    cases hresult : entry.operator.setProperties (.ofList [("y", "2")]) with
    | error c => rw [hresult] at hoperator; cases hoperator
    | ok o => rw [hresult] at hoperator; cases hoperator; rfl
  exact ⟨hlive, hfound, hkept, by decide +kernel, by decide +kernel, p, stage, hp, hbefore, hnow,
    hrefused "x" "2", (hown "e" entry hentry hall "y" "2" operator hok).1⟩

end LiveDataflow.Session
