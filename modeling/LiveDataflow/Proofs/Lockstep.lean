import LiveDataflow.Proofs.Account

/-!
# A layout and its plan in lockstep

The same edits on a layout and on a copy of its plan.  A layout has two reasons of its own to refuse
an edit: an operator that is laid out already, which cannot be as long as the layout covers its plan,
and a property of an operator that the session did not make.

## Results

* `Session.resolve_eq_of_plan`: about all edits a plan and a layout of it agree, if properties are set
  on operators that may be configured.
* `Session.isConfigurable_afterAll`: an operator that may not be configured has to be taken away first.
* `Session.Mirrors.step`: one edit on a layout and on its plan.
* `Batch.passes_of_mirrors`: what passes on the layout passes on the plan.
-/

set_option autoImplicit false

namespace LiveDataflow

/-- What a step shows of the plan: what came of the edit, and the plan after it. -/
def Step.outcome (step : Step) : Except Cause (Option Stream) × Dataflow :=
  (step.result, step.after.dataflow)

namespace Session

variable {s p : Session} {e : Edit} {name : String}

/-! ## What is refused -/

theorem Sound.configurable_of_absent (h : s.Sound) (hstage : s.dataflow.stage? name = none) :
    Editing.isConfigurable s name = true := by
  obtain ⟨target, changes⟩ := s
  obtain ⟨l, rfl, hs⟩ := h
  show (l.instancesOf name).all (· ∈ changes.added) = true
  rw [Layout.instancesOf_of_absent (hs.covers.absent hstage)]
  rfl

/-- **About all edits a plan and a layout of it agree**, if properties are set on operators that may be
configured. -/
theorem resolve_eq_of_plan (h : s.Sound) (hp : p.target = .plan s.dataflow)
    (hown : ∀ name property value, e = .setProperty name property value →
      Editing.isConfigurable s name = true) : s.resolve e = p.resolve e := by
  have hdataflow : p.dataflow = s.dataflow := by unfold Session.dataflow; rw [hp]; rfl
  cases e with
  | addOperator name operator =>
    simp only [resolve, hdataflow]
    cases hstage : s.dataflow.stage? name with
    | some stage => rfl
    | none =>
      have hplan : p.hasLaidOut name = false := by unfold hasLaidOut; rw [hp]
      have hlive : s.hasLaidOut name = false := by
        obtain ⟨l, hl, hs⟩ := h
        unfold Session.dataflow at hstage
        unfold hasLaidOut
        rw [hl] at hstage ⊢
        exact hs.covers.absent hstage
      rw [hplan, hlive]
  | setProperty operator property value =>
    have hlive : Editing.isConfigurable s operator = true := hown operator property value rfl
    have hplan : Editing.isConfigurable p operator = true := by
      unfold Editing.isConfigurable; rw [hp]
    simp only [resolve, hdataflow, hlive, hplan]
  | removeOperator name => simp only [resolve, hdataflow]
  | addStream stream source sinks => simp only [resolve, hdataflow]
  | addSinks stream sinks => simp only [resolve, hdataflow]
  | addStreamBetween stream source sink => simp only [resolve, hdataflow]
  | addSink stream sink => simp only [resolve, hdataflow]
  | removeStream stream => simp only [resolve, hdataflow]

/-- A layout sets no property of an operator that may not be configured. -/
theorem resolve_of_not_configurable (h : s.Sound) (property value : String)
    (hno : Editing.isConfigurable s name = false) :
    ∃ c, s.resolve (.setProperty name property value) = .error c := by
  refine ⟨.notNew name property value, ?_⟩
  cases hstage : s.dataflow.stage? name with
  | none =>
    rw [h.configurable_of_absent hstage] at hno
    cases hno
  | some stage =>
    simp only [resolve, hstage, hno]
    rfl

/-! ## Which operators may be configured -/

theorem isConfigurable_live {l : Layout} {changes : ChangeSet} :
    Editing.isConfigurable ⟨.live l, changes⟩ name = true ↔
      ∀ id ∈ l.instancesOf name, id ∈ changes.added := by
  show (l.instancesOf name).all (· ∈ changes.added) = true ↔ _
  simp

/-- A move makes an operator configurable only by taking it away. -/
theorem isConfigurable_after (h : s.Sound) {m : Move} (hm : s.dataflow.Admits m) :
    Editing.isConfigurable (s.after m) name = true ↔
      m = .removeStage name ∨ Editing.isConfigurable s name = true := by
  obtain ⟨target, c⟩ := s
  obtain ⟨l, rfl, hs⟩ := h
  have hother : ∀ id, id ∉ (l.after m).1 → (id ∈ (c.after (l.after m).1 m).added ↔ id ∈ c.added) :=
    fun id hid => (ChangeSet.mem_after_of_notMem (Layout.changesOnly_after hs hm).nodup hid).1
  have hnum := hs.laid.numbered
  show Editing.isConfigurable ⟨.live (l.after m).2, c.after (l.after m).1 m⟩ name = true ↔ _
  rw [isConfigurable_live, isConfigurable_live]
  cases m with
  | addStage new operator =>
    have hstage : l.dataflow.stage? new = none := hm
    rw [hs.after_addStage hstage] at hother ⊢
    rw [or_iff_right (fun h => nomatch h), Layout.instancesOf_enter]
    by_cases hname : new = name
    · subst hname
      rw [if_pos rfl, Layout.instancesOf_of_absent (hs.covers.absent hstage)]
      exact iff_of_true (fun id hid => ChangeSet.mem_added_recordAdded.2 (.inr hid))
        fun id hid => nomatch hid
    · rw [if_neg hname]
      refine forall₂_congr fun id hid => hother id fun hfresh => ?_
      obtain ⟨i, hi, rfl⟩ := List.mem_map.1 hfresh
      have hpresent := hnum.present hid
      unfold Layout.Present at hpresent
      rw [hnum.fresh_absent hi] at hpresent
      cases hpresent
  | removeStage gone =>
    have hof : (l.after (.removeStage gone)).2.instancesOf name =
        if gone = name then [] else l.instancesOf name :=
      (Layout.without_after_removeStage hnum gone).instancesOf rfl name
    rw [hof]
    by_cases hname : gone = name
    · subst hname
      simp
    · rw [if_neg hname, or_iff_right fun h => hname (Move.removeStage.inj h)]
      refine forall₂_congr fun id hid => hother id fun hgone => ?_
      exact hname (hnum.operator_eq ((Layout.mem_after_removeStage hnum).1 hgone) hid)
  | setOperator _ operator => exact (or_iff_right (fun h => nomatch h)).symm
  | addStream stream source => exact (or_iff_right (fun h => nomatch h)).symm
  | attach stream sink =>
    obtain ⟨t, ht, _⟩ := hm
    rw [Layout.after_attach ht, or_iff_right (fun h => nomatch h)]
    show (∀ id ∈ l.instancesOf name, id ∈ (c.recordAffected _).added) ↔ _
    rw [(ChangeSet.recordAffected_eq c _).1]
  | removeStream stream =>
    obtain ⟨t, ht⟩ := Option.isSome_iff_exists.1 hm
    rw [Layout.after_removeStream ht, or_iff_right (fun h => nomatch h)]
    show (∀ id ∈ l.instancesOf name, id ∈ (c.recordAffected _).added) ↔ _
    rw [(ChangeSet.recordAffected_eq c _).1]

theorem isConfigurable_afterAll {moves : List Move} (h : s.Sound) (hm : s.dataflow.AdmitsAll moves) :
    Editing.isConfigurable (s.afterAll moves) name = true ↔
      .removeStage name ∈ moves ∨ Editing.isConfigurable s name = true := by
  induction moves generalizing s with
  | nil => simp [afterAll]
  | cons m rest ih =>
    obtain ⟨hone, hrest⟩ := hm
    rw [← dataflow_after] at hrest
    show Editing.isConfigurable ((s.after m).afterAll rest) name = true ↔ _
    rw [ih (h.after hone) hrest, isConfigurable_after h hone, List.mem_cons, or_left_comm, or_assoc,
      eq_comm]

/-- An operator that may be configured may be so after every edit. -/
theorem isConfigurable_step (h : s.Sound) (hc : Editing.isConfigurable s name = true) :
    Editing.isConfigurable (s.step e).after name = true := by
  cases hr : s.resolve e with
  | error c =>
    rw [step_of_refused h.anchored hr]
    exact hc
  | ok moves =>
    rw [step_of_resolved h.anchored hr]
    exact (isConfigurable_afterAll h (admitsAll_of_resolve hr)).2 (.inr hc)

/-! ## One edit -/

/-- The second session works on the plan of the first one's layout. -/
structure Mirrors (s p : Session) : Prop where
  sound : s.Sound
  plan : p.target = .plan s.dataflow

theorem Mirrors.dataflow (h : s.Mirrors p) : p.dataflow = s.dataflow := by
  unfold Session.dataflow
  rw [h.plan]
  rfl

theorem target_afterAll_plan {moves : List Move} {d : Dataflow} (hp : p.target = .plan d) :
    (p.afterAll moves).target = .plan (p.afterAll moves).dataflow := by
  induction moves generalizing p d with
  | nil => unfold Session.dataflow Session.afterAll; rw [List.foldl_nil, hp]; rfl
  | cons m rest ih =>
    refine ih (p := p.after m) (d := d.after m) ?_
    unfold Session.after
    rw [hp]

/-- The same moves on a layout and on its plan. -/
theorem Mirrors.afterAll {moves : List Move} (h : s.Mirrors p) (hm : s.dataflow.AdmitsAll moves) :
    (s.afterAll moves).Mirrors (p.afterAll moves) := by
  refine ⟨h.sound.afterAll hm, ?_⟩
  rw [target_afterAll_plan h.plan, dataflow_afterAll, dataflow_afterAll, h.dataflow]

/-- **One edit on a layout and on its plan**: the same outcome, and the plan is still that of the
layout. -/
theorem Mirrors.step (h : s.Mirrors p)
    (hown : ∀ name property value, e = .setProperty name property value →
      Editing.isConfigurable s name = true) :
    (p.step e).outcome = (s.step e).outcome ∧ (s.step e).after.Mirrors (p.step e).after := by
  have hanchored : p.dataflow.Anchored := by
    rw [h.dataflow]
    exact h.sound.anchored
  have hsame : p.resolve e = s.resolve e := (resolve_eq_of_plan h.sound h.plan hown).symm
  cases hr : s.resolve e with
  | error c =>
    rw [step_of_refused h.sound.anchored hr, step_of_refused hanchored (hsame.trans hr)]
    exact ⟨congrArg (Prod.mk _) h.dataflow, h⟩
  | ok moves =>
    have hafter := h.afterAll (admitsAll_of_resolve hr)
    rw [step_of_resolved h.sound.anchored hr, step_of_resolved hanchored (hsame.trans hr)]
    refine ⟨?_, hafter⟩
    unfold Step.outcome
    rw [hafter.dataflow]

end Session

theorem Layout.Sound.mirrors {l : Layout} (h : l.Sound) :
    (Session.onLayout l).Mirrors (.onPlan l.dataflow) :=
  ⟨⟨l, rfl, h⟩, rfl⟩

/-! ## Batches -/

namespace Batch

variable {s p t : Session} {e : Edit} {edits : List Edit}

theorem runEdits_cons_error {c : Cause} (h : s.step e = ⟨.error c, t⟩) (rest : List Edit) :
    (runEdits true (e :: rest) s).result = .error c ∧ (runEdits true (e :: rest) s).last = t := by
  unfold runEdits
  dsimp only
  rw [h]
  exact ⟨rfl, rfl⟩

theorem runEdits_cons_ok {answer : Option Stream} (h : s.step e = ⟨.ok answer, t⟩)
    (rest : List Edit) :
    (runEdits true (e :: rest) s).result = (runEdits true rest t).result ∧
      (runEdits true (e :: rest) s).last = (runEdits true rest t).last := by
  simp only [runEdits, h, and_self]

/-- **What passes on the layout passes on the plan**, whatever properties it sets, and leads to the same
plan. -/
theorem passes_of_mirrors (h : s.Mirrors p) (hok : (runEdits true edits s).result = .ok ()) :
    (runEdits true edits p).result = .ok () ∧
      (runEdits true edits p).last.dataflow = (runEdits true edits s).last.dataflow := by
  induction edits generalizing s p with
  | nil => exact ⟨rfl, h.dataflow⟩
  | cons e rest ih =>
    cases hr : s.resolve e with
    | error c =>
      have hlive := Session.step_of_refused h.sound.anchored hr
      rw [(runEdits_cons_error hlive rest).1] at hok
      cases hok
    | ok moves =>
      have hown : ∀ name property value, e = .setProperty name property value →
          Editing.isConfigurable s name = true := by
        rintro name property value rfl
        by_contra hno
        obtain ⟨c, hc⟩ := Session.resolve_of_not_configurable h.sound property value
          (Bool.eq_false_iff.2 hno)
        rw [hc] at hr
        cases hr
      have hlive := Session.step_of_resolved h.sound.anchored hr
      obtain ⟨houtcome, hafter⟩ := h.step hown
      rw [hlive] at houtcome hafter
      have hplan : p.step e = ⟨.ok (e.answer (s.afterAll moves).dataflow), (p.step e).after⟩ := by
        have hresult := congrArg Prod.fst houtcome
        dsimp only [Step.outcome] at hresult
        rw [← hresult]
      rw [(runEdits_cons_ok hlive rest).1] at hok
      rw [(runEdits_cons_ok hlive rest).2, (runEdits_cons_ok hplan rest).1,
        (runEdits_cons_ok hplan rest).2]
      exact ih hafter hok

end Batch

end LiveDataflow
