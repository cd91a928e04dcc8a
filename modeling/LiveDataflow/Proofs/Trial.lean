import Mathlib.Data.List.Induction
import LiveDataflow.Proofs.Replay

/-!
# What a trial says about the layout

Edits are tried on a copy of the plan.  As long as a run sets properties of its own operators only, the
copy shows exactly what the layout will do, failing edits and their causes included.  A batch that
stops at its first failure may set any property: if it gets through on the layout, the layout then has
the plan that the trial led to.

## Results

* `Session.ConfiguresOwn`: properties are set on operators that the run has made, or that are not there.
* `Session.Mirrors.runAll`: a run of edits on a layout and on its plan.
* `Layout.trial_predicts`: the trial says what the edits come to on the layout.
-/

set_option autoImplicit false

namespace LiveDataflow

namespace Session

variable {s p : Session} {e : Edit} {edits : List Edit} {name : String}

/-- One of the edits of a run made an operator of this name. -/
def Makes (s : Session) (edits : List Edit) (name : String) : Prop :=
  ∃ before operator after, edits = before ++ .addOperator name operator :: after ∧
    ((s.runAll before).2.step (.addOperator name operator)).result = .ok none

/-- Every property is set on an operator that an earlier edit of the run made, or on one that is not
there when its turn comes. -/
def ConfiguresOwn (s : Session) (edits : List Edit) : Prop :=
  ∀ before name property value after, edits = before ++ .setProperty name property value :: after →
    s.Makes before name ∨ (s.runAll before).2.dataflow.stage? name = none

/-! ## Runs, one edit longer -/

theorem runAll_concat (s : Session) (edits : List Edit) (e : Edit) :
    s.runAll (edits ++ [e]) =
      ((s.runAll edits).1 ++ [(s.runAll edits).2.step e], ((s.runAll edits).2.step e).after) := by
  induction edits generalizing s with
  | nil => rfl
  | cons first rest ih =>
    have hrest := ih (s.step first).after
    simp only [List.cons_append, runAll, hrest]

theorem Makes.of_concat (h : s.Makes (edits ++ [e]) name) :
    s.Makes edits name ∨
      ∃ operator, e = .addOperator name operator ∧ ((s.runAll edits).2.step e).result = .ok none := by
  obtain ⟨before, operator, after, hedits, hok⟩ := h
  rcases List.eq_nil_or_concat after with rfl | ⟨more, last, rfl⟩
  · obtain ⟨rfl, he⟩ := List.append_inj' hedits rfl
    cases he
    exact .inr ⟨operator, rfl, hok⟩
  · rw [List.concat_eq_append, ← List.cons_append, ← List.append_assoc] at hedits
    exact .inl ⟨before, operator, more, (List.append_inj' hedits rfl).1, hok⟩

theorem ConfiguresOwn.of_concat (h : s.ConfiguresOwn (edits ++ [e])) : s.ConfiguresOwn edits := by
  intro before name property value after hedits
  refine h before name property value (after ++ [e]) ?_
  rw [hedits, List.append_assoc]
  rfl

/-- A new operator may be configured. -/
theorem isConfigurable_of_made (h : s.Sound) {operator : Operator}
    (hok : (s.step (.addOperator name operator)).result = .ok none) :
    Editing.isConfigurable (s.step (.addOperator name operator)).after name = true := by
  have hstage : s.dataflow.stage? name = none := by
    cases hr : s.resolve (.addOperator name operator) with
    | error c =>
      rw [step_of_refused h.anchored hr] at hok
      cases hok
    | ok moves => exact (resolve_addOperator_eq_ok hr).1
  exact isConfigurable_step h (h.configurable_of_absent hstage)

/-- **A run of edits on a layout and on its plan.**  The induction is on the length of the run: what an
edit may configure depends on the edits before it. -/
theorem Mirrors.runAll (h : s.Mirrors p) (hown : s.ConfiguresOwn edits) :
    (s.runAll edits).1.map Step.outcome = (p.runAll edits).1.map Step.outcome ∧
      (s.runAll edits).2.Mirrors (p.runAll edits).2 ∧
      ∀ name, s.Makes edits name → Editing.isConfigurable (s.runAll edits).2 name = true := by
  induction edits using List.reverseRecOn with
  | nil =>
    refine ⟨rfl, h, ?_⟩
    rintro name ⟨before, operator, after, hedits, _⟩
    cases before <;> cases hedits
  | append_singleton edits e ih =>
    obtain ⟨hsteps, hlast, hmade⟩ := ih hown.of_concat
    have hconfigurable : ∀ name property value, e = .setProperty name property value →
        Editing.isConfigurable (s.runAll edits).2 name = true := by
      rintro name property value rfl
      rcases hown edits name property value [] rfl with hmakes | habsent
      · exact hmade name hmakes
      · exact hlast.sound.configurable_of_absent habsent
    obtain ⟨houtcome, hafter⟩ := hlast.step hconfigurable
    rw [runAll_concat, runAll_concat]
    refine ⟨?_, hafter, ?_⟩
    · simp only [List.map_append, List.map_cons, List.map_nil, hsteps, houtcome]
    · intro name hmakes
      rcases hmakes.of_concat with hbefore | ⟨operator, rfl, hok⟩
      · exact isConfigurable_step hlast.sound (hmade name hbefore)
      · exact isConfigurable_of_made hlast.sound hok

end Session

namespace Layout

variable {l : Layout}

/-- A batch that gets through has passed the trial and the replay, and its rollout is accepted. -/
theorem passes_of_modify {b : Batch} {r : Rollout} {σ : Type} {deployer : Deployer σ} {world : σ}
    (hok : (l.modify b deployer world).result = .ok r) :
    (∃ d, (l.dataflow.dryRun b).result = .ok d) ∧ (b.run (.onLayout l)).result = .ok () ∧
      (l.modify b deployer world).target =
        ((b.run (.onLayout l)).last.apply deployer world).target := by
  unfold modify at hok ⊢
  dsimp only at hok ⊢
  cases hd : (l.dataflow.dryRun b).result with
  | error c =>
    rw [hd] at hok
    cases hok
  | ok d =>
    rw [hd] at hok
    cases hrun : (b.run (.onLayout l)).result with
    | error c =>
      rw [hrun] at hok
      cases hok
    | ok u => exact ⟨⟨d, rfl⟩, rfl, rfl⟩

/-- **The trial says what the edits come to on the layout.**  A run of edits that sets properties of its
own operators only, or tries to set them where there is no operator, has edit by edit the same outcome
on the layout and on a copy of its plan.  And whenever a batch that stops at its first failure gets
through on the layout, the layout has the valid plan that the trial of the batch led to. -/
theorem trial_predicts (h : (Session.onLayout l).Live) :
    (∀ edits, (Session.onLayout l).ConfiguresOwn edits →
      ((Session.onLayout l).runAll edits).1.map Step.outcome =
        ((Session.onPlan l.dataflow).runAll edits).1.map Step.outcome) ∧
    ∀ {σ : Type} (edits : List Edit) (deployer : Deployer σ) (world : σ) (r : Rollout),
      (l.modify ⟨edits, true⟩ deployer world).result = .ok r →
        ∃ l', (l.modify ⟨edits, true⟩ deployer world).target = .live l' ∧
          (l.dataflow.dryRun ⟨edits, true⟩).result = .ok l'.dataflow ∧
            l'.dataflow.validate = .ok () := by
  have hsound : l.Sound := h.layout_sound
  refine ⟨fun edits hown => (hsound.mirrors.runAll hown).1, ?_⟩
  intro σ edits deployer world r hok
  obtain ⟨⟨d, hd⟩, hrun, htarget⟩ := passes_of_modify hok
  obtain ⟨_, hvalid, hplan⟩ := dryRun_eq_ok_iff.1 hd
  have hreplayed : (Batch.run ⟨edits, true⟩ (.onLayout l)).last.Sound :=
    Batch.run_keeps (P := Session.Sound) (fun _ e hs => hs.step e) _ ⟨l, rfl, hsound⟩
  obtain ⟨l', hl', _⟩ := hreplayed.apply deployer world
  dsimp only at hl'
  have hlast : l'.dataflow = d := by
    have hsame := Session.dataflow_apply (Batch.run ⟨edits, true⟩ (.onLayout l)).last deployer world
    have hboth := (Batch.passes_of_mirrors hsound.mirrors hrun).2
    rw [hl'] at hsame
    exact hsame.trans (hboth.symm.trans hplan.symm)
  exact ⟨l', htarget.trans hl', hlast.symm ▸ hd, hlast.symm ▸ hvalid⟩

/-- A run that makes an operator, configures it, takes it away and makes it again, with three edits that
fail: a property of an operator that is gone, an operator that is there, and a stream that would close a
cycle. -/
def sampleEdits : List Edit :=
  [.addOperator "b" .relay, .setProperty "b" "x" "1", .removeOperator "b", .setProperty "b" "x" "2",
    .addOperator "a" .relay, .addOperator "b" .relay, .addStream "ab" ⟨"a", "out"⟩ [⟨"b", "in"⟩],
    .addStream "ba" ⟨"b", "out"⟩ [⟨"a", "in"⟩], .setProperty "b" "x.y" "3"]

theorem configuresOwn_sampleEdits : (Session.onLayout .single).ConfiguresOwn sampleEdits := by
  intro before name property value after hedits
  unfold sampleEdits at hedits
  rcases before with _ | ⟨_, _ | ⟨_, _ | ⟨_, _ | ⟨_, _ | ⟨_, _ | ⟨_, _ | ⟨_, _ | ⟨_, _ | ⟨_, before⟩⟩⟩⟩⟩⟩⟩⟩⟩ <;>
    simp only [List.nil_append, List.cons_append, List.cons.injEq, reduceCtorEq, false_and, and_false,
      Edit.setProperty.injEq, List.nil_eq_append_iff] at hedits
  · obtain ⟨rfl, ⟨rfl, _, _⟩, _⟩ := hedits
    exact .inl ⟨[], .relay, [], rfl, rfl⟩
  · obtain ⟨rfl, rfl, rfl, ⟨rfl, _, _⟩, _⟩ := hedits
    exact .inr rfl
  · obtain ⟨rfl, rfl, rfl, rfl, rfl, rfl, rfl, rfl, ⟨rfl, _, _⟩, _⟩ := hedits
    exact .inl ⟨_ :: _ :: _ :: _ :: [_], .relay, [_, _], rfl, rfl⟩

/-- The trial of that run, and a batch that gets through. -/
theorem trial_predicts_single :
    (Session.onLayout .single).Live ∧ (Session.onLayout .single).ConfiguresOwn sampleEdits ∧
    ((Session.onLayout .single).runAll sampleEdits).1.map Step.outcome =
      ((Session.onPlan .single).runAll sampleEdits).1.map Step.outcome ∧
    ∃ (r : Rollout) (l' : Layout), (Layout.single.modify ⟨[.addOperator "b" .relay, .setProperty "b" "x" "1"], true⟩
        Deployer.accepting ()).result = .ok r ∧
      (Dataflow.single.dryRun ⟨[.addOperator "b" .relay, .setProperty "b" "x" "1"], true⟩).result =
        .ok l'.dataflow ∧ l'.dataflow.validate = .ok () := by
  obtain ⟨hruns, hbatches⟩ := trial_predicts Session.live_single
  obtain ⟨l', _, hplan, hvalid⟩ := hbatches
    [.addOperator "b" .relay, .setProperty "b" "x" "1"] Deployer.accepting () _ rfl
  exact ⟨Session.live_single, configuresOwn_sampleEdits, hruns _ configuresOwn_sampleEdits, _, l', rfl,
    hplan, hvalid⟩

end Layout

end LiveDataflow
