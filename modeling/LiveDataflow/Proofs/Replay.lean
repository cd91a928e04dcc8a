import LiveDataflow.Proofs.Lockstep

/-!
# Replaying a batch on a layout

A batch is tried on a copy of the plan before it is carried out on the layout.  The layout agrees with
the copy about every edit but one: it sets no property of an operator that was there before the batch.
The batch is then given up in the middle, and what came before stays.

## Results

* `Edit.admitted`: the edits of a batch before the first one that only the layout refuses.
* `Batch.replay`: a batch that passes on the plan is carried out on the layout up to that edit.
* `Layout.modify_untouched_iff`: when a batch that fails leaves the layout alone.
-/

set_option autoImplicit false

namespace LiveDataflow

/-! ## What only a layout refuses -/

namespace Edit

/-- Whether an edit sets a property of one of the given operators. -/
def configures (old : List String) : Edit → Bool
  | .setProperty operator _ _ => operator ∈ old
  | _ => false

/-- The given operators without the one that an edit takes away. -/
def forget (old : List String) : Edit → List String
  | .removeOperator name => old.filter (· ≠ name)
  | _ => old

/-- The edits before the first one that sets a property of an operator in `old` that has not been taken
away on the way. -/
def admitted (old : List String) : List Edit → List Edit
  | [] => []
  | e :: rest => if e.configures old then [] else e :: admitted (e.forget old) rest

end Edit

/-- The operators that a layout has instances of. -/
def Layout.laidOut (l : Layout) : List String :=
  l.byOperator.keys.filter fun name => !(l.instancesOf name).isEmpty

namespace Session

variable {s : Session} {e : Edit} {name : String} {old : List String}

theorem isConfigurable_of_not_configures (hold : ∀ n, n ∈ old ↔ Editing.isConfigurable s n = false)
    (he : e.configures old = false) (name property value : String)
    (hset : e = .setProperty name property value) : Editing.isConfigurable s name = true := by
  subst hset
  rw [← Bool.not_eq_false, ← hold]
  simpa [Edit.configures] using he

/-- Only a layout refuses an edit of this kind. -/
theorem resolve_of_configures (h : s.Sound)
    (hold : ∀ n, n ∈ old ↔ Editing.isConfigurable s n = false) (he : e.configures old = true) :
    ∃ c, s.resolve e = .error c := by
  cases e with
  | setProperty operator property value =>
    have hmem : operator ∈ old := by simpa [Edit.configures] using he
    exact resolve_of_not_configurable h property value ((hold operator).1 hmem)
  | _ => cases he

/-! ## What edits take away -/

/-- The moves of an edit take an operator away only if the edit does. -/
theorem removeStage_mem_resolve {moves : List Move} (hr : s.resolve e = .ok moves) :
    .removeStage name ∈ moves ↔ e = .removeOperator name ∧ (s.dataflow.stage? name).isSome = true := by
  cases e with
  | removeOperator gone =>
    rcases resolve_removeOperator_eq_ok hr with ⟨hnone, rfl⟩ | ⟨hm, rfl⟩
    · refine iff_of_false List.not_mem_nil ?_
      rintro ⟨he, hsome⟩
      cases he
      rw [hnone] at hsome
      cases hsome
    · simp only [List.mem_singleton, Move.removeStage.injEq, Edit.removeOperator.injEq]
      constructor
      · rintro rfl; exact ⟨rfl, hm.1⟩
      · exact fun h => h.1.symm
  | addOperator other operator =>
    obtain ⟨_, rfl⟩ := resolve_addOperator_eq_ok hr
    simp
  | addStream stream source sinks =>
    exact iff_of_false (fun hm => nomatch Dataflow.stage?_of_mem_resolveStream hr hm) (by simp)
  | addSinks stream sinks =>
    exact iff_of_false (fun hm => nomatch Dataflow.stage?_of_mem_resolveSinks hr hm) (by simp)
  | addStreamBetween stream source sink =>
    have hstream := resolve_addStreamBetween_eq_ok hr
    exact iff_of_false (fun hm => nomatch Dataflow.stage?_of_mem_resolveStream hstream hm) (by simp)
  | addSink stream sink =>
    have hsinks := resolve_addSink_eq_ok hr
    exact iff_of_false (fun hm => nomatch Dataflow.stage?_of_mem_resolveSinks hsinks hm) (by simp)
  | removeStream stream => rcases resolve_removeStream_eq_ok hr with rfl | ⟨_, rfl⟩ <;> simp
  | setProperty operator property value =>
    obtain ⟨o, _, rfl⟩ := resolve_setProperty_eq_ok hr
    simp

/-- What an edit leaves of the operators that may not be configured. -/
theorem mem_forget_iff {moves : List Move} (h : s.Sound)
    (hold : ∀ n, n ∈ old ↔ Editing.isConfigurable s n = false) (hr : s.resolve e = .ok moves) (n) :
    n ∈ e.forget old ↔ Editing.isConfigurable (s.afterAll moves) n = false := by
  rw [← Bool.not_eq_true, isConfigurable_afterAll h (admitsAll_of_resolve hr),
    removeStage_mem_resolve hr, not_or, Bool.not_eq_true, ← hold]
  cases e with
  | removeOperator gone =>
    show n ∈ old.filter (· ≠ gone) ↔ _
    rw [List.mem_filter, decide_eq_true_eq, and_comm]
    refine and_congr_left fun hn => not_congr ⟨?_, fun h => (Edit.removeOperator.inj h.1).symm⟩
    rintro rfl
    refine ⟨rfl, Option.isSome_iff_ne_none.2 fun hnone => ?_⟩
    rw [hold, h.configurable_of_absent hnone] at hn
    cases hn
  | _ => exact (and_iff_right fun h => nomatch h.1).symm

end Session

/-! ## The replay -/

namespace Batch

variable {s p : Session} {edits : List Edit} {old : List String}

/-- **A batch that passes on the plan is carried out on the layout up to the first edit that only the
layout refuses.** -/
theorem replay (h : s.Mirrors p) (hold : ∀ n, n ∈ old ↔ Editing.isConfigurable s n = false)
    (hok : (runEdits true edits p).result = .ok ()) :
    ((runEdits true edits s).result = .ok () ↔ Edit.admitted old edits = edits) ∧
      (runEdits true edits s).last = (s.runAll (Edit.admitted old edits)).2 := by
  induction edits generalizing s p old with
  | nil => exact ⟨iff_of_true rfl rfl, rfl⟩
  | cons e rest ih =>
    have hsound := h.sound
    have hanchored : p.dataflow.Anchored := by
      rw [h.dataflow]
      exact hsound.anchored
    unfold Edit.admitted
    split
    · rename_i he
      obtain ⟨c, hc⟩ := Session.resolve_of_configures hsound hold he
      have hlive := Session.step_of_refused hsound.anchored hc
      obtain ⟨hresult, hlast⟩ := runEdits_cons_error hlive rest
      rw [hresult, hlast]
      exact ⟨iff_of_false (fun h => nomatch h) (fun h => nomatch h), rfl⟩
    · rename_i he
      have hown := Session.isConfigurable_of_not_configures hold (Bool.not_eq_true _ ▸ he)
      have hsame := Session.resolve_eq_of_plan hsound h.plan hown
      cases hr : p.resolve e with
      | error c =>
        have hplan := Session.step_of_refused hanchored hr
        rw [(runEdits_cons_error hplan rest).1] at hok
        cases hok
      | ok moves =>
        have hplan := Session.step_of_resolved hanchored hr
        have hlive := Session.step_of_resolved hsound.anchored (hsame.trans hr)
        rw [(runEdits_cons_ok hplan rest).1] at hok
        obtain ⟨hresult, hlast⟩ := runEdits_cons_ok hlive rest
        obtain ⟨hiff, hrun⟩ := ih (h.afterAll (Session.admitsAll_of_resolve (hsame.trans hr)))
          (Session.mem_forget_iff hsound hold (hsame.trans hr)) hok
        rw [hresult, hlast, hiff, hrun]
        refine ⟨⟨congrArg _, fun heq => (List.cons.inj heq).2⟩, ?_⟩
        show _ = ((s.step e).after.runAll (Edit.admitted (e.forget old) rest)).2
        rw [hlive]

end Batch

/-! ## Modifying a layout -/

/-- A deployer that keeps a log of its calls and its answers. -/
def Deployer.logged {σ : Type} (deployer : Deployer σ) :
    Deployer (σ × List (Rollout × Except PlanError Unit)) := fun r (world, calls) =>
  ((deployer r world).1, ((deployer r world).2, calls ++ [(r, (deployer r world).1)]))

namespace Layout

variable {l : Layout} {edits : List Edit}

theorem mem_laidOut_iff {name : String} :
    name ∈ l.laidOut ↔ Editing.isConfigurable (.onLayout l) name = false := by
  have hconfigurable : Editing.isConfigurable (.onLayout l) name = true ↔ l.instancesOf name = [] := by
    refine Session.isConfigurable_live.trans ⟨fun hall => ?_, fun hnil => ?_⟩
    · exact List.eq_nil_iff_forall_not_mem.2 fun id hid => SortedSet.not_mem_empty id (hall id hid)
    · rw [hnil]; exact fun id hid => nomatch hid
  rw [← Bool.not_eq_true, hconfigurable]
  unfold laidOut
  rw [List.mem_filter, Bool.not_eq_true', List.isEmpty_eq_false_iff]
  refine and_iff_right_of_imp fun hne => ?_
  unfold instancesOf at hne
  rw [SortedMap.mem_keys_iff]
  cases hget : l.byOperator.get? name with
  | some ids => rfl
  | none => rw [hget] at hne; exact absurd rfl hne

/-- What the replay of a batch on a layout comes to, if the batch passes on the plan. -/
theorem run_onLayout (h : l.Sound) (hok : (l.dataflow.dryRun ⟨edits, true⟩).pass.result = .ok ()) :
    ((Batch.run ⟨edits, true⟩ (.onLayout l)).result = .ok () ↔ Edit.admitted l.laidOut edits = edits) ∧
      (Batch.run ⟨edits, true⟩ (.onLayout l)).last =
        ((Session.onLayout l).runAll (Edit.admitted l.laidOut edits)).2 :=
  Batch.replay h.mirrors (fun _ => mem_laidOut_iff) hok

theorem modify_of_rejected {b : Batch} {c : Cause} {σ : Type} (deployer : Deployer σ) (world : σ)
    (hr : (l.dataflow.dryRun b).result = .error c) :
    (l.modify b deployer world).target = .live l ∧ (l.modify b deployer world).world = world := by
  simp only [modify, hr, and_self]

theorem dryRun_eq_ok_iff {d d' : Dataflow} {b : Batch} :
    (d.dryRun b).result = .ok d' ↔
      (b.run (.onPlan d)).result = .ok () ∧ d'.validate = .ok () ∧
        d' = (b.run (.onPlan d)).last.dataflow := by
  unfold Dataflow.dryRun
  dsimp only
  cases hrun : (b.run (.onPlan d)).result with
  | error c => simp [bind, Except.bind]
  | ok u =>
    cases hv : (b.run (.onPlan d)).last.dataflow.validate with
    | error c =>
      simp only [bind, Except.bind, reduceCtorEq, true_and, false_iff]
      rintro ⟨hok, rfl⟩
      rw [hv] at hok
      cases hok
    | ok u =>
      simp only [bind, Except.bind, pure, Except.pure, Except.ok.injEq, true_and]
      constructor
      · rintro rfl
        exact ⟨hv, rfl⟩
      · rintro ⟨_, rfl⟩
        rfl

theorem passed_of_dryRun {d d' : Dataflow} {b : Batch} (hr : (d.dryRun b).result = .ok d') :
    (d.dryRun b).pass.result = .ok () :=
  (dryRun_eq_ok_iff.1 hr).1

theorem modify_of_refused {b : Batch} {c : Cause} {d : Dataflow} {σ : Type} (deployer : Deployer σ)
    (world : σ) (hr : (l.dataflow.dryRun b).result = .ok d)
    (hrun : (b.run (.onLayout l)).result = .error c) :
    (l.modify b deployer world).target = (b.run (.onLayout l)).last.target ∧
      (l.modify b deployer world).world = world := by
  simp only [modify, hr, hrun, and_self]

theorem modify_of_replayed {b : Batch} {d : Dataflow} {σ : Type} (deployer : Deployer σ)
    (world : σ) (hr : (l.dataflow.dryRun b).result = .ok d)
    (hrun : (b.run (.onLayout l)).result = .ok ()) :
    (l.modify b deployer world).result = ((b.run (.onLayout l)).last.apply deployer world).result ∧
      (l.modify b deployer world).world = ((b.run (.onLayout l)).last.apply deployer world).world := by
  simp only [modify, hr, hrun, and_self]

/-- If a session with a true account fails to be applied, the log holds the answer that it fails with. -/
theorem apply_logged {s : Session} {σ : Type} (h : s.Accounts l) (deployer : Deployer σ) (world : σ)
    {e : PlanError} (he : (s.apply deployer.logged (world, [])).result = .error e) :
    ∃ call ∈ (s.apply deployer.logged (world, [])).world.2, call.2 = .error e := by
  obtain ⟨target, changes⟩ := s
  obtain ⟨l', rfl, hs, ha⟩ := h
  obtain ⟨r, l'', hr⟩ := Layout.exists_reconcile hs.intact ha.balances
  rw [Session.apply_eq_of_reconcile deployer.logged (world, []) hr] at he ⊢
  refine ⟨(r, (deployer r world).1), List.mem_append_right _ List.mem_cons_self, ?_⟩
  cases hanswer : (deployer r world).1 with
  | error e' =>
    have he : ((deployer r world).1.map fun _ => r) = .error e := he
    rw [hanswer] at he
    exact congrArg _ (Except.error.inj he)
  | ok u =>
    have he : ((deployer r world).1.map fun _ => r) = .error e := he
    rw [hanswer] at he
    cases he

/-- **When a batch that fails leaves a layout alone.**  If modifying a layout fails and the deployer did
not answer so, the deployer was not called.  The layout is as before exactly if the batch does not pass
on the plan, or the edits before the first one that only the layout refuses leave it as it was; it is
as before whenever there is no such edit. -/
theorem modify_untouched_iff (h : (Session.onLayout l).Live) {σ : Type} (deployer : Deployer σ)
    (world : σ) {e : PlanError}
    (he : (l.modify ⟨edits, true⟩ deployer.logged (world, [])).result = .error e)
    (hanswers : ∀ call ∈ (l.modify ⟨edits, true⟩ deployer.logged (world, [])).world.2,
      call.2 ≠ .error e) :
    (l.modify ⟨edits, true⟩ deployer.logged (world, [])).world = (world, []) ∧
    ((l.modify ⟨edits, true⟩ deployer.logged (world, [])).target = .live l ↔
      (∃ c, (l.dataflow.dryRun ⟨edits, true⟩).result = .error c) ∨
        ((Session.onLayout l).runAll (Edit.admitted l.laidOut edits)).2.target = .live l) ∧
    (Edit.admitted l.laidOut edits = edits →
      (l.modify ⟨edits, true⟩ deployer.logged (world, [])).target = .live l) := by
  have hsound : l.Sound := h.layout_sound
  cases hr : (l.dataflow.dryRun ⟨edits, true⟩).result with
  | error c =>
    obtain ⟨htarget, hworld⟩ := modify_of_rejected deployer.logged (world, []) hr
    exact ⟨hworld, iff_of_true htarget (.inl ⟨c, rfl⟩), fun _ => htarget⟩
  | ok d =>
    obtain ⟨hiff, hlast⟩ := run_onLayout hsound (passed_of_dryRun hr)
    cases hrun : (Batch.run ⟨edits, true⟩ (.onLayout l)).result with
    | error c =>
      obtain ⟨htarget, hworld⟩ := modify_of_refused deployer.logged (world, []) hr hrun
      refine ⟨hworld, ?_, fun hall => ?_⟩
      · rw [htarget, hlast, or_iff_right fun ⟨_, hc⟩ => nomatch hc]
      · rw [hiff.2 hall] at hrun
        cases hrun
    | ok u =>
      -- the replay passed, so the error can only be the deployer's answer
      obtain ⟨hresult, hworld⟩ := modify_of_replayed deployer.logged (world, []) hr hrun
      have hend := Session.accounts_runAll (Session.accounts_onLayout hsound)
        (Edit.admitted l.laidOut edits)
      rw [hresult, hlast] at he
      rw [hworld, hlast] at hanswers
      obtain ⟨call, hcall, hanswer⟩ := apply_logged hend deployer world he
      exact absurd hanswer (hanswers call hcall)

/-- A new operator, and then a property of the one that is laid out already: the plan takes both, the
layout takes the first.  The deployer is not called, but the new operator stays. -/
theorem modify_touched :
    (Session.onLayout .single).Live ∧
    (Layout.single.modify ⟨[.addOperator "b" .relay, .setProperty "a" "x" "1"], true⟩
      (Deployer.accepting (σ := Unit)).logged ((), [])).result =
        .error (.raised (.notNew "a" "x" "1")) ∧
    (Layout.single.modify ⟨[.addOperator "b" .relay, .setProperty "a" "x" "1"], true⟩
      (Deployer.accepting (σ := Unit)).logged ((), [])).world = ((), []) ∧
    (Layout.single.modify ⟨[.addOperator "b" .relay, .setProperty "a" "x" "1"], true⟩
      (Deployer.accepting (σ := Unit)).logged ((), [])).target ≠ .live .single := by
  refine ⟨Session.live_single, rfl, rfl, fun htarget => ?_⟩
  have hkeys : ["a", "b"] = ["a"] := congrArg (fun t => t.dataflow.stages.keys) htarget
  exact absurd hkeys (by decide)

/-- A batch that the plan refuses after its first edit. -/
theorem modify_untouched_rejected :
    let m := Layout.single.modify ⟨[.addOperator "b" .relay, .addOperator "a" .relay], true⟩
      (Deployer.accepting (σ := Unit)).logged ((), [])
    m.result = .error (.raised (.operatorExists "a")) ∧ m.world = ((), []) ∧
      m.target = .live .single := by
  intro m
  have he : m.result = .error (.raised (.operatorExists "a")) := rfl
  obtain ⟨hworld, hiff, _⟩ := modify_untouched_iff Session.live_single Deployer.accepting () he
    fun call hcall => nomatch hcall
  exact ⟨he, hworld, hiff.2 (.inl ⟨.operatorExists "a", rfl⟩)⟩

end Layout

end LiveDataflow
