import LiveDataflow.Proofs.FirstLayout

/-!
# Which plans can be laid out

A plan is laid out by the labels of its stages, each looked up as the name of a stage.  A stage that was given
another label is found under its name all the same by everything else, the check of the plan included.  So a
valid plan can fail to be laid out, and does so exactly if a label names no stage or occurs twice.

## Results

* `Layout.error_of_addOperators`: where laying out operators one after the other stops.
* `Layout.materializes_iff_labels`: which plans can be laid out, how many instances the operators have then,
  and why a plan is refused.
* `Dataflow.valid_unmaterializable`: a valid plan that is refused.
-/

set_option autoImplicit false

namespace LiveDataflow

namespace Layout

variable {d : Dataflow} {l l₁ l' : Layout} {name : String} {names : List String} {ids : List InstanceId}
  {c : Cause}

theorem error_of_addOperator (h : l.addOperator name = .error c) :
    (l.dataflow.stage? name = none ∧ c = .unknownOperator name) ∨
      (l.byOperator.contains name = true ∧ c = .alreadyMaterialized name) := by
  unfold addOperator at h
  split at h
  · rename_i hstage
    cases h
    exact .inl ⟨hstage, rfl⟩
  · split at h
    · rename_i hcontains
      cases h
      exact .inr ⟨hcontains, rfl⟩
    · cases h

/-- **Laying out stops at the first operator** that the plan does not have or that is laid out already. -/
theorem error_of_addOperators (h : l.addOperators names = .error c) :
    ∃ before name after, names = before ++ name :: after ∧ (∃ ids l', l.addOperators before = .ok (ids, l')) ∧
      ((l.dataflow.stage? name = none ∧ c = .unknownOperator name) ∨
        ((l.byOperator.contains name = true ∨ name ∈ before) ∧ c = .alreadyMaterialized name)) := by
  induction names generalizing l with
  | nil => cases h
  | cons first rest ih =>
    unfold addOperators at h
    cases hone : l.addOperator first with
    | error c' =>
      rw [hone] at h
      cases h
      exact ⟨[], first, rest, rfl, ⟨[], l, rfl⟩,
        (error_of_addOperator hone).imp_right fun hlaid => ⟨.inl hlaid.1, hlaid.2⟩⟩
    | ok r =>
      obtain ⟨ids, l₁⟩ := r
      rw [hone] at h
      cases hmore : l₁.addOperators rest with
      | ok r =>
        simp only [hmore, bind, Except.bind] at h
        cases h
      | error c' =>
      simp only [hmore, bind, Except.bind] at h
      cases h
      obtain ⟨before, name, after, rfl, ⟨more, l', hbefore⟩, hcause⟩ := ih hmore
      rw [dataflow_addOperator hone, byOperator_addOperator hone, contains_byOperator_insert] at hcause
      refine ⟨first :: before, name, after, rfl,
        ⟨_, l', addOperators_cons_eq_ok_iff.2 ⟨ids, l₁, more, hone, hbefore, rfl⟩⟩, ?_⟩
      rw [Bool.or_eq_true, decide_eq_true_eq] at hcause
      refine hcause.imp_right fun hlater => ⟨?_, hlater.2⟩
      rcases hlater.1 with (rfl | hold) | hmem
      · exact .inr List.mem_cons_self
      · exact .inl hold
      · exact .inr (List.mem_cons_of_mem _ hmem)

/-- Once the operators are laid out nothing can fail. -/
theorem exists_materialize (hvalid : d.validate = .ok ())
    (hadd : (Layout.ofDataflow d).addOperators d.labels = .ok (ids, l₁)) : ∃ l, materialize d = .ok l := by
  have hintact : l₁.Intact := (Intact.ofDataflow d).addOperators hadd
  have halike := alike_place l₁ (.ofList ids)
  obtain ⟨l, hprime⟩ : ∃ l, (l₁.place (.ofList ids)).2.primeAll ids = .ok l := by
    refine primeAll_eq_ok_iff.2 fun id hid => ?_
    rw [← (inTurn_addOperators hadd).listed] at hid
    obtain ⟨name, _, hof⟩ := List.mem_flatMap.1 hid
    rw [halike.isSome]
    exact hintact.numbered.present hof
  exact ⟨l, materialize_eq_ok_iff.2 ⟨ids, l₁, hvalid, hadd, hprime⟩⟩

/-- A valid plan can be laid out exactly if each label names a stage and none occurs twice. -/
theorem exists_materialize_iff : (∃ l, materialize d = .ok l) ↔
    d.validate = .ok () ∧ d.labels.Nodup ∧ ∀ label ∈ d.labels, (d.stage? label).isSome = true := by
  constructor
  · rintro ⟨l, hl⟩
    obtain ⟨_, _, hvalid, hadd, _⟩ := materialize_eq_ok_iff.1 hl
    obtain ⟨hnodup, hstages, _⟩ := names_addOperators hadd
    exact ⟨hvalid, hnodup, fun label hlabel => (hstages label hlabel).2⟩
  · rintro ⟨hvalid, hnodup, hstages⟩
    obtain ⟨ids, l₁, hadd⟩ := exists_addOperators (l := .ofDataflow d) hnodup
      fun label hlabel => ⟨hstages label hlabel, rfl⟩
    exact exists_materialize hvalid hadd

theorem addOperators_of_materialize_error (hvalid : d.validate = .ok ()) (h : materialize d = .error c) :
    (Layout.ofDataflow d).addOperators d.labels = .error c := by
  cases hadd : (Layout.ofDataflow d).addOperators d.labels with
  | ok r =>
    obtain ⟨ids, l₁⟩ := r
    obtain ⟨l, hl⟩ := exists_materialize hvalid hadd
    rw [hl] at h
    cases h
  | error c' =>
    unfold materialize at h
    rw [hvalid, hadd] at h
    cases h
    rfl

/-- **Which plans can be laid out.**  A plan that is valid can be laid out exactly if each label names a stage
and none occurs twice; so always if no stage was given another label.  Each operator that is stored in the
plan has as many instances then as it has partitions, whatever its label is.  If the plan is refused, the
error names the first label that is none of a stage or occurs a second time. -/
theorem materializes_iff_labels (d : Dataflow) :
    ((∃ l, materialize d = .ok l) ↔
      d.validate = .ok () ∧ d.labels.Nodup ∧ ∀ label ∈ d.labels, (d.stage? label).isSome = true) ∧
    (d.Built false → d.validate = .ok () → ∃ l, materialize d = .ok l) ∧
    (∀ l, materialize d = .ok l → l.dataflow = d ∧ ∀ name stage, d.stage? name = some stage →
      (l.instancesOf name).length = stage.partitions ∧
        ∀ id ∈ l.instancesOf name, ∃ i, l.instance? id = some i ∧ i.operator = name) ∧
    ∀ c, d.validate = .ok () → materialize d = .error c →
      ∃ before label after, d.labels = before ++ label :: after ∧ before.Nodup ∧
        (∀ n ∈ before, (d.stage? n).isSome = true) ∧
        ((d.stage? label = none ∧ c = .unknownOperator label) ∨
          (label ∈ before ∧ c = .alreadyMaterialized label)) := by
  refine ⟨exists_materialize_iff, fun hbuilt hvalid => exists_materialize_iff.2 ⟨hvalid, ?_⟩, fun l hl => ?_,
    fun c hvalid hc => ?_⟩
  · rw [(Dataflow.Forward.invariant.holds hbuilt).labels_eq_keys]
    exact ⟨(SortedMap.pairwise_keys _).imp KeyOrder.ne_of_lt, fun label hlabel => SortedMap.mem_keys_iff.1 hlabel⟩
  · obtain ⟨ids, l₁, _, hadd, hprime⟩ := materialize_eq_ok_iff.1 hl
    have halike : l₁.Alike l := (alike_place l₁ _).trans (primes_of_primeAll hprime).alike
    refine ⟨dataflow_materialize hl, fun name stage hstage => ⟨?_, fun id hid => ?_⟩⟩
    · rw [halike.instancesOf_eq]
      refine (inTurn_addOperators hadd).partitions name ((labels_perm_keys hadd).mem_iff.2 ?_) stage hstage
      rw [SortedMap.mem_keys_iff]
      exact Option.isSome_iff_exists.2 ⟨stage, hstage⟩
    · exact ((intact_materialize hl).numbered.indexed name id).1 hid
  · obtain ⟨before, label, after, hlabels, ⟨ids, l₁, hbefore⟩, hcause⟩ :=
      error_of_addOperators (addOperators_of_materialize_error hvalid hc)
    obtain ⟨hnodup, hstages, _⟩ := names_addOperators hbefore
    refine ⟨before, label, after, hlabels, hnodup, fun n hn => (hstages n hn).2, hcause.imp_right ?_⟩
    rintro ⟨hlaid | hmem, hc⟩
    · cases hlaid
    · exact ⟨hmem, hc⟩

end Layout

namespace Dataflow

/-- The plan of one operator, which was given another label. -/
def relabelled : Dataflow := single.relabel "a" "zz"

theorem built_relabelled : relabelled.Built true :=
  .call (.call (.empty .default) (.addStage "a" .relay rfl)) (.relabel "a" "zz" rfl)

/-- **A valid plan that cannot be laid out.** -/
theorem valid_unmaterializable :
    relabelled.Built true ∧ relabelled.validate = .ok () ∧
      Layout.materialize relabelled = .error (.unknownOperator "zz") :=
  ⟨built_relabelled, rfl, rfl⟩

/-- Two operators with the labels of each other, the first with two partitions. -/
def crossed : Dataflow :=
  let d := ((single.after (.addStage "b" .relay)).relabel "a" "b").relabel "b" "a"
  (d.setPartitions "a" 2).toOption.getD d

theorem built_crossed : crossed.Built true := by
  have hfirst : single.Built true := .call (.empty .default) (.addStage "a" .relay rfl)
  have hsecond : (single.after (.addStage "b" .relay)).Built true := .call hfirst (.addStage "b" .relay rfl)
  have hlabels := Built.call (.call hsecond (.relabel "a" "b" rfl)) (.relabel "b" "a" rfl)
  exact .call hlabels (.setPartitions "a" 2 rfl)

/-- Two operators with one label. -/
def doubled : Dataflow := (single.after (.addStage "b" .relay)).relabel "a" "b"

/-- Labels that are exchanged do no harm, and a label that is given twice does. -/
theorem materializes_iff_labels_crossed :
    crossed.Built true ∧ crossed.labels = ["b", "a"] ∧ single.Built false ∧ single.validate = .ok () ∧
      (∃ l, Layout.materialize single = .ok l) ∧ doubled.validate = .ok () ∧
      Layout.materialize doubled = .error (.alreadyMaterialized "b") ∧
      (∃ before after, doubled.labels = before ++ "b" :: after ∧ "b" ∈ before) ∧
      ∃ l, Layout.materialize crossed = .ok l ∧ (l.instancesOf "a").length = 2 ∧
        (l.instancesOf "b").length = 1 := by
  have hsingle : single.Built false := .call (.empty .default) (.addStage "a" .relay rfl)
  obtain ⟨hiff, _, hcounts, _⟩ := Layout.materializes_iff_labels crossed
  obtain ⟨_, hunchanged, _⟩ := Layout.materializes_iff_labels single
  obtain ⟨_, _, _, hrefused⟩ := Layout.materializes_iff_labels doubled
  obtain ⟨l, hl⟩ := hiff.2 ⟨rfl, by decide +kernel, by decide +kernel⟩
  obtain ⟨_, hcounts⟩ := hcounts l hl
  have hdoubled : Layout.materialize doubled = .error (.alreadyMaterialized "b") := rfl
  obtain ⟨before, label, after, hlabels, _, _, hcause⟩ := hrefused _ rfl hdoubled
  rcases hcause with ⟨_, hc⟩ | ⟨hmem, hc⟩ <;> cases hc
  exact ⟨built_crossed, by decide +kernel, hsingle, rfl, hunchanged hsingle rfl, rfl, hdoubled,
    ⟨before, after, hlabels, hmem⟩, l, hl, (hcounts "a" _ rfl).1, (hcounts "b" _ rfl).1⟩

end Dataflow

end LiveDataflow
