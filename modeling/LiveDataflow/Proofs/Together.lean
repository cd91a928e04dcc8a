import LiveDataflow.Proofs.Mesh
import LiveDataflow.Proofs.Outcome

/-!
# The partitions of an operator share their lot

The instances of an operator are made together, taken away together, rewired together and placed together.
As every wire into one of them has a like into the others, they are started together as well.

## Results

* `Together`: what one of a list has, all of it have.
* `Layout.Unmixed`: an operator has the instances that it had, or none of those.
* `Layout.Even`, `Layout.EvenSince`: the invariants of a layout and of a session on it.
* `Layout.Even.after`, `Layout.EvenSince.after`: every move that the plan grants keeps them.
* `Layout.EvenSince.together_started`: an operator is started as a whole or not at all.
-/

set_option autoImplicit false

namespace LiveDataflow

open Reachability

/-- What one of a list has, all of it have. -/
def Together {α : Type} (ids : List α) (P : α → Prop) : Prop := ∀ a ∈ ids, P a → ∀ b ∈ ids, P b

namespace Together

variable {α : Type} {ids : List α} {P Q : α → Prop}

theorem congr (h : Together ids P) (hiff : ∀ a ∈ ids, P a ↔ Q a) : Together ids Q :=
  fun a ha hQ b hb => (hiff b hb).1 (h a ha ((hiff a ha).2 hQ) b hb)

theorem of_none (h : ∀ a ∈ ids, ¬ P a) : Together ids P := fun a ha hP => absurd hP (h a ha)

theorem not (h : Together ids P) : Together ids fun a => ¬ P a :=
  fun a ha hP b hb hb' => hP (h b hb hb' a ha)

theorem or (h : Together ids P) (h' : Together ids Q) : Together ids fun a => P a ∨ Q a :=
  fun a ha hPQ b hb => hPQ.imp (fun hP => h a ha hP b hb) fun hQ => h' a ha hQ b hb

end Together

namespace Layout

variable {l l₀ l' : Layout} {name : String} {id : InstanceId} {m : Move} {changes : ChangeSet}

/-! ## Old instances and new ones -/

/-- An operator has the instances that it had, or none of those. -/
structure Unmixed (l₀ l : Layout) : Prop where
  lastInstance : l₀.lastInstance ≤ l.lastInstance
  lists : ∀ name, l.instancesOf name = l₀.instancesOf name ∨
    ∀ id ∈ l.instancesOf name, l₀.lastInstance < id.val

namespace Unmixed

theorem refl (l : Layout) : l.Unmixed l := ⟨Nat.le_refl _, fun _ => .inl rfl⟩

/-- **Every change of a layout keeps old instances and new ones apart.** -/
theorem kept (l₀ : Layout) : Kept l₀.Unmixed where
  withDataflow _ _ h := ⟨h.lastInstance, h.lists⟩
  withWires _ h := ⟨h.lastInstance, h.lists⟩
  enter {l name} partitions _ _ h := by
    have hle := h.lastInstance
    refine ⟨Nat.le_trans hle (Nat.le_add_right _ _), fun other => ?_⟩
    rw [instancesOf_enter]
    split
    · refine .inr fun id hid => ?_
      obtain ⟨i, hi, rfl⟩ := List.mem_map.1 hid
      obtain ⟨p, _, rfl⟩ := mem_freshInstances_iff.1 hi
      show l₀.lastInstance < l.lastInstance + 1 + p
      omega
    · exact h.lists other
  removeOperator {l} name _ h := by
    have hwithout := without_removeOperator l name
    refine ⟨Nat.le_trans h.lastInstance (Nat.le_of_eq hwithout.lastInstance.symm), fun other => ?_⟩
    rw [hwithout.instancesOf rfl other]
    split
    · exact .inr fun _ hid => (nomatch hid)
    · exact h.lists other
  place {l} ids h := by
    have halike := alike_place l ids
    have hof : ∀ name, (l.place ids).2.instancesOf name = l.instancesOf name := halike.instancesOf_eq
    refine ⟨Nat.le_trans h.lastInstance (Nat.le_of_eq halike.lastInstance.symm), fun name => ?_⟩
    rw [hof]
    exact h.lists name
  prime {l l' id} hok h := by
    have halike := (primes_of_prime hok).alike
    refine ⟨Nat.le_trans h.lastInstance (Nat.le_of_eq halike.lastInstance.symm), fun name => ?_⟩
    rw [halike.instancesOf_eq]
    exact h.lists name

theorem after (hi : l.Intact) (m : Move) : l.Unmixed (l.after m).2 := (kept l).after hi (.refl l) m

/-- Where one of the old instances is left, all of them are, and no others. -/
theorem instancesOf_eq (h : l₀.Unmixed l) (hid : id ∈ l.instancesOf name)
    (hold : id.val ≤ l₀.lastInstance) : l.instancesOf name = l₀.instancesOf name := by
  rcases h.lists name with hsame | hnew
  · exact hsame
  · have hlt := hnew id hid
    omega

/-- The instances of an operator were all there before, or none of them. -/
theorem together_present (h : l₀.Unmixed l) (h₀ : l₀.Numbered) (name : String) :
    Together (l.instancesOf name) l₀.Present := by
  intro a ha hbefore b hb
  rw [h.instancesOf_eq ha (h₀.bounded a hbefore)] at hb
  exact h₀.present hb

/-- The instances that an operator had are all there still, or none of them. -/
theorem together_left (h : l₀.Unmixed l) (hg : l₀.Grows l) (h₀ : l₀.Numbered) (hn : l.Numbered)
    (name : String) : Together (l₀.instancesOf name) l.Present := by
  intro a ha hleft b hb
  have hbound : a.val ≤ l₀.lastInstance := h₀.bounded a (h₀.present ha)
  obtain ⟨i, hi⟩ := Option.isSome_iff_exists.1 hleft
  -- what is left is still the instance of the same operator
  have hmem : a ∈ l.instancesOf name := by
    obtain ⟨j, hj, hname⟩ := (h₀.indexed name a).1 ha
    rcases hg.instances a i hi with hold | ⟨hnew, _⟩
    · rw [hj] at hold
      cases hold
      exact (hn.indexed name a).2 ⟨_, hi, hname⟩
    · omega
  rw [← h.instancesOf_eq hmem hbound] at hb
  exact hn.present hb

end Unmixed

/-! ## Layouts -/

/-- A layout of its whole plan in which data flows forward only, and every operator has instances, all of
them placed or none. -/
structure Even (l : Layout) : Prop where
  sound : l.Sound
  forward : l.dataflow.Forward
  populated : l.dataflow.Populated
  staffed : l.Staffed
  placed : ∀ name, Together (l.instancesOf name) l.Placed

namespace Even

/-- **Every move that the plan grants leaves a layout even.** -/
theorem after (h : l.Even) (hm : l.dataflow.Admits m) : (l.after m).2.Even := by
  have hanchored := h.sound.laid.anchored
  have hnum := h.sound.laid.numbered
  have hsound := h.sound.after hm
  have hpopulated := h.populated.after hanchored hm
  refine ⟨hsound, ?_, ?_, h.staffed.after h.sound.covers hm hpopulated, fun name => ?_⟩
  · rw [dataflow_after]
    exact Dataflow.Forward.invariant.after hanchored h.forward hm
  · rw [dataflow_after]
    exact hpopulated
  · have hplaced : ∀ id, (l.after m).2.Placed id ↔ l.Placed id ∧ (l.after m).2.Present id :=
      fun id => (Grows.after l m).placed_iff hnum
    intro a ha hplace b hb
    have hbefore : l.Placed a := ((hplaced a).1 hplace).1
    have hlist := (Unmixed.after h.sound.intact m).instancesOf_eq ha (hnum.bounded a hbefore.present)
    have hpresent : (l.after m).2.Present b := hsound.laid.numbered.present hb
    rw [hlist] at ha hb
    exact (hplaced b).2 ⟨h.placed name a ha hbefore b hb, hpresent⟩

theorem alike (h : l.Even) (ha : l.Alike l') (hplaced : ∀ name, Together (l'.instancesOf name) l'.Placed) :
    l'.Even := by
  refine ⟨h.sound.alike ha, ?_, ?_, h.staffed.of_same ha.byOperator, hplaced⟩
  · rw [ha.dataflow]
    exact h.forward
  · rw [ha.dataflow]
    exact h.populated

/-- After a rollout everything is placed. -/
theorem reconcile {r : Rollout} (h : l.Even) (hr : l.reconcile changes = .ok (r, l')) : l'.Even := by
  have halike := alike_of_reconcile hr
  have hnum := h.sound.laid.numbered
  refine h.alike halike fun name a _ _ b hb => ?_
  exact placed_of_reconcile hnum hr ((hnum.alike halike).present hb)

end Even

theorem even_materialize {d : Dataflow} (hd : d.Built false) (hconfig : d.config.validate = .ok ())
    (hok : materialize d = .ok l) : l.Even := by
  have hsettled : l.Settled := settled_materialize hd.anchored hok
  have hdataflow := dataflow_materialize hok
  have hpopulated := hd.populated hconfig
  refine ⟨hsettled.sound, ?_, ?_, staffed_materialize hpopulated hok, fun name a _ _ b hb => ?_⟩
  · rw [hdataflow]
    exact Dataflow.Forward.invariant.holds hd
  · rw [hdataflow]
    exact hpopulated
  · exact hsettled.placed b (hsettled.sound.laid.numbered.present hb)

/-! ## The account -/

/-- What a list of operators has of the instances of an operator is all of them or none. -/
theorem Numbered.together_instancesOf (h : l.Numbered) (name : String) (names : List String) :
    Together (l.instancesOf name) (· ∈ names.flatMap l.instancesOf) := by
  intro a ha hmem b hb
  obtain ⟨other, hother, ha'⟩ := List.mem_flatMap.1 hmem
  have hsame : name = other := h.operator_eq ha ha'
  subst hsame
  exact List.mem_flatMap.2 ⟨name, hother, hb⟩

/-- A move is recorded for all the instances of an operator or for none. -/
theorem Sound.together_recorded (h : l.Sound) (hm : l.dataflow.Admits m) (name : String) :
    Together ((l.after m).2.instancesOf name) (· ∈ (l.after m).1) := by
  have hnum := h.laid.numbered
  have hpresent : ∀ a ∈ (l.after m).2.instancesOf name, (l.after m).2.Present a := fun a ha =>
    (h.after hm).laid.numbered.present ha
  have hunmixed := Unmixed.after h.intact m
  cases m with
  | addStage stage operator =>
    have hplan : ({ l with dataflow := l.dataflow.after (.addStage stage operator) } : Layout).Numbered :=
      hnum.of_same rfl rfl rfl
    -- what is recorded is what was not there
    have hfresh : ∀ a ∈ (l.after (.addStage stage operator)).2.instancesOf name,
        ¬ l.Present a ↔ a ∈ (l.after (.addStage stage operator)).1 := by
      intro a ha
      obtain ⟨hiff, hnew, _⟩ := present_addOperator hplan (addOperator_after (h.covers.absent hm)) a
      constructor
      · intro hno
        exact (hiff.1 (hpresent a ha)).resolve_right hno
      · intro hrecorded hbefore
        have hlt := hnew hrecorded
        have hle := hnum.bounded a hbefore
        exact absurd hlt (Nat.not_lt.2 hle)
    exact (hunmixed.together_present hnum name).not.congr hfresh
  | removeStage stage =>
    exact .of_none fun a ha => ((present_after_removeStage hnum).1 (hpresent a ha)).2
  | setOperator stage operator => exact .of_none fun _ _ ha => (nomatch ha)
  | addStream stream source => exact .of_none fun _ _ ha => (nomatch ha)
  | attach stream sink =>
    obtain ⟨s, hs, _⟩ := hm
    rw [after_attach hs]
    refine (hnum.together_instancesOf name [sink.operator]).congr fun a _ => ?_
    rw [List.flatMap_singleton]
    exact SortedSet.mem_ofList.symm
  | removeStream stream =>
    obtain ⟨s, hs⟩ := Option.isSome_iff_exists.1 hm
    rw [after_removeStream hs]
    refine (hnum.together_instancesOf name (s.source.operator :: s.sinks.map (·.operator))).congr
      fun a _ => ?_
    exact SortedSet.mem_ofList.symm

/-- Where operators begin a path as a whole or not at all, they are reached so. -/
theorem Laid.together_reached (h : l.Laid) {S : InstanceId → Prop}
    (hseeds : ∀ name, Together (l.instancesOf name) S) (name : String) :
    Together (l.instancesOf name) fun id => ∃ a, S a ∧ Reaches l.edges a id := by
  rintro a ha ⟨x, hx, hreach⟩ b hb
  cases hreach with
  | refl => exact ⟨b, hseeds name a ha hx b hb, .refl⟩
  | @tail y _ hxy he =>
    -- the last wire of the path has a like into the other instance
    obtain ⟨e, hlink, hy, ha'⟩ := h.mem_edges_iff.1 he
    have hsame : name = e.2 := h.numbered.operator_eq ha ha'
    rw [hsame] at hb
    exact ⟨x, hx, hxy.tail (h.mem_edges_iff.2 ⟨e, hlink, hy, hb⟩)⟩

end Layout

/-- Affected by a session are, of what was there from the start and still is, the instances that its
moves are recorded for. -/
theorem ChangeSet.Balances.mem_affected_after_iff {l₀ l : Layout} {c : ChangeSet} {id : InstanceId}
    {m : Move} (h : Balances l₀ c l id) (hl : l.Sound) (hm : l.dataflow.Admits m) (h₀ : l₀.Present id)
    (hp : (l.after m).2.Present id) :
    id ∈ (c.after (l.after m).1 m).affected ↔ id ∈ (l.after m).1 ∨ id ∈ c.affected := by
  by_cases hid : id ∈ (l.after m).1
  · have haffected := (h.mem_affected_after hl hm hid h₀ hp).1
    simp only [haffected, hid, true_or]
  · have hsame := (ChangeSet.mem_after_of_notMem (m := m) (c := c)
      (Layout.changesOnly_after hl hm).nodup hid).2
    simp only [hsame, hid, false_or]

namespace Layout

variable {l l₀ l' : Layout} {name : String} {id : InstanceId} {m : Move} {changes : ChangeSet}

/-- What a session on `l₀` has made of it, where the account of the session tells no two instances of an
operator apart. -/
structure EvenSince (l₀ : Layout) (changes : ChangeSet) (l : Layout) : Prop where
  edited : l₀.Edited changes l
  even : l.Even
  unmixed : l₀.Unmixed l
  affected : ∀ name, Together (l.instancesOf name) (· ∈ changes.affected)

namespace EvenSince

theorem start (h : l.Even) : EvenSince l ∅ l :=
  ⟨.start h.sound, h, .refl l, fun _ => .of_none fun _ _ ha => (nomatch ha)⟩

/-- **Every move that the plan grants is one for all the instances of an operator or for none.** -/
theorem after (h₀ : l₀.Numbered) (h : EvenSince l₀ changes l) (hm : l.dataflow.Admits m) :
    EvenSince l₀ (changes.after (l.after m).1 m) (l.after m).2 := by
  have hsound := h.edited.sound
  have hedited := h.edited.after hm
  have hunmixed : l₀.Unmixed (l.after m).2 := (Unmixed.kept l₀).after hsound.intact h.unmixed m
  refine ⟨hedited, h.even.after hm, hunmixed, fun name => ?_⟩
  intro a ha haffected b hb
  have hbefore : l₀.Present a := ((hedited.accounts.balances a).affected haffected).1
  have hold : ∀ x ∈ (l.after m).2.instancesOf name, l₀.Present x :=
    hunmixed.together_present h₀ name a ha hbefore
  have hlist : (l.after m).2.instancesOf name = l.instancesOf name :=
    (Unmixed.after hsound.intact m).instancesOf_eq ha ((h.edited.accounts.balances a).bounded hbefore)
  have hsplit : ∀ x ∈ (l.after m).2.instancesOf name, (x ∈ (l.after m).1 ∨ x ∈ changes.affected) ↔
      x ∈ (changes.after (l.after m).1 m).affected := by
    intro x hx
    have hpresent : (l.after m).2.Present x := hedited.sound.laid.numbered.present hx
    exact ((h.edited.accounts.balances x).mem_affected_after_iff hsound hm (hold x hx) hpresent).symm
  have haffected' : Together ((l.after m).2.instancesOf name) (· ∈ changes.affected) := by
    rw [hlist]
    exact h.affected name
  exact ((hsound.together_recorded hm name).or haffected').congr hsplit a ha haffected b hb

variable (h₀ : l₀.Numbered) (h : EvenSince l₀ changes l)

include h₀ h

theorem together_added (name : String) : Together (l.instancesOf name) (· ∈ changes.added) := by
  refine (h.unmixed.together_present h₀ name).not.congr fun a ha => ?_
  have hpresent : l.Present a := h.edited.sound.laid.numbered.present ha
  rw [(h.edited.accounts.balances a).added]
  exact (and_iff_right hpresent).symm

theorem together_removed (name : String) : Together (l₀.instancesOf name) (· ∈ changes.removed) := by
  have hleft := h.unmixed.together_left h.edited.grows h₀ h.edited.sound.laid.numbered name
  refine hleft.not.congr fun a ha => ?_
  rw [(h.edited.accounts.balances a).removed]
  exact (and_iff_right (h₀.present ha)).symm

/-- An operator is new, or has a container, as a whole. -/
theorem together_novel (name : String) : Together (l.instancesOf name) (· ∈ l.novel changes) := by
  have hnum := h.edited.sound.laid.numbered
  refine ((h.together_added h₀ name).or (h.even.placed name).not).congr fun a ha => ?_
  have hunplaced : ¬ l.Placed a ↔ a ∈ l.unplaced := by
    rw [mem_unplaced_iff_not_placed hnum]
    exact (and_iff_right (hnum.present ha)).symm
  rw [hunplaced]
  exact SortedSet.mem_union.symm

/-- **An operator is started as a whole or not at all.** -/
theorem together_started {r : Rollout} (hr : l.reconcile changes = .ok (r, l')) (name : String) :
    Together (l.instancesOf name) (· ∈ r.started) := by
  have hsound := h.edited.sound
  have hseeds : ∀ name, Together (l.instancesOf name) fun a => a ∈ l.novel changes ∨ a ∈ changes.affected :=
    fun name => (h.together_novel h₀ name).or (h.affected name)
  refine (hsound.laid.together_reached hseeds name).congr fun a _ => ?_
  exact (mem_started_iff hsound.intact h.edited.accounts.balances hr).symm

end EvenSince

end Layout

end LiveDataflow
