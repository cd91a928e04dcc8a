import LiveDataflow.Proofs.Containers
import LiveDataflow.Proofs.Downstream

/-!
# The records of a layout agree

A layout is written down in several records: the instances, the lists of them by operator, the wires, the
containers and the two counters.  Each change updates some of them by hand.  They agree on every layout that
comes about, and the counters see to it that no number is given twice.

## Results

* `Layout.Listed`: an instance stands in the list of its operator at the place of its partition.
* `Layout.Since`: what is left of a layout later on, and the numbers of what is new.
* `Layout.Listed.kept`, `Layout.Since.kept`: every change of a layout keeps them.
* `Session.Reachable.indexes_agree`: the records of every layout that comes about.
-/

set_option autoImplicit false

namespace LiveDataflow.Layout

variable {l l₀ l' : Layout} {id : InstanceId} {c : ContainerId} {name : String}

/-! ## The lists of instances -/

/-- An instance stands in the list of its operator at the place of its partition, and numbers ascend with
the partitions. -/
structure Listed (l : Layout) : Prop where
  position : ∀ id i, l.instance? id = some i → (l.instancesOf i.operator)[i.partition]? = some id
  ascending : ∀ name, (l.instancesOf name).Pairwise (· < ·)

theorem getElem?_freshInstances {partitions p : Nat} (hp : p < partitions) :
    ((l.freshInstances name partitions).map (·.id))[p]? = some ⟨l.lastInstance + 1 + p⟩ := by
  simp [freshInstances, hp]

theorem ascending_freshInstances (l : Layout) (name : String) (partitions : Nat) :
    ((l.freshInstances name partitions).map (·.id)).Pairwise (· < ·) := by
  unfold freshInstances
  rw [List.map_map, List.pairwise_map]
  refine List.pairwise_lt_range.imp fun {p q} hlt => ?_
  show l.lastInstance + 1 + p < l.lastInstance + 1 + q
  omega

namespace Listed

theorem ofDataflow (d : Dataflow) : (Layout.ofDataflow d).Listed :=
  ⟨fun _ _ h => (nomatch h), fun _ => .nil⟩

theorem alike (h : l.Listed) (ha : l.Alike l') : l'.Listed := by
  have hof : ∀ name, l'.instancesOf name = l.instancesOf name := by
    intro name
    unfold instancesOf
    rw [ha.byOperator]
  refine ⟨fun id i hi => ?_, fun name => ?_⟩
  · obtain ⟨j, hj, hij⟩ := ha.counterpart hi
    rw [hof]
    show (l.instancesOf i.bare.operator)[i.bare.partition]? = some id
    rw [hij]
    exact h.position id j hj
  · rw [hof]
    exact h.ascending name

theorem enter (h : l.Listed) (hn : l.Numbered) (hname : l.instancesOf name = []) (partitions : Nat) :
    (l.enter name (l.freshInstances name partitions)).Listed := by
  refine ⟨fun id i hi => ?_, fun other => ?_⟩
  · rw [instancesOf_enter]
    rcases instance?_enter.1 hi with ⟨hnew, rfl⟩ | ⟨_, hold⟩
    · obtain ⟨p, hp, rfl⟩ := mem_freshInstances_iff.1 hnew
      rw [if_pos rfl]
      exact getElem?_freshInstances hp
    · have hother : name ≠ i.operator := by
        intro heq
        have hmem : id ∈ l.instancesOf name := (hn.indexed name id).2 ⟨i, hold, heq.symm⟩
        rw [hname] at hmem
        cases hmem
      rw [if_neg hother]
      exact h.position id i hold
  · rw [instancesOf_enter]
    split
    · exact ascending_freshInstances l name partitions
    · exact h.ascending other

theorem removeOperator (h : l.Listed) (hn : l.Numbered) (name : String) :
    (l.removeOperator name).2.Listed := by
  have hwithout := without_removeOperator l name
  have hof : ∀ other, (l.removeOperator name).2.instancesOf other =
      if name = other then [] else l.instancesOf other := hwithout.instancesOf rfl
  refine ⟨fun id i hi => ?_, fun other => ?_⟩
  · obtain ⟨hnot, hi⟩ := hwithout.instance?_eq_some_iff.1 hi
    rw [hn.presentOf_eq] at hnot
    have hother : name ≠ i.operator := fun heq => hnot ((hn.indexed name id).2 ⟨i, hi, heq.symm⟩)
    rw [hof, if_neg hother]
    exact h.position id i hi
  · rw [hof]
    split
    · exact .nil
    · exact h.ascending other

/-- **Every change of a layout keeps the lists in order.** -/
theorem kept : Kept Listed where
  withDataflow _ _ h := ⟨h.position, h.ascending⟩
  withWires _ h := ⟨h.position, h.ascending⟩
  enter partitions hi hname h := h.enter hi.numbered hname partitions
  removeOperator name hi h := h.removeOperator hi.numbered name
  place ids h := h.alike (alike_place _ ids)
  prime hok h := h.alike (primes_of_prime hok).alike

/-- What stands at a place of a list. -/
theorem getElem?_eq_some_iff (h : l.Listed) (hn : l.Numbered) {k : Nat} :
    (l.instancesOf name)[k]? = some id ↔
      ∃ i, l.instance? id = some i ∧ i.operator = name ∧ i.partition = k := by
  constructor
  · intro hk
    obtain ⟨i, hi, rfl⟩ := (hn.indexed name id).1 (List.mem_of_getElem? hk)
    refine ⟨i, hi, rfl, ?_⟩
    have hposition := h.position id i hi
    obtain ⟨hless, _⟩ := List.getElem?_eq_some_iff.1 hposition
    -- no number stands at two places
    exact (List.getElem?_inj hless (hn.distinct i.operator)).1 (hposition.trans hk.symm)
  · rintro ⟨i, hi, rfl, rfl⟩
    exact h.position id i hi

end Listed

/-! ## Numbers that are given -/

/-- What became of a layout: an instance that was there is still the same, or gone, and a container that
was there hosts no others than before, or is gone.  What is new has a number that was not given before. -/
structure Since (l₀ l : Layout) : Prop where
  lastInstance : l₀.lastInstance ≤ l.lastInstance
  lastContainer : l₀.lastContainer ≤ l.lastContainer
  instances : ∀ id i, l.instance? id = some i →
    (∃ j, l₀.instance? id = some j ∧ i.bare = j.bare) ∨ l₀.lastInstance < id.val
  containers : ∀ c hosted, l.containers.get? c = some hosted →
    (∃ before, l₀.containers.get? c = some before ∧ ∀ id ∈ hosted, id ∈ before) ∨ l₀.lastContainer < c.val

namespace Since

theorem refl (l : Layout) : l.Since l :=
  ⟨Nat.le_refl _, Nat.le_refl _, fun _ i hi => .inl ⟨i, hi, rfl⟩,
    fun _ hosted hc => .inl ⟨hosted, hc, fun _ hid => hid⟩⟩

theorem trans (h : l₀.Since l) (h' : l.Since l') : l₀.Since l' := by
  have hinstance := h.lastInstance
  have hcontainer := h.lastContainer
  refine ⟨Nat.le_trans hinstance h'.lastInstance, Nat.le_trans hcontainer h'.lastContainer, ?_, ?_⟩
  · intro id i hi
    rcases h'.instances id i hi with ⟨j, hj, hij⟩ | hnew
    · exact (h.instances id j hj).imp_left fun ⟨k, hk, hjk⟩ => ⟨k, hk, hij.trans hjk⟩
    · exact .inr (by omega)
  · intro c hosted hc
    rcases h'.containers c hosted hc with ⟨before, hbefore, hsub⟩ | hnew
    · refine (h.containers c before hbefore).imp_left ?_
      rintro ⟨first, hfirst, hsub'⟩
      exact ⟨first, hfirst, fun id hid => hsub' id (hsub id hid)⟩
    · exact .inr (by omega)

theorem of_same (hinstances : l'.instances = l.instances) (hcontainers : l'.containers = l.containers)
    (hinstance : l'.lastInstance = l.lastInstance) (hcontainer : l'.lastContainer = l.lastContainer) :
    l.Since l' := by
  refine ⟨Nat.le_of_eq hinstance.symm, Nat.le_of_eq hcontainer.symm, fun id i hi => ?_,
    fun c hosted hc => ?_⟩
  · unfold instance? at hi
    rw [hinstances] at hi
    exact .inl ⟨i, hi, rfl⟩
  · rw [hcontainers] at hc
    exact .inl ⟨hosted, hc, fun _ hid => hid⟩

theorem enter (l : Layout) (name : String) (partitions : Nat) :
    l.Since (l.enter name (l.freshInstances name partitions)) := by
  refine ⟨Nat.le_add_right _ _, Nat.le_refl _, fun id i hi => ?_,
    fun _ hosted hc => .inl ⟨hosted, hc, fun _ hid => hid⟩⟩
  rcases instance?_enter.1 hi with ⟨hnew, rfl⟩ | ⟨_, hold⟩
  · obtain ⟨p, _, rfl⟩ := mem_freshInstances_iff.1 hnew
    refine .inr ?_
    show l.lastInstance < l.lastInstance + 1 + p
    omega
  · exact .inl ⟨i, hold, rfl⟩

theorem removeInstance (l : Layout) (id : InstanceId) : l.Since (l.removeInstance id) := by
  have hcounters : (l.removeInstance id).lastInstance = l.lastInstance ∧
      (l.removeInstance id).lastContainer = l.lastContainer := by
    unfold Layout.removeInstance
    split <;> exact ⟨rfl, rfl⟩
  refine ⟨Nat.le_of_eq hcounters.1.symm, Nat.le_of_eq hcounters.2.symm, fun j i hi => ?_,
    fun c hosted hc => ?_⟩
  · rw [instance?_removeInstance] at hi
    split at hi
    · cases hi
    · exact .inl ⟨i, hi, rfl⟩
  · rw [get?_containers_removeInstance] at hc
    obtain ⟨before, hbefore, rfl⟩ := Option.map_eq_some_iff.1 hc
    refine .inl ⟨before, hbefore, fun j hj => ?_⟩
    split at hj
    · exact (SortedSet.mem_erase.1 hj).1
    · exact hj

theorem removeOperator (l : Layout) (name : String) : l.Since (l.removeOperator name).2 := by
  have hfold : ∀ (ids : List InstanceId) (l : Layout), l.Since (ids.foldl Layout.removeInstance l) := by
    intro ids
    induction ids with
    | nil => exact fun l => .refl l
    | cons id rest ih => exact fun l => (removeInstance l id).trans (ih _)
  have herased : l.Since { l with byOperator := l.byOperator.erase name } := .of_same rfl rfl rfl rfl
  exact herased.trans (hfold _ _)

theorem host (l : Layout) (group : List InstanceId) : l.Since (l.host group) := by
  refine ⟨Nat.le_refl _, Nat.le_succ _, fun id i hi => ?_, fun c hosted hc => ?_⟩
  · exact .inl ((hosts_host l group).alike.counterpart hi)
  · rw [get?_containers_host] at hc
    split at hc
    · rename_i hnew
      refine .inr ?_
      rw [← hnew]
      exact Nat.lt_succ_self _
    · exact .inl ⟨hosted, hc, fun _ hid => hid⟩

theorem place (l : Layout) (ids : SortedSet InstanceId) : l.Since (l.place ids).2 := by
  have hfold : ∀ (groups : List (List InstanceId)) (l : Layout), l.Since (groups.foldl Layout.host l) := by
    intro groups
    induction groups with
    | nil => exact fun l => .refl l
    | cons group rest ih => exact fun l => (host l group).trans (ih _)
  have hkept : l.Since l.kept := by
    refine ⟨Nat.le_refl _, Nat.le_refl _, fun _ i hi => .inl ⟨i, hi, rfl⟩, fun c hosted hc => ?_⟩
    unfold Layout.kept at hc
    dsimp only at hc
    rw [SortedMap.get?_filter] at hc
    exact .inl ⟨hosted, (Option.filter_eq_some_iff.1 hc).1, fun _ hid => hid⟩
  rw [place_eq_foldl_host]
  exact hkept.trans (hfold _ _)

theorem prime (hok : l.prime id = .ok l') : l.Since l' := by
  have hprimes := primes_of_prime hok
  refine ⟨Nat.le_of_eq hprimes.alike.lastInstance.symm, Nat.le_of_eq hprimes.lastContainer.symm,
    fun j i hi => .inl (hprimes.alike.counterpart hi), fun c hosted hc => ?_⟩
  rw [hprimes.containers] at hc
  exact .inl ⟨hosted, hc, fun _ hid => hid⟩

/-- **Every change of a layout gives new numbers only.** -/
theorem kept (l₀ : Layout) : Kept l₀.Since where
  withDataflow _ _ h := h.trans (.of_same rfl rfl rfl rfl)
  withWires _ h := h.trans (.of_same rfl rfl rfl rfl)
  enter partitions _ _ h := h.trans (enter _ _ partitions)
  removeOperator name _ h := h.trans (removeOperator _ name)
  place ids h := h.trans (place _ ids)
  prime hok h := h.trans (prime hok)

/-- An instance that is gone does not come back. -/
theorem not_present (h : l.Since l') (hgiven : id.val ≤ l.lastInstance) (hgone : ¬ l.Present id) :
    ¬ l'.Present id := by
  intro hback
  obtain ⟨i, hi⟩ := Option.isSome_iff_exists.1 hback
  rcases h.instances id i hi with ⟨j, hj, _⟩ | hnew
  · exact hgone (present_of_instance? hj)
  · omega

/-- A container that is given up does not come back. -/
theorem no_container (h : l.Since l') (hgiven : c.val ≤ l.lastContainer)
    (hgone : l.containers.get? c = none) : l'.containers.get? c = none := by
  cases hback : l'.containers.get? c with
  | none => rfl
  | some hosted =>
    rcases h.containers c hosted hback with ⟨before, hbefore, _⟩ | hnew
    · rw [hgone] at hbefore
      cases hbefore
    · omega

end Since

end LiveDataflow.Layout

/-! ## Everything that comes about -/

namespace LiveDataflow.Session

/-- **The records of a layout agree**, on every layout that comes about.  An instance is listed under its
own operator and no other, at the place of its partition, and numbers ascend with the partitions.  Wires
join instances that are there.  An instance has a container exactly if the container is there and hosts it,
so no two do, what is hosted is there, and no container hosts more than the settings allow.  Numbers are at
most the last one given, and whatever a program does from then on: what is still there is the same, what
is new has a later number, and a number that is free by then is never given again. -/
theorem Reachable.indexes_agree {s : Session} (h : s.Reachable) {l : Layout} (hl : s.target = .live l) :
    (∀ id i, l.instance? id = some i → i.id = id ∧ (l.instancesOf i.operator)[i.partition]? = some id) ∧
    (∀ name k id, (l.instancesOf name)[k]? = some id →
      ∃ i, l.instance? id = some i ∧ i.operator = name ∧ i.partition = k) ∧
    (∀ name, (l.instancesOf name).Pairwise (· < ·)) ∧
    (∀ w ∈ l.wires, l.Present w.source ∧ l.Present w.target) ∧
    (∀ id c, (∃ i, l.instance? id = some i ∧ i.container = some c) ↔
      ∃ hosted, l.containers.get? c = some hosted ∧ id ∈ hosted) ∧
    (∀ c hosted, l.containers.get? c = some hosted →
      hosted.size ≤ max 1 l.dataflow.config.maxPerContainer.toNat ∧ ∀ id ∈ hosted, l.Present id ∧
        ∀ c' hosted', l.containers.get? c' = some hosted' → id ∈ hosted' → c' = c) ∧
    (∀ id, l.Present id → id.val ≤ l.lastInstance) ∧
    (∀ c hosted, l.containers.get? c = some hosted → c.val ≤ l.lastContainer) ∧
    ∀ t l', s.Leads t → t.target = .live l' → l.Since l' ∧
      (∀ id, id.val ≤ l.lastInstance → ¬ l.Present id → ¬ l'.Present id) ∧
      ∀ c, c.val ≤ l.lastContainer → l.containers.get? c = none → l'.containers.get? c = none := by
  have hintact : l.Intact := h.intact l hl
  have hnumbered := hintact.numbered
  have hlisted : l.Listed := Layout.Listed.kept.holds .ofDataflow h l hl
  have hhoused : l.Housed := Layout.Housed.kept.holds .ofDataflow h l hl
  have hagree : ∀ id c, (∃ i, l.instance? id = some i ∧ i.container = some c) ↔ l.HostedBy id c := by
    intro id c
    rw [← Layout.containerOf_eq_some_iff]
    exact hhoused.agree id c
  refine ⟨fun id i hi => ⟨hnumbered.own id i hi, hlisted.position id i hi⟩,
    fun name k id => (hlisted.getElem?_eq_some_iff hnumbered).1, hlisted.ascending, hintact.ends, hagree,
    fun c hosted hc => ⟨hhoused.small c hosted hc, fun id hid => ⟨hhoused.present ⟨hosted, hc, hid⟩, ?_⟩⟩,
    hnumbered.bounded, hhoused.numbered, fun t l' hlead hl' => ?_⟩
  · intro c' hosted' hc' hid'
    have hfirst := (hhoused.agree id c).2 ⟨hosted, hc, hid⟩
    have hsecond := (hhoused.agree id c').2 ⟨hosted', hc', hid'⟩
    rw [hfirst] at hsecond
    exact (Option.some.inj hsecond).symm
  · have hstart : s.On l.Since := by
      intro l₁ hl₁
      rw [hl] at hl₁
      cases hl₁
      exact .refl l
    have hsince : l.Since l' := (Layout.Since.kept l).leads hlead h hstart l' hl'
    exact ⟨hsince, fun id => hsince.not_present, fun c => hsince.no_container⟩

/-- The operator that was taken away is laid out again: it does not get its number back. -/
theorem indexes_agree_knotted :
    (Session.onLayout knotted).Reachable ∧ knotted.lastInstance = 4 ∧ ¬ knotted.Present ⟨4⟩ ∧
      (∃ i, knotted.instance? ⟨2⟩ = some i ∧ i.operator = "b" ∧ i.partition = 0) ∧
      ∃ ids l', knotted.addOperator "d" = .ok (ids, l') ∧ (Session.onLayout knotted).Leads (.onLayout l') ∧
        l'.instancesOf "d" = [⟨5⟩] ∧ ¬ l'.Present ⟨4⟩ := by
  have hlist : (knotted.addOperator "d").toOption.map (·.2.instancesOf "d") = some [⟨5⟩] := by
    decide +kernel
  obtain ⟨_, hposition, _, _, _, _, _, _, hlater⟩ := Reachable.indexes_agree reachable_knotted rfl
  cases hok : knotted.addOperator "d" with
  | error c => rw [hok] at hlist; cases hlist
  | ok p =>
    obtain ⟨ids, l'⟩ := p
    rw [hok] at hlist
    have hlead : (Session.onLayout knotted).Leads (.onLayout l') := .single (.layout (.addOperator "d" hok))
    have hgone : ¬ knotted.Present ⟨4⟩ := by decide +kernel
    obtain ⟨_, hfree, _⟩ := hlater _ l' hlead rfl
    exact ⟨reachable_knotted, by decide +kernel, hgone, hposition "b" 0 ⟨2⟩ (by decide +kernel), ids, l', rfl,
      hlead, Option.some.inj hlist, hfree ⟨4⟩ (by decide +kernel) hgone⟩

end LiveDataflow.Session
