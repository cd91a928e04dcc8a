import LiveDataflow.Proofs.Account

/-!
# A cluster that follows the rollouts

A cluster runs instances, each with the wires into it that it was started with, and holds containers.
It starts as the first layout of a plan and carries out the rollout of one session after the other.
A rollout names every instance whose wires have changed, so the cluster stays in line with the layout.

## Results

* `Cluster.follow`: how a cluster carries out a rollout.
* `Layout.Settled`: what a layout is like between two sessions that are applied.
* `Cluster.Run.in_line`: after every session the cluster is exactly the layout, and no rollout stops
  what does not run, starts what runs, gives up what is not held or asks for what is.
-/

set_option autoImplicit false

namespace LiveDataflow

/-- What runs, each instance with the wires into it that it was started with, and what is held. -/
structure Cluster where
  running : SortedMap InstanceId (List Wire)
  held : SortedSet ContainerId

namespace Cluster

/-- The cluster that a layout describes. -/
def of (l : Layout) : Cluster :=
  ⟨l.instances.mapValues fun id _ => l.incoming id, .ofList l.containers.keys⟩

def release (c : Cluster) (ids : SortedSet ContainerId) : Cluster := { c with held := c.held \ ids }

def stop (c : Cluster) (ids : SortedSet InstanceId) : Cluster :=
  { c with running := c.running.filter fun id _ => id ∉ ids }

def acquire (c : Cluster) (ids : SortedSet ContainerId) : Cluster := { c with held := c.held ∪ ids }

/-- Starts instances with the wires that the layout has for them. -/
def start (c : Cluster) (l : Layout) (ids : SortedSet InstanceId) : Cluster :=
  { c with running := ids.toList.foldl (fun m id => m.insert id (l.incoming id)) c.running }

/-- Carries out a rollout: what goes first, what comes then. -/
def follow (c : Cluster) (r : Rollout) (l : Layout) : Cluster :=
  (((c.release r.released).stop r.stopped).acquire r.created).start l r.started

/-- A run of live sessions, each applied, and the cluster that carries out their rollouts. -/
inductive Run : Layout → Cluster → Prop
  | materialize {s : Session} {l : Layout} :
      s.Reachable → Layout.materialize s.dataflow = .ok l → Run l (.of l)
  /-- A session of any edits, failing ones included, whose rollout the deployer accepts. -/
  | apply {l l' : Layout} {c : Cluster} {r : Rollout} {σ : Type} (edits : List Edit)
      (deployer : Deployer σ) (world world' : σ) :
      Run l c → ((Session.onLayout l).runAll edits).2.apply deployer world =
        ⟨.ok r, .live l', world'⟩ → Run l' (c.follow r l')

/-- A rollout that a cluster can carry out as it is: it stops what runs, starts what does not run by
then, gives up what is held and asks for what is not. -/
structure Fits (c : Cluster) (r : Rollout) : Prop where
  stopped : ∀ id ∈ r.stopped, (c.running.get? id).isSome = true
  started : ∀ id ∈ r.started, (c.stop r.stopped).running.get? id = none
  released : ∀ id ∈ r.released, id ∈ c.held
  created : ∀ id ∈ r.created, id ∉ c.held

end Cluster

namespace Layout

variable {l l₀ l' : Layout} {id : InstanceId} {changes : ChangeSet} {r : Rollout}

/-! ## Between two sessions -/

/-- Everything is placed, in containers that were given numbers before. -/
structure Settled (l : Layout) : Prop where
  sound : l.Sound
  placed : ∀ id, l.Present id → l.Placed id
  numbered : ∀ c ∈ l.containers.keys, c.val ≤ l.lastContainer

/-- After a session on a settled layout exactly the instances that it made are taken for new. -/
theorem mem_novel_iff (h₀ : l₀.Settled) (h : l.Sound) (ha : ChangeSet.Accounts l₀ changes l) :
    id ∈ l.novel changes ↔ l.Present id ∧ ¬ l₀.Present id := by
  unfold novel
  rw [SortedSet.mem_union, (ha.tracks id).added]
  refine or_iff_left_of_imp fun hid => ?_
  obtain ⟨i, hi, hno⟩ := (mem_unplaced_iff h.laid.numbered).1 hid
  have hp : l.Present id := present_of_instance? hi
  refine ⟨hp, fun hstart => ?_⟩
  obtain ⟨j, hj, hcontainer⟩ := h₀.placed id hstart
  rw [(ha.tracks id).kept hstart hp, hj] at hi
  cases hi
  exact hcontainer hno

theorem released_of_reconcile (hr : l.reconcile changes = .ok (r, l')) :
    r.released = (l.place (l.novel changes)).1.released := by
  obtain ⟨_, rfl⟩ := reconcile_eq_ok_iff.1 hr
  rfl

theorem created_of_reconcile (hr : l.reconcile changes = .ok (r, l')) :
    r.created = (l.place (l.novel changes)).1.created := by
  obtain ⟨_, rfl⟩ := reconcile_eq_ok_iff.1 hr
  rfl

section Reconcile

variable (h₀ : l₀.Settled) (h : l.Sound) (ha : ChangeSet.Accounts l₀ changes l)
  (hr : l.reconcile changes = .ok (r, l'))

include h₀ h ha hr

theorem settled_of_reconcile : l'.Settled := by
  have hprimes := primes_of_primeAll (reconcile_eq_ok_iff.1 hr).1
  have halike := alike_of_reconcile hr
  refine ⟨h.alike halike, fun id hid => placed_of_reconcile h.laid.numbered hr hid, fun c hc => ?_⟩
  · rw [hprimes.containers, mem_containers_place] at hc
    rw [hprimes.lastContainer]
    have hle : l.lastContainer ≤ (l.place (l.novel changes)).2.lastContainer :=
      (hosts_place l _).lastContainer
    rcases hc with ⟨hold, _⟩ | hnew
    · rw [ha.keeps.containers] at hold
      have := h₀.numbered c hold
      rw [← ha.keeps.lastContainer] at this
      omega
    · exact (mem_created_place.1 hnew).2

theorem mem_started_of_novel (hid : l.Present id) (hstart : ¬ l₀.Present id) : id ∈ r.started := by
  have hnovel := (mem_novel_iff h₀ h ha).2 ⟨hid, hstart⟩
  exact (mem_started_iff h.intact ha.balances hr).2 ⟨id, .inl hnovel, .refl⟩

/-- What is stopped is what ran when the session began, and is gone or started again. -/
theorem mem_stopped_iff : id ∈ r.stopped ↔ l₀.Present id ∧ (id ∈ r.started ∨ ¬ l.Present id) := by
  have hpresent : id ∈ r.started → l.Present id := present_of_mem_started h.intact ha.balances hr
  rw [stopped_eq h.intact ha.balances hr, SortedSet.mem_union, SortedSet.mem_sdiff,
    mem_novel_iff h₀ h ha, (ha.balances id).removed]
  by_cases hp : l.Present id
  · by_cases hq : l₀.Present id <;> simp [hp, hq]
  · have hno : id ∉ r.started := fun hid => hp (hpresent hid)
    simp [hp, hno]

end Reconcile

/-! ## The first layout -/

/-- The numbers that laying out operators answers are those of all new instances. -/
theorem present_addOperators {names : List String} {ids : List InstanceId} (h : l.Laid)
    (hok : l.addOperators names = .ok (ids, l')) (hid : l'.Present id) : id ∈ ids ∨ l.Present id := by
  induction names generalizing l ids with
  | nil => cases hok; exact .inr hid
  | cons name rest ih =>
    obtain ⟨first, l₁, more, hone, hrest, rfl⟩ := addOperators_cons_eq_ok_iff.1 hok
    rw [List.mem_append]
    rcases ih (h.addOperator hone) hrest with hmore | hfirst
    · exact .inl (.inr hmore)
    · obtain ⟨partitions, wires, rfl, rfl⟩ := wires_only_addOperator hone
      exact (h.numbered.present_enter.1 hfirst).imp_left .inl

theorem containers_addOperators {names : List String} {ids : List InstanceId}
    (hok : l.addOperators names = .ok (ids, l')) :
    l'.containers = l.containers ∧ l'.lastContainer = l.lastContainer := by
  refine addOperators_keeps (P := fun p => p.containers = l.containers ∧ p.lastContainer = l.lastContainer)
    (fun hone h => ?_) ⟨rfl, rfl⟩ hok
  obtain ⟨partitions, wires, _, rfl⟩ := wires_only_addOperator hone
  exact h

theorem settled_materialize {d : Dataflow} (hd : d.Anchored) (hok : materialize d = .ok l) :
    l.Settled := by
  obtain ⟨ids, l₀, _, ha, hp⟩ := materialize_eq_ok_iff.1 hok
  have hprimes := primes_of_primeAll hp
  refine ⟨sound_materialize hd hok, fun id hid => ?_, fun c hc => ?_⟩
  · have hid : l₀.Present id :=
      ((hprimes.alike.isSome id).trans ((alike_place l₀ _).isSome id)).symm.trans hid
    rcases present_addOperators (Laid.ofDataflow hd) ha hid with hmem | hold
    · exact (hprimes.placed id).2 (placed_place.2 (.inr ⟨SortedSet.mem_ofList.2 hmem, hid⟩))
    · cases hold
  · rw [hprimes.containers, mem_containers_place, (containers_addOperators ha).1] at hc
    rw [hprimes.lastContainer]
    rcases hc with ⟨hold, _⟩ | hnew
    · cases hold
    · exact (mem_created_place.1 hnew).2

end Layout

namespace Cluster

variable {l l₀ l' : Layout} {id : InstanceId} {changes : ChangeSet} {r : Rollout} {c : Cluster}

theorem get?_running_of_present (h : l.Present id) :
    (Cluster.of l).running.get? id = some (l.incoming id) := by
  obtain ⟨i, hi⟩ := Option.isSome_iff_exists.1 h
  exact (SortedMap.get?_mapValues ..).trans (congrArg _ hi)

theorem get?_running_of_absent (h : ¬ l.Present id) : (Cluster.of l).running.get? id = none := by
  have hi : l.instance? id = none := Option.not_isSome_iff_eq_none.1 h
  exact (SortedMap.get?_mapValues ..).trans (congrArg _ hi)

theorem get?_running_stop {ids : SortedSet InstanceId} :
    (c.stop ids).running.get? id = if id ∈ ids then none else c.running.get? id := by
  refine (SortedMap.get?_filter ..).trans ?_
  cases c.running.get? id <;> by_cases h : id ∈ ids <;> simp [Option.filter, h]

theorem get?_running_start {ids : SortedSet InstanceId} :
    (c.start l ids).running.get? id = if id ∈ ids then some (l.incoming id) else c.running.get? id := by
  unfold start
  split
  · next hid => exact SortedMap.get?_foldl_insert_of_mem ⟨id, hid, rfl⟩ fun _ _ heq => congrArg _ heq
  · next hid => exact SortedMap.get?_foldl_insert_of_notMem fun _ hother heq => hid (heq ▸ hother)

section Reconcile

open Layout

variable (h₀ : l₀.Settled) (h : l.Sound) (ha : ChangeSet.Accounts l₀ changes l)
  (hr : l.reconcile changes = .ok (r, l'))

include h₀ h ha hr

theorem fits_of_reconcile : (Cluster.of l₀).Fits r := by
  have hstopped : ∀ id, id ∈ r.stopped ↔ l₀.Present id ∧ (id ∈ r.started ∨ ¬ l.Present id) :=
    fun _ => mem_stopped_iff h₀ h ha hr
  refine ⟨fun id hid => ?_, fun id hid => ?_, fun id hid => ?_, fun id hid => ?_⟩
  · rw [get?_running_of_present ((hstopped id).1 hid).1]
    rfl
  · rw [get?_running_stop]
    split
    · rfl
    · rename_i hno
      exact get?_running_of_absent fun hstart => hno ((hstopped id).2 ⟨hstart, .inl hid⟩)
  · rw [released_of_reconcile hr] at hid
    have hold := (mem_released_place.1 hid).1
    rw [ha.keeps.containers] at hold
    exact SortedSet.mem_ofList.2 hold
  · rw [created_of_reconcile hr] at hid
    intro hheld
    have hle := h₀.numbered id (SortedSet.mem_ofList.1 hheld)
    have hlt := (mem_created_place.1 hid).1
    rw [ha.keeps.lastContainer] at hlt
    omega

theorem running_follow :
    ((Cluster.of l₀).follow r l').running.get? id = (Cluster.of l').running.get? id := by
  have hstopped : id ∈ r.stopped ↔ l₀.Present id ∧ (id ∈ r.started ∨ ¬ l.Present id) :=
    mem_stopped_iff h₀ h ha hr
  have hstarted : id ∈ r.started → l.Present id := present_of_mem_started h.intact ha.balances hr
  have halike := alike_of_reconcile hr
  have hpresent : l'.Present id ↔ l.Present id := by
    unfold Present
    rw [halike.isSome]
  have hbefore : (((Cluster.of l₀).release r.released).stop r.stopped).running.get? id =
      if id ∈ r.stopped then none else (Cluster.of l₀).running.get? id := get?_running_stop
  unfold follow
  rw [get?_running_start]
  by_cases hid : id ∈ r.started
  · rw [if_pos hid, get?_running_of_present (hpresent.2 (hstarted hid))]
  · rw [if_neg hid]
    refine hbefore.trans ?_
    by_cases hnow : l.Present id
    · -- it was there before and is left alone, with the wires that it was started with
      have hstart : l₀.Present id := by
        by_contra hno
        exact hid (mem_started_of_novel h₀ h ha hr hnow hno)
      have hno : id ∉ r.stopped := fun hs => ((hstopped.1 hs).2).elim hid fun hgone => hgone hnow
      have hwires : l'.incoming id = l₀.incoming id := by
        have : l'.incoming id = l.incoming id := by unfold incoming; rw [halike.wires]
        rw [this]
        exact (ha.tracks id).incoming hstart hnow
          fun haffected => hid (mem_started_of_affected h.intact ha.balances hr haffected)
      rw [if_neg hno, get?_running_of_present hstart, get?_running_of_present (hpresent.2 hnow), hwires]
    · rw [get?_running_of_absent fun hp => hnow (hpresent.1 hp)]
      by_cases hstart : l₀.Present id
      · rw [if_pos (hstopped.2 ⟨hstart, .inr hnow⟩)]
      · rw [get?_running_of_absent hstart, ite_self]

theorem follow_eq : (Cluster.of l₀).follow r l' = Cluster.of l' := by
  have hrunning : ((Cluster.of l₀).follow r l').running = (Cluster.of l').running :=
    SortedMap.ext_get? fun id => running_follow h₀ h ha hr
  have hheld : ((Cluster.of l₀).follow r l').held = (Cluster.of l').held := by
    refine SortedSet.ext_mem fun k => ?_
    have hcontainers := (primes_of_primeAll (reconcile_eq_ok_iff.1 hr).1).containers
    have hall : k ∈ (Cluster.of l').held ↔ k ∈ l'.containers.keys := SortedSet.mem_ofList
    have hold : k ∈ ((Cluster.of l₀).follow r l').held ↔
        (k ∈ l₀.containers.keys ∧ k ∉ r.released) ∨ k ∈ r.created := by
      show k ∈ (SortedSet.ofList l₀.containers.keys \ r.released) ∪ r.created ↔ _
      rw [SortedSet.mem_union, SortedSet.mem_sdiff, SortedSet.mem_ofList]
    rw [hold, hall, hcontainers, mem_containers_place, ha.keeps.containers, released_of_reconcile hr,
      created_of_reconcile hr]
  have heq : ∀ c d : Cluster, c.running = d.running → c.held = d.held → c = d := by
    rintro ⟨_, _⟩ ⟨_, _⟩ rfl rfl
    rfl
  exact heq _ _ hrunning hheld

end Reconcile

/-! ## Runs -/

/-- One session on a settled layout: its rollout can be made, and fits. -/
theorem session_in_line (h₀ : l₀.Settled) (edits : List Edit) :
    ∃ r l', l'.Settled ∧ (Cluster.of l₀).Fits r ∧ (Cluster.of l₀).follow r l' = .of l' ∧
      ∀ {σ : Type} (deployer : Deployer σ) (world : σ),
        ((Session.onLayout l₀).runAll edits).2.apply deployer world =
          ⟨(deployer r world).1.map fun _ => r, .live l', (deployer r world).2⟩ := by
  have hend := Session.accounts_runAll (Session.accounts_onLayout h₀.sound) edits
  generalize ((Session.onLayout l₀).runAll edits).2 = s at hend ⊢
  obtain ⟨target, changes⟩ := s
  obtain ⟨l, rfl, h, ha⟩ := hend
  obtain ⟨r, l', hr⟩ := Layout.exists_reconcile h.intact ha.balances
  exact ⟨r, l', Layout.settled_of_reconcile h₀ h ha hr, fits_of_reconcile h₀ h ha hr,
    follow_eq h₀ h ha hr, fun deployer world => Session.apply_eq_of_reconcile deployer world hr⟩

/-- What holds between the sessions of a run. -/
theorem Run.settled (h : Run l c) : l.Settled ∧ c = .of l := by
  induction h with
  | materialize hs hl => exact ⟨Layout.settled_materialize hs.anchored hl, rfl⟩
  | apply edits deployer world world' _ happly ih =>
    obtain ⟨h₀, rfl⟩ := ih
    obtain ⟨r, l', hsettled, _, hfollow, hall⟩ := session_in_line h₀ edits
    rw [hall deployer world] at happly
    cases hanswer : (deployer r world).1 with
    | error e => rw [hanswer] at happly; cases happly
    | ok u =>
      rw [hanswer] at happly
      cases happly
      exact ⟨hsettled, hfollow⟩

/-- **The instruction sets keep a cluster in line with the layout.**  Between the sessions of a run the
cluster is exactly the layout: it runs its instances with the wires that they have, and holds its
containers.  The next session, whatever its edits, asks every deployer for one rollout, which is its
outcome if the deployer accepts it; the rollout fits the cluster, and the cluster that follows it is
exactly the layout again. -/
theorem Run.in_line (h : Run l c) :
    c = .of l ∧ ∀ edits : List Edit, ∃ r l', c.Fits r ∧ c.follow r l' = .of l' ∧
      ∀ {σ : Type} (deployer : Deployer σ) (world : σ),
        ((Session.onLayout l).runAll edits).2.apply deployer world =
          ⟨(deployer r world).1.map fun _ => r, .live l', (deployer r world).2⟩ := by
  obtain ⟨h₀, rfl⟩ := h.settled
  refine ⟨rfl, fun edits => ?_⟩
  obtain ⟨r, l', _, hfits, hfollow, hall⟩ := session_in_line h₀ edits
  exact ⟨r, l', hfits, hfollow, hall⟩

/-- A second operator that the first one feeds, and an edit that fails. -/
theorem Run.in_line_single :
    Run .single (.of .single) ∧ ∃ r l', (Cluster.of .single).Fits r ∧
      (Cluster.of .single).follow r l' = .of l' ∧
      ((Session.onLayout .single).runAll
        [.addOperator "b" .relay, .addOperator "b" .relay,
          .addStream "ab" ⟨"a", "out"⟩ [⟨"b", "in"⟩]]).2.apply Deployer.accepting () =
            ⟨.ok r, .live l', ()⟩ := by
  have h : Run .single (.of .single) := .materialize Session.reachable_single rfl
  obtain ⟨r, l', hfits, hfollow, hall⟩ := (in_line h).2 [.addOperator "b" .relay,
    .addOperator "b" .relay, .addStream "ab" ⟨"a", "out"⟩ [⟨"b", "in"⟩]]
  exact ⟨h, r, l', hfits, hfollow, hall Deployer.accepting ()⟩

end Cluster

end LiveDataflow
