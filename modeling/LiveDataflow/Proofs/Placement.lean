import LiveDataflow.Proofs.Wiring
import LiveDataflow.Rollout

/-!
# What placing and priming do

Placing hosts instances in new containers and gives up empty ones; priming sets checkpoints.  Neither
touches the plan, the wires or which instances there are.

## Results

* `Layout.Alike`: layouts that differ in containers and checkpoints only.
* `Layout.hosts_place`: what is placed, and in which containers.
* `Layout.primeAll_eq_ok_iff`, `Layout.instance?_primeAll`: priming fails exactly if an instance is missing,
  and what it does if not.
* `Layout.primeAll_keeps`, `Layout.addOperators_keeps`: what one step keeps, a run of such steps keeps.
* `Layout.reconcile_eq_ok_iff`: what a rollout is made of.
* `Layout.materialize_eq_ok_iff`: how the first layout comes about.
* `Session.exists_apply`: which layout the end of a session leaves.
-/

set_option autoImplicit false

namespace LiveDataflow

/-- An instance without its container and its checkpoint. -/
def Instance.bare (i : Instance) : Instance := { i with container := none, checkpoint := none }

namespace Layout

variable {l l' l'' : Layout} {id : InstanceId} {ids more : List InstanceId}

/-- Layouts that differ in containers and checkpoints only. -/
structure Alike (l l' : Layout) : Prop where
  dataflow : l'.dataflow = l.dataflow
  byOperator : l'.byOperator = l.byOperator
  wires : l'.wires = l.wires
  lastInstance : l'.lastInstance = l.lastInstance
  instances : ∀ id, (l'.instance? id).map Instance.bare = (l.instance? id).map Instance.bare

theorem Alike.refl (l : Layout) : l.Alike l := ⟨rfl, rfl, rfl, rfl, fun _ => rfl⟩

theorem Alike.trans (h : l.Alike l') (h' : l'.Alike l'') : l.Alike l'' :=
  ⟨h'.dataflow.trans h.dataflow, h'.byOperator.trans h.byOperator, h'.wires.trans h.wires,
    h'.lastInstance.trans h.lastInstance, fun id => (h'.instances id).trans (h.instances id)⟩

theorem Alike.isSome (h : l.Alike l') (id : InstanceId) :
    (l'.instance? id).isSome = (l.instance? id).isSome := by
  have := congrArg Option.isSome (h.instances id)
  simpa using this

/-- An instance has a counterpart that differs in its container and its checkpoint only. -/
theorem Alike.counterpart (h : l.Alike l') {i : Instance} (hi : l'.instance? id = some i) :
    ∃ j, l.instance? id = some j ∧ i.bare = j.bare := by
  have := h.instances id
  rw [hi] at this
  obtain ⟨j, hj, hij⟩ := Option.map_eq_some_iff.1 this.symm
  exact ⟨j, hj, hij.symm⟩

theorem Alike.instancesOf_eq (h : l.Alike l') (name : String) :
    l'.instancesOf name = l.instancesOf name := by
  unfold instancesOf
  rw [h.byOperator]

/-! ## Hosting -/

/-- Whether an instance is there and has a container. -/
def Placed (l : Layout) (id : InstanceId) : Prop :=
  ∃ i, l.instance? id = some i ∧ i.container ≠ none

/-- Instances get new containers. -/
structure Hosts (l : Layout) (ids : List InstanceId) (l' : Layout) : Prop where
  alike : l.Alike l'
  lastContainer : l.lastContainer ≤ l'.lastContainer
  containers : ∀ c, c ∈ l'.containers.keys ↔
    c ∈ l.containers.keys ∨ (l.lastContainer < c.val ∧ c.val ≤ l'.lastContainer)
  placed : ∀ id, l'.Placed id ↔ l.Placed id ∨ (id ∈ ids ∧ (l.instance? id).isSome = true)

theorem get?_foldl_adjust {κ α : Type} [LT κ] [DecidableEq κ] {f : α → α}
    (hf : ∀ a, f (f a) = f a) (keys : List κ) (m : SortedMap κ α) (k : κ) :
    (keys.foldl (fun m j => m.adjust j f) m).get? k =
      if k ∈ keys then (m.get? k).map f else m.get? k := by
  induction keys generalizing m with
  | nil => rfl
  | cons j rest ih =>
    rw [List.foldl_cons, ih, SortedMap.get?_adjust]
    by_cases hj : j = k
    · subst hj
      cases m.get? j <;> simp [hf]
    · simp [hj, Ne.symm hj]

theorem instance?_host (group : List InstanceId) :
    (l.host group).instance? id =
      if id ∈ group then
        (l.instance? id).map fun i => { i with container := some ⟨l.lastContainer + 1⟩ }
      else l.instance? id :=
  get?_foldl_adjust (f := fun i : Instance => { i with container := some ⟨l.lastContainer + 1⟩ }) (fun _ => rfl)
    group l.instances id

theorem hosts_host (l : Layout) (group : List InstanceId) : l.Hosts group (l.host group) := by
  refine ⟨⟨rfl, rfl, rfl, rfl, fun id => ?_⟩, Nat.le_succ _, fun c => ?_, fun id => ?_⟩
  · rw [instance?_host]
    split
    · rw [Option.map_map]; rfl
    · rfl
  · show c ∈ (l.containers.insert ⟨l.lastContainer + 1⟩ _).keys ↔
      _ ∨ (l.lastContainer < c.val ∧ c.val ≤ l.lastContainer + 1)
    rw [SortedMap.mem_keys_iff, SortedMap.mem_keys_iff, SortedMap.get?_insert]
    split
    · rename_i hc
      subst hc
      simp
    · rename_i hc
      have hne : c.val ≠ l.lastContainer + 1 := fun e => hc (by cases c; exact congrArg _ e.symm)
      constructor
      · exact .inl
      · rintro (h | h)
        · exact h
        · omega
  · unfold Placed
    rw [instance?_host]
    split
    · rename_i hid
      cases l.instance? id <;> simp [hid]
    · rename_i hid
      simp [hid]

theorem Hosts.refl (l : Layout) : l.Hosts [] l :=
  ⟨.refl l, Nat.le_refl _, fun c => ⟨.inl, fun h => h.elim id fun h => by omega⟩, fun id => by simp⟩

theorem Hosts.trans (h : l.Hosts ids l') (h' : l'.Hosts more l'') : l.Hosts (ids ++ more) l'' := by
  refine ⟨h.alike.trans h'.alike, Nat.le_trans h.lastContainer h'.lastContainer, fun c => ?_, fun id => ?_⟩
  · have h₁ := h.lastContainer
    have h₂ := h'.lastContainer
    rw [h'.containers, h.containers, or_assoc]
    refine or_congr_right ⟨fun hc => ?_, fun hc => ?_⟩ <;> omega
  · rw [h'.placed, h.placed, h.alike.isSome, List.mem_append]
    grind

theorem hosts_foldl_host (groups : List (List InstanceId)) (l : Layout) :
    l.Hosts groups.flatten (groups.foldl host l) := by
  induction groups generalizing l with
  | nil => exact .refl l
  | cons group rest ih => exact (hosts_host l group).trans (ih (l.host group))

theorem flatten_groupsWithin {α : Type} {size : Nat} (hsize : 0 < size) (n : Nat) (xs : List α)
    (hn : xs.length ≤ n) : (groupsWithin size n xs).flatten = xs := by
  induction n generalizing xs with
  | zero => cases xs with
    | nil => rfl
    | cons x rest => cases hn
  | succ n ih =>
    cases xs with
    | nil => rfl
    | cons x rest =>
      have hless : ((x :: rest).drop size).length ≤ n := by
        rw [List.length_drop]
        simp only [List.length_cons] at hn ⊢
        omega
      rw [groupsWithin, List.flatten_cons, ih _ hless, List.take_append_drop]

theorem flatten_groups {α : Type} {size : Nat} (hsize : 0 < size) (xs : List α) :
    (groups size xs).flatten = xs :=
  flatten_groupsWithin hsize _ _ (Nat.le_refl _)

/-! ## Placing -/

/-- The layout without its empty containers. -/
def kept (l : Layout) : Layout :=
  { l with containers := l.containers.filter fun _ hosted => !hosted.isEmpty }

/-- Those of the given instances that are there and have no container. -/
def waiting (l : Layout) (ids : SortedSet InstanceId) : List InstanceId :=
  ids.toList.filter fun id => (l.instance? id).any (·.container = none)

theorem mem_waiting_iff {ids : SortedSet InstanceId} :
    id ∈ l.waiting ids ↔ id ∈ ids ∧ ∃ i, l.instance? id = some i ∧ i.container = none := by
  unfold waiting
  rw [List.mem_filter, SortedSet.mem_iff]
  cases l.instance? id <;> simp

theorem hosts_place (l : Layout) (ids : SortedSet InstanceId) :
    l.kept.Hosts (l.waiting ids) (l.place ids).2 := by
  have := hosts_foldl_host (groups l.dataflow.config.groupSize (l.waiting ids)) l.kept
  rw [flatten_groups (by unfold Config.groupSize; omega)] at this
  exact this

theorem alike_place (l : Layout) (ids : SortedSet InstanceId) : l.Alike (l.place ids).2 :=
  have hkept : l.Alike l.kept := ⟨rfl, rfl, rfl, rfl, fun _ => rfl⟩
  hkept.trans (hosts_place l ids).alike

theorem mem_created_place {ids : SortedSet InstanceId} {c : ContainerId} :
    c ∈ (l.place ids).1.created ↔ l.lastContainer < c.val ∧ c.val ≤ (l.place ids).2.lastContainer := by
  have hle : l.lastContainer ≤ (l.place ids).2.lastContainer := (hosts_place l ids).lastContainer
  have : (l.place ids).1.created = .ofList
      ((List.range ((l.place ids).2.lastContainer - l.lastContainer)).map fun i =>
        (⟨l.lastContainer + 1 + i⟩ : ContainerId)) := rfl
  rw [this, SortedSet.mem_ofList, List.mem_map]
  constructor
  · rintro ⟨i, hi, rfl⟩
    have := List.mem_range.1 hi
    dsimp only
    omega
  · intro hc
    refine ⟨c.val - (l.lastContainer + 1), List.mem_range.2 (by omega), ?_⟩
    obtain ⟨v⟩ := c
    dsimp only at hc
    congr
    dsimp only
    omega

theorem mem_released_place {ids : SortedSet InstanceId} {c : ContainerId} :
    c ∈ (l.place ids).1.released ↔ c ∈ l.containers.keys ∧ c ∉ l.kept.containers.keys := by
  have : (l.place ids).1.released =
      .ofList (l.containers.filter fun _ hosted => hosted.isEmpty).keys := rfl
  rw [this, SortedSet.mem_ofList]
  unfold kept
  simp only [SortedMap.mem_keys_iff, SortedMap.get?_filter]
  cases l.containers.get? c with
  | none => simp
  | some hosted => cases h : hosted.isEmpty <;> simp [Option.filter, h]

/-- **The containers after placing**: those that are not given up, and the new ones. -/
theorem mem_containers_place {ids : SortedSet InstanceId} {c : ContainerId} :
    c ∈ (l.place ids).2.containers.keys ↔
      (c ∈ l.containers.keys ∧ c ∉ (l.place ids).1.released) ∨ c ∈ (l.place ids).1.created := by
  rw [(hosts_place l ids).containers, mem_created_place, mem_released_place]
  refine or_congr_left ⟨fun h => ⟨?_, fun hn => hn.2 h⟩, fun h => ?_⟩
  · unfold kept at h
    rw [SortedMap.mem_keys_iff, SortedMap.get?_filter] at h
    rw [SortedMap.mem_keys_iff]
    cases hc : l.containers.get? c with
    | none => rw [hc] at h; cases h
    | some hosted => rfl
  · by_contra hn
    exact h.2 ⟨h.1, hn⟩

theorem placed_place {ids : SortedSet InstanceId} :
    (l.place ids).2.Placed id ↔ l.Placed id ∨ (id ∈ ids ∧ (l.instance? id).isSome = true) := by
  rw [(hosts_place l ids).placed, mem_waiting_iff]
  have hkept : l.kept.Placed id ↔ l.Placed id := Iff.rfl
  have hinst : l.kept.instance? id = l.instance? id := rfl
  rw [hkept, hinst]
  unfold Placed
  cases hi : l.instance? id with
  | none => simp
  | some i => cases hc : i.container <;> simp [hc]

/-! ## Priming -/

theorem prime_eq_ok_iff :
    l.prime id = .ok l' ↔ (l.instance? id).isSome = true ∧
      l' = { l with instances := l.instances.adjust id fun i =>
              { i with checkpoint := some Checkpoint.initial } } := by
  unfold prime
  have : l.instances.contains id = (l.instance? id).isSome := rfl
  rw [this]
  cases l.instance? id <;> simp [eq_comm]

theorem instance?_prime (h : l.prime id = .ok l') (j : InstanceId) :
    l'.instance? j =
      if id = j then (l.instance? j).map fun i => { i with checkpoint := some Checkpoint.initial }
      else l.instance? j := by
  obtain ⟨_, rfl⟩ := prime_eq_ok_iff.1 h
  exact SortedMap.get?_adjust ..

/-- Priming touches checkpoints only. -/
structure Primes (l l' : Layout) : Prop where
  alike : l.Alike l'
  containers : l'.containers = l.containers
  lastContainer : l'.lastContainer = l.lastContainer
  placed : ∀ id, l'.Placed id ↔ l.Placed id

theorem primes_of_prime (h : l.prime id = .ok l') : l.Primes l' := by
  have hinst := instance?_prime h
  obtain ⟨_, rfl⟩ := prime_eq_ok_iff.1 h
  refine ⟨⟨rfl, rfl, rfl, rfl, fun j => ?_⟩, rfl, rfl, fun j => ?_⟩
  · rw [hinst]
    split
    · rw [Option.map_map]; rfl
    · rfl
  · unfold Placed
    rw [hinst]
    split <;> cases l.instance? j <;> simp

theorem Primes.refl (l : Layout) : l.Primes l := ⟨.refl l, rfl, rfl, fun _ => Iff.rfl⟩

theorem Primes.trans {l₁ : Layout} (h : l.Primes l₁) (h' : l₁.Primes l') : l.Primes l' :=
  ⟨h.alike.trans h'.alike, h'.containers.trans h.containers, h'.lastContainer.trans h.lastContainer,
    fun id => (h'.placed id).trans (h.placed id)⟩

theorem primeAll_cons_eq_ok_iff {rest : List InstanceId} :
    l.primeAll (id :: rest) = .ok l' ↔ ∃ l₁, l.prime id = .ok l₁ ∧ l₁.primeAll rest = .ok l' := by
  unfold primeAll
  rw [List.foldlM_cons]
  cases l.prime id <;> simp [bind, Except.bind]

/-- **What priming one instance keeps, priming any number of them keeps.** -/
theorem primeAll_keeps {P : Layout → Prop}
    (hstep : ∀ {l₁ l₂ : Layout} {id : InstanceId}, l₁.prime id = .ok l₂ → P l₁ → P l₂) (h : P l)
    (hok : l.primeAll ids = .ok l') : P l' := by
  induction ids generalizing l with
  | nil => cases hok; exact h
  | cons id rest ih =>
    obtain ⟨l₁, hone, hrest⟩ := primeAll_cons_eq_ok_iff.1 hok
    exact ih (hstep hone h) hrest

theorem primes_of_primeAll (h : l.primeAll ids = .ok l') : l.Primes l' :=
  primeAll_keeps (P := l.Primes) (fun hone h => h.trans (primes_of_prime hone)) (.refl l) h

theorem primeAll_eq_ok_iff :
    (∃ l', l.primeAll ids = .ok l') ↔ ∀ id ∈ ids, (l.instance? id).isSome = true := by
  induction ids generalizing l with
  | nil => simp [primeAll, pure, Except.pure]
  | cons id rest ih =>
    rw [List.forall_mem_cons]
    constructor
    · rintro ⟨l', h⟩
      obtain ⟨l₁, hone, hrest⟩ := primeAll_cons_eq_ok_iff.1 h
      refine ⟨(prime_eq_ok_iff.1 hone).1, fun j hj => ?_⟩
      rw [← (primes_of_prime hone).alike.isSome]
      exact ih.1 ⟨l', hrest⟩ j hj
    · rintro ⟨hid, hall⟩
      have hone := prime_eq_ok_iff.2 ⟨hid, rfl⟩
      obtain ⟨l', hrest⟩ := ih.2 fun j hj => by
        rw [(primes_of_prime hone).alike.isSome]
        exact hall j hj
      exact ⟨l', primeAll_cons_eq_ok_iff.2 ⟨_, hone, hrest⟩⟩

/-- **The instances after priming.** -/
theorem instance?_primeAll (h : l.primeAll ids = .ok l') (id : InstanceId) :
    l'.instance? id =
      if id ∈ ids then (l.instance? id).map fun i => { i with checkpoint := some Checkpoint.initial }
      else l.instance? id := by
  induction ids generalizing l with
  | nil => cases h; rfl
  | cons j rest ih =>
    obtain ⟨l₁, hone, hrest⟩ := primeAll_cons_eq_ok_iff.1 h
    rw [ih hrest, instance?_prime hone]
    by_cases hj : j = id
    · subst hj
      cases l.instance? j <;> simp
    · simp [hj, Ne.symm hj]

/-! ## Rollouts -/

/-- The instances that a rollout takes for new. -/
def novel (l : Layout) (changes : ChangeSet) : SortedSet InstanceId := changes.added ∪ l.unplaced

/-- **What a rollout is made of.** -/
theorem reconcile_eq_ok_iff {changes : ChangeSet} {r : Rollout} :
    l.reconcile changes = .ok (r, l') ↔
      (l.place (l.novel changes)).2.primeAll (l.novel changes).toList = .ok l' ∧
      r = ⟨(l.place (l.novel changes)).1.released,
        ((l'.dependents (l.novel changes) \ l.novel changes) ∪ l'.dependents changes.affected ∪
          changes.removed) \ l.novel changes,
        (l.place (l.novel changes)).1.created,
        (l'.dependents (l.novel changes) ∪ l'.dependents changes.affected) \ changes.removed⟩ := by
  have : l.reconcile changes = do
      let p ← (l.place (l.novel changes)).2.primeAll (l.novel changes).toList
      return (⟨(l.place (l.novel changes)).1.released,
        ((p.dependents (l.novel changes) \ l.novel changes) ∪ p.dependents changes.affected ∪
          changes.removed) \ l.novel changes,
        (l.place (l.novel changes)).1.created,
        (p.dependents (l.novel changes) ∪ p.dependents changes.affected) \ changes.removed⟩, p) := rfl
  rw [this]
  cases hp : (l.place (l.novel changes)).2.primeAll (l.novel changes).toList with
  | error c => simp [bind, Except.bind]
  | ok p =>
    simp only [bind, Except.bind, pure, Except.pure, Except.ok.injEq, Prod.mk.injEq]
    constructor
    · rintro ⟨rfl, rfl⟩; exact ⟨rfl, rfl⟩
    · rintro ⟨rfl, rfl⟩; exact ⟨rfl, rfl⟩

theorem alike_of_reconcile {changes : ChangeSet} {r : Rollout}
    (h : l.reconcile changes = .ok (r, l')) : l.Alike l' :=
  (alike_place l _).trans (primes_of_primeAll (reconcile_eq_ok_iff.1 h).1).alike

/-! ## The first layout -/

theorem addOperators_cons_eq_ok_iff {name : String} {rest : List String} :
    l.addOperators (name :: rest) = .ok (ids, l') ↔ ∃ first l₁ more,
      l.addOperator name = .ok (first, l₁) ∧ l₁.addOperators rest = .ok (more, l') ∧
        ids = first ++ more := by
  rw [addOperators]
  cases hone : l.addOperator name with
  | error c => simp [bind, Except.bind]
  | ok r =>
    obtain ⟨first, l₁⟩ := r
    simp only [bind, Except.bind]
    cases hrest : l₁.addOperators rest with
    | error c => simp [hrest]
    | ok q =>
      obtain ⟨more, l₂⟩ := q
      simp only [pure, Except.pure, Except.ok.injEq, Prod.mk.injEq]
      constructor
      · rintro ⟨rfl, rfl⟩
        exact ⟨first, l₁, more, ⟨rfl, rfl⟩, hrest, rfl⟩
      · rintro ⟨_, _, more', ⟨rfl, rfl⟩, h, rfl⟩
        rw [hrest] at h
        cases h
        exact ⟨rfl, rfl⟩

/-- **What laying out one operator keeps, laying out any number of them keeps.** -/
theorem addOperators_keeps {P : Layout → Prop} {names : List String}
    (hstep : ∀ {l₁ l₂ : Layout} {name : String} {first : List InstanceId},
      l₁.addOperator name = .ok (first, l₂) → P l₁ → P l₂)
    (h : P l) (hok : l.addOperators names = .ok (ids, l')) : P l' := by
  induction names generalizing l ids with
  | nil => cases hok; exact h
  | cons name rest ih =>
    obtain ⟨first, l₁, more, hone, hrest, _⟩ := addOperators_cons_eq_ok_iff.1 hok
    exact ih (hstep hone h) hrest

theorem materialize_eq_ok_iff {d : Dataflow} :
    materialize d = .ok l ↔ ∃ ids l₀, d.validate = .ok () ∧
      (ofDataflow d).addOperators d.labels = .ok (ids, l₀) ∧
        (l₀.place (.ofList ids)).2.primeAll ids = .ok l := by
  unfold materialize
  cases hv : d.validate with
  | error c => simp [bind, Except.bind]
  | ok u =>
    simp only [bind, Except.bind]
    cases ha : (ofDataflow d).addOperators d.labels with
    | error c => simp
    | ok q =>
      obtain ⟨ids, l₀⟩ := q
      simp

end Layout

/-! ## The end of a session -/

theorem Session.apply_eq_of_reconcile {l l' : Layout} {changes : ChangeSet} {r : Rollout} {σ : Type}
    (deployer : Deployer σ) (world : σ) (hr : l.reconcile changes = .ok (r, l')) :
    Session.apply ⟨.live l, changes⟩ deployer world =
      ⟨(deployer r world).1.map fun _ => r, .live l', (deployer r world).2⟩ := by
  unfold Session.apply
  dsimp only
  rw [hr]

/-- However a session ends, its layout is the one that goes with its rollout, or is left as it was. -/
theorem Session.exists_apply {l : Layout} {changes : ChangeSet} {σ : Type} (deployer : Deployer σ) (world : σ) :
    ∃ l', (Session.apply ⟨.live l, changes⟩ deployer world).target = .live l' ∧
      (l' = l ∨ ∃ r, l.reconcile changes = .ok (r, l')) := by
  cases hr : l.reconcile changes with
  | error c =>
    refine ⟨l, ?_, .inl rfl⟩
    unfold Session.apply
    dsimp only
    rw [hr]
  | ok p =>
    obtain ⟨r, l'⟩ := p
    refine ⟨l', ?_, .inr ⟨r, rfl⟩⟩
    rw [apply_eq_of_reconcile deployer world hr]

/-- It differs in containers and checkpoints only. -/
theorem Session.exists_alike_apply {l : Layout} {changes : ChangeSet} {σ : Type} (deployer : Deployer σ)
    (world : σ) :
    ∃ l', (Session.apply ⟨.live l, changes⟩ deployer world).target = .live l' ∧ l.Alike l' := by
  obtain ⟨l', htarget, rfl | ⟨r, hr⟩⟩ := exists_apply deployer world
  · exact ⟨l, htarget, .refl l⟩
  · exact ⟨l', htarget, Layout.alike_of_reconcile hr⟩

end LiveDataflow
