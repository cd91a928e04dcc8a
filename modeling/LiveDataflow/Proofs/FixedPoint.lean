import LiveDataflow.Proofs.Outcome
import LiveDataflow.Proofs.Packing

/-!
# The end of a session leaves nothing to do

Sessions that were given up leave instances without containers and containers without instances.  The
next session that is applied picks all of them up, whatever its own edits are, because its rollout looks
for them in the layout and not in the account of the session.  An instance gets its container and its
checkpoint from the same rollout, so an instance that has one has the other.

## Results

* `Layout.Primed`: what has a container has a checkpoint; edits keep it.
* `Layout.AtRest`: a layout with nothing left to do.
* `Layout.atRest_of_reconcile`: every rollout leaves its layout at rest.
* `Layout.AtRest.reconcile_eq`: the next rollout is empty and changes nothing.
* `Session.Live.apply_rests`: both, after all sessions that can come about.
-/

set_option autoImplicit false

namespace LiveDataflow

namespace Layout

variable {l l' : Layout} {id : InstanceId} {i : Instance} {changes : ChangeSet} {r : Rollout}

/-! ## Containers and checkpoints come together -/

/-- What has a container has a checkpoint, the one before all data. -/
def Primed (l : Layout) : Prop :=
  ∀ id i, l.instance? id = some i → i.container ≠ none → i.checkpoint = some .initial

/-- Edits place nothing. -/
theorem Primed.grows (h : l.Primed) (hg : l.Grows l') : l'.Primed := by
  intro id i hi hplaced
  rcases hg.instances id i hi with hold | ⟨_, hbare⟩
  · exact h id i hold hplaced
  · exact absurd hbare hplaced

/-- A rollout primes what it places, and the rest was primed before. -/
theorem checkpoint_of_reconcile (hn : l.Numbered) (h : l.Primed)
    (hr : l.reconcile changes = .ok (r, l')) (hi : l'.instance? id = some i) :
    i.checkpoint = some .initial := by
  rw [instance?_primeAll (reconcile_eq_ok_iff.1 hr).1] at hi
  split at hi
  · obtain ⟨j, _, rfl⟩ := Option.map_eq_some_iff.1 hi
    rfl
  · rename_i hnovel
    have hwaits : id ∉ l.waiting (l.novel changes) := fun hid => hnovel (mem_waiting_iff.1 hid).1
    rw [instance?_place_outside hwaits] at hi
    refine h id i hi fun hno => hnovel ?_
    have hunplaced : id ∈ l.unplaced := (mem_unplaced_iff hn).2 ⟨i, hi, hno⟩
    exact SortedSet.mem_union.2 (.inr hunplaced)

/-! ## Nothing left to do -/

/-- Everything that is there can be started and recovered, and no container is held for nothing. -/
structure AtRest (l : Layout) : Prop where
  primed : ∀ id i, l.instance? id = some i → i.checkpoint = some .initial
  hosted : ∀ id i, l.instance? id = some i →
    ∃ c hosted, i.container = some c ∧ l.containers.get? c = some hosted ∧ id ∈ hosted
  unplaced : l.unplaced = ∅
  full : ∀ c hosted, l.containers.get? c = some hosted → hosted ≠ ∅

/-- **Every rollout leaves its layout at rest**, whatever the account of its session says. -/
theorem atRest_of_reconcile (hn : l.Numbered) (hh : l.Housed) (h : l.Primed)
    (hr : l.reconcile changes = .ok (r, l')) : l'.AtRest := by
  have hprimed := (reconcile_eq_ok_iff.1 hr).1
  have hcontainers := (primes_of_primeAll hprimed).containers
  have hhoused : l'.Housed := Housed.kept.primeAll (hh.place _) hprimed
  have hplaced : ∀ id, l'.Present id → l'.Placed id := fun id hid => placed_of_reconcile hn hr hid
  constructor
  · intro id i hi
    exact checkpoint_of_reconcile hn h hr hi
  · intro id i hi
    obtain ⟨j, hj, hcontainer⟩ := hplaced id (present_of_instance? hi)
    rw [hi] at hj
    cases hj
    obtain ⟨c, hc⟩ := Option.ne_none_iff_exists'.1 hcontainer
    obtain ⟨hosted, hget, hid⟩ := (hhoused.agree id c).1 (containerOf_eq_some_iff.2 ⟨i, hi, hc⟩)
    exact ⟨c, hosted, hc, hget, hid⟩
  · refine SortedSet.eq_empty_iff.2 fun id hid => ?_
    have hn' : l'.Numbered := hn.alike (alike_of_reconcile hr)
    obtain ⟨hpresent, hno⟩ := (mem_unplaced_iff_not_placed hn').1 hid
    exact hno (hplaced id hpresent)
  · intro c hosted hc
    rw [hcontainers] at hc
    exact (hh.packs _).nonempty c hosted hc

/-- **A rollout without edits changes nothing** on a layout at rest. -/
theorem AtRest.reconcile_eq (h : l.AtRest) : l.reconcile ∅ = .ok (⟨∅, ∅, ∅, ∅⟩, l) := by
  have hnovel : l.novel ∅ = ∅ := by
    unfold novel
    rw [h.unplaced]
    rfl
  have hplace : l.place (l.novel ∅) = (⟨∅, ∅⟩, l) := by
    rw [hnovel]
    exact place_eq_self rfl h.full
  refine reconcile_eq_ok_iff.2 ?_
  rw [hplace, hnovel]
  exact ⟨rfl, rfl⟩

end Layout

/-! ## Sessions -/

namespace Session

variable {s : Session}

/-- On every layout that only sessions have changed, what has a container has a checkpoint. -/
theorem Live.primed (h : s.Live) : s.On Layout.Primed := by
  refine h.keeps (P := fun s => s.On Layout.Primed) (fun hs hok => ?_) (fun {s} e hs hP => ?_)
    (fun _ hP => hP) fun {s _} deployer world hs hP => ?_
  · -- the first layout primes all that it places
    intro l hl
    cases hl
    obtain ⟨ids, l₀, _, hadd, hprime⟩ := Layout.materialize_eq_ok_iff.1 hok
    intro id i hi hplaced
    rw [Layout.instance?_primeAll hprime] at hi
    split at hi
    · obtain ⟨j, _, rfl⟩ := Option.map_eq_some_iff.1 hi
      rfl
    · rename_i hid
      have hpresent : l₀.Present id :=
        ((Layout.alike_place l₀ _).isSome id).symm.trans (Layout.present_of_instance? hi)
      rcases Layout.present_addOperators (.ofDataflow hs.anchored) hadd hpresent with hmem | hold
      · exact absurd hmem hid
      · cases hold
  · refine step_keeps (fun _ m hP _ => hP.after fun l hl => ?_) hs.reachable.anchored hP e
    exact hl.grows (.after l m)
  · obtain ⟨l₀, hbegun⟩ := hs.begunOn
    obtain ⟨l, r, l', hl, he, hr, happly⟩ := hbegun.exists_reconcile
    intro l'' hl''
    rw [happly] at hl''
    cases hl''
    intro id i hi _
    exact Layout.checkpoint_of_reconcile he.sound.laid.numbered (hP l hl) hr hi

/-- **The end of a session is a fixed point**, whatever sessions came before and whatever was left by those
that were given up.  Every session comes to a rollout; it leaves a layout at rest, whether the deployer
accepts it or not.  The next session, if it has no edits, comes to the empty rollout and leaves the whole
layout as it is. -/
theorem Live.apply_rests (h : s.Live) {σ : Type} (deployer : Deployer σ) (world : σ) :
    ∃ r l', s.apply deployer world =
        ⟨(deployer r world).1.map fun _ => r, .live l', (deployer r world).2⟩ ∧
      l'.AtRest ∧
      ∀ {τ : Type} (next : Deployer τ) (later : τ),
        ((Session.onLayout l').runAll []).2.apply next later =
          ⟨(next ⟨∅, ∅, ∅, ∅⟩ later).1.map fun _ => ⟨∅, ∅, ∅, ∅⟩, .live l',
            (next ⟨∅, ∅, ∅, ∅⟩ later).2⟩ := by
  obtain ⟨l₀, hbegun⟩ := h.begunOn
  obtain ⟨l, r, l', hl, he, hr, happly⟩ := hbegun.exists_reconcile
  have hhoused : l.Housed := Layout.Housed.kept.holds .ofDataflow h.reachable l hl
  have hrest : l'.AtRest := Layout.atRest_of_reconcile he.sound.laid.numbered hhoused (h.primed l hl) hr
  exact ⟨r, l', happly deployer world, hrest, fun next later =>
    apply_eq_of_reconcile next later hrest.reconcile_eq⟩

/-- A session takes the operator away whose instances filled two containers, adds another one and is given
up.  An edit of the next one fails. -/
def neglected : Session :=
  let abandoned := ((Session.onLayout crowded).runAll [.removeOperator "a", .addOperator "b" .relay]).2
  ((Session.mk abandoned.target ∅).runAll [.addOperator "b" .relay]).2

theorem live_neglected : neglected.Live := by
  have hstart : (Session.onLayout crowded).Live :=
    .materialize (s := .onPlan roomy) (.plan (.empty _) (.addStage "a" .relay rfl)) rfl
  have habandoned := ((hstart.edit (.removeOperator "a")).edit (.addOperator "b" .relay)).abandon
  exact habandoned.edit (.addOperator "b" .relay)

/-- The empty containers are given up and the three instances are placed, although the session itself did
nothing.  After that nothing is left to do. -/
theorem apply_rests_neglected :
    neglected.Live ∧ neglected.changes = ∅ ∧ ∃ r l', neglected.apply Deployer.accepting () =
        ⟨.ok r, .live l', ()⟩ ∧
      r.released.toList = [⟨1⟩, ⟨2⟩] ∧ r.created.toList = [⟨3⟩, ⟨4⟩] ∧
      r.started.toList = [⟨4⟩, ⟨5⟩, ⟨6⟩] ∧ l'.AtRest ∧
      (Session.onLayout l').apply Deployer.accepting () = ⟨.ok ⟨∅, ∅, ∅, ∅⟩, .live l', ()⟩ := by
  have hlists : (neglected.apply Deployer.accepting ()).result.toOption.map
      (fun r => (r.released.toList, r.created.toList, r.started.toList)) =
        some ([⟨1⟩, ⟨2⟩], [⟨3⟩, ⟨4⟩], [⟨4⟩, ⟨5⟩, ⟨6⟩]) := by decide +kernel
  obtain ⟨r, l', happly, hrest, hnext⟩ := Live.apply_rests live_neglected Deployer.accepting ()
  rw [happly] at hlists
  obtain ⟨hreleased, hmore⟩ := Prod.mk.inj (Option.some.inj hlists)
  obtain ⟨hcreated, hstarted⟩ := Prod.mk.inj hmore
  exact ⟨live_neglected, by decide +kernel, r, l', happly, hreleased, hcreated, hstarted, hrest,
    hnext Deployer.accepting ()⟩

end Session

end LiveDataflow
