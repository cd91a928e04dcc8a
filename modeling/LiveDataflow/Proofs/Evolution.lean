import Mathlib.Logic.Relation
import LiveDataflow.Proofs.Intact

/-!
# What a layout becomes

A layout that was made is changed by sessions and batches, and by calls on it and on its plan between two
sessions.  Six changes are behind all of this, so what each of the six keeps holds ever after.

## Results

* `Session.Turn`, `Session.Leads`: what sessions and batches can do next, and what a program can come to.
* `Session.turns_keep`: what edits and the ends of sessions keep, all that sessions and batches do keeps.
* `Layout.Kept`: what the changes of a layout keep, one by one.
* `Layout.Kept.leads`: it is kept by all that a program can do.
* `Layout.Kept.holds`: if the empty layout has it, every layout that comes about has it.
-/

set_option autoImplicit false

namespace LiveDataflow

/-! ## The settings of a plan stay -/

theorem Dataflow.config_removeStage (d : Dataflow) (name : String) :
    (d.removeStage name).config = d.config := by
  unfold removeStage
  split
  · rfl
  · rfl

theorem Dataflow.config_after (d : Dataflow) (m : Move) : (d.after m).config = d.config := by
  cases m with
  | removeStage name => exact d.config_removeStage name
  | _ => rfl

theorem Dataflow.Method.config {d d' : Dataflow} (hm : d.Method d') : d'.config = d.config := by
  cases hm with
  | addStage name operator hok =>
    obtain ⟨_, rfl⟩ := addStage_eq_ok_iff.1 hok
    rfl
  | setPartitions name count hok =>
    obtain ⟨_, _, rfl⟩ := setPartitions_eq_ok_iff.1 hok
    rfl
  | removeStage name => exact d.config_removeStage name
  | rewrite name f => rfl
  | configure name config hok =>
    obtain ⟨_, o, _, _, rfl⟩ := configure_eq_ok_iff.1 hok
    rfl
  | setProperties name properties hok =>
    obtain ⟨_, o, _, _, rfl⟩ := setProperties_eq_ok_iff.1 hok
    rfl
  | addStream name source hok =>
    obtain ⟨_, _, rfl⟩ := addStream_eq_ok_iff.1 hok
    rfl
  | addSink stream sink hok =>
    obtain ⟨s, _, _, rfl⟩ := addSink_eq_ok_iff.1 hok
    rfl
  | removeStream name => rfl

/-! ## What can happen next -/

namespace Session

/-- What sessions and batches can do next. -/
inductive Turn : Session → Session → Prop
  | edit {s : Session} (e : Edit) : Turn s (s.step e).after
  /-- A session ends without being applied. -/
  | abandon {s : Session} : Turn s ⟨s.target, ∅⟩
  | apply {s : Session} {σ : Type} (deployer : Deployer σ) (world : σ) :
      Turn s ⟨(s.apply deployer world).target, ∅⟩
  | modify {l : Layout} {σ : Type} (b : Batch) (deployer : Deployer σ) (world : σ) :
      Turn (.onLayout l) ⟨(l.modify b deployer world).target, ∅⟩

/-- What a program can do next with what a session works on. -/
inductive Next : Session → Session → Prop
  | turn {s t : Session} : s.Turn t → Next s t
  /-- A plan is changed by itself, that of a layout behind its back. -/
  | plan {s : Session} {d : Dataflow} : s.dataflow.Method d → Next s ⟨s.target.withDataflow d, ∅⟩
  | layout {l l' : Layout} : l.Method l' → Next (.onLayout l) (.onLayout l')

/-- What a program can come to. -/
def Leads : Session → Session → Prop := Relation.ReflTransGen Next

variable {s t : Session}

theorem Turn.reachable (ht : s.Turn t) (h : s.Reachable) : t.Reachable := by
  cases ht with
  | edit e => exact .edit e h
  | abandon => exact .abandon h
  | apply deployer world => exact .apply deployer world h
  | modify b deployer world => exact .modify b deployer world h

theorem Next.reachable (hn : s.Next t) (h : s.Reachable) : t.Reachable := by
  cases hn with
  | turn ht => exact ht.reachable h
  | plan hm => exact .plan h hm
  | layout hm => exact .layout h hm

theorem Leads.reachable (hl : s.Leads t) (h : s.Reachable) : t.Reachable := by
  induction hl with
  | refl => exact h
  | tail _ hn ih => exact hn.reachable ih

/-- What edits and the ends of sessions keep, a turn keeps. -/
theorem Turn.keeps {P : Session → Prop} (hstep : ∀ s e, P s → P (s.step e).after)
    (habandon : ∀ s, P s → P ⟨s.target, ∅⟩)
    (happly : ∀ {σ : Type} (deployer : Deployer σ) s world, P s → P ⟨(s.apply deployer world).target, ∅⟩)
    (ht : s.Turn t) (h : P s) : P t := by
  cases ht with
  | edit e => exact hstep s e h
  | abandon => exact habandon s h
  | apply deployer world => exact happly deployer s world h
  | modify b deployer world => exact Layout.modify_keeps hstep habandon (happly deployer) b world h

/-- **What edits and the ends of sessions keep, all that sessions and batches do keeps.** -/
theorem turns_keep {P : Session → Prop} (hstep : ∀ s e, P s → P (s.step e).after)
    (habandon : ∀ s, P s → P ⟨s.target, ∅⟩)
    (happly : ∀ {σ : Type} (deployer : Deployer σ) s world, P s → P ⟨(s.apply deployer world).target, ∅⟩)
    (h : P s) (hts : Relation.ReflTransGen Turn s t) : P t := by
  induction hts with
  | refl => exact h
  | tail _ ht ih => exact ht.keeps hstep habandon happly ih

end Session

/-! ## What the changes of a layout keep -/

namespace Layout

variable {P : Layout → Prop} {l l' : Layout} {name : String}

/-- What each change of a layout keeps. -/
structure Kept (P : Layout → Prop) : Prop where
  withDataflow : ∀ {l : Layout} (d : Dataflow), d.config = l.dataflow.config → P l →
    P { l with dataflow := d }
  withWires : ∀ {l : Layout} (wires : List Wire), P l → P { l with wires := wires }
  enter : ∀ {l : Layout} {name : String} (partitions : Nat), l.Intact → l.instancesOf name = [] → P l →
    P (l.enter name (l.freshInstances name partitions))
  removeOperator : ∀ {l : Layout} (name : String), l.Intact → P l → P (l.removeOperator name).2
  place : ∀ {l : Layout} (ids : SortedSet InstanceId), P l → P (l.place ids).2
  prime : ∀ {l l' : Layout} {id : InstanceId}, l.prime id = .ok l' → P l → P l'

namespace Kept

theorem addOperator {ids : List InstanceId} (hP : Kept P) (hi : l.Intact) (h : P l)
    (hok : l.addOperator name = .ok (ids, l')) : P l' := by
  obtain ⟨stage, _, habsent, _, rfl⟩ := addOperator_eq_ok_iff.1 hok
  obtain ⟨more, hmore⟩ := wires_only_foldl_wireStream (l.touching name)
    (l.enter name (l.freshInstances name stage.partitions))
  rw [hmore]
  exact hP.withWires _ (hP.enter stage.partitions hi (instancesOf_of_absent habsent) h)

theorem addOperators {names : List String} {ids : List InstanceId} (hP : Kept P) (hi : l.Intact)
    (h : P l) (hok : l.addOperators names = .ok (ids, l')) : P l' := by
  have hboth : l'.Intact ∧ P l' := by
    refine addOperators_keeps (P := fun l => l.Intact ∧ P l) (fun hone h => ?_) ⟨hi, h⟩ hok
    exact ⟨h.1.addOperator hone, hP.addOperator h.1 h.2 hone⟩
  exact hboth.2

theorem connectSink {stream : String} {sink : PortAddress} {ids : SortedSet InstanceId} (hP : Kept P)
    (h : P l) (hok : l.connectSink stream sink = .ok (ids, l')) : P l' := by
  obtain ⟨s, _, _, _, rfl⟩ := connectSink_eq_ok_iff.1 hok
  exact hP.withWires _ h

theorem dropStream {stream : String} {ids : SortedSet InstanceId} (hP : Kept P) (h : P l)
    (hok : l.dropStream stream = .ok (ids, l')) : P l' := by
  obtain ⟨s, _, _, rfl⟩ := dropStream_eq_ok_iff.1 hok
  exact hP.withWires _ h

theorem primeAll {ids : List InstanceId} (hP : Kept P) (h : P l) (hok : l.primeAll ids = .ok l') :
    P l' :=
  primeAll_keeps hP.prime h hok

/-- Every move keeps it, whether the plan grants the move or not. -/
theorem after (hP : Kept P) (hi : l.Intact) (h : P l) (m : Move) : P (l.after m).2 := by
  have hboth : (l.after m).2.Intact ∧ P (l.after m).2 := by
    refine after_keeps (P := fun l => l.Intact ∧ P l) ?plan ?add ?remove ?connect ?drop ⟨hi, h⟩
    case plan => exact fun h => ⟨h.1.withDataflow _, hP.withDataflow _ (Dataflow.config_after _ m) h.2⟩
    case add => exact fun hok h => ⟨h.1.addOperator hok, hP.addOperator h.1 h.2 hok⟩
    case remove => exact fun name h => ⟨h.1.removeOperator name, hP.removeOperator name h.1 h.2⟩
    case connect => exact fun hok h => ⟨h.1.connectSink hok, hP.connectSink h.2 hok⟩
    case drop => exact fun hok h => ⟨h.1.dropStream hok, hP.dropStream h.2 hok⟩
  exact hboth.2

theorem method (hP : Kept P) (hi : l.Intact) (h : P l) (hm : l.Method l') : P l' := by
  cases hm with
  | addOperator name hok => exact hP.addOperator hi h hok
  | removeOperator name => exact hP.removeOperator name hi h
  | connectSink stream sink hok => exact hP.connectSink h hok
  | dropStream stream hok => exact hP.dropStream h hok
  | place ids => exact hP.place ids h
  | prime id hok => exact hP.prime hok h

theorem materialize {d : Dataflow} (hP : Kept P) (h : P (.ofDataflow d))
    (hok : Layout.materialize d = .ok l) : P l := by
  obtain ⟨ids, l₀, _, hadd, hprime⟩ := materialize_eq_ok_iff.1 hok
  have hlaid : P l₀ := hP.addOperators (.ofDataflow d) h hadd
  exact hP.primeAll (hP.place _ hlaid) hprime

/-! ## Sessions -/

variable {s t : Session}

theorem edit (hP : Kept P) (hs : s.Reachable) (h : s.On P) (e : Edit) : (s.step e).after.On P := by
  have hboth : (s.step e).after.On fun l => l.Intact ∧ P l :=
    Session.step_keeps (fun _ m hs _ => hs.after fun _ hl => ⟨hl.1.after m, hP.after hl.1 hl.2 m⟩)
      hs.anchored (fun l hl => ⟨hs.intact l hl, h l hl⟩) e
  exact fun l hl => (hboth l hl).2

theorem apply {σ : Type} (hP : Kept P) (h : s.On P) (deployer : Deployer σ) (world : σ) :
    Session.On P ⟨(s.apply deployer world).target, ∅⟩ :=
  h.apply (fun hr hl => hP.primeAll (hP.place _ hl) (reconcile_eq_ok_iff.1 hr).1) deployer world

theorem turn (hP : Kept P) (ht : s.Turn t) (hs : s.Reachable) (h : s.On P) : t.On P :=
  (ht.keeps (P := fun s => s.Reachable ∧ s.On P) (fun _ e hs => ⟨.edit e hs.1, hP.edit hs.1 hs.2 e⟩)
    (fun _ hs => ⟨.abandon hs.1, hs.2⟩)
    (fun deployer _ world hs => ⟨.apply deployer world hs.1, hP.apply hs.2 deployer world⟩) ⟨hs, h⟩).2

theorem next (hP : Kept P) (hn : s.Next t) (hs : s.Reachable) (h : s.On P) : t.On P := by
  cases hn with
  | turn ht => exact hP.turn ht hs h
  | @plan s d hm =>
    obtain ⟨target, changes⟩ := s
    intro l' hl'
    cases target with
    | plan d => cases hl'
    | live l =>
      cases hl'
      exact hP.withDataflow d hm.config (h l rfl)
  | layout hm =>
    intro l' hl'
    cases hl'
    exact hP.method (hs.intact _ rfl) (h _ rfl) hm

/-- **What each change of a layout keeps is kept by all that a program can do.** -/
theorem leads (hP : Kept P) (hl : s.Leads t) (hs : s.Reachable) (h : s.On P) : t.On P := by
  induction hl with
  | refl => exact h
  | tail hbefore hn ih =>
    have hreachable := Session.Leads.reachable hbefore hs
    exact hP.next hn hreachable ih

/-- **What the empty layout has and each change keeps, every layout that comes about has.** -/
theorem holds (hP : Kept P) (hstart : ∀ d, P (.ofDataflow d)) (h : s.Reachable) : s.On P := by
  induction h with
  | empty config => intro l hl; cases hl
  | copy _ _ => intro l hl; cases hl
  | materialize _ hok _ =>
    intro l hl
    cases hl
    exact hP.materialize (hstart _) hok
  | edit e hs ih => exact hP.turn (.edit e) hs ih
  | abandon hs ih => exact hP.turn .abandon hs ih
  | apply deployer world hs ih => exact hP.turn (.apply deployer world) hs ih
  | modify b deployer world hs ih => exact hP.turn (.modify b deployer world) hs ih
  | plan hs hm ih => exact hP.next (.plan hm) hs ih
  | layout hs hm ih => exact hP.next (.layout hm) hs ih

end Kept

end Layout

end LiveDataflow
