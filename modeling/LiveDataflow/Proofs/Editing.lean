import LiveDataflow.Session.Edit

/-!
# Laws of edits

An edit is a computation on a session that keeps the session it has reached when it fails.  `on` runs
one, and the laws here say what each of its steps does to a session.

## Results

* `Editing.on_bind_ok`, `Editing.on_bind_error`: a computation goes on from where its first part
  succeeded, and stops where it failed.
* `Editing.on_changeDataflow_ok`, `Editing.on_changeLayout_ok` and their counterparts for failures:
  a change is made as a whole or not at all.
-/

set_option autoImplicit false

namespace LiveDataflow.Editing

variable {α β : Type}

/-- Carries out an edit: what came of it, and the session it has reached. -/
def on (x : Editing α) (s : Session) : Except Cause α × Session := x.run.run s

@[simp] theorem on_get (s : Session) : (get : Editing Session).on s = (.ok s, s) := rfl

theorem on_bind (x : Editing α) (f : α → Editing β) (s : Session) :
    (x >>= f).on s =
      match x.on s with
      | (.ok a, t) => (f a).on t
      | (.error c, t) => (.error c, t) := by
  unfold on
  rw [ExceptT.run_bind, StateT.run_bind]
  rcases x.run.run s with ⟨r, t⟩
  cases r <;> rfl

theorem on_bind_ok {x : Editing α} {f : α → Editing β} {s t : Session} {a : α}
    (h : x.on s = (.ok a, t)) : (x >>= f).on s = (f a).on t := by
  rw [on_bind, h]

theorem on_bind_error {x : Editing α} {f : α → Editing β} {s t : Session} {c : Cause}
    (h : x.on s = (.error c, t)) : (x >>= f).on s = (.error c, t) := by
  rw [on_bind, h]

@[simp] theorem on_currentDataflow (s : Session) : currentDataflow.on s = (.ok s.dataflow, s) := rfl

@[simp] theorem on_check (test : Except Cause Unit) (s : Session) : (check test).on s = (test, s) := by
  cases test <;> rfl

theorem on_changeDataflow_ok {f : Dataflow → Except Cause Dataflow} {s : Session} {d : Dataflow}
    (h : f s.dataflow = .ok d) :
    (changeDataflow f).on s = (.ok (), { s with target := s.target.withDataflow d }) := by
  unfold changeDataflow
  rw [on_bind_ok (on_currentDataflow s), h]
  rfl

theorem on_changeDataflow_total (f : Dataflow → Dataflow) (s : Session) :
    (changeDataflow fun d => .ok (f d)).on s =
      (.ok (), { s with target := s.target.withDataflow (f s.dataflow) }) :=
  on_changeDataflow_ok rfl

theorem on_changeDataflow_error {f : Dataflow → Except Cause Dataflow} {s : Session} {c : Cause}
    (h : f s.dataflow = .error c) : (changeDataflow f).on s = (.error c, s) := by
  unfold changeDataflow
  rw [on_bind_ok (on_currentDataflow s), h]
  rfl

section Layout

variable {f : Layout → Except Cause (List InstanceId × Layout)}
  {record : ChangeSet → List InstanceId → ChangeSet} {changes : ChangeSet} {l l' : Layout}
  {ids : List InstanceId}

theorem on_changeLayout_plan (d : Dataflow) :
    (changeLayout f record).on ⟨.plan d, changes⟩ = (.ok (), ⟨.plan d, changes⟩) := rfl

theorem on_changeLayout_live :
    (changeLayout f record).on ⟨.live l, changes⟩ =
      match f l with
      | .ok (ids, l') => (.ok (), ⟨.live l', record changes ids⟩)
      | .error c => (.error c, ⟨.live l, changes⟩) := by
  unfold changeLayout
  rw [on_bind_ok (on_get _)]
  dsimp only
  cases f l <;> rfl

theorem on_changeLayout_ok (h : f l = .ok (ids, l')) :
    (changeLayout f record).on ⟨.live l, changes⟩ = (.ok (), ⟨.live l', record changes ids⟩) := by
  rw [on_changeLayout_live, h]

theorem on_changeLayout_error {c : Cause} (h : f l = .error c) :
    (changeLayout f record).on ⟨.live l, changes⟩ = (.error c, ⟨.live l, changes⟩) := by
  rw [on_changeLayout_live, h]

end Layout

theorem on_tryCatch_ok {x : Editing α} {f : Cause → Editing α} {s t : Session} {a : α}
    (h : x.on s = (.ok a, t)) : (tryCatch x f).on s = (.ok a, t) := by
  have hx : StateT.run x s = (.ok a, t) := h
  simp only [on, tryCatch, tryCatchThe, MonadExceptOf.tryCatch, ExceptT.tryCatch, ExceptT.run_mk,
    StateT.run_bind, hx]
  rfl

theorem on_tryCatch_error {x : Editing α} {f : Cause → Editing α} {s t : Session} {c : Cause}
    (h : x.on s = (.error c, t)) : (tryCatch x f).on s = (f c).on t := by
  have hx : StateT.run x s = (.error c, t) := h
  simp only [on, tryCatch, tryCatchThe, MonadExceptOf.tryCatch, ExceptT.tryCatch, ExceptT.run_mk,
    StateT.run_bind, hx]
  rfl

end LiveDataflow.Editing
