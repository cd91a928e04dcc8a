import LiveDataflow.Proofs.Fields

/-!
# Plans and rollouts lose nothing as JSON

Each record lists its fields once, and from the list follow how it is written and from what it is read.

## Results

* `JsonForm.forms_lossless`: every form reads back what it writes, in the order written or in another, with
  fields of other names between them or as an array, and what it reads it writes and reads again as the same.
-/

set_option autoImplicit false

namespace LiveDataflow

open JsonForm (Field field)

/-! ## The fields of each record, as declared -/

def Port.fields (p : Port) : List Field := [field "name" p.name, field "data_type" p.dataType]

def PortTable.fields (t : PortTable) : List Field := [field "input_ports" t.inputs, field "output_ports" t.outputs]

def PortAddress.fields (a : PortAddress) : List Field := [field "operator" a.operator, field "port" a.port]

def Stream.fields (s : Stream) : List Field :=
  [field "name" s.name, field "source" s.source, field "sinks" s.sinks]

def Config.fields (c : Config) : List Field :=
  [field "max_operators_per_container" c.maxPerContainer, field "default_partition_count" c.defaultPartitions,
    field "strict_port_types" c.strictTypes]

def Checkpoint.fields (c : Checkpoint) : List Field := [field "window_id" c.window]

def Rollout.fields (r : Rollout) : List Field :=
  [field "release_containers" r.released, field "undeploy" r.stopped, field "new_containers" r.created,
    field "deploy" r.started]

/-- The numbers in a rollout are numbers that instances and containers can have. -/
structure Rollout.Numbered (r : Rollout) : Prop where
  released : ∀ c ∈ r.released, c.val < JsonForm.idBound
  stopped : ∀ id ∈ r.stopped, id.val < JsonForm.idBound
  created : ∀ c ∈ r.created, c.val < JsonForm.idBound
  started : ∀ id ∈ r.started, id.val < JsonForm.idBound

namespace JsonForm

open Json (Spelling Piece)

section Slots

variable {α : Type} [JsonForm α] {a : α} {s : Spelling}

theorem required?_some (h : Reads a s) : required? (some s) = some a := h

theorem defaulted?_some (h : Reads a s) (default : α) : defaulted? default (some s) = some a := h

end Slots

theorem OfFields.port : OfFields Port (fun _ => True) Port.fields where
  nodup p := by simp [Port.fields, field]
  writes {p} _ :=
    ⟨_, rfl, .cons (Sound.string.writes trivial _)
      (.cons ((Sound.string.option (by rintro _ ⟨⟩)).writes (fun _ _ => trivial) _) .nil)⟩
  reads {p s values} hslots hvalues := by
    rcases hvalues with _ | ⟨hname, _ | ⟨htype, _ | _⟩⟩
    refine Option.bind_eq_some_iff.2 ⟨_, hslots, ?_⟩
    simp [required?_some hname, defaulted?_some htype]
  fits _ := trivial

theorem OfFields.portTable : OfFields PortTable (fun _ => True) PortTable.fields where
  nodup t := by simp [PortTable.fields, field]
  writes {t} _ :=
    ⟨_, rfl, .cons (OfFields.port.sound.map.writes (fun _ _ => trivial) _)
      (.cons (OfFields.port.sound.map.writes (fun _ _ => trivial) _) .nil)⟩
  reads {t s values} hslots hvalues := by
    rcases hvalues with _ | ⟨hinputs, _ | ⟨houtputs, _ | _⟩⟩
    refine Option.bind_eq_some_iff.2 ⟨_, hslots, ?_⟩
    simp [required?_some hinputs, required?_some houtputs]
  fits _ := trivial

theorem OfFields.portAddress : OfFields PortAddress (fun _ => True) PortAddress.fields where
  nodup a := by simp [PortAddress.fields, field]
  writes {a} _ :=
    ⟨_, rfl, .cons (Sound.string.writes trivial _) (.cons (Sound.string.writes trivial _) .nil)⟩
  reads {a s values} hslots hvalues := by
    rcases hvalues with _ | ⟨hoperator, _ | ⟨hport, _ | _⟩⟩
    refine Option.bind_eq_some_iff.2 ⟨_, hslots, ?_⟩
    simp [required?_some hoperator, required?_some hport]
  fits _ := trivial

theorem OfFields.stream : OfFields Stream (fun _ => True) Stream.fields where
  nodup x := by simp [Stream.fields, field]
  writes {x} _ :=
    ⟨_, rfl, .cons (Sound.string.writes trivial _)
      (.cons (OfFields.portAddress.sound.writes trivial _)
        (.cons (OfFields.portAddress.sound.list.writes (fun _ _ => trivial) _) .nil))⟩
  reads {x s values} hslots hvalues := by
    rcases hvalues with _ | ⟨hname, _ | ⟨hsource, _ | ⟨hsinks, _ | _⟩⟩⟩
    refine Option.bind_eq_some_iff.2 ⟨_, hslots, ?_⟩
    simp [required?_some hname, required?_some hsource, required?_some hsinks]
  fits _ := trivial

theorem OfFields.config : OfFields Config (fun _ => True) Config.fields where
  nodup c := by simp [Config.fields, field]
  writes {c} _ :=
    ⟨_, rfl, .cons (Sound.word.writes trivial _)
      (.cons (Sound.word.writes trivial _) (.cons (Sound.bool.writes trivial _) .nil))⟩
  reads {c s values} hslots hvalues := by
    rcases hvalues with _ | ⟨hcontainer, _ | ⟨hpartitions, _ | ⟨hstrict, _ | _⟩⟩⟩
    refine Option.bind_eq_some_iff.2 ⟨_, hslots, ?_⟩
    simp [defaulted?_some hcontainer, defaulted?_some hpartitions, defaulted?_some hstrict]
  fits _ := trivial

theorem OfFields.checkpoint : OfFields Checkpoint (fun _ => True) Checkpoint.fields where
  nodup c := by simp [Checkpoint.fields, field]
  writes {c} _ := ⟨_, rfl, .cons (Sound.signed.writes trivial _) .nil⟩
  reads {c s values} hslots hvalues := by
    rcases hvalues with _ | ⟨hwindow, _ | _⟩
    refine Option.bind_eq_some_iff.2 ⟨_, hslots, ?_⟩
    simp [required?_some hwindow]
  fits _ := trivial

theorem OfFields.rollout : OfFields Rollout Rollout.Numbered Rollout.fields where
  nodup r := by simp [Rollout.fields, field]
  writes {r} h :=
    ⟨_, rfl, .cons (Sound.containerId.set.writes h.released _)
      (.cons (Sound.instanceId.set.writes h.stopped _)
        (.cons (Sound.containerId.set.writes h.created _)
          (.cons (Sound.instanceId.set.writes h.started _) .nil)))⟩
  reads {r s values} hslots hvalues := by
    rcases hvalues with _ | ⟨hreleased, _ | ⟨hstopped, _ | ⟨hcreated, _ | ⟨hstarted, _ | _⟩⟩⟩⟩
    refine Option.bind_eq_some_iff.2 ⟨_, hslots, ?_⟩
    simp [required?_some hreleased, required?_some hstopped, required?_some hcreated, required?_some hstarted]
  fits {r s} h := by
    obtain ⟨slots, -, h⟩ := Option.bind_eq_some_iff.1 h
    split at h
    · next released stopped created started =>
      obtain ⟨a, ha, h⟩ := Option.bind_eq_some_iff.1 h
      obtain ⟨b, hb, h⟩ := Option.bind_eq_some_iff.1 h
      obtain ⟨c, hc, h⟩ := Option.bind_eq_some_iff.1 h
      obtain ⟨d, hd, h⟩ := Option.bind_eq_some_iff.1 h
      cases h
      exact ⟨Sound.containerId.set.fits_required? ha, Sound.instanceId.set.fits_required? hb,
        Sound.containerId.set.fits_required? hc, Sound.instanceId.set.fits_required? hd⟩
    · cases h

/-- **Plans and rollouts lose nothing as JSON.**  What is written is read back.  A record is also read from any
object that holds its fields, whatever their order and whatever other fields there are, and from the array of
its fields as declared.  Whatever text a value was read from, the value is read again from its own text, and so
writing it once more changes nothing.  The addresses of inputs and of outputs share one form. -/
theorem forms_lossless :
    LosslessRecord Port (fun _ => True) Port.fields ∧
      LosslessRecord PortTable (fun _ => True) PortTable.fields ∧
      LosslessRecord Stream (fun _ => True) Stream.fields ∧
      LosslessRecord PortAddress (fun _ => True) PortAddress.fields ∧
      LosslessRecord Config (fun _ => True) Config.fields ∧
      Lossless InstanceId (·.val < idBound) ∧
      Lossless ContainerId (·.val < idBound) ∧
      LosslessRecord Checkpoint (fun _ => True) Checkpoint.fields ∧
      LosslessRecord Rollout Rollout.Numbered Rollout.fields :=
  ⟨OfFields.port.lossless, OfFields.portTable.lossless, OfFields.stream.lossless,
    OfFields.portAddress.lossless, OfFields.config.lossless, Sound.instanceId.lossless,
    Sound.containerId.lossless, OfFields.checkpoint.lossless, OfFields.rollout.lossless⟩

/-- An address with its fields exchanged, a field that addresses do not have between them, and an escape in the
name of a field. -/
theorem forms_lossless_exchanged :
    read? PortAddress "\x7b\"port\":\"in\",\"x\":[1e9],\"op\\u0065rator\":\"a\"\x7d" = some ⟨"a", "in"⟩ := by
  let port : List Piece × Spelling := ("port".toList.map .char, .string ("in".toList.map .char))
  let other : List Piece × Spelling := ([.char 'x'], .array [.number ⟨false, [1], [], some (false, [9])⟩])
  let operator : List Piece × Spelling :=
    ("op".toList.map .char ++ .unit 0x65 :: "rator".toList.map .char, .string [.char 'a'])
  have hread : Spelling.read? "\x7b\"port\":\"in\",\"x\":[1e9],\"op\\u0065rator\":\"a\"\x7d" =
      some (.object [port, other, operator]) := Spelling.read?_of_scan? (by decide +kernel)
  have hperm : [port, other, operator].Perm ([operator, port] ++ [other]) :=
    ((List.Perm.swap operator other []).cons port).trans (.swap operator port [other])
  have hgives : List.Forall₂ Gives (PortAddress.fields ⟨"a", "in"⟩) [operator, port] :=
    .cons ⟨by decide +kernel, rfl⟩ (.cons ⟨by decide +kernel, rfl⟩ .nil)
  refine forms_lossless.2.2.2.1.object hread ⟨_, _, hperm, hgives, fun e he => ⟨"x", ?_, ?_⟩⟩
  · rw [List.mem_singleton.1 he]
    decide +kernel
  · decide +kernel

end JsonForm

end LiveDataflow
