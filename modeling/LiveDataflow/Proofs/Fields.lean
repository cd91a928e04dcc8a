import LiveDataflow.Proofs.Forms

/-!
# The fields of a record are found in any order

Entering two fields one after the other or the other way round comes to the same, so the order of the fields
in an object does not matter, and fields that the record does not have change nothing.  What is found are the
values of the fields in the order in which the record declares them.  In an array they stand in that order.

## Results

* `JsonForm.byName?_perm`: the order of the fields in an object does not matter.
* `JsonForm.slots?_object`, `JsonForm.slots?_array`: the fields are found in an object and in an array.
* `JsonForm.OfFields`: a type that is written and read field by field; it is sound (`JsonForm.OfFields.sound`)
  and loses nothing in any of its spellings (`JsonForm.OfFields.lossless`).
-/

set_option autoImplicit false

namespace LiveDataflow.JsonForm

open Json (Spelling Piece)
open Json.Spelling (Spells string?)

/-! ## Entering values -/

section Enter

variable {n name : String} {slot : Slot} {value : Spelling} {slots rest : List (String × Slot)}

@[simp] theorem enter_free : enter name value ((name, none) :: rest) = some ((name, some value) :: rest) := by
  simp [enter]

@[simp] theorem enter_taken (old : Spelling) : enter name value ((name, some old) :: rest) = none := by
  simp [enter]

theorem enter_below (h : n ≠ name) :
    enter name value ((n, slot) :: rest) = (enter name value rest).map ((n, slot) :: ·) := by
  cases slot <;> simp [enter, h]

/-- Two values may be entered in either order: both go in, or one of them fails both times. -/
theorem enter_comm (name name' : String) (value value' : Spelling) (slots : List (String × Slot)) :
    (enter name value slots).bind (enter name' value') = (enter name' value' slots).bind (enter name value) := by
  induction slots with
  | nil => rfl
  | cons head rest ih =>
    obtain ⟨n, slot⟩ := head
    rcases eq_or_ne n name with rfl | hname
    · rcases eq_or_ne n name' with rfl | hname'
      · cases slot <;> simp
      · rw [enter_below hname']
        cases slot <;> cases h : enter name' value' rest <;> simp [enter_below hname', h]
    · rcases eq_or_ne n name' with rfl | hname'
      · rw [enter_below hname]
        cases slot <;> cases h : enter name value rest <;> simp [enter_below hname, h]
      · have hbelow := congrArg (Option.map ((n, slot) :: ·)) ih
        rw [enter_below hname, enter_below hname']
        simpa [Option.bind_map, Option.map_bind, Function.comp_def, enter_below hname, enter_below hname'] using hbelow

theorem enter_of_notMem (h : name ∉ slots.map (·.1)) : enter name value slots = some slots := by
  induction slots with
  | nil => rfl
  | cons head rest ih =>
    rw [List.map_cons, List.mem_cons, not_or] at h
    rw [enter_below (Ne.symm h.1), ih h.2]
    rfl

theorem enter_append (h : name ∉ slots.map (·.1)) :
    enter name value (slots ++ (name, none) :: rest) = some (slots ++ (name, some value) :: rest) := by
  induction slots with
  | nil => exact enter_free
  | cons head slots ih =>
    rw [List.map_cons, List.mem_cons, not_or] at h
    rw [List.cons_append, enter_below (Ne.symm h.1), ih h.2]
    rfl

end Enter

/-! ## Reading an object -/

/-- The fields of an object as they are spelled. -/
abbrev Entries := List (List Piece × Spelling)

section ByName

variable (slots : List (String × Slot))

theorem byName?_cons (e : List Piece × Spelling) (rest : Entries) :
    byName? slots (e :: rest) =
      (string? e.1).bind fun name => (enter name e.2 slots).bind (byName? · rest) := rfl

theorem byName?_append (entries rest : Entries) :
    byName? slots (entries ++ rest) = (byName? slots entries).bind (byName? · rest) := by
  induction entries generalizing slots with
  | nil => rfl
  | cons e entries ih => simp only [List.cons_append, byName?_cons, ih, Option.bind_assoc]

/-- The order of the fields in an object does not matter. -/
theorem byName?_perm {entries entries' : Entries} (h : entries.Perm entries') :
    byName? slots entries = byName? slots entries' := by
  induction h generalizing slots with
  | nil => rfl
  | cons e _ ih => simp only [byName?_cons, ih]
  | swap e e' rest =>
    simp only [byName?_cons]
    cases hkey : string? e.1 with
    | none => cases string? e'.1 <;> simp
    | some name =>
      cases hkey' : string? e'.1 with
      | none => simp
      | some name' =>
        have hcomm := congrArg (Option.bind · (byName? · rest)) (enter_comm name name' e.2 e'.2 slots)
        simpa [Option.bind_assoc] using hcomm.symm
  | trans _ _ ih ih' => exact (ih slots).trans (ih' slots)

theorem byName?_others {others : Entries}
    (h : ∀ e ∈ others, ∃ name, string? e.1 = some name ∧ name ∉ slots.map (·.1)) :
    byName? slots others = some slots := by
  induction others with
  | nil => rfl
  | cons e others ih =>
    obtain ⟨name, hkey, hname⟩ := h e List.mem_cons_self
    rw [byName?_cons, hkey, Option.bind_some, enter_of_notMem hname, Option.bind_some]
    exact ih fun e he => h e (List.mem_cons_of_mem _ he)

end ByName

/-! ## Fields -/

/-- A field of a record: its name, and the spellings that give its value. -/
abbrev Field := String × (Spelling → Prop)

/-- The field that holds a value. -/
def field {α : Type} [JsonForm α] (name : String) (a : α) : Field := (name, Reads a)

/-- An entry of an object gives a field. -/
def Gives (f : Field) (e : List Piece × Spelling) : Prop := string? e.1 = some f.1 ∧ f.2 e.2

/-- The entries of an object give each field once, in any order and with other fields between them. -/
def Holds (entries : Entries) (fields : List Field) : Prop :=
  ∃ known others, entries.Perm (known ++ others) ∧ List.Forall₂ Gives fields known ∧
    ∀ e ∈ others, ∃ name, string? e.1 = some name ∧ name ∉ fields.map (·.1)

section Found

variable {fields : List Field}

theorem byName?_known {known : Entries} (h : List.Forall₂ Gives fields known) (hnodup : (fields.map (·.1)).Nodup)
    (filled : List (String × Slot)) (hfilled : ∀ f ∈ fields, f.1 ∉ filled.map (·.1)) :
    ∃ found, byName? (filled ++ fields.map fun f => (f.1, none)) known = some (filled ++ found) ∧
      found.map (·.2) = known.map fun e => some e.2 := by
  induction h generalizing filled with
  | nil => exact ⟨[], rfl, rfl⟩
  | @cons f e fields known hgives _ ih =>
    rw [List.map_cons, List.nodup_cons] at hnodup
    have hnext : ∀ g ∈ fields, g.1 ∉ (filled ++ [(f.1, some e.2)]).map (·.1) := by
      intro g hg hmem
      rw [List.map_append, List.mem_append] at hmem
      rcases hmem with hmem | hmem
      · exact hfilled g (List.mem_cons_of_mem _ hg) hmem
      · have hgf : g.1 = f.1 := by simpa using hmem
        exact hnodup.1 (hgf ▸ List.mem_map_of_mem hg)
    obtain ⟨found, hfound, hvalues⟩ := ih hnodup.2 (filled ++ [(f.1, some e.2)]) hnext
    refine ⟨(f.1, some e.2) :: found, ?_, by rw [List.map_cons, List.map_cons, hvalues]⟩
    rw [byName?_cons, hgives.1, Option.bind_some, List.map_cons, enter_append (hfilled f List.mem_cons_self),
      Option.bind_some]
    simpa using hfound

/-- The fields are found in an object that holds them. -/
theorem slots?_object {entries : Entries} (hnodup : (fields.map (·.1)).Nodup) (h : Holds entries fields) :
    ∃ values, slots? (fields.map (·.1)) (.object entries) = some (values.map some) ∧
      List.Forall₂ (fun f s => f.2 s) fields values := by
  obtain ⟨known, others, hperm, hknown, hothers⟩ := h
  obtain ⟨found, hfound, hvalues⟩ := byName?_known hknown hnodup [] (by simp)
  refine ⟨known.map (·.2), ?_, List.forall₂_map_right_iff.2 (hknown.imp fun _ _ hgives => hgives.2)⟩
  have hnames : (fields.map fun f => ((f.1, none) : String × Slot)).map (·.1) = fields.map (·.1) := by simp
  have hread : byName? (fields.map fun f => (f.1, none)) entries = some found := by
    rw [byName?_perm _ (hperm.trans List.perm_append_comm), byName?_append,
      byName?_others _ (by rwa [hnames]), Option.bind_some]
    exact hfound
  simp only [slots?, List.map_map, Function.comp_def, hread, Option.map_some, hvalues]

/-- The fields are found in an array of their values. -/
theorem slots?_array {items : List Spelling} (h : List.Forall₂ (fun f s => f.2 s) fields items) :
    slots? (fields.map (·.1)) (.array items) = some (items.map some) := by
  show byPosition? (fields.map (·.1)) items = _
  induction h with
  | nil => rfl
  | cons _ _ ih =>
    rw [List.map_cons, byPosition?, ih]
    rfl

end Found

/-! ## Records -/

/-- An entry is written for a field: under its name, with a value all of whose spellings give the field. -/
structure Writes (f : Field) (e : String × Json) : Prop where
  name : e.1 = f.1
  exact : e.2.Exact
  gives (s : Spelling) : s.Spells e.2 → f.2 s

section Records

variable {α : Type} [JsonForm α] {Fits : α → Prop} {fields : α → List Field} {a : α} {s : Spelling}

theorem Sound.writes (h : Sound α Fits) (ha : Fits a) (name : String) : Writes (field name a) (name, toJson a) :=
  ⟨rfl, h.exact ha, fun _ hs => h.reads ha hs⟩

theorem Sound.fits_required? (h : Sound α Fits) {slot : Slot} (hslot : required? slot = some a) : Fits a := by
  obtain ⟨s, -, hs⟩ := Option.bind_eq_some_iff.1 hslot
  exact h.fits hs

/-- A type is written and read field by field. -/
structure OfFields (α : Type) [JsonForm α] (Fits : α → Prop) (fields : α → List Field) : Prop where
  nodup (a : α) : ((fields a).map (·.1)).Nodup
  writes {a : α} : Fits a → ∃ entries, toJson a = .object entries ∧ List.Forall₂ Writes (fields a) entries
  reads {a : α} {s : Spelling} {values : List Spelling} :
    slots? ((fields a).map (·.1)) s = some (values.map some) →
      List.Forall₂ (fun f s => f.2 s) (fields a) values → Reads a s
  fits {a : α} {s : Spelling} : Reads a s → Fits a

theorem OfFields.reads_object (h : OfFields α Fits fields) {entries : Entries} (hholds : Holds entries (fields a)) :
    Reads a (.object entries) := by
  obtain ⟨values, hslots, hvalues⟩ := slots?_object (h.nodup a) hholds
  exact h.reads hslots hvalues

theorem OfFields.reads_array (h : OfFields α Fits fields) {items : List Spelling}
    (hitems : List.Forall₂ (fun f s => f.2 s) (fields a) items) : Reads a (.array items) :=
  h.reads (slots?_array hitems) hitems

/-- What is written holds the fields. -/
theorem holds_of_spells {written : List (String × Json)} {fs : List Field} (h : List.Forall₂ Writes fs written)
    {entries : Entries} (hs : List.Forall₂ Json.Spelling.SpellsField entries written) : Holds entries fs := by
  refine ⟨entries, [], by rw [List.append_nil], ?_, by simp⟩
  induction h generalizing entries with
  | nil =>
    cases hs with
    | nil => exact .nil
  | cons hwrites _ ih =>
    cases hs with
    | cons hhead htail =>
      obtain ⟨hkey, hvalue⟩ := hhead
      exact .cons ⟨hwrites.name ▸ hkey, hwrites.gives _ hvalue⟩ (ih htail)

theorem OfFields.sound (h : OfFields α Fits fields) : Sound α Fits where
  exact ha := by
    obtain ⟨entries, hwritten, hwrites⟩ := h.writes ha
    rw [hwritten]
    exact .object (forall_mem_of_forall₂ hwrites.flip fun _ _ hwrite => hwrite.exact)
  reads {a s} ha hs := by
    obtain ⟨entries, hwritten, hwrites⟩ := h.writes ha
    rw [hwritten] at hs
    cases hs with
    | object hentries => exact h.reads_object (holds_of_spells hwrites hentries)
  fits := h.fits

/-- A record loses nothing: it is written as the object of its fields, and it is read from every object that
holds them and from the array of their values.  The fields may stand there as they are written
(`Writes.gives`) or in any other spelling that gives their values, such as an array within an object. -/
structure LosslessRecord (α : Type) [JsonForm α] (Fits : α → Prop) (fields : α → List Field) : Prop
    extends Lossless α Fits where
  written {a : α} : Fits a → ∃ entries, toJson a = .object entries ∧ List.Forall₂ Writes (fields a) entries
  object {a : α} {text : String} {entries : Entries} :
    Spelling.read? text = some (.object entries) → Holds entries (fields a) → read? α text = some a
  array {a : α} {text : String} {items : List Spelling} :
    Spelling.read? text = some (.array items) → List.Forall₂ (fun f s => f.2 s) (fields a) items →
      read? α text = some a

theorem OfFields.lossless (h : OfFields α Fits fields) : LosslessRecord α Fits fields where
  toLossless := h.sound.lossless
  written := h.writes
  object hread hholds := read?_of_reads hread (h.reads_object hholds)
  array hread hitems := read?_of_reads hread (h.reads_array hitems)

end Records

end LiveDataflow.JsonForm
