import LiveDataflow.Proofs.Rearranged

/-!
# Setting properties

The properties of an operator are set in the order of their names, and that order puts a path before all
paths that go on from it.  So the laws of writes hold for them.

## Results

* `Property.ordered_writes`: the order of the names is one in which no write clears away another.
* `Property.setAll_eq_ok_iff`: what setting properties comes to.
* `Configuring.on_setProperties`: an operator is changed as a whole or not at all.
* `Configuring.setProperties_exact`: exactly the paths that are named are written.
* `Configuring.setProperties_repeats`: setting the same properties again changes nothing, and properties whose
  paths part can be set one by one in any order.
-/

set_option autoImplicit false

namespace LiveDataflow

open Json (Fields)

/-! ## Names -/

namespace Property

variable {a b : String} {fields written : Fields} {entries : List (String × String)}

/-- A text that is divided at its dots can be put together again. -/
theorem flatMap_splitAtDots (l : List Char) : (splitAtDots l).flatMap (· ++ ['.']) = l ++ ['.'] := by
  induction l with
  | nil => rfl
  | cons c rest ih =>
    unfold splitAtDots
    split
    · rename_i hc
      rw [List.flatMap_cons, ih, hc]
      rfl
    · split
      · rename_i hnil
        rw [hnil] at ih
        exact absurd ih (by simp)
      · rename_i segment segments hcons
        rw [hcons] at ih
        rw [List.flatMap_cons] at ih ⊢
        exact congrArg (c :: ·) ih

theorem splitAtDots_ne_nil (l : List Char) : splitAtDots l ≠ [] := by
  intro hnil
  have h := flatMap_splitAtDots l
  rw [hnil] at h
  exact absurd h.symm (by simp)

theorem path_ne_nil (name : String) : path name ≠ [] := fun hnil =>
  splitAtDots_ne_nil _ (List.map_eq_nil_iff.1 hnil)

theorem flatMap_path (name : String) : (path name).flatMap (·.toList ++ ['.']) = name.toList ++ ['.'] := by
  rw [← flatMap_splitAtDots, path, List.flatMap_map]
  simp only [String.toList_ofList]

/-- A path that goes on from another one has a name that goes on from the other's. -/
theorem prefix_toList (h : path a <+: path b) : a.toList <+: b.toList := by
  obtain ⟨rest, hrest⟩ := h
  have hb := flatMap_path b
  rw [← hrest, List.flatMap_append, flatMap_path, List.append_assoc] at hb
  -- The dot after `a` is in the text of `b`, since more segments follow, or it is the one put after `b`.
  have hprefix : a.toList <+: b.toList ++ ['.'] := ⟨_, hb⟩
  have hlength := congrArg List.length hb
  simp only [List.length_append, List.length_cons, List.length_nil] at hlength
  exact List.prefix_of_prefix_length_le hprefix (List.prefix_append _ _) (by omega)

/-! ## Properties as writes -/

/-- What is written for properties. -/
def writes (entries : List (String × String)) : List (List String × Json) :=
  entries.map fun e => (path e.1, valueOf e.2)

theorem mem_writes {e : String × String} (he : e ∈ entries) : (path e.1, valueOf e.2) ∈ writes entries :=
  List.mem_map.2 ⟨e, he, rfl⟩

/-- **In the order of the names no write clears away another.** -/
theorem ordered_writes (properties : SortedMap String String) : Json.Ordered (writes properties.entries) := by
  unfold Json.Ordered writes
  rw [List.pairwise_map]
  exact properties.ascending.imp fun hlt hprefix => List.not_lt.2 (prefix_toList hprefix).le hlt

theorem writes_ne_nil (entries : List (String × String)) : ∀ x ∈ writes entries, x.1 ≠ [] := by
  intro x hx
  obtain ⟨e, _, rfl⟩ := List.mem_map.1 hx
  exact path_ne_nil e.1

theorem set_eq_ok_iff {name text : String} : set fields name text = .ok written ↔
    (Json.object fields).Clear (path name) ∧
      Json.object written = (Json.object fields).write (path name) (valueOf text) := by
  rw [← setAt_eq_ok_iff (path_ne_nil name)]
  unfold set
  cases setAt fields (path name) (valueOf text) <;> simp [Except.mapError]

theorem setAll_cons (fields : Fields) (property : String × String) (rest : List (String × String)) :
    setAll fields (property :: rest) =
      (set fields property.1 property.2 >>= fun deeper => setAll deeper rest) := rfl

/-- **Setting properties comes to their writes.** -/
theorem setAll_eq_ok_iff : setAll fields entries = .ok written ↔
    (Json.object fields).ClearAll (writes entries) ∧
      Json.object written = (Json.object fields).writeAll (writes entries) := by
  induction entries generalizing fields with
  | nil =>
    constructor
    · intro h
      cases h
      exact ⟨trivial, rfl⟩
    · rintro ⟨_, hwritten⟩
      cases hwritten
      rfl
  | cons e rest ih =>
    obtain ⟨name, text⟩ := e
    rw [setAll_cons]
    cases hset : set fields name text with
    | error c =>
      refine iff_of_false nofun fun ⟨⟨hclear, _⟩, _⟩ => ?_
      have hok := set_eq_ok_iff.2 ⟨hclear, Json.object_fieldsOf_write _ (valueOf text) (path_ne_nil name)⟩
      rw [hset] at hok
      cases hok
    | ok deeper =>
      obtain ⟨hclear, hwrite⟩ := set_eq_ok_iff.1 hset
      show setAll deeper rest = .ok written ↔ _
      rw [ih, hwrite]
      exact ⟨fun ⟨hrest, hall⟩ => ⟨⟨hclear, hrest⟩, hall⟩, fun ⟨⟨_, hrest⟩, hall⟩ => ⟨hrest, hall⟩⟩

/-- Properties can be set exactly if the paths can be followed in turn. -/
theorem exists_setAll_eq_ok_iff :
    (∃ written, setAll fields entries = .ok written) ↔ (Json.object fields).ClearAll (writes entries) := by
  constructor
  · rintro ⟨written, hok⟩
    exact (setAll_eq_ok_iff.1 hok).1
  · intro hclear
    obtain ⟨written, hwritten⟩ := Json.exists_writeAll_eq fields (writes_ne_nil entries)
    exact ⟨written, setAll_eq_ok_iff.2 ⟨hclear, hwritten.symm⟩⟩

/-- Paths part if no name's path is the beginning of another's. -/
theorem apart_writes {properties : SortedMap String String}
    (h : ∀ a ∈ properties.keys, ∀ b ∈ properties.keys, path a <+: path b → a = b) :
    (writes properties.entries).Pairwise fun x y => Json.Apart x.1 y.1 := by
  unfold writes
  rw [List.pairwise_map]
  refine properties.ascending.imp_of_mem fun {e e'} he he' hlt => Json.apart_iff.2 ?_
  have hne : e.1 ≠ e'.1 := KeyOrder.ne_of_lt hlt
  have hkey : e.1 ∈ properties.keys := List.mem_map_of_mem he
  have hkey' : e'.1 ∈ properties.keys := List.mem_map_of_mem he'
  exact ⟨fun hpre => hne (h _ hkey _ hkey' hpre), fun hpre => hne (h _ hkey' _ hkey hpre).symm⟩

/-- What an object has come to when exactly the paths of properties were written in it. -/
structure Written (entries : List (String × String)) (before after : Fields) : Prop where
  /-- What was written is there, unless it was written into. -/
  values : ∀ e ∈ entries, (∀ e' ∈ entries, path e.1 <+: path e'.1 → path e'.1 = path e.1) →
    (Json.object after).at? (path e.1) = some (valueOf e.2)
  /-- Everything is as it was on paths that part from those of the properties. -/
  elsewhere : ∀ r, (∀ e ∈ entries, ¬ r <+: path e.1 ∧ ¬ path e.1 <+: r) →
    (Json.object after).at? r = (Json.object before).at? r
  /-- On the way are objects. -/
  objects : ∀ e ∈ entries, ∀ r, r <+: path e.1 → r ≠ path e.1 →
    ∃ inner, (Json.object after).at? r = some (.object inner)
  /-- The keys keep their order, and new ones come last. -/
  keys : before.keys <+: after.keys

theorem written_of_setAll {properties : SortedMap String String}
    (h : setAll fields properties.entries = .ok written) : Written properties.entries fields written := by
  obtain ⟨_, hwritten⟩ := setAll_eq_ok_iff.1 h
  have hordered := ordered_writes properties
  constructor
  · intro e he hlast
    rw [hwritten]
    refine Json.at?_writeAll_of_mem hordered (mem_writes he) fun y hy => ?_
    obtain ⟨e', he', rfl⟩ := List.mem_map.1 hy
    exact hlast e' he'
  · intro r hr
    rw [hwritten]
    refine Json.at?_writeAll_of_apart fun x hx => ?_
    obtain ⟨e, he, rfl⟩ := List.mem_map.1 hx
    exact Json.apart_iff.2 (hr e he).symm
  · intro e he r hpre hne
    rw [hwritten]
    exact Json.exists_at?_writeAll hordered (mem_writes he) hpre hne
  · have hkeys := Json.keys_prefix_writeAll (j := .object fields) (writes_ne_nil properties.entries)
    rw [← hwritten] at hkeys
    exact hkeys

/-- **The same properties can be set once more and change nothing.** -/
theorem setAll_again {properties : SortedMap String String}
    (h : setAll fields properties.entries = .ok written) :
    setAll written properties.entries = .ok written := by
  obtain ⟨hclear, hwritten⟩ := setAll_eq_ok_iff.1 h
  obtain ⟨hagain, hsame⟩ := hclear.again (ordered_writes properties)
  rw [← hwritten] at hagain hsame
  exact setAll_eq_ok_iff.2 ⟨hagain, hsame.symm⟩

section Perm

variable {order others : List (String × String)} (hperm : order.Perm others)
  (hapart : (writes others).Pairwise fun x y => Json.Apart x.1 y.1)
include hperm hapart

/-- Whether properties whose paths part can be set does not depend on their order. -/
theorem exists_setAll_perm_iff (fields : Fields) :
    (∃ written, setAll fields order = .ok written) ↔ ∃ written, setAll fields others = .ok written := by
  have hwrites : (writes order).Perm (writes others) := hperm.map _
  rw [exists_setAll_eq_ok_iff, exists_setAll_eq_ok_iff, Json.clearAll_iff hapart,
    Json.clearAll_iff (hwrites.symm.pairwise hapart fun hxy => hxy.symm)]
  exact forall_congr' fun x => imp_congr_left hwrites.mem_iff

/-- Properties whose paths part come to the same in any order, but for the order of keys. -/
theorem alike_of_setAll_perm {first second : Fields} (hfirst : setAll fields order = .ok first)
    (hsecond : setAll fields others = .ok second) : Json.Alike (.object first) (.object second) := by
  have hwrites : (writes order).Perm (writes others) := hperm.map _
  rw [(setAll_eq_ok_iff.1 hfirst).2, (setAll_eq_ok_iff.1 hsecond).2]
  exact Json.alike_writeAll_perm hwrites (hwrites.symm.pairwise hapart fun hxy => hxy.symm) _

end Perm

end Property

/-! ## An operator's configuration -/

/-- A plain operator: its configuration is an object, to be replaced by objects. -/
abbrev Operator.plain (typeName : String) (ports : PortTable) (fields : Fields) : Operator :=
  ⟨typeName, ports, .fields fields⟩

namespace Configuring

variable {α β : Type} {o' : Operator} {typeName : String} {ports : PortTable} {fields : Fields}
  {properties : SortedMap String String} {order : List (String × String)}

@[simp] theorem on_get (o : Operator) : (get : Configuring Operator).on o = (.ok o, o) := rfl

@[simp] theorem on_attempt (r : Except Cause α) (o : Operator) : (attempt r).on o = (r, o) := by
  cases r <;> rfl

theorem on_bind (x : Configuring α) (f : α → Configuring β) (o : Operator) :
    (x >>= f).on o =
      match x.on o with
      | (.ok a, o') => (f a).on o'
      | (.error c, o') => (.error c, o') := by
  unfold on
  rw [ExceptT.run_bind, StateT.run_bind]
  rcases x.run.run o with ⟨r, o'⟩
  cases r <;> rfl

theorem on_configure (config : Json) (o : Operator) :
    (configure config).on o =
      match o.configure config with
      | .ok o' => (.ok (), o')
      | .error c => (.error c, o) := by
  simp only [configure, on_bind, on_get, on_attempt]
  cases o.configure config <;> rfl

/-- **An operator is changed as a whole or not at all**: it becomes what `Operator.setProperties` says, or
stays what it was. -/
theorem on_setProperties (properties : SortedMap String String) (o : Operator) :
    (setProperties properties).on o =
      match o.setProperties properties with
      | .ok o' => (.ok (), o')
      | .error c => (.error c, o) := by
  simp only [setProperties, Operator.setProperties, on_bind, on_get, on_attempt]
  cases o.configFields with
  | error c => rfl
  | ok fields =>
    simp only [bind, Except.bind]
    cases Property.setAll fields properties.entries with
    | error c => rfl
    | ok written => exact on_configure (.object written) o

/-- The configuration of a plain operator is set as its fields are. -/
theorem on_setProperties_plain (typeName : String) (ports : PortTable) (fields : Fields)
    (properties : SortedMap String String) :
    (setProperties properties).on (.plain typeName ports fields) =
      match Property.setAll fields properties.entries with
      | .ok written => (.ok (), .plain typeName ports written)
      | .error c => (.error c, .plain typeName ports fields) := by
  have hplain : (Operator.plain typeName ports fields).setProperties properties =
      (Property.setAll fields properties.entries >>= fun written => .ok (.plain typeName ports written)) := rfl
  rw [on_setProperties, hplain]
  cases Property.setAll fields properties.entries <;> rfl

theorem on_setProperties_eq_ok_iff :
    (setProperties properties).on (.plain typeName ports fields) = (.ok (), o') ↔
      ∃ written, Property.setAll fields properties.entries = .ok written ∧
        o' = .plain typeName ports written := by
  rw [on_setProperties_plain]
  cases Property.setAll fields properties.entries <;> simp [eq_comm]

/-- Sets properties one at a time, each by a call of its own. -/
def setInTurn (order : List (String × String)) : Configuring Unit :=
  order.forM fun property => setProperties (.ofList [property])

theorem on_setInTurn_eq_ok_iff :
    (setInTurn order).on (.plain typeName ports fields) = (.ok (), o') ↔
      ∃ written, Property.setAll fields order = .ok written ∧ o' = .plain typeName ports written := by
  induction order generalizing fields with
  | nil =>
    constructor
    · intro h
      cases h
      exact ⟨fields, rfl, rfl⟩
    · rintro ⟨written, hset, rfl⟩
      cases hset
      rfl
  | cons property rest ih =>
    have hturn : setInTurn (property :: rest) = (setProperties (.ofList [property]) >>= fun _ => setInTurn rest) :=
      List.forM_cons
    have hone : Property.setAll fields (SortedMap.ofList [property]).entries =
        (Property.set fields property.1 property.2 >>= fun deeper => .ok deeper) := rfl
    rw [hturn, on_bind, on_setProperties_plain, hone, Property.setAll_cons]
    cases Property.set fields property.1 property.2 with
    | error c => simp [bind, Except.bind]
    | ok deeper => exact ih

/-- **Exactly the paths that are named are written**, and when one of them cannot be written, none is. -/
theorem setProperties_exact (typeName : String) (ports : PortTable) (fields : Fields)
    (properties : SortedMap String String) :
    match (setProperties properties).on (.plain typeName ports fields) with
    | (.ok (), o) => ∃ written, o = .plain typeName ports written ∧
        Property.Written properties.entries fields written
    | (.error _, o) => o = .plain typeName ports fields := by
  rw [on_setProperties_plain]
  cases hset : Property.setAll fields properties.entries with
  | error c => rfl
  | ok written => exact ⟨written, rfl, Property.written_of_setAll hset⟩

/-- The configuration of an operator that tries again once. -/
def retrying : Fields := [("retry", .object [("max", .number (.integer 1))]), ("on", .bool true)]

/-- Properties of which one lies below another. -/
def waiting : SortedMap String String :=
  .ofList [("retry.wait.ms", "250"), ("retry.wait", "\x7b\x7d"), ("label", "x y")]

/-- One value is written and then written into.  A path through a value fails after another was written. -/
theorem setProperties_exact_nested :
    (∃ written, (setProperties waiting).on (.plain "sink" .empty retrying) =
        (.ok (), .plain "sink" .empty written) ∧
      (Json.object written).at? ["retry", "wait", "ms"] = some (.number (.integer 250)) ∧
      (Json.object written).at? ["retry", "max"] = some (.number (.integer 1)) ∧
      (∃ inner, (Json.object written).at? ["retry", "wait"] = some (.object inner)) ∧
      ["retry", "on"] <+: written.keys) ∧
    (setProperties (.ofList [("label", "x y"), ("on.at", "2")])).on (.plain "sink" .empty retrying) =
      (.error (.crossesValue "on.at" "on"), .plain "sink" .empty retrying) := by
  have hset := setProperties_exact "sink" .empty retrying waiting
  have hon : (setProperties waiting).on (.plain "sink" .empty retrying) = (.ok (), .plain "sink" .empty
      [("retry", .object [("max", .number (.integer 1)), ("wait", .object [("ms", .number (.integer 250))])]),
        ("on", .bool true), ("label", .string "x y")]) := rfl
  rw [hon] at hset
  obtain ⟨written, hwritten, hexact⟩ := hset
  rw [hwritten] at hon
  have hvalue := hexact.values ("retry.wait.ms", "250") (by decide) (by decide)
  have helsewhere := hexact.elsewhere ["retry", "max"] (by decide)
  have hobject := hexact.objects ("retry.wait.ms", "250") (by decide) ["retry", "wait"] (by decide) (by decide)
  exact ⟨⟨written, hon, hvalue, helsewhere, hobject, hexact.keys⟩, rfl⟩

/-- **The same properties can be set once more and change nothing, and properties of which none is the
beginning of another can be set one at a time in any order.**  The order decides nothing but the order of
keys. -/
theorem setProperties_repeats (typeName : String) (ports : PortTable) (fields : Fields)
    (properties : SortedMap String String) :
    (∀ o', (setProperties properties).on (.plain typeName ports fields) = (.ok (), o') →
        (setProperties properties).on o' = (.ok (), o')) ∧
      ((∀ a ∈ properties.keys, ∀ b ∈ properties.keys, Property.path a <+: Property.path b → a = b) →
        ∀ order : List (String × String), order.Perm properties.entries →
          ((∃ o₁, (setInTurn order).on (.plain typeName ports fields) = (.ok (), o₁)) ↔
            ∃ o₂, (setProperties properties).on (.plain typeName ports fields) = (.ok (), o₂)) ∧
          ∀ o₁ o₂, (setInTurn order).on (.plain typeName ports fields) = (.ok (), o₁) →
            (setProperties properties).on (.plain typeName ports fields) = (.ok (), o₂) →
              Json.Alike o₁.config o₂.config) := by
  refine ⟨fun o' h => ?_, fun hpart order hperm => ⟨?_, fun o₁ o₂ h₁ h₂ => ?_⟩⟩
  · obtain ⟨written, hset, rfl⟩ := on_setProperties_eq_ok_iff.1 h
    exact on_setProperties_eq_ok_iff.2 ⟨written, Property.setAll_again hset, rfl⟩
  · have hiff := Property.exists_setAll_perm_iff hperm (Property.apart_writes hpart) fields
    constructor
    · rintro ⟨_, h⟩
      obtain ⟨written, hset, -⟩ := on_setInTurn_eq_ok_iff.1 h
      obtain ⟨written, hset⟩ := hiff.1 ⟨written, hset⟩
      exact ⟨_, on_setProperties_eq_ok_iff.2 ⟨written, hset, rfl⟩⟩
    · rintro ⟨_, h⟩
      obtain ⟨written, hset, -⟩ := on_setProperties_eq_ok_iff.1 h
      obtain ⟨written, hset⟩ := hiff.2 ⟨written, hset⟩
      exact ⟨_, on_setInTurn_eq_ok_iff.2 ⟨written, hset, rfl⟩⟩
  · obtain ⟨first, hfirst, rfl⟩ := on_setInTurn_eq_ok_iff.1 h₁
    obtain ⟨second, hsecond, rfl⟩ := on_setProperties_eq_ok_iff.1 h₂
    exact Property.alike_of_setAll_perm hperm (Property.apart_writes hpart) hfirst hsecond

/-- Properties whose paths part. -/
def parting : SortedMap String String :=
  .ofList [("label", "x y"), ("retry.wait.at", "2"), ("retry.wait.ms", "250")]

/-- The object that two properties make has its keys in one order or the other. -/
theorem setProperties_repeats_parting :
    ∃ inTurn atOnce, (setInTurn parting.entries.reverse).on (.plain "sink" .empty retrying) =
        (.ok (), .plain "sink" .empty inTurn) ∧
      (setProperties parting).on (.plain "sink" .empty retrying) = (.ok (), .plain "sink" .empty atOnce) ∧
      (setProperties parting).on (.plain "sink" .empty atOnce) = (.ok (), .plain "sink" .empty atOnce) ∧
      inTurn ≠ atOnce ∧ Json.Alike (.object inTurn) (.object atOnce) := by
  obtain ⟨hagain, horder⟩ := setProperties_repeats "sink" .empty retrying parting
  obtain ⟨_, halike⟩ := horder (by decide) parting.entries.reverse (List.reverse_perm _)
  have hinTurn : (setInTurn parting.entries.reverse).on (.plain "sink" .empty retrying) =
      (.ok (), .plain "sink" .empty
        [("retry", .object [("max", .number (.integer 1)),
            ("wait", .object [("ms", .number (.integer 250)), ("at", .number (.integer 2))])]),
          ("on", .bool true), ("label", .string "x y")]) := rfl
  have hatOnce : (setProperties parting).on (.plain "sink" .empty retrying) =
      (.ok (), .plain "sink" .empty
        [("retry", .object [("max", .number (.integer 1)),
            ("wait", .object [("at", .number (.integer 2)), ("ms", .number (.integer 250))])]),
          ("on", .bool true), ("label", .string "x y")]) := rfl
  exact ⟨_, _, hinTurn, hatOnce, hagain _ hatOnce, by decide, halike _ _ hinTurn hatOnce⟩

end Configuring

end LiveDataflow
