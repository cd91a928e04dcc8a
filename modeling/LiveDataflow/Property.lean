import LiveDataflow.Operator
import LiveDataflow.Json.Spelling

/-!
# Properties

A property is a path of keys into the configuration of an operator, written with dots between the
keys, and a text.  The text stands for the JSON value it reads as, and for itself if it reads as
none.  Properties are set in the order of their names; if one of them cannot be set, none is.

`Operator.setProperties` says what an operator becomes.  `Configuring.setProperties` does it to the operator
at hand, which keeps what it has reached when a part of it fails: the properties are set in a copy of the
configuration, and the operator is given the copy at the end.
-/

set_option autoImplicit false

namespace LiveDataflow.Property

/-- Divides a text at its dots. -/
def splitAtDots : List Char → List (List Char)
  | [] => [[]]
  | c :: rest =>
    if c = '.' then [] :: splitAtDots rest
    else
      match splitAtDots rest with
      | [] => [[c]]
      | segment :: segments => (c :: segment) :: segments

/-- The keys of a property's path. -/
def path (property : String) : List String :=
  (splitAtDots property.toList).map String.ofList

/-- The value that a text stands for. -/
def valueOf (text : String) : Json := (Json.read? text).getD (.string text)

/-- Why a path cannot be followed. -/
inductive Fault where
  | emptyKey
  | notAnObject (key : String)
  deriving DecidableEq, Repr

def Fault.cause (property : String) : Fault → Cause
  | emptyKey => .badPropertyName property
  | notAnObject key => .crossesValue property key

/-- Puts a value at the end of a path, making the objects on the way that are not there. -/
def setAt (fields : Json.Fields) : List String → Json → Except Fault Json.Fields
  | [], _ => .error .emptyKey
  | [key], value => if key = "" then .error .emptyKey else .ok (fields.put key value)
  | key :: next :: rest, value =>
    if key = "" then .error .emptyKey
    else
      match Json.Fields.get? key fields with
      | none => do return fields.put key (.object (← setAt [] (next :: rest) value))
      | some (.object inner) =>
        do return fields.put key (.object (← setAt inner (next :: rest) value))
      | some _ => .error (.notAnObject key)

/-- Sets one property. -/
def set (fields : Json.Fields) (property text : String) : Except Cause Json.Fields :=
  (setAt fields (path property) (valueOf text)).mapError (Fault.cause property)

/-- Sets properties one after the other. -/
def setAll (fields : Json.Fields) (properties : List (String × String)) :
    Except Cause Json.Fields :=
  properties.foldlM (fun fields (property, text) => set fields property text) fields

end LiveDataflow.Property

namespace LiveDataflow.Operator

/-- The configuration as the fields of an object; a missing one is an object without fields. -/
def configFields (o : Operator) : Except Cause Json.Fields :=
  match o.config with
  | .object fields => .ok fields
  | .null => .ok []
  | other => .error (.notAnObject o.typeName other)

/-- Sets properties of an operator, in the order of their names. -/
def setProperties (o : Operator) (properties : SortedMap String String) :
    Except Cause Operator := do
  let fields ← o.configFields
  let fields ← Property.setAll fields properties.entries
  o.configure (.object fields)

end LiveDataflow.Operator

namespace LiveDataflow

/-- A computation on an operator that may fail; the operator it has reached stays. -/
abbrev Configuring := ExceptT Cause (StateM Operator)

namespace Configuring

/-- Carries out a computation: what came of it, and the operator it has reached. -/
def on {α : Type} (x : Configuring α) (o : Operator) : Except Cause α × Operator := x.run.run o

/-- Fails as the result does. -/
def attempt {α : Type} : Except Cause α → Configuring α
  | .ok a => return a
  | .error c => throw c

/-- Replaces the configuration. -/
def configure (config : Json) : Configuring Unit := do
  set (← attempt ((← get).configure config))

/-- Sets properties in the order of their names. -/
def setProperties (properties : SortedMap String String) : Configuring Unit := do
  let fields ← attempt (← get).configFields
  let fields ← attempt (Property.setAll fields properties.entries)
  configure (.object fields)

end Configuring

end LiveDataflow
