import LiveDataflow.Error

/-!
# Operators

An operator is a processing stage: the name of its type, the ports it declares, and a JSON
configuration.  Operators differ in what they take for a configuration: a plain one holds an object
and takes objects, any other one has a state and rules of its own.
-/

set_option autoImplicit false

namespace LiveDataflow

/-- The configuration of an operator, with the rule for replacing it. -/
inductive Settings where
  /-- An object, to be replaced by objects only. -/
  | fields (fields : Json.Fields)
  /-- A state, the configuration it is shown as, and what it becomes when another one is offered. -/
  | custom (state : Json) (shown : Json → Json) (accept : Json → Json → Except Cause Json)

namespace Settings

/-- Any value, to be replaced by any value. -/
def free (value : Json) : Settings := .custom value id fun _ offered => .ok offered

/-- A value that is never replaced. -/
def locked (value : Json) : Settings :=
  .custom value id fun _ _ => .error (.refused .configuration "locked")

end Settings

structure Operator where
  typeName : String
  ports : PortTable
  settings : Settings

namespace Operator

def config (o : Operator) : Json :=
  match o.settings with
  | .fields fields => .object fields
  | .custom state shown _ => shown state

/-- Replaces the configuration. -/
def configure (o : Operator) (config : Json) : Except Cause Operator :=
  match o.settings, config with
  | .fields _, .object fields => .ok { o with settings := .fields fields }
  | .fields _, other => .error (.objectExpected o.typeName other)
  | .custom state shown accept, offered => do
    return { o with settings := .custom (← accept state offered) shown accept }

end Operator

end LiveDataflow
