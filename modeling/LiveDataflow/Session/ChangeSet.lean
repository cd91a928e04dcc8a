import LiveDataflow.Layout

/-!
# The changes of a session

A session keeps account of the instances it made, of those whose wires it changed, and of those it
took away.  An instance has at most one of these roles: a new one is deployed with the wires it has
by then, and one that is gone is only to be stopped, if it ever ran.
-/

set_option autoImplicit false

namespace LiveDataflow

structure ChangeSet where
  /-- Made by this session. -/
  added : SortedSet InstanceId
  /-- There before, with other wires now. -/
  affected : SortedSet InstanceId
  /-- There before and taken away. -/
  removed : SortedSet InstanceId
  deriving DecidableEq

namespace ChangeSet

def empty : ChangeSet := ⟨∅, ∅, ∅⟩

instance : EmptyCollection ChangeSet := ⟨empty⟩

def isEmpty (c : ChangeSet) : Bool := c.added.isEmpty && c.affected.isEmpty && c.removed.isEmpty

/-- A new instance is no longer an affected one. -/
def addOne (c : ChangeSet) (id : InstanceId) : ChangeSet :=
  { c with affected := c.affected.erase id, added := c.added.insert id }

/-- Only an instance that is neither new nor gone is affected. -/
def affectOne (c : ChangeSet) (id : InstanceId) : ChangeSet :=
  if id ∈ c.added ∨ id ∈ c.removed then c else { c with affected := c.affected.insert id }

/-- An instance that was made and taken away in one session leaves no trace. -/
def removeOne (c : ChangeSet) (id : InstanceId) : ChangeSet :=
  if id ∈ c.added then
    { c with affected := c.affected.erase id, added := c.added.erase id }
  else { c with affected := c.affected.erase id, removed := c.removed.insert id }

def recordAdded (c : ChangeSet) (ids : List InstanceId) : ChangeSet := ids.foldl addOne c

def recordAffected (c : ChangeSet) (ids : List InstanceId) : ChangeSet := ids.foldl affectOne c

def recordRemoved (c : ChangeSet) (ids : List InstanceId) : ChangeSet := ids.foldl removeOne c

end ChangeSet

end LiveDataflow
