import LiveDataflow.Error

/-!
# Settings of a plan

How many instances share a new container, how many partitions an operator has unless it says
otherwise, and whether the data types of connected ports have to agree.

## Results

* `Config.validate_eq_ok_iff`: a configuration is accepted if and only if both counts are positive.
-/

set_option autoImplicit false

namespace LiveDataflow

structure Config where
  maxPerContainer : UInt64 := 1
  defaultPartitions : UInt64 := 1
  strictTypes : Bool := true
  deriving DecidableEq, Repr, Inhabited

namespace Config

def default : Config := {}

/-- The number of instances that go into one new container: at least one, whatever is set. -/
def groupSize (c : Config) : Nat := max 1 c.maxPerContainer.toNat

def validate (c : Config) : Except Cause Unit :=
  if c.maxPerContainer = 0 then .error .emptyContainers
  else if c.defaultPartitions = 0 then .error .emptyOperators
  else .ok ()

theorem validate_eq_ok_iff {c : Config} :
    c.validate = .ok () ↔ c.maxPerContainer ≠ 0 ∧ c.defaultPartitions ≠ 0 := by
  unfold validate
  split
  · simp_all
  · split <;> simp_all

end Config

end LiveDataflow
