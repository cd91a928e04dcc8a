/-!
# Reachability along a list of edges

A directed graph is given by its edges.  `reachable` saturates a list of starting points: it sweeps
over the edges, adding the end of every edge whose beginning is already there, until a sweep adds
nothing.

`traverse` searches in depth: it takes points off a stack, visits those that it has not visited, and puts
their successors on the stack.  It goes from one starting point to the next with a new stack, but what was
visited before stays visited and is not gone into again.
-/

set_option autoImplicit false

namespace LiveDataflow.Reachability

variable {α : Type} [DecidableEq α]

/-! ## Sweeps -/

/-- One sweep over the edges. -/
def grow (edges : List (α × α)) (seen : List α) : List α :=
  edges.foldl (fun seen e => if e.1 ∈ seen ∧ e.2 ∉ seen then seen ++ [e.2] else seen) seen

/-- Sweeps until a sweep adds nothing, but at most `n` times. -/
def saturate (edges : List (α × α)) : Nat → List α → List α
  | 0, seen => seen
  | n + 1, seen =>
    let next := grow edges seen
    if next.length = seen.length then seen else saturate edges n next

/-- All points that are reached from one of `starts`. -/
def reachable (edges : List (α × α)) (starts : List α) : List α :=
  saturate edges edges.length starts

/-- Whether some edge leads back to where it began. -/
def hasCycle (edges : List (α × α)) : Bool :=
  edges.any fun e => e.1 ∈ reachable edges [e.2]

/-! ## Searches -/

/-- The ends of the edges that begin at a point. -/
def successors (edges : List (α × α)) (a : α) : List α := (edges.filter (·.1 = a)).map (·.2)

/-- Takes points off the stack, at most `n` of them, and visits those that were not visited. -/
def explore (edges : List (α × α)) : Nat → List α → List α → List α
  | 0, _, visited => visited
  | _ + 1, [], visited => visited
  | n + 1, a :: rest, visited =>
    if a ∈ visited then explore edges n rest visited
    else
      let unvisited := (successors edges a).filter (· ∉ a :: visited)
      explore edges n (unvisited ++ rest) (a :: visited)

/-- Searches from one starting point after the other. -/
def traverse (edges : List (α × α)) (starts : List α) : List α :=
  starts.foldl (fun visited a => explore edges (edges.length + 1) [a] visited) []

end LiveDataflow.Reachability
