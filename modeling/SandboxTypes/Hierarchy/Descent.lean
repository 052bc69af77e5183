import SandboxTypes.Hierarchy

/-!
# Searches by tree edges

A recursive search goes along the edges of a graph, and into every name at the edge
that meets it first.  These edges make up a tree, the search tree.  What is below a
type can be read off the tree of a search against the links: it is what the edges of
the tree lead to.

The edges that calls of the search have still to look at are pending, those of the
innermost call first.
-/

namespace SandboxTypes

/-- The edges of the search tree that a search adds, in the order in which it takes them. -/
def treeEdges (nodes : List Name) (next : Name → List Name) (pending : List (Name × Name))
    (seen : List Name) : List (Name × Name) :=
  match pending with
  | [] => []
  | (name, after) :: pending =>
    if after ∈ nodes ∧ after ∉ seen then
      (name, after) ::
        treeEdges nodes next ((next after).map (after, ·) ++ pending) (after :: seen)
    else
      treeEdges nodes next pending seen
termination_by pendingSteps next seen nodes + pending.length
decreasing_by
  · rename_i hvisit
    have hpending := pendingSteps_cons_lt next hvisit.1 hvisit.2
    rw [List.length_append, List.length_map, List.length_cons]
    omega
  · exact Nat.lt_succ_self _

namespace Hierarchy

/-- The edges of the search tree below a type. -/
def descent (hierarchy : Hierarchy) (name : Name) : List (Name × Name) :=
  treeEdges hierarchy.nodes hierarchy.subsOf ((hierarchy.subsOf name).map (name, ·)) [name]

end Hierarchy

end SandboxTypes
