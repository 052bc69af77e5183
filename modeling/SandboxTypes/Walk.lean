import SandboxTypes.Name

/-!
# Depth-first walks

A walk keeps a stack of names to be visited, and the names it has seen.  It takes
the top name off the stack and, where the name is met for the first time, puts on
the stack what comes next after it.  A walk may go on from what an earlier one has
seen, and then does not enter that part again.
-/

namespace SandboxTypes

/-- How many steps the nodes that are not seen yet may cause: one for the node, and one for each
name that comes next after it. -/
def pendingSteps (next : Name → List Name) (seen : List Name) : List Name → Nat
  | [] => 0
  | node :: nodes =>
    (if node ∈ seen then 0 else (next node).length + 1) + pendingSteps next seen nodes

theorem pendingSteps_cons_le (next : Name → List Name) (name : Name) (seen nodes : List Name) :
    pendingSteps next (name :: seen) nodes ≤ pendingSteps next seen nodes := by
  induction nodes with
  | nil => exact Nat.le_refl _
  | cons node nodes ih =>
    have hnode : (if node ∈ name :: seen then 0 else (next node).length + 1) ≤
        if node ∈ seen then 0 else (next node).length + 1 := by
      split
      case isTrue => exact Nat.zero_le _
      case isFalse hfresh =>
        have hunseen : node ∉ seen := fun hseen => hfresh (List.mem_cons_of_mem _ hseen)
        exact Nat.le_of_eq (if_neg hunseen).symm
    exact Nat.add_le_add hnode ih

theorem pendingSteps_cons_lt (next : Name → List Name) {name : Name} {seen nodes : List Name}
    (hnode : name ∈ nodes) (hfresh : name ∉ seen) :
    pendingSteps next (name :: seen) nodes + (next name).length < pendingSteps next seen nodes := by
  induction nodes with
  | nil => exact absurd hnode List.not_mem_nil
  | cons node nodes ih =>
    rw [pendingSteps, pendingSteps]
    by_cases heq : node = name
    · subst heq
      have hrest := pendingSteps_cons_le next node seen nodes
      rw [if_pos List.mem_cons_self, if_neg hfresh]
      omega
    · have hrest := ih ((List.mem_cons.1 hnode).resolve_left (Ne.symm heq))
      have hsame : node ∈ name :: seen ↔ node ∈ seen := by simp [heq]
      simp only [hsame]
      omega

/-- Walks depth first from the names of a stack, and returns all that is seen at the end. -/
def walk (nodes : List Name) (next : Name → List Name) (stack seen : List Name) : List Name :=
  match stack with
  | [] => seen
  | name :: stack =>
    if name ∈ nodes ∧ name ∉ seen then
      walk nodes next ((next name).filter (· ∉ name :: seen) ++ stack) (name :: seen)
    else
      walk nodes next stack seen
termination_by pendingSteps next seen nodes + stack.length
decreasing_by
  · rename_i hvisit
    have hpending := pendingSteps_cons_lt next hvisit.1 hvisit.2
    have hpushed := List.length_filter_le (· ∉ name :: seen) (next name)
    rw [List.length_append, List.length_cons]
    omega
  · exact Nat.lt_succ_self _

/-- Walks from one name after the other, each time on from what is seen already. -/
def walkEach (nodes : List Name) (next : Name → List Name) (starts : List Name) : List Name :=
  starts.foldl (fun seen start => walk nodes next [start] seen) []

end SandboxTypes
