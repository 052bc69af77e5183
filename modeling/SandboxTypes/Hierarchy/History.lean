import SandboxTypes.Hierarchy.Seed

/-!
# Histories of a hierarchy

The hierarchies that callers can come to hold: the roots, whatever a seed builds,
and what any further insertions make of these, those that fail included.  A copy of
a hierarchy is the hierarchy itself, so copying adds none.
-/

namespace SandboxTypes

/-- A request to insert types. -/
inductive Insertion where
  | single (declaration : Declaration)
  | ifNew (declaration : Declaration)
  | batch (declarations : List Declaration)
  | contractClass (host sandbox : Declaration)
  deriving DecidableEq

namespace Hierarchy

/-- Serves a request. -/
def perform (hierarchy : Hierarchy) : Insertion → Except HierarchyError Hierarchy
  | .single declaration => hierarchy.insert declaration
  | .ifNew declaration => (hierarchy.insertIfNew declaration).map Prod.snd
  | .batch declarations => hierarchy.insertMany declarations
  | .contractClass host sandbox => hierarchy.insertContractClass host sandbox

/-- The hierarchy that a caller holds after a request, be it granted or refused. -/
def after (hierarchy : Hierarchy) (insertion : Insertion) : Hierarchy :=
  match hierarchy.perform insertion with
  | .ok changed => changed
  | .error _ => hierarchy

/-- The hierarchy that a caller holds after a run of requests. -/
def run (hierarchy : Hierarchy) (insertions : List Insertion) : Hierarchy :=
  insertions.foldl after hierarchy

/-- The hierarchies that callers can come to hold. -/
inductive Reachable : Hierarchy → Prop where
  | initial : Reachable initial
  | built {seed : Seed} {hierarchy : Hierarchy} (h : build seed = .ok hierarchy) :
      Reachable hierarchy
  | after {hierarchy : Hierarchy} (h : Reachable hierarchy) (insertion : Insertion) :
      Reachable (hierarchy.after insertion)

theorem after_of_perform_ok {hierarchy changed : Hierarchy} {insertion : Insertion}
    (h : hierarchy.perform insertion = .ok changed) : hierarchy.after insertion = changed := by
  rw [after, h]

theorem after_of_perform_error {hierarchy : Hierarchy} {insertion : Insertion}
    {error : HierarchyError} (h : hierarchy.perform insertion = .error error) :
    hierarchy.after insertion = hierarchy := by
  rw [after, h]

theorem Reachable.run {hierarchy : Hierarchy} (h : Reachable hierarchy)
    (insertions : List Insertion) : Reachable (hierarchy.run insertions) := by
  induction insertions generalizing hierarchy with
  | nil => exact h
  | cons insertion insertions ih => exact ih (h.after insertion)

end Hierarchy

end SandboxTypes
