import SandboxTypes.Hierarchy.History

/-!
# Changing a hierarchy in place

A caller holds one hierarchy, and an insertion changes it step by step: a type is
listed first, and then linked to one parent after the other.  An insertion that is
refused on the way leaves what it has changed so far, so what a caller holds after
a refusal depends on the order of checks and steps.  A batch goes into a copy,
which takes the place of the hierarchy at the end.

Each change is the step-by-step form of the insertion of the same name in
`SandboxTypes.Hierarchy.Insertion`.
-/

namespace SandboxTypes

/-- The type, linked to one more parent unless it is linked to that already. -/
def Entry.withSuper (entry : Entry) (parent : Name) : Entry :=
  if parent ∈ entry.supers then entry else { entry with supers := entry.supers ++ [parent] }

namespace Hierarchy

/-- Lists a type, linked to nothing. -/
def list (hierarchy : Hierarchy) (declaration : Declaration) : Hierarchy :=
  { hierarchy with entries := ⟨declaration, []⟩ :: hierarchy.entries }

/-- Links a type to a parent, where both are there. -/
def link (hierarchy : Hierarchy) (child parent : Name) : Hierarchy :=
  if hierarchy.contains child && hierarchy.contains parent then
    { hierarchy with
      entries := hierarchy.entries.map fun entry =>
        if entry.name = child then entry.withSuper parent else entry }
  else hierarchy

end Hierarchy

/-- A change of the hierarchy that a caller holds.  A refusal tells its cause, and leaves the
hierarchy as it is by then. -/
abbrev Change (α : Type) : Type := EStateM HierarchyError Hierarchy α

namespace Change

/-- Inserts a type unless one of its name is there, and tells if it did. -/
def insertIfNew (declaration : Declaration) : Change Bool := do
  let held ← get
  if held.contains declaration.name then
    return false
  else
    match held.fault? declaration with
    | some error => throw error
    | none =>
      modify (·.list declaration)
      (declaration.parents ++ declaration.impliedParent?.toList).forM fun parent =>
        modify (·.link declaration.name parent)
      return true

/-- Inserts a type whose name is not there. -/
def insert (declaration : Declaration) : Change Unit := do
  let held ← get
  if held.contains declaration.name then
    throw (.duplicate declaration.name)
  else
    discard (insertIfNew declaration)

/-- Inserts a contract class by its sandbox declaration, and records its host declaration. -/
def insertContractClass (host sandbox : Declaration) : Change Unit := do
  if host.origin ≠ .host then
    throw (.notHost host.name)
  else
    insert sandbox
    modify (·.recordHost host)

/-- Inserts the types of a list in its order, skipping those that are there. -/
def insertEach (batch : List Declaration) : Change Unit :=
  batch.forM fun declaration => discard (insertIfNew declaration)

/-- Inserts a batch by rounds for as long as some declaration is ready, and tells what is left of
it. -/
def insertRounds (batch : List Declaration) : Change (List Declaration) :=
  match batch with
  | [] => return []
  | first :: rest => do
    let held ← get
    if (first :: rest).filter held.holdsParents = [] then
      return first :: rest
    else
      insertEach ((first :: rest).filter held.holdsParents)
      insertRounds ((first :: rest).filter fun declaration => !held.holdsParents declaration)
termination_by batch.length
decreasing_by exact Hierarchy.length_filter_not_lt _ ‹_›

/-- Inserts a batch into a copy, and puts the copy in place when all of the batch is in. -/
def insertMany (batch : List Declaration) : Change Unit := do
  let held ← get
  match (insertRounds batch).run held with
  | .ok [] copy => set copy
  | .ok (first :: _) copy => throw (copy.blockedFault first)
  | .error error _ => throw error

end Change

/-- The change that serves a request. -/
def Insertion.change : Insertion → Change Unit
  | single declaration => Change.insert declaration
  | ifNew declaration => discard (Change.insertIfNew declaration)
  | batch declarations => Change.insertMany declarations
  | contractClass host sandbox => Change.insertContractClass host sandbox

end SandboxTypes
