import SandboxTypes.Declaration
import SandboxTypes.FixedType
import SandboxTypes.Hierarchy.Error
import SandboxTypes.Walk

/-!
# The type hierarchy

A hierarchy holds the declared types of the sandbox, the newest first, each with
the names of the types directly above it.  The types above a type are found by a
walk along these links, and the types below it by a walk against them.

Beside the types, a hierarchy keeps the host declarations of contract classes.
-/

namespace SandboxTypes

/-- A type of a hierarchy: its declaration, and the types directly above it. -/
structure Entry where
  declaration : Declaration
  supers : List Name
  deriving DecidableEq

/-- The name of the type. -/
def Entry.name (entry : Entry) : Name := entry.declaration.name

/-- The types of a sandbox, the newest first, and the host declarations of contract classes. -/
structure Hierarchy where
  entries : List Entry
  hostDeclarations : List Declaration
  deriving DecidableEq

namespace Hierarchy

/-! ### Single types -/

/-- The entry of a type. -/
def entry? (hierarchy : Hierarchy) (name : Name) : Option Entry :=
  hierarchy.entries.find? (·.name = name)

/-- The declaration of a type. -/
def get? (hierarchy : Hierarchy) (name : Name) : Option Declaration :=
  (hierarchy.entry? name).map Entry.declaration

/-- Checks if a type is there. -/
def contains (hierarchy : Hierarchy) (name : Name) : Bool := (hierarchy.entry? name).isSome

/-- Tells of a type if it is an interface. -/
def isInterface? (hierarchy : Hierarchy) (name : Name) : Option Bool :=
  (hierarchy.get? name).map Declaration.isInterface

/-- The types directly above a type. -/
def supersOf (hierarchy : Hierarchy) (name : Name) : List Name :=
  ((hierarchy.entry? name).map Entry.supers).getD []

/-- The types directly below a type. -/
def subsOf (hierarchy : Hierarchy) (name : Name) : List Name :=
  (hierarchy.entries.filter (name ∈ ·.supers)).map Entry.name

/-- The names of all types, the newest first. -/
def nodes (hierarchy : Hierarchy) : List Name := hierarchy.entries.map Entry.name

/-- The names of all types. -/
def names (hierarchy : Hierarchy) : NameSet := NameSet.ofList hierarchy.nodes

/-- The number of types. -/
def size (hierarchy : Hierarchy) : Nat := hierarchy.entries.length

/-- Checks if there are no types. -/
def isEmpty (hierarchy : Hierarchy) : Bool := hierarchy.entries.isEmpty

theorem name_of_find_entry {hierarchy : Hierarchy} {name : Name} {entry : Entry}
    (h : hierarchy.entry? name = some entry) : entry.name = name := by
  have found := List.find?_some h
  exact of_decide_eq_true found

theorem mem_of_find_entry {hierarchy : Hierarchy} {name : Name} {entry : Entry}
    (h : hierarchy.entry? name = some entry) : entry ∈ hierarchy.entries :=
  List.mem_of_find?_eq_some h

theorem contains_iff {hierarchy : Hierarchy} {name : Name} :
    hierarchy.contains name ↔ name ∈ hierarchy.entries.map Entry.name := by
  simp [contains, entry?, List.find?_isSome]

theorem mem_names_iff {hierarchy : Hierarchy} {name : Name} :
    name ∈ hierarchy.names ↔ hierarchy.contains name := by
  rw [contains_iff, names, NameSet.mem_ofList, nodes]

/-! ### Host declarations of contract classes -/

/-- Records the host declaration of a contract class, in place of one of the same name. -/
def recordHost (hierarchy : Hierarchy) (declaration : Declaration) : Hierarchy :=
  { hierarchy with
    hostDeclarations :=
      declaration :: hierarchy.hostDeclarations.filter (·.name ≠ declaration.name) }

/-- The host declaration of a contract class, by its host name. -/
def hostDeclaration? (hierarchy : Hierarchy) (name : Name) : Option Declaration :=
  hierarchy.hostDeclarations.find? (·.name = name)

/-- The host names of all contract classes and interfaces. -/
def hostNames (hierarchy : Hierarchy) : NameSet :=
  NameSet.ofList (hierarchy.hostDeclarations.map Declaration.name)

/-- The host names of all contract classes that are not interfaces. -/
def hostClassNames (hierarchy : Hierarchy) : NameSet :=
  NameSet.ofList ((hierarchy.hostDeclarations.filter (!·.isInterface)).map Declaration.name)

/-- The number of recorded host declarations. -/
def hostSize (hierarchy : Hierarchy) : Nat := hierarchy.hostDeclarations.length

/-! ### Ancestors and descendants -/

/-- A type and all types above it. -/
def ancestorsOf (hierarchy : Hierarchy) (name : Name) : Except HierarchyError NameSet :=
  if hierarchy.contains name then
    .ok (NameSet.ofList (walk hierarchy.nodes hierarchy.supersOf [name] []))
  else .error (.unknownType name)

/-- All types strictly below a type. -/
def descendantsOf (hierarchy : Hierarchy) (name : Name) : Except HierarchyError NameSet :=
  if hierarchy.contains name then
    .ok (NameSet.ofList ((walk hierarchy.nodes hierarchy.subsOf [name] []).filter (· ≠ name)))
  else .error (.unknownType name)

/-! ### The roots -/

/-- The hierarchy of the four roots. -/
def initial : Hierarchy where
  entries :=
    [ ⟨⟨FixedType.hostThrowable.name, false, some FixedType.hostObject.name, ∅, .sandbox⟩,
        [FixedType.hostObject.name]⟩,
      ⟨⟨FixedType.shadowObject.name, false, some FixedType.hostObject.name,
          NameSet.ofList [FixedType.iObject.name], .sandbox⟩,
        [FixedType.hostObject.name, FixedType.iObject.name]⟩,
      ⟨⟨FixedType.iObject.name, true, none, ∅, .sandbox⟩, [FixedType.hostObject.name]⟩,
      ⟨⟨FixedType.hostObject.name, false, none, ∅, .sandbox⟩, []⟩ ]
  hostDeclarations := []

instance : Inhabited Hierarchy := ⟨initial⟩

end Hierarchy

end SandboxTypes
