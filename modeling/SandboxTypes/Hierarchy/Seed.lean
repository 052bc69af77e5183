import SandboxTypes.ArrayBase
import SandboxTypes.Hierarchy.Insertion
import SandboxTypes.HostLibrary
import SandboxTypes.Primitive

/-!
# Seeding a hierarchy

A hierarchy is usually built from the host library, the array types, and types of
the caller's own.
-/

namespace SandboxTypes

namespace HostLibrary

/-- The sandbox name of a host type of the library. -/
def sandboxName (name : Name) : Name :=
  if name ∈ apiTypes.map HostType.name then Zone.api.qualify name else Zone.shadow.qualify name

/-- A host type of the library as a type of the sandbox. -/
def sandboxDeclaration (type : HostType) : Declaration where
  name := sandboxName type.name
  isInterface := type.superClass?.isNone
  superClass? := type.superClass?.map sandboxName
  interfaces := NameSet.ofList (type.interfaces.map sandboxName)
  origin := .sandbox

/-- Checks if a host type of the library is an exception that is seeded in any case. -/
def isExceptionRoot (type : HostType) : Bool :=
  (FixedType.ofName? (sandboxName type.name)).any FixedType.isExceptionRoot

end HostLibrary

/-- An array base type as a type of the sandbox. -/
def ArrayBase.declaration : ArrayBase → Declaration
  | array => .sandboxClass array.name FixedType.shadowObject.name [iArray.name]
  | iArray => .sandboxInterface iArray.name [FixedType.iObject.name]
  | objectArray => .sandboxClass objectArray.name array.name [iObjectArray.name]
  | iObjectArray => .sandboxInterface iObjectArray.name [iArray.name]

@[simp] theorem ArrayBase.declaration_name (base : ArrayBase) :
    base.declaration.name = base.name := by
  cases base <;> rfl

/-- The wrapper of one-dimensional arrays of a primitive type as a type of the sandbox. -/
def Primitive.wrapperDeclaration (type : Primitive) : Declaration :=
  .sandboxClass (Zone.array.qualify type.wrapperName) ArrayBase.array.name []

/-- The array base types, and the wrappers of one-dimensional arrays of primitive types. -/
def arrayDeclarations : List Declaration :=
  ArrayBase.all.map ArrayBase.declaration ++ Primitive.all.map Primitive.wrapperDeclaration

/-- What a hierarchy is built from, beside the roots. -/
structure Seed where
  /-- Whether to seed the standard library. -/
  shadowTypes : Bool
  /-- Whether to seed all exceptions.  The upper ones are seeded in any case. -/
  exceptions : Bool
  /-- Whether to seed the types that face the host. -/
  apiTypes : Bool
  /-- Whether to seed the array base types and the wrappers of one-dimensional primitive arrays. -/
  arrayTypes : Bool
  /-- More types of the sandbox, in any order. -/
  extra : List Declaration
  /-- Contract classes by their host and sandbox declarations, parents first. -/
  contractClasses : List (Declaration × Declaration)

namespace Seed

/-- The seed of the whole library. -/
def full : Seed := ⟨true, true, true, true, [], []⟩

/-- The seed of nothing but the upper exceptions. -/
def minimal : Seed := ⟨false, false, false, false, [], []⟩

/-- The seeded types of the host library. -/
def hostTypes (seed : Seed) : List HostType :=
  (if seed.shadowTypes then HostLibrary.shadowTypes else []) ++
    HostLibrary.shadowExceptions.filter
      (fun type => seed.exceptions || HostLibrary.isExceptionRoot type) ++
    (if seed.apiTypes then HostLibrary.apiTypes else [])

/-- The seeded array types. -/
def arrayDeclarations (seed : Seed) : List Declaration :=
  if seed.arrayTypes then SandboxTypes.arrayDeclarations else []

end Seed

/-- Builds a hierarchy: the host library, the array types and the further types go in as batches,
and the contract classes one by one. -/
def Hierarchy.build (seed : Seed) : Except HierarchyError Hierarchy := do
  let library ← initial.insertMany (seed.hostTypes.map HostLibrary.sandboxDeclaration)
  let arrays ← library.insertMany seed.arrayDeclarations
  let extended ← arrays.insertMany seed.extra
  extended.insertContractClasses seed.contractClasses

end SandboxTypes
