import Mathlib.Logic.Relation
import SandboxTypes.Hierarchy.Seed
import SandboxTypes.Sandbox

/-!
# Contracts and their admission

A contract brings types of its own, described in host names and listed after
their parents.  For its admission a sandbox is made of a renamer that allows the types
of the contract and the host library, and of a hierarchy with the whole library.
Then the types of the contract go in one by one, each by its host declaration and
by what the renamer makes of that.

On the host, a type is directly below the parents it is declared with, and below
another one if a chain of such steps leads there (`Contract.Below`).
-/

namespace SandboxTypes

/-- Every declaration has a name that is not known before it, and only parents that are. -/
def InOrder (known : List Name) : List Declaration → Prop
  | [] => True
  | declaration :: rest =>
    declaration.name ∉ known ∧ (∀ parent ∈ declaration.parents, parent ∈ known) ∧
      InOrder (declaration.name :: known) rest

instance InOrder.decidable (known : List Name) :
    (declarations : List Declaration) → Decidable (InOrder known declarations)
  | [] => isTrue trivial
  | declaration :: rest =>
    have := InOrder.decidable (declaration.name :: known) rest
    inferInstanceAs (Decidable (_ ∧ _ ∧ _))

/-- The types that a contract brings, in an order in which they can be admitted. -/
structure Contract where
  declarations : List Declaration
  host : ∀ declaration ∈ declarations, declaration.origin = .host
  /-- No type has the name of an array. -/
  plain : ∀ declaration ∈ declarations, ArrayType.opensDescriptor declaration.name = false
  /-- Classes have a super class, and interfaces have none. -/
  kind : ∀ declaration ∈ declarations, declaration.isInterface = declaration.superClass?.isNone
  /-- The names are new, each of them once, and the parents come first. -/
  ordered : InOrder HostLibrary.names declarations

namespace Contract

/-- The names of the types that the contract brings. -/
def names (contract : Contract) : List Name := contract.declarations.map Declaration.name

/-- The names of all types that the contract may use. -/
def hostNames (contract : Contract) : List Name := contract.names ++ HostLibrary.names

/-! ### The subtype relation of the host -/

/-- One type is declared with the other one as a parent. -/
inductive DirectlyBelow (contract : Contract) : Name → Name → Prop where
  | own {declaration : Declaration} {parent : Name} (mem : declaration ∈ contract.declarations)
      (declared : parent ∈ declaration.parents) : DirectlyBelow contract declaration.name parent
  | library {type : HostType} {parent : Name} (mem : type ∈ HostLibrary.all)
      (declared : parent ∈ type.parents) : DirectlyBelow contract type.name parent

/-- The declared parents lead from one type to another in any number of steps. -/
abbrev Below (contract : Contract) : Name → Name → Prop :=
  Relation.ReflTransGen contract.DirectlyBelow

end Contract

/-! ### Admission -/

/-- A cause for which a contract is not admitted. -/
inductive AdmissionError where
  /-- A type may not be used, or has no name in the sandbox. -/
  | rename (error : RenameError)
  /-- A type does not fit into the hierarchy. -/
  | hierarchy (error : HierarchyError)
  deriving DecidableEq, Repr

/-- Describes a host type of a contract in sandbox names: first the interfaces are renamed, then the
type, and then its super class. -/
def Renamer.sandboxDeclaration (renamer : Renamer) (host : Declaration) :
    Except RenameError Declaration := do
  let interfaces ← host.interfaces.names.mapM (renamer.toSandboxOrReject · none)
  let name ← renamer.toSandboxOrReject host.name none
  let superClass? ← host.superClass?.mapM (renamer.toSandboxOrReject · none)
  return ⟨name, host.isInterface, superClass?, NameSet.ofList interfaces, .sandbox⟩

/-- Inserts a type of a contract by its host declaration and what the renamer makes of it. -/
def Hierarchy.insertRenamed (hierarchy : Hierarchy) (renamer : Renamer) (host : Declaration) :
    Except AdmissionError Hierarchy := do
  let sandbox ← (renamer.sandboxDeclaration host).mapError .rename
  (hierarchy.insertContractClass host sandbox).mapError .hierarchy

namespace Contract

/-- Allows the types of the contract, by their host names, and the host library. -/
def renamerConfig (contract : Contract) : RenamerConfig :=
  { (RenamerConfig.empty .dotted false).withHostLibrary with
    contractClasses := contract.names.map (·, .host) }

/-- Makes the sandbox of a contract. -/
def sandbox? (contract : Contract) : Except AdmissionError Sandbox := do
  let renamer ← (Renamer.ofConfig contract.renamerConfig).mapError .rename
  let library ← (Hierarchy.build .full).mapError .hierarchy
  let hierarchy ← contract.declarations.foldlM (·.insertRenamed renamer ·) library
  return ⟨hierarchy, renamer⟩

end Contract

end SandboxTypes
