import SandboxTypes.Name.Set
import SandboxTypes.World

/-!
# Type declarations

What is recorded of a class or an interface: its name, its kind, its direct
parents, and the world its names are written in.  A declaration is what somebody
said about a type.  It may contradict itself; the hierarchy checks what it admits.
-/

namespace SandboxTypes

/-- The description of a class or an interface. -/
structure Declaration where
  name : Name
  isInterface : Bool
  superClass? : Option Name
  interfaces : NameSet
  origin : World
  deriving DecidableEq

namespace Declaration

/-- The declared parents: the super class, and the interfaces in order. -/
def parents (declaration : Declaration) : List Name :=
  declaration.superClass?.toList ++ declaration.interfaces.names

theorem mem_parents {declaration : Declaration} {name : Name} :
    name ∈ declaration.parents ↔
      declaration.superClass? = some name ∨ name ∈ declaration.interfaces := by
  simp [parents, NameSet.mem_names]

/-- A class of the sandbox. -/
def sandboxClass (name superClass : Name) (interfaces : List Name) : Declaration :=
  ⟨name, false, some superClass, NameSet.ofList interfaces, .sandbox⟩

/-- An interface of the sandbox. -/
def sandboxInterface (name : Name) (interfaces : List Name) : Declaration :=
  ⟨name, true, none, NameSet.ofList interfaces, .sandbox⟩

end Declaration

end SandboxTypes
