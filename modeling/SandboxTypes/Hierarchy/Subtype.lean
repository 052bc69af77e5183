import Mathlib.Logic.Relation
import SandboxTypes.Hierarchy.Insertion

/-!
# The declared subtype relation

What the recorded declarations say about types, without the links of the
hierarchy: a type is directly below its declared parents, an interface without
super-interfaces is directly below the interface root, and the interface root is
directly below the class of all host objects.
-/

namespace SandboxTypes

namespace Hierarchy

/-- The declarations place one type directly below another. -/
inductive DirectlyBelow (hierarchy : Hierarchy) : Name → Name → Prop where
  | declared {name parent : Name} {declaration : Declaration}
      (found : hierarchy.get? name = some declaration)
      (mem : parent ∈ declaration.parents) : DirectlyBelow hierarchy name parent
  | implied {name : Name} {declaration : Declaration}
      (found : hierarchy.get? name = some declaration)
      (other : name ≠ FixedType.iObject.name)
      (isInterface : declaration.isInterface)
      (bare : ∀ parent, parent ∉ declaration.interfaces) :
      DirectlyBelow hierarchy name FixedType.iObject.name
  | root {declaration : Declaration}
      (found : hierarchy.get? FixedType.iObject.name = some declaration) :
      DirectlyBelow hierarchy FixedType.iObject.name FixedType.hostObject.name

/-- The declarations place one type below another in any number of steps. -/
abbrev Below (hierarchy : Hierarchy) : Name → Name → Prop :=
  Relation.ReflTransGen hierarchy.DirectlyBelow

end Hierarchy

end SandboxTypes
