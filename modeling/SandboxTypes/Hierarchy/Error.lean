import SandboxTypes.Name

/-!
# Why the hierarchy refuses
-/

namespace SandboxTypes

/-- A cause for which a declaration is not admitted, or a query has no answer. -/
inductive HierarchyError where
  /-- The type is there already. -/
  | duplicate (name : Name)
  /-- A type other than a root names the class of all host objects as a parent. -/
  | extendsHostRoot (name : Name)
  /-- A class names no super class. -/
  | missingSuperClass (name : Name)
  /-- An interface names a super class. -/
  | unexpectedSuperClass (name : Name)
  /-- The declaration of a node is not in sandbox names. -/
  | notSandbox (name : Name)
  /-- The host declaration of a contract class is not in host names. -/
  | notHost (name : Name)
  /-- No type of this name is there. -/
  | unknownType (name : Name)
  /-- A declared parent is not there. -/
  | unknownParent (name parent : Name)
  deriving DecidableEq, Repr

/-- The text reported for an error. -/
def HierarchyError.message : HierarchyError → String
  | duplicate name => "Class " ++ name ++ " is already in the hierarchy"
  | extendsHostRoot name => "Class " ++ name ++ " extends or implements java.lang.Object directly"
  | missingSuperClass name => "Class " ++ name ++ " has no super class"
  | unexpectedSuperClass name => "Interface " ++ name ++ " declares a super class"
  | notSandbox name => "Class " ++ name ++ " is not in the post-rename namespace"
  | notHost name => "Class " ++ name ++ " is not in the pre-rename namespace"
  | unknownType name => "Class " ++ name ++ " is not in the hierarchy"
  | unknownParent name parent =>
    "Class " ++ name ++ " declares " ++ parent ++ " as a parent, which is not in the hierarchy"

end SandboxTypes
