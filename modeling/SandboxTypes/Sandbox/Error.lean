import SandboxTypes.Hierarchy.Error
import SandboxTypes.Renamer.Error

/-!
# Why two types are not merged
-/

namespace SandboxTypes

/-- A cause for which two types have no common super type. -/
inductive MergeError where
  /-- A type has no counterpart in the other world. -/
  | rename (error : RenameError)
  /-- A type is not in the hierarchy. -/
  | hierarchy (error : HierarchyError)
  deriving DecidableEq, Repr

/-- The text reported for an error. -/
def MergeError.message : MergeError → String
  | rename error => error.message
  | hierarchy error => error.message

end SandboxTypes
