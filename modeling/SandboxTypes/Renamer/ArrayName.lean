import SandboxTypes.ArrayType.Descriptor
import SandboxTypes.Renamer.Error
import SandboxTypes.Wrapper

/-!
# Names of arrays in both worlds

An array is a descriptor on the host and a wrapper in the sandbox.  The element
keeps its name here; renaming it is a matter of the renamer.
-/

namespace SandboxTypes

/-- The name of the wrapper of an array in the requested family.  A request that is not for an
array is refused, also where the array has one wrapper only. -/
def ArrayType.wrapperName (array : ArrayType) : Option Family → Except RenameError Name
  | none => .error (.missingFamily array.descriptor)
  | some family => .ok (Wrapper.name ⟨array, family⟩)

/-- The descriptor of the array that a wrapper stands for. -/
def Wrapper.descriptorOf (text : Name) : Except RenameError Name :=
  match ofName? text with
  | some wrapper => .ok wrapper.array.descriptor
  | none => .error (.malformedArray text)

/-- Reads the descriptor of a host array. -/
def ArrayType.ofHostName (text : Name) : Except RenameError ArrayType :=
  match ofDescriptor? text with
  | some array => .ok array
  | none => .error (.malformedArray text)

/-- Checks if a dotted name is read as an array in either world: as a descriptor, be it well formed
or not, as a wrapper, or as an array base type. -/
def isArrayShaped (text : Name) : Bool :=
  ArrayType.opensDescriptor text || Wrapper.isName text || (ArrayBase.ofName? text).isSome

end SandboxTypes
