import SandboxTypes.ArrayBase
import SandboxTypes.ArrayType

/-!
# Array wrappers

Inside the sandbox an array is an object of a wrapper class.  The name of the
class tells the array:

| array                              | wrapper                   |
|------------------------------------|---------------------------|
| `int[]`                            | `a.IntArray`              |
| `int[][]`                          | `a.$$I`                   |
| precise `s.java.lang.String[][]`   | `a.$$Ls.java.lang.String` |
| unifying `s.java.lang.String[]`    | `w._Ls.java.lang.String`  |

An object array has two wrappers, a precise and a unifying one; an array of
primitives has one, and counts as precise.  `Wrapper.name` writes the name and
`Wrapper.ofName?` reads it; `SandboxTypes.Wrapper.Reading` shows that it accepts
nothing else.
-/

namespace SandboxTypes

/-- The two families of array wrappers. -/
inductive Family where
  /-- Wrappers that an array is an object of. -/
  | precise
  /-- Interfaces that the precise wrappers of related element types meet at. -/
  | unifying
  deriving DecidableEq, Repr

/-- The word for the family. -/
def Family.label : Family → String
  | precise => "precise"
  | unifying => "unifying"

/-- An array type together with the family of its wrapper. -/
structure Wrapper where
  array : ArrayType
  family : Family
  deriving DecidableEq, Repr

namespace Wrapper

open ArrayType (ofDimension?)

/-- The character whose copies count the dimensions in the names of a family. -/
def marker : Family → Char
  | .precise => '$'
  | .unifying => '_'

/-- The zone the names of a family lie in. -/
def zone : Family → Zone
  | .precise => .array
  | .unifying => .unifying

/-- The dimensions and the element of a wrapper name. -/
def counted (family : Family) (dimension : Nat) (element : List Char) : Name :=
  (zone family).qualify (String.ofList (List.replicate dimension (marker family) ++ element))

/-- The name of the wrapper class.  A one-dimensional array of primitives has a hand-written
wrapper; all other names count the dimensions. -/
def name (wrapper : Wrapper) : Name :=
  match wrapper.array.element with
  | .primitive type =>
    if wrapper.array.dimension = 1 then Zone.array.qualify type.wrapperName
    else counted .precise wrapper.array.dimension [type.tag]
  | .object base => counted wrapper.family wrapper.array.dimension ('L' :: base.toList)

/-- Reads the element after the dimension count of a precise wrapper name.  A one-dimensional
array of primitives has no counted name. -/
def ofCounted? (dimension : Nat) : List Char → Option Element
  | [] => none
  | 'L' :: base => if base = [] then none else some (.object (String.ofList base))
  | c :: cs => if cs = [] ∧ 2 ≤ dimension then (Primitive.ofTag? c).map .primitive else none

/-- Reads what follows the mark of the precise family. -/
def ofPrecise? (rest : Name) : Option Wrapper :=
  if (splitRun '$' rest.toList).1 = 0 then
    (Primitive.ofWrapperName? rest).map fun type => ⟨⟨1, .primitive type⟩, .precise⟩
  else
    ((ofCounted? (splitRun '$' rest.toList).1 (splitRun '$' rest.toList).2).bind
      (ofDimension? (splitRun '$' rest.toList).1)).map fun array => ⟨array, .precise⟩

/-- Reads what follows the mark of the unifying family, which wraps object arrays only. -/
def ofUnifying? (rest : Name) : Option Wrapper :=
  match (splitRun '_' rest.toList).2 with
  | 'L' :: base =>
    if base = [] then none
    else (ofDimension? (splitRun '_' rest.toList).1 (.object (String.ofList base))).map
      fun array => ⟨array, .unifying⟩
  | _ => none

/-- The wrapper with the given name.  Array base types are not wrappers. -/
def ofName? (text : Name) : Option Wrapper :=
  match Zone.unifying.unqualify? text with
  | some rest => ofUnifying? rest
  | none => (Zone.array.unqualify? text).bind ofPrecise?

/-- Checks if a wrapper of this name exists. -/
def isName (text : Name) : Bool := (ofName? text).isSome

end Wrapper

end SandboxTypes
