import SandboxTypes.Primitive

/-!
# Array types

An array type is a dimension and the type of its innermost elements.  The type
itself is plain data: a dimension of zero can be written down and is printed by
everything that prints, but `ArrayType.ofDimension?` builds none, and nothing
that reads a name returns one.
-/

namespace SandboxTypes

/-- The innermost element of an array. -/
inductive Element where
  | primitive (type : Primitive)
  | object (base : Name)
  deriving DecidableEq, Repr

namespace Element

/-- The class of the elements, where they are objects. -/
def base? : Element → Option Name
  | primitive _ => none
  | object base => some base

/-- Renames the class of object elements. -/
def renameBase {ε : Type} (rename : Name → Except ε Name) : Element → Except ε Element
  | primitive type => .ok (primitive type)
  | object base => (rename base).map object

@[simp] theorem renameBase_primitive {ε : Type} (rename : Name → Except ε Name)
    (type : Primitive) : (primitive type).renameBase rename = .ok (primitive type) := rfl

@[simp] theorem renameBase_object {ε : Type} (rename : Name → Except ε Name) (base : Name) :
    (object base).renameBase rename = (rename base).map object := rfl

end Element

/-- An array type: how many indices reach an element, and what an element is. -/
structure ArrayType where
  dimension : Nat
  element : Element
  deriving DecidableEq, Repr

namespace ArrayType

/-- The most dimensions an array can have. -/
def maxDimension : Nat := 255

/-- The dimension is one an array can have. -/
def HasDimension (array : ArrayType) : Prop :=
  1 ≤ array.dimension ∧ array.dimension ≤ maxDimension

instance (array : ArrayType) : Decidable array.HasDimension :=
  inferInstanceAs (Decidable (_ ∧ _))

theorem hasDimension_one (element : Element) : HasDimension ⟨1, element⟩ :=
  ⟨Nat.le_refl 1, show 1 ≤ 255 by decide⟩

/-- The array type of the given dimension, which lies between 1 and `maxDimension`. -/
def ofDimension? (dimension : Nat) (element : Element) : Option ArrayType :=
  if 1 ≤ dimension ∧ dimension ≤ maxDimension then some ⟨dimension, element⟩ else none

theorem ofDimension?_eq_some_iff {dimension : Nat} {element : Element} {array : ArrayType} :
    ofDimension? dimension element = some array ↔
      array = ⟨dimension, element⟩ ∧ array.HasDimension := by
  unfold ofDimension?
  split
  · rename_i h
    constructor
    · rintro ⟨⟩
      exact ⟨rfl, h⟩
    · rintro ⟨rfl, -⟩
      rfl
  · rename_i h
    constructor
    · rintro ⟨⟩
    · rintro ⟨rfl, hd⟩
      exact absurd hd h

/-- Checks if the elements are of a primitive type. -/
def isPrimitive (array : ArrayType) : Bool := array.element.base?.isNone

/-- Renames the class of object elements and keeps the shape. -/
def renameBase {ε : Type} (rename : Name → Except ε Name) (array : ArrayType) :
    Except ε ArrayType :=
  (array.element.renameBase rename).map (ArrayType.mk array.dimension)

end ArrayType

end SandboxTypes
